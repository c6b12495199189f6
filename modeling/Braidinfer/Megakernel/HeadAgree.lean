/-
Head-parallel attention beside attention on one GPU.

Both attend to the same tokens and split Q from its gate in the same way, but only one GPU
normalises and rotates Q: the batches of several GPUs leave these two instructions out, as if the
attention kernel did them.

* `singleInsts_spec`, `headParallelInsts_spec`: what a device leaves for its heads;
* `foldl_batches`, `gatherInsts_spec`: the batches in any order, and the gather;
* `headParallel_agrees_iff`: **the gate and the stored rows agree; the attention agrees exactly if
  the softmax does not see the norm and the rotation of Q, and under every softmax exactly if these
  leave Q as it is**.
-/
import Braidinfer.Megakernel.HeadParallel

namespace Braidinfer.Megakernel

open Braidinfer.Lib Braidinfer.PagedKv

/-! ### The heads -/

section Heads

variable {V : Type*} {o : HeadOps V} {cfg : AttnConfig} {layer k position n : ℕ} {T : Tables}
  {v : HeadView} {d : DevMem V}

/-- The Q row of head `h`, as projected. -/
def qRow (o : HeadOps V) (cfg : AttnConfig) (layer : ℕ) (x : Fin cfg.hiddenSize → V) (h : ℕ) :
    Fin cfg.headDim → V := fun e => qProj o cfg layer x h e

/-- The Q row that one GPU attends with: normalised, if the model has QK-norm, and rotated. -/
def rotatedQ (o : HeadOps V) (cfg : AttnConfig) (layer : ℕ) (pos : ℤ × ℤ × ℤ)
    (row : Fin cfg.headDim → V) : Fin cfg.headDim → V :=
  o.rope cfg.ropeDim cfg.mropeSections pos
    (if cfg.hasQkNorm then o.qkNorm ⟨layer, .qNorm⟩ row else row)

/-- The tokens of head `h` on a device. -/
def headTokens (cfg : AttnConfig) (layer k position : ℕ) (v : HeadView) (s : GpuSeq) (d : DevMem V)
    (h : ℕ) : List (TokenRow V cfg.headDim) :=
  (List.range (position + 1)).map
    ((headAttn cfg 1 0 layer k position s.pageTable s.posTable).token v d
      (h / (cfg.numQHeads / cfg.numKvHeads)) cfg.headDim)

/-- The attention of head `h` with a Q row. -/
def headResult (o : HeadOps V) (cfg : AttnConfig) (layer k position : ℕ) (v : HeadView)
    (s : GpuSeq) (d : DevMem V) (q : Fin cfg.headDim → V) (h : ℕ) : Fin cfg.headDim → V :=
  o.attend (headAttn cfg 1 0 layer k position s.pageTable s.posTable).params none q
    (headTokens cfg layer k position v s d h)

lemma load_buf (b : Buf) (len r : ℕ) :
    d.load (.buf .act b) len r = fun e : Fin len => d.bufs (.act, b) (r * len + e) :=
  funext fun _ => congrArg (d.bufs (.act, b)) (Nat.zero_add _)

/-- QK-norm and the rotation on Q in place. -/
lemma load_rotatedQ {h : ℕ} (hh : h < cfg.numQHeads) :
    (execAll (o.on v) T d (qkNormInsts cfg layer .act 1 ++ [mropeInst cfg .act 1])).load
        (.buf .act .qAttn) cfg.headDim h =
      rotatedQ o cfg layer (T.posIds .act 0) (d.load (.buf .act .qAttn) cfg.headDim h) := by
  have hgrid : 1 * (cfg.numQHeads + cfg.numKvHeads) / (cfg.numQHeads + cfg.numKvHeads) *
      cfg.numQHeads = cfg.numQHeads := by
    rw [Nat.mul_div_cancel _ (by omega), Nat.one_mul]
  have hkeep : ∀ (d : DevMem V) (rows : ℕ) (f : ℕ → Fin cfg.headDim → V),
      (d.store (.buf .act .kAttn) rows cfg.headDim f).load (.buf .act .qAttn) cfg.headDim h =
        d.load (.buf .act .qAttn) cfg.headDim h := fun d rows f => by
    have hblk : (Ptr.buf .act .kAttn).block ≠ .buffer .act .qAttn := by simp [Ptr.buf]
    exact DevMem.load_congr (DevMem.store_of_ne hblk) _ _
  rw [execAll_append]
  set d' := execAll (o.on v) T d (qkNormInsts cfg layer .act 1) with hd'
  have hnorm : d'.load (.buf .act .qAttn) cfg.headDim h =
      if cfg.hasQkNorm then o.qkNorm ⟨layer, .qNorm⟩ (d.load (.buf .act .qAttn) cfg.headDim h)
      else d.load (.buf .act .qAttn) cfg.headDim h := by
    rw [hd', qkNormInsts]
    by_cases hn : cfg.hasQkNorm = true
    · rw [if_pos hn, if_pos hn]
      exact (hkeep _ _ _).trans (DevMem.load_store (by rwa [hgrid]))
    · rw [if_neg hn, if_neg hn, execAll_nil]
  have hrope : (execAll (o.on v) T d' [mropeInst cfg .act 1]).load (.buf .act .qAttn) cfg.headDim
      h = o.rope cfg.ropeDim cfg.mropeSections (T.posIds .act (h / cfg.numQHeads))
        (d'.load (.buf .act .qAttn) cfg.headDim h) :=
    (hkeep _ _ _).trans (DevMem.load_store (by rwa [hgrid]))
  rw [hrope, hnorm, Nat.div_eq_of_lt hh]
  rfl

/-- A head without a partial state. -/
lemma headOut_eq {i : AttnPagedInst} (hi : i.partialState = 0) (h hd : ℕ) :
    i.headOut v d o h hd = o.attend i.params none (d.load i.q hd h)
      ((List.range i.seqLen).map
        (i.token v d ((i.localQHeadStart + h) / (i.nqh / i.nkh)) hd)) := by
  rw [AttnPagedInst.headOut]
  simp only [hi, if_true]

/-- The output of the layer leaves the attention and its gate. -/
lemma outputInsts_keeps {b : Buf} (hb : b = .attnOut ∨ b = .gateAttn) :
    Avoids (.buffer .act b) (outputInsts cfg layer .act 1) := by
  rcases hb with rfl | rfl <;> cases hg : cfg.hasOutputGate <;>
    simp [Avoids, outputInsts, batchedLinearProj, Inst.outputs, Ptr.buf, hg]

/-- The first five instructions of a layer are the norm and the projections of all heads. -/
lemma projections_eq : projections cfg layer .act 1 =
    normInst cfg layer :: qkvInsts cfg layer cfg.numQHeads := by
  simp only [projections, normInst, qkvInsts, Nat.one_mul]
  rfl

end Heads

/-! ### What the devices leave -/

section Devices

variable {V : Type*} {o : HeadOps V} {cfg : AttnConfig} {layer L k position numGpus gpu n : ℕ}
  {T : Tables} {v : HeadView} {s : GpuSeq} {d : DevMem V}

/-- What one GPU leaves for `n` heads from head `start` on, with the Q rows `q`. -/
structure HeadsLeft (o : HeadOps V) (cfg : AttnConfig) (layer k position start n : ℕ)
    (v : HeadView) (s : GpuSeq) (x : Fin cfg.hiddenSize → V) (q : ℕ → Fin cfg.headDim → V)
    (d d' : DevMem V) : Prop where
  stored : ∃ n' d1, Stored o cfg layer k (position % chunkTokens) v n' x s.chunkBase d d1 ∧
    d'.pool = d1.pool
  attnOut : ∀ h < n, ∀ e (he : e < cfg.headDim),
    d'.bufs (.act, .attnOut) (h * cfg.headDim + e) =
      headResult o cfg layer k position v s d' (q (start + h)) (start + h) ⟨e, he⟩
  gateAttn : cfg.hasOutputGate = true → ∀ h < n, ∀ e < cfg.headDim,
    d'.bufs (.act, .gateAttn) (h * cfg.headDim + e) = gateProj o cfg layer x (start + h) e

/-- The attention of a head depends on the pool alone. -/
lemma headResult_congr {d' : DevMem V} (h : d.pool = d'.pool) (q : Fin cfg.headDim → V) (hq : ℕ) :
    headResult o cfg layer k position v s d q hq =
      headResult o cfg layer k position v s d' q hq := by
  have htoken : (headAttn cfg 1 0 layer k position s.pageTable s.posTable).token v d
      (hq / (cfg.numQHeads / cfg.numKvHeads)) cfg.headDim =
        (headAttn cfg 1 0 layer k position s.pageTable s.posTable).token v d'
          (hq / (cfg.numQHeads / cfg.numKvHeads)) cfg.headDim := by
    funext t
    simp only [AttnPagedInst.token, h]
  rw [headResult, headTokens, htoken]
  rfl

variable (o layer k position T s d)

/-- **One GPU**: its heads attend with the normalised and rotated Q rows. -/
lemma singleInsts_spec (hrows : v.rowOf = wholeRows) :
    let x := o.rmsNorm ⟨layer, .inputNorm⟩ (d.load (.buf .act .hidden) cfg.hiddenSize 0)
    HeadsLeft o cfg layer k position 0 cfg.numQHeads v s x
      (fun h => rotatedQ o cfg layer (T.posIds .act 0) (qRow o cfg layer x h)) d
      (execAll (o.on v) T d
        (singleInsts cfg layer k s.chunkBase position s.pageTable s.posTable)) := by
  intro x
  set d0 := exec (o.on v) T d (normInst cfg layer) with hd0
  have hx : d0.load (.buf .act .normed) cfg.hiddenSize 0 = x := DevMem.load_store Nat.zero_lt_one
  have hpool0 : d0.block .kvPool = d.block .kvPool :=
    exec_of_avoids (by simp [normInst, Inst.outputs, Ptr.buf])
  set d1 := execAll (o.on v) T d0 (qkvInsts cfg layer cfg.numQHeads ++ (layerCopies cfg fun h =>
    kvDst (cfg.numKvHeads * cfg.headDim) cfg.headDim s.chunkBase k h
      (position % chunkTokens)).map .d2dCopy) with hd1
  have hstored : Stored o cfg layer k (position % chunkTokens) v cfg.numQHeads x s.chunkBase d0
      d1 := by
    rw [← hx]
    exact stored_spec s.chunkBase fun isV r => by rw [hrows]; rfl
  set d2 := execAll (o.on v) T d1 (qkNormInsts cfg layer .act 1 ++ [mropeInst cfg .act 1]) with hd2
  have hkeep2 : ∀ blk : Block, blk ≠ .buffer .act .qAttn → blk ≠ .buffer .act .kAttn →
      d2.block blk = d1.block blk := fun blk hq hk => by
    rw [hd2, execAll_append, execAll_of_avoids (mropeInst_avoids hq hk),
      execAll_of_avoids (qkNormInsts_avoids hq hk)]
  -- the disabled quantized attention does nothing
  set i : AttnPagedInst := {
    attnPagedInst cfg layer k (.buf .act .attnOut) (.buf .act .qAttn) 1 with
    pageTable := s.pageTable, posTable := s.posTable, seqLen := position + 1, partialState := 0 }
    with hi
  set d3 := d2.store (.buf .act .attnOut) cfg.numQHeads cfg.headDim
    (fun h => i.headOut v d2 o h cfg.headDim) with hd3
  have hrun : execAll (o.on v) T d
      (singleInsts cfg layer k s.chunkBase position s.pageTable s.posTable) =
        execAll (o.on v) T d3 (outputInsts cfg layer .act 1) := by
    rw [singleInsts, decodeLayer, projections_eq]
    simp only [List.cons_append, List.append_assoc, execAll_cons, execAll_append, decodeAttn,
      execAll_nil]
    rw [hd3, hd2, hd1, execAll_append, execAll_append]
    rfl
  have hout : ∀ b : Buf, b = .attnOut ∨ b = .gateAttn → (execAll (o.on v) T d3
      (outputInsts cfg layer .act 1)).bufs (.act, b) = d3.bufs (.act, b) := fun b hb =>
    execAll_of_avoids (outputInsts_keeps hb)
  have hpool2 : d2.pool = d1.pool := hkeep2 .kvPool (by simp) (by simp)
  have hpool3 : d3.pool = d1.pool := by
    have hblk : (Ptr.buf .act .attnOut).block ≠ .kvPool := by simp [Ptr.buf]
    exact (DevMem.store_of_ne hblk).trans hpool2
  have hpool4 : (execAll (o.on v) T d3 (outputInsts cfg layer .act 1)).block .kvPool =
      d3.block .kvPool := execAll_of_avoids outputInsts_avoids
  have hpool : (execAll (o.on v) T d3 (outputInsts cfg layer .act 1)).pool = d1.pool :=
    hpool4.trans hpool3
  rw [hrun]
  refine ⟨⟨cfg.numQHeads, d1, ⟨hstored.projected, ?_⟩, hpool⟩, fun h hh e he => ?_,
    fun hg h hh e he => ?_⟩
  · exact hstored.pool.trans (congrArg (applyStores · _) hpool0)
  · rw [hout .attnOut (.inl rfl), hd3]
    have hq : d2.load (.buf .act .qAttn) cfg.headDim h =
        rotatedQ o cfg layer (T.posIds .act 0) (qRow o cfg layer x h) := by
      rw [hd2, load_rotatedQ hh, load_buf]
      refine congrArg (rotatedQ o cfg layer (T.posIds .act 0)) (funext fun e => ?_)
      rw [hstored.projected.q h hh e e.isLt, hrows]
      rfl
    refine (DevMem.store_apply hh (⟨e, he⟩ : Fin cfg.headDim)).trans ?_
    rw [Nat.zero_add, headOut_eq rfl, show i.q = .buf .act .qAttn from rfl, hq,
      headResult_congr (hpool.trans hpool2.symm)]
    rw [headResult, headTokens]
    simp only [hi, attnPagedInst, Nat.zero_add]
    rfl
  · rw [hout .gateAttn (.inr rfl), hd3]
    have hblk : (Ptr.buf .act .attnOut).block ≠ .buffer .act .gateAttn := by simp [Ptr.buf]
    refine (congrFun (DevMem.store_of_ne hblk) _).trans ?_
    refine (congrFun (hkeep2 (.buffer .act .gateAttn) (by simp) (by simp)) _).trans ?_
    rw [Nat.zero_add]
    refine (hstored.projected.gate hg h hh e he).trans ?_
    rw [hrows]
    rfl

/-- **A GPU of several**: its heads attend with the Q rows as projected. -/
lemma headParallelInsts_spec (hrows : v.rowOf = sliceRows cfg numGpus gpu) :
    let x := d.load (.buf .act .normed) cfg.hiddenSize 0
    let n := cfg.numQHeads / numGpus
    HeadsLeft o cfg layer k position (gpu * n) n v s x (qRow o cfg layer x) d
      (execAll (o.on v) T d
        (headParallelInsts cfg numGpus gpu layer k s.chunkBase position s.pageTable
          s.posTable)) := by
  intro x n
  set d1 := execAll (o.on v) T d (qkvInsts cfg layer n ++ (layerCopies cfg fun h =>
    kvDst (cfg.numKvHeads * cfg.headDim) cfg.headDim s.chunkBase k h
      (position % chunkTokens)).map .d2dCopy) with hd1
  have hstored : Stored o cfg layer k (position % chunkTokens) v n x s.chunkBase d d1 :=
    stored_spec s.chunkBase fun isV r => by rw [hrows]; cases isV <;> rfl
  set i := headAttn cfg numGpus gpu layer k position s.pageTable s.posTable with hi
  have hrun : execAll (o.on v) T d
      (headParallelInsts cfg numGpus gpu layer k s.chunkBase position s.pageTable s.posTable) =
        d1.store (.buf .act .attnOut) n cfg.headDim (fun h => i.headOut v d1 o h cfg.headDim) := by
    rw [headParallelInsts, headDst_eq, execAll_append]
    rfl
  have hblk : ∀ blk : Block, blk ≠ .buffer .act .attnOut →
      (Ptr.buf .act .attnOut).block ≠ blk := fun blk h => h.symm
  have hpool : (d1.store (.buf .act .attnOut) n cfg.headDim
      fun h => i.headOut v d1 o h cfg.headDim).pool = d1.pool :=
    DevMem.store_of_ne (hblk .kvPool (by simp))
  rw [hrun]
  refine ⟨⟨n, d1, hstored, hpool⟩, fun h hh e he => ?_, fun hg h hh e he => ?_⟩
  · have hq : d1.load (.buf .act .qAttn) cfg.headDim h = qRow o cfg layer x (gpu * n + h) := by
      rw [load_buf]
      funext e
      rw [hstored.projected.q h hh e e.isLt, hrows]
      refine congrArg (fun r => o.dot ⟨layer, .qGate⟩ r x) ?_
      change gpu * n * cfg.headDim * qMult cfg + (h * qMult cfg * cfg.headDim + e) =
        (gpu * n + h) * qMult cfg * cfg.headDim + e
      ring
    refine (DevMem.store_apply hh (⟨e, he⟩ : Fin cfg.headDim)).trans ?_
    rw [headOut_eq rfl, show i.q = .buf .act .qAttn from rfl, hq, headResult_congr hpool]
    rfl
  · refine (congrFun (DevMem.store_of_ne (hblk (.buffer .act .gateAttn) (by simp))) _).trans ?_
    refine (hstored.projected.gate hg h hh e he).trans ?_
    rw [hrows]
    have hmult : qMult cfg = 2 := if_pos hg
    refine congrArg (fun r => o.dot ⟨layer, .qGate⟩ r x) ?_
    change gpu * n * cfg.headDim * qMult cfg + ((h * 2 + 1) * cfg.headDim + e) =
      ((gpu * n + h) * 2 + 1) * cfg.headDim + e
    rw [hmult]
    ring

end Devices

/-! ### The batches and the gather -/

section Batches

variable {V : Type*} {cfg : AttnConfig} {layer k position numGpus gpu : ℕ} {T : Tables}
  {seq : ℕ → GpuSeq} {mem : ℕ → DevMem V} {ops : ℕ → FloatOps V}

/-- Instructions of a GPU on its own memory. -/
lemma execBatch_own (is : List Inst) : execBatch ops T gpu mem (is.map .own) =
    Function.update mem gpu (execAll (ops gpu) T (mem gpu) is) := by
  induction is generalizing mem with
  | nil => exact (Function.update_eq_self gpu mem).symm
  | cons i is ih =>
      rw [List.map_cons, execBatch, List.foldl_cons, ← execBatch, ih, execGpu, Function.update_idem,
        Function.update_self, execAll_cons]

/-- The memory of a GPU once it has the normed input `x`. -/
def withNormed (cfg : AttnConfig) (x : Fin cfg.hiddenSize → V) (gpu : ℕ) (d : DevMem V) :
    DevMem V :=
  if 0 < gpu then d.store (.buf .act .normed) 1 cfg.hiddenSize fun _ => x else d

/-- The memory of a GPU after its batch. -/
def afterBatch (ops : ℕ → FloatOps V) (T : Tables) (cfg : AttnConfig) (numGpus layer k position : ℕ)
    (seq : ℕ → GpuSeq) (x : Fin cfg.hiddenSize → V) (gpu : ℕ) (d : DevMem V) : DevMem V :=
  execAll (ops gpu) T (withNormed cfg x gpu d) (headParallelInsts cfg numGpus gpu layer k
    (seq gpu).chunkBase position (seq gpu).pageTable (seq gpu).posTable)

/-- A batch changes the memory of its GPU alone. -/
lemma execBatch_headBatch {x : Fin cfg.hiddenSize → V}
    (hx : (mem 0).load (.buf .act .normed) cfg.hiddenSize 0 = x) :
    execBatch ops T gpu mem (headBatch cfg numGpus layer k position seq gpu) =
      Function.update mem gpu
        (afterBatch ops T cfg numGpus layer k position seq x gpu (mem gpu)) := by
  rw [headBatch, execBatch, List.foldl_append, ← execBatch, execBatch_own, afterBatch, withNormed]
  by_cases hgpu : 0 < gpu
  · have hsource : (broadcastInst cfg).source (mem 0) = fun _ => x := funext fun _ => hx
    rw [if_pos hgpu, if_pos hgpu, List.foldl_cons, List.foldl_nil, execGpu, Function.update_idem,
      Function.update_self, hsource]
    rfl
  · rw [if_neg hgpu, if_neg hgpu]
    rfl

/-- The batch of GPU 0 keeps the normed input. -/
lemma afterBatch_normed {x : Fin cfg.hiddenSize → V} {d : DevMem V}
    (hx : d.load (.buf .act .normed) cfg.hiddenSize 0 = x) :
    (afterBatch ops T cfg numGpus layer k position seq x 0 d).load (.buf .act .normed)
      cfg.hiddenSize 0 = x := by
  refine Eq.trans (DevMem.load_congr (execAll_of_avoids ?_) _ _) hx
  intro i hi
  rw [headParallelInsts] at hi
  rcases List.mem_append.mp hi with hi | hi
  · rcases List.mem_append.mp hi with hi | hi
    · exact qkvInsts_avoids (by simp) (by simp) (by simp) (by simp) (by simp) i hi
    · obtain ⟨c, hc, rfl⟩ := List.mem_map.mp hi
      rintro q hq
      rw [List.mem_singleton.mp hq, (layerCopies_blocks _ c hc).1]
      simp
  · rw [List.mem_singleton.mp hi]
    simp [Inst.outputs, headAttn, attnPagedInst, Ptr.buf]

/-- **The batches in any order**: each GPU ends up as after its own batch.  The induction carries
the normed input in the memory of GPU 0. -/
lemma foldl_batches {x : Fin cfg.hiddenSize → V} {order : List ℕ} (hnd : order.Nodup)
    (hx : (mem 0).load (.buf .act .normed) cfg.hiddenSize 0 = x) (gpu : ℕ) :
    (order.foldl (fun mem gpu => execBatch ops T gpu mem
      (headBatch cfg numGpus layer k position seq gpu)) mem) gpu =
      if gpu ∈ order then afterBatch ops T cfg numGpus layer k position seq x gpu (mem gpu)
      else mem gpu := by
  induction order generalizing mem with
  | nil => rfl
  | cons g order ih =>
      obtain ⟨hg, hnd⟩ := List.nodup_cons.mp hnd
      have hx' : (Function.update mem g (afterBatch ops T cfg numGpus layer k position seq x g
          (mem g)) 0).load (.buf .act .normed) cfg.hiddenSize 0 = x := by
        by_cases h0 : g = 0
        · subst h0
          rw [Function.update_self]
          exact afterBatch_normed hx
        · rwa [Function.update_of_ne (Ne.symm h0)]
      rw [List.foldl_cons, execBatch_headBatch hx, ih hnd hx']
      by_cases hgpu : gpu = g
      · subst hgpu
        rw [if_neg hg, Function.update_self, if_pos List.mem_cons_self]
      · rw [Function.update_of_ne hgpu]
        simp only [List.mem_cons, hgpu, false_or]

/-- One buffer gathered from the GPUs of a list. -/
lemma execBatch_gather (b : Buf) {size : ℕ} {gpus : List ℕ} (hgpus : ∀ g ∈ gpus, g ≠ 0)
    (gridX : ℕ) :
    let mem' := execBatch ops T 0 mem (gpus.map fun gpu => .fromGpu gpu
      { gridX, dst := (Ptr.buf .act b).add (gpu * size), src := .buf .act b, nElems := size })
    (∀ g ≠ 0, mem' g = mem g) ∧
      (∀ blk, blk ≠ .buffer .act b → (mem' 0).block blk = (mem 0).block blk) ∧
      ∀ g, ∀ j < size, (mem' 0).bufs (.act, b) (g * size + j) =
        if g ∈ gpus then (mem g).bufs (.act, b) j else (mem 0).bufs (.act, b) (g * size + j) := by
  induction gpus generalizing mem with
  | nil => exact ⟨fun _ _ => rfl, fun _ _ => rfl, fun _ _ _ => rfl⟩
  | cons gpu gpus ih =>
      have hgpu : gpu ≠ 0 := hgpus gpu List.mem_cons_self
      set c : D2dCopyInst := { gridX, dst := (Ptr.buf .act b).add (gpu * size), src := .buf .act b,
                               nElems := size } with hc
      set mem1 := Function.update mem 0 ((mem 0).store c.dst 1 size (c.source (mem gpu))) with hmem1
      have htail : ∀ g ∈ gpus, g ≠ 0 := fun g hg => hgpus g (List.mem_cons_of_mem _ hg)
      obtain ⟨hothers, hblocks, hgather⟩ : (∀ g ≠ 0, execBatch ops T 0 mem1 _ g = mem1 g) ∧ _ :=
        ih htail
      refine ⟨fun g hg => ?_, fun blk hblk => ?_, fun g j hj => ?_⟩
      · exact (hothers g hg).trans (Function.update_of_ne hg _ _)
      · refine (hblocks blk hblk).trans ?_
        have hdst : c.dst.block ≠ blk := fun h => hblk h.symm
        rw [hmem1, Function.update_self]
        exact DevMem.store_of_ne hdst
      · refine (hgather g j hj).trans ?_
        by_cases hg : g ∈ gpus
        · have hg0 : g ≠ 0 := hgpus g (List.mem_cons_of_mem _ hg)
          rw [if_pos hg, if_pos (List.mem_cons_of_mem _ hg), hmem1, Function.update_of_ne hg0]
        · rw [if_neg hg, hmem1, Function.update_self]
          have hoff : c.dst.off = gpu * size := Nat.zero_add _
          change RowMem.setRows (mem 0).bufs (.act, b) c.dst.off 1 size (c.source (mem gpu))
            (.act, b) (g * size + j) = _
          by_cases hgg : g = gpu
          · subst hgg
            rw [if_pos List.mem_cons_self, hoff]
            have hrow : RowMem.setRows (mem 0).bufs (.act, b) (g * size) 1 size
                (c.source (mem g)) (.act, b) (g * size + (0 * size + j)) =
                  c.source (mem g) 0 ⟨j, hj⟩ :=
              RowMem.setRows_apply Nat.zero_lt_one (⟨j, hj⟩ : Fin size)
            have hsource : c.source (mem g) 0 ⟨j, hj⟩ = (mem g).bufs (.act, b) (0 * size + j) :=
              congrFun (load_buf b size 0) ⟨j, hj⟩
            rw [Nat.zero_mul, Nat.zero_add] at hrow hsource
            exact hrow.trans hsource
          · have hout : ¬ (c.dst.off ≤ g * size + j ∧ g * size + j < c.dst.off + 1 * size) := by
              rw [hoff, Nat.one_mul]
              rintro ⟨hle, hlt⟩
              rcases Nat.lt_or_gt_of_ne hgg with h | h
              · have := rowMajor_lt h hj
                omega
              · have : gpu * size + size ≤ g * size := by
                  rw [← Nat.succ_mul]
                  exact Nat.mul_le_mul_right _ h
                omega
            rw [RowMem.setRows_of_notMem hout, if_neg fun hmem =>
              (List.mem_cons.mp hmem).elim hgg hg]

/-- The gather of one buffer. -/
lemma gatherBuf_spec (b : Buf) :
    let size := cfg.numQHeads / numGpus * cfg.headDim
    let mem' := execBatch ops T 0 mem (gatherBuf cfg numGpus b)
    (∀ g ≠ 0, mem' g = mem g) ∧
      (∀ blk, blk ≠ .buffer .act b → (mem' 0).block blk = (mem 0).block blk) ∧
      ∀ gpu < numGpus, ∀ j < size,
        (mem' 0).bufs (.act, b) (gpu * size + j) = (mem gpu).bufs (.act, b) j := by
  intro size mem'
  have hgpus : ∀ g ∈ List.range' 1 (numGpus - 1), g ≠ 0 := fun g hg => by
    have := (List.mem_range'_1.mp hg).1
    omega
  obtain ⟨hothers, hblocks, hgather⟩ : (∀ g ≠ 0, mem' g = mem g) ∧
      (∀ blk, blk ≠ .buffer .act b → (mem' 0).block blk = (mem 0).block blk) ∧ _ :=
    execBatch_gather b hgpus (divCeil size 256)
  refine ⟨hothers, hblocks, fun gpu hgpu j hj => (hgather gpu j hj).trans ?_⟩
  by_cases h0 : gpu = 0
  · subst h0
    rw [if_neg fun hmem => hgpus 0 hmem rfl, Nat.zero_mul, Nat.zero_add]
  · rw [if_pos (List.mem_range'_1.mpr ⟨by omega, by omega⟩)]

/-- **The gather**: GPU 0 has the slices of all GPUs, one after the other. -/
lemma gatherInsts_spec :
    let size := cfg.numQHeads / numGpus * cfg.headDim
    let mem' := execBatch ops T 0 mem (gatherInsts cfg numGpus)
    (∀ gpu, (mem' gpu).pool = (mem gpu).pool) ∧
      ∀ b, b = .attnOut ∨ b = .gateAttn ∧ cfg.hasOutputGate = true → ∀ gpu < numGpus, ∀ j < size,
        (mem' 0).bufs (.act, b) (gpu * size + j) = (mem gpu).bufs (.act, b) j := by
  intro size mem'
  have hpools : ∀ {b : Buf} {mem mem' : ℕ → DevMem V}, (∀ g ≠ 0, mem' g = mem g) →
      (∀ blk, blk ≠ .buffer .act b → (mem' 0).block blk = (mem 0).block blk) →
      ∀ gpu, (mem' gpu).pool = (mem gpu).pool := fun {b mem mem'} hothers hblocks gpu => by
    by_cases h0 : gpu = 0
    · subst h0
      exact hblocks .kvPool (by simp)
    · rw [hothers gpu h0]
  set mem1 := execBatch ops T 0 mem (gatherBuf cfg numGpus .attnOut) with hmem1
  obtain ⟨hothers1, hblocks1, hgather1⟩ : (∀ g ≠ 0, mem1 g = mem g) ∧
      (∀ blk, blk ≠ .buffer .act .attnOut → (mem1 0).block blk = (mem 0).block blk) ∧ _ :=
    gatherBuf_spec .attnOut
  by_cases hgate : cfg.hasOutputGate = true
  · have hmem' : mem' = execBatch ops T 0 mem1 (gatherBuf cfg numGpus .gateAttn) := by
      change execBatch ops T 0 mem (gatherInsts cfg numGpus) = _
      rw [gatherInsts, if_pos hgate, execBatch, List.foldl_append]
      rfl
    obtain ⟨hothers2, hblocks2, hgather2⟩ : (∀ g ≠ 0, mem' g = mem1 g) ∧
        (∀ blk, blk ≠ .buffer .act .gateAttn → (mem' 0).block blk = (mem1 0).block blk) ∧
        ∀ gpu < numGpus, ∀ j < size, (mem' 0).bufs (.act, .gateAttn) (gpu * size + j) =
          (mem1 gpu).bufs (.act, .gateAttn) j := by
      rw [hmem']
      exact gatherBuf_spec .gateAttn
    refine ⟨fun gpu => (hpools hothers2 hblocks2 gpu).trans (hpools hothers1 hblocks1 gpu), ?_⟩
    rintro b (rfl | ⟨rfl, -⟩) gpu hgpu j hj
    · exact (congrFun (hblocks2 (.buffer .act .attnOut) (by simp)) _).trans (hgather1 gpu hgpu j hj)
    · refine (hgather2 gpu hgpu j hj).trans ?_
      by_cases h0 : gpu = 0
      · subst h0
        exact congrFun (hblocks1 (.buffer .act .gateAttn) (by simp)) j
      · rw [hothers1 gpu h0]
  · have hmem' : mem' = mem1 := by
      change execBatch ops T 0 mem (gatherInsts cfg numGpus) = _
      rw [gatherInsts, if_neg hgate, List.append_nil]
    rw [hmem']
    refine ⟨hpools hothers1 hblocks1, ?_⟩
    rintro b (rfl | ⟨-, hg⟩) gpu hgpu j hj
    · exact hgather1 gpu hgpu j hj
    · exact absurd hg hgate

end Batches

/-! ### Several GPUs and one -/

section Agree

variable {V : Type*} {o : HeadOps V} {cfg : AttnConfig}
  {L layer k numGpus position : ℕ} {T : Tables} {v : HeadView} {vs : ℕ → HeadView} {s : GpuSeq}
  {seq : ℕ → GpuSeq} {d : DevMem V} {mem : ℕ → DevMem V} {order : List ℕ}

/-- One GPU with memory `d`, and several with memories `mem`, before the same layer at the same
position: the same input, the same KV contents, and the Q heads split evenly. -/
structure SameInputs (cfg : AttnConfig) (L k numGpus position : ℕ) (v : HeadView)
    (vs : ℕ → HeadView) (s : GpuSeq) (seq : ℕ → GpuSeq) (d : DevMem V) (mem : ℕ → DevMem V)
    (order : List ℕ) : Prop where
  layer : k < L
  gpus : 0 < numGpus
  split : numGpus ∣ cfg.numQHeads
  rows : v.rowOf = wholeRows
  slices : ∀ gpu, (vs gpu).rowOf = sliceRows cfg numGpus gpu
  order : order.Perm (List.range numGpus)
  hidden : d.load (.buf .act .hidden) cfg.hiddenSize 0 =
    (mem 0).load (.buf .act .hidden) cfg.hiddenSize 0
  chunks : Chunks cfg L position v s
  chunksOn : ∀ gpu < numGpus, Chunks cfg L position (vs gpu) (seq gpu)
  same : ∀ gpu < numGpus, SameChunks cfg L position v (vs gpu) s (seq gpu) d (mem gpu)
  reads : ∀ h < cfg.numQHeads, ReadsInChunk cfg L k (h / (cfg.numQHeads / cfg.numKvHeads))

/-- The heads in `attn_out` are the same. -/
def AttnOutAgrees (cfg : AttnConfig) (d d' : DevMem V) : Prop :=
  ∀ h < cfg.numQHeads, ∀ e < cfg.headDim,
    d.bufs (.act, .attnOut) (h * cfg.headDim + e) = d'.bufs (.act, .attnOut) (h * cfg.headDim + e)

/-- The heads in `gate_attn` are the same. -/
def GateAttnAgrees (cfg : AttnConfig) (d d' : DevMem V) : Prop :=
  cfg.hasOutputGate = true → ∀ h < cfg.numQHeads, ∀ e < cfg.headDim,
    d.bufs (.act, .gateAttn) (h * cfg.headDim + e) = d'.bufs (.act, .gateAttn) (h * cfg.headDim + e)

/-- The stored K rows and V rows of the token are the same on every GPU. -/
def RowsAgree (cfg : AttnConfig) (k numGpus position : ℕ) (s : GpuSeq) (seq : ℕ → GpuSeq)
    (d : DevMem V) (mem : ℕ → DevMem V) : Prop :=
  ∀ gpu < numGpus, ∀ isV, ∀ h < cfg.numKvHeads, ∀ e < cfg.headDim,
    d.pool (s.chunkBase + (rowOffset cfg k isV h (position % chunkTokens) + f32Bytes * e)) =
      (mem gpu).pool ((seq gpu).chunkBase +
        (rowOffset cfg k isV h (position % chunkTokens) + f32Bytes * e))

/-- The kernels of the GPUs. -/
def HeadOps.onAll (o : HeadOps V) (vs : ℕ → HeadView) (gpu : ℕ) : FloatOps V := o.on (vs gpu)

/-- The layer on one GPU. -/
def singleRun (o : HeadOps V) (T : Tables) (cfg : AttnConfig) (layer k position : ℕ)
    (v : HeadView) (s : GpuSeq) (d : DevMem V) : DevMem V :=
  execAll (o.on v) T d (singleInsts cfg layer k s.chunkBase position s.pageTable s.posTable)

namespace SameInputs

variable (o layer T) (S : SameInputs cfg L k numGpus position v vs s seq d mem order)

include S

/-- **What the GPUs leave**: the pools are those after the batches, and GPU 0 has the heads of all
of them in `attn_out` and `gate_attn`. -/
lemma dispatch_spec :
    let x := o.rmsNorm ⟨layer, .inputNorm⟩ (d.load (.buf .act .hidden) cfg.hiddenSize 0)
    let n := cfg.numQHeads / numGpus
    ∃ left : ℕ → DevMem V, ∃ start : ℕ → DevMem V,
      (∀ gpu < numGpus, (start gpu).pool = (mem gpu).pool ∧
        HeadsLeft o cfg layer k position (gpu * n) n (vs gpu) (seq gpu) x (qRow o cfg layer x)
          (start gpu) (left gpu) ∧
        (dispatchHeadParallel (o.onAll vs) T cfg numGpus layer k position seq order mem gpu).pool =
          (left gpu).pool) ∧
      ∀ gpu < numGpus, ∀ j < n * cfg.headDim,
        (dispatchHeadParallel (o.onAll vs) T cfg numGpus layer k position seq order mem 0).bufs
            (.act, .attnOut) (gpu * (n * cfg.headDim) + j) =
          (left gpu).bufs (.act, .attnOut) j ∧
        (cfg.hasOutputGate = true →
          (dispatchHeadParallel (o.onAll vs) T cfg numGpus layer k position seq order mem 0).bufs
              (.act, .gateAttn) (gpu * (n * cfg.headDim) + j) =
            (left gpu).bufs (.act, .gateAttn) j) := by
  intro x n
  set ops := o.onAll vs with hops
  set mem0 := execGpu ops T 0 mem (.own (normInst cfg layer)) with hmem0
  have hx : (mem0 0).load (.buf .act .normed) cfg.hiddenSize 0 = x := by
    rw [hmem0, execGpu, Function.update_self]
    refine (DevMem.load_store Nat.zero_lt_one).trans ?_
    exact congrArg (o.rmsNorm ⟨layer, .inputNorm⟩) S.hidden.symm
  have hpool0 : ∀ gpu, (mem0 gpu).pool = (mem gpu).pool := fun gpu => by
    have hnorm : ∀ d : DevMem V, (exec (ops 0) T d (normInst cfg layer)).block .kvPool =
        d.block .kvPool := fun d => exec_of_avoids (by simp [normInst, Inst.outputs, Ptr.buf])
    by_cases h0 : gpu = 0
    · subst h0
      rw [hmem0, execGpu, Function.update_self]
      exact hnorm (mem 0)
    · rw [hmem0, execGpu, Function.update_of_ne h0]
  set start := fun gpu => withNormed cfg x gpu (mem0 gpu) with hstart
  have hstartx : ∀ gpu, (start gpu).load (.buf .act .normed) cfg.hiddenSize 0 = x := fun gpu => by
    rw [hstart]
    simp only [withNormed]
    split_ifs with hgpu
    · exact DevMem.load_store Nat.zero_lt_one
    · obtain rfl : gpu = 0 := by omega
      exact hx
  have hstartpool : ∀ gpu, (start gpu).pool = (mem gpu).pool := fun gpu => by
    rw [← hpool0, hstart]
    simp only [withNormed]
    split_ifs
    · have hblk : (Ptr.buf .act .normed).block ≠ .kvPool := by simp [Ptr.buf]
      exact DevMem.store_of_ne hblk
    · rfl
  set left := fun gpu => afterBatch ops T cfg numGpus layer k position seq x gpu (mem0 gpu)
    with hleft
  set mem1 := order.foldl (fun mem gpu => execBatch ops T gpu mem
    (headBatch cfg numGpus layer k position seq gpu)) mem0 with hmem1
  have hbatches : ∀ gpu < numGpus, mem1 gpu = left gpu := fun gpu hgpu => by
    have hnd : order.Nodup := S.order.nodup_iff.mpr List.nodup_range
    have hmem : gpu ∈ order := S.order.mem_iff.mpr (List.mem_range.mpr hgpu)
    rw [hmem1, foldl_batches hnd hx, if_pos hmem]
  obtain ⟨hpool, hgather⟩ : (∀ gpu, (execBatch ops T 0 mem1 (gatherInsts cfg numGpus) gpu).pool =
      (mem1 gpu).pool) ∧ _ := gatherInsts_spec
  refine ⟨left, start, fun gpu hgpu => ⟨hstartpool gpu, ?_, ?_⟩, fun gpu hgpu j hj => ⟨?_, ?_⟩⟩
  · have hspec := headParallelInsts_spec o layer k position T (seq gpu) (start gpu) (S.slices gpu)
    rwa [hstartx gpu] at hspec
  · exact (hpool gpu).trans (congrArg DevMem.pool (hbatches gpu hgpu))
  · rw [← hbatches gpu hgpu]
    exact hgather .attnOut (.inl rfl) gpu hgpu j hj
  · intro hgate
    rw [← hbatches gpu hgpu]
    exact hgather .gateAttn (.inr ⟨rfl, hgate⟩) gpu hgpu j hj

/-- **The KV contents after the layer** are the same on every GPU. -/
lemma same_after {gpu : ℕ} (hgpu : gpu < numGpus) :
    SameChunks cfg L position v (vs gpu) s (seq gpu) (singleRun o T cfg layer k position v s d)
      (dispatchHeadParallel (o.onAll vs) T cfg numGpus layer k position seq order mem gpu) := by
  obtain ⟨left, start, hleft, -⟩ := S.dispatch_spec o layer T
  obtain ⟨hstart, hspec, hpool⟩ := hleft gpu hgpu
  obtain ⟨n, d1, hstored, hsingle⟩ := 
    (singleInsts_spec o layer k position T s d S.rows).stored
  obtain ⟨n', d1', hstored', hdevice⟩ := hspec.stored
  have hbefore : SameChunks cfg L position v (vs gpu) s (seq gpu) d (start gpu) :=
    ⟨fun c hc off hoff => by rw [hstart]; exact (S.same gpu hgpu).pool c hc off hoff,
      (S.same gpu hgpu).pos⟩
  have hafter := hbefore.stored S.layer S.chunks (S.chunksOn gpu hgpu) hstored hstored'
  refine ⟨fun c hc off hoff => ?_, hafter.pos⟩
  rw [hpool, hdevice, singleRun, hsingle]
  exact hafter.pool c hc off hoff

/-- The stored rows are the same. -/
lemma rowsAgree : RowsAgree cfg k numGpus position s seq (singleRun o T cfg layer k position v s d)
    (dispatchHeadParallel (o.onAll vs) T cfg numGpus layer k position seq order mem) := by
  intro gpu hgpu isV h hh e he
  have hin : rowOffset cfg k isV h (position % chunkTokens) + cfg.headDim * f32Bytes ≤
      chunkKvBytes cfg L := rowOffset_add_le S.layer hh (Nat.mod_lt _ (by decide))
  rw [← S.chunks.current, ← (S.chunksOn gpu hgpu).current]
  refine (S.same_after o layer T hgpu).pool _ le_rfl _ ?_
  simp only [f32Bytes] at hin ⊢
  omega

/-- Element `e` of head `h` lies in the slice of its GPU. -/
lemma slice_index {h e : ℕ} (hh : h < cfg.numQHeads) (he : e < cfg.headDim) :
    let n := cfg.numQHeads / numGpus
    h / n < numGpus ∧ h % n < n ∧ h % n * cfg.headDim + e < n * cfg.headDim ∧
      h * cfg.headDim + e = h / n * (n * cfg.headDim) + (h % n * cfg.headDim + e) := by
  intro n
  have hsplit : numGpus * n = cfg.numQHeads := Nat.mul_div_cancel' S.split
  have hn : 0 < n := Nat.pos_of_ne_zero fun h0 => by rw [h0] at hsplit; omega
  have hmod : h % n < n := Nat.mod_lt _ hn
  refine ⟨Nat.div_lt_of_lt_mul (by rwa [Nat.mul_comm, hsplit]), hmod, rowMajor_lt hmod he, ?_⟩
  calc h * cfg.headDim + e = (h / n * n + h % n) * cfg.headDim + e := by rw [Nat.div_add_mod']
    _ = h / n * (n * cfg.headDim) + (h % n * cfg.headDim + e) := by ring

/-- The gates are the same. -/
lemma gateAttnAgrees : GateAttnAgrees cfg (singleRun o T cfg layer k position v s d)
    (dispatchHeadParallel (o.onAll vs) T cfg numGpus layer k position seq order mem 0) := by
  intro hgate h hh e he
  obtain ⟨left, start, hleft, hgather⟩ := S.dispatch_spec o layer T
  obtain ⟨hgpu, hlocal, hslice, hidx⟩ := S.slice_index hh he
  have hsingle := (singleInsts_spec o layer k position T s d S.rows).gateAttn hgate h hh e he
  have hdevice := (hleft _ hgpu).2.1.gateAttn hgate _ hlocal e he
  rw [Nat.div_add_mod'] at hdevice
  rw [Nat.zero_add] at hsingle
  refine hsingle.trans ?_
  rw [hidx, ((hgather _ hgpu _ hslice).2 hgate), hdevice]

/-- **The heads agree exactly if the softmax does not see the norm and the rotation of Q.** -/
lemma attnOutAgrees_iff :
    let x := o.rmsNorm ⟨layer, .inputNorm⟩ (d.load (.buf .act .hidden) cfg.hiddenSize 0)
    let single := singleRun o T cfg layer k position v s d
    AttnOutAgrees cfg single
        (dispatchHeadParallel (o.onAll vs) T cfg numGpus layer k position seq order mem 0) ↔
      ∀ h < cfg.numQHeads,
        headResult o cfg layer k position v s single
            (rotatedQ o cfg layer (T.posIds .act 0) (qRow o cfg layer x h)) h =
          headResult o cfg layer k position v s single (qRow o cfg layer x h) h := by
  intro x single
  obtain ⟨left, start, hleft, hgather⟩ := S.dispatch_spec o layer T
  have hsingle : ∀ h < cfg.numQHeads, ∀ e (he : e < cfg.headDim),
      single.bufs (.act, .attnOut) (h * cfg.headDim + e) =
        headResult o cfg layer k position v s single
          (rotatedQ o cfg layer (T.posIds .act 0) (qRow o cfg layer x h)) h ⟨e, he⟩ :=
    fun h hh e he => by
      have hspec := (singleInsts_spec o layer k position T s d S.rows).attnOut h hh e he
      rwa [Nat.zero_add] at hspec
  have hdevice : ∀ h < cfg.numQHeads, ∀ e (he : e < cfg.headDim),
      (dispatchHeadParallel (o.onAll vs) T cfg numGpus layer k position seq order mem 0).bufs
          (.act, .attnOut) (h * cfg.headDim + e) =
        headResult o cfg layer k position v s single (qRow o cfg layer x h) h ⟨e, he⟩ :=
    fun h hh e he => by
      obtain ⟨hgpu, hlocal, hslice, hidx⟩ := S.slice_index hh he
      have hspec := (hleft _ hgpu).2.1.attnOut _ hlocal e he
      rw [Nat.div_add_mod'] at hspec
      rw [hidx, (hgather _ hgpu _ hslice).1, hspec]
      -- the same tokens, read on another GPU
      have htokens : headTokens cfg layer k position (vs (h / (cfg.numQHeads / numGpus)))
          (seq (h / (cfg.numQHeads / numGpus))) (left (h / (cfg.numQHeads / numGpus))) h =
            headTokens cfg layer k position v s single h := by
        have hsame := S.same_after o layer T hgpu
        refine (SameChunks.tokens ⟨fun c hc off hoff => ?_, hsame.pos⟩
          (S.reads h hh) ⟨rfl, rfl, rfl, rfl, rfl, rfl⟩ ⟨rfl, rfl, rfl, rfl, rfl, rfl⟩).symm
        rw [← (hleft _ hgpu).2.2]
        exact hsame.pool c hc off hoff
      rw [headResult, htokens]
      rfl
  refine ⟨fun hagree h hh => funext fun e => ?_, fun heq h hh e he => ?_⟩
  · rw [← hsingle h hh e e.isLt, ← hdevice h hh e e.isLt]
    exact hagree h hh e e.isLt
  · rw [hsingle h hh e he, hdevice h hh e he, heq h hh]

end SameInputs

/-- The type of the softmax of a head. -/
abbrev Attend (V : Type*) :=
  HeadParams → Option (ℕ → V) → {hd : ℕ} → (Fin hd → V) → List (TokenRow V hd) → Fin hd → V

/-- The same operations with another softmax. -/
def HeadOps.withAttend (o : HeadOps V) (attend : Attend V) : HeadOps V :=
  { o with attend := attend }

/-- **Attention over several GPUs by heads.**  For every configuration, every number of GPUs that
divides the Q heads, every position and the same KV contents, the gate and the stored K and V rows
are those of one GPU.  The heads in `attn_out` are those of one GPU exactly if each softmax gives
the same for the Q row and for its norm and rotation; under every softmax, exactly if the norm and
the rotation of every projected Q row are the Q row itself. -/
theorem headParallel_agrees_iff (o : HeadOps V) (layer : ℕ) (T : Tables)
    (S : SameInputs cfg L k numGpus position v vs s seq d mem order) :
    let x := o.rmsNorm ⟨layer, .inputNorm⟩ (d.load (.buf .act .hidden) cfg.hiddenSize 0)
    let single := fun o : HeadOps V => singleRun o T cfg layer k position v s d
    let parallel := fun o : HeadOps V =>
      dispatchHeadParallel (o.onAll vs) T cfg numGpus layer k position seq order mem
    let rotated := fun h => rotatedQ o cfg layer (T.posIds .act 0) (qRow o cfg layer x h)
    GateAttnAgrees cfg (single o) (parallel o 0) ∧
      RowsAgree cfg k numGpus position s seq (single o) (parallel o) ∧
      (AttnOutAgrees cfg (single o) (parallel o 0) ↔ ∀ h < cfg.numQHeads,
        headResult o cfg layer k position v s (single o) (rotated h) h =
          headResult o cfg layer k position v s (single o) (qRow o cfg layer x h) h) ∧
      ((∀ attend, AttnOutAgrees cfg (single (o.withAttend attend))
          (parallel (o.withAttend attend) 0)) ↔
        ∀ h < cfg.numQHeads, rotated h = qRow o cfg layer x h) := by
  intro x single parallel rotated
  refine ⟨S.gateAttnAgrees o layer T, S.rowsAgree o layer T, S.attnOutAgrees_iff o layer T,
    fun hall h hh => ?_, fun hfix attend => ?_⟩
  · -- the softmax that gives the Q row back
    have hagree := hall fun _ _ _ q _ => q
    exact (S.attnOutAgrees_iff (o.withAttend fun _ _ _ q _ => q) layer T).mp hagree h hh
  · refine (S.attnOutAgrees_iff (o.withAttend attend) layer T).mpr fun h hh => ?_
    exact congrArg (fun q => headResult (o.withAttend attend) cfg layer k position v s
      (single (o.withAttend attend)) q h) (hfix h hh)

end Agree

/-! ### Two heads on two GPUs -/

/-- Two Q heads of one float. -/
def twoHeadConfig : AttnConfig :=
  { hiddenSize := 1, numQHeads := 2, numKvHeads := 1, headDim := 1, ropeDim := 1,
    hasOutputGate := false, hasQkNorm := false, mropeSections := (1, 0, 0),
    rmsNormEps := 0x358637bd }

/-- Operations on numbers; the rotation adds `turn`, and attention gives its Q row back. -/
def countHeadOps (turn : ℕ) : HeadOps ℕ :=
  { rmsNorm := fun _ _ row => row
    dot := fun _ _ _ _ => 1
    qkNorm := fun _ _ row => row
    rope := fun _ _ _ _ row i => row i + turn
    attend := fun _ _ _ q _ => q
    attnPagedQ := fun _ _ _ => 0
    gate := (· * ·)
    add := (· + ·) }

/-- A memory of zeros. -/
def zeroMem : DevMem ℕ := ⟨fun _ _ => 0, fun _ => 0, fun _ => 0⟩

/-- The first token, its chunk at address 0 everywhere. -/
lemma sameInputs_twoHeads : SameInputs twoHeadConfig 1 0 2 0 ⟨wholeRows, fun _ _ => 0, fun _ _ => 0⟩
    (fun gpu => ⟨sliceRows twoHeadConfig 2 gpu, fun _ _ => 0, fun _ _ => 0⟩) ⟨0, 0, 0⟩
    (fun _ => ⟨0, 0, 0⟩) zeroMem (fun _ => zeroMem) [0, 1] where
  layer := Nat.zero_lt_one
  gpus := Nat.two_pos
  split := Nat.dvd_refl 2
  rows := rfl
  slices _ := rfl
  order := List.Perm.refl _
  hidden := rfl
  chunks := ⟨rfl, fun c hc => absurd hc (Nat.not_lt_zero c)⟩
  chunksOn _ _ := ⟨rfl, fun c hc => absurd hc (Nat.not_lt_zero c)⟩
  same _ _ := ⟨fun _ _ _ _ => rfl, fun _ _ => rfl⟩
  reads h hh := by
    have hkv : h / (twoHeadConfig.numQHeads / twoHeadConfig.numKvHeads) = 0 := Nat.div_eq_of_lt hh
    rw [hkv]
    have hpos : 0 < twoHeadConfig.numKvHeads := Nat.zero_lt_one
    exact readsInChunk_of_lt Nat.zero_lt_one hpos

/-- Without a rotation the two GPUs leave the heads of one. -/
theorem headParallel_agrees_unrotated : AttnOutAgrees twoHeadConfig
    (singleRun (countHeadOps 0) ⟨fun _ _ => (0, 0, 0), fun _ _ => 0⟩ twoHeadConfig 0 0 0
      ⟨wholeRows, fun _ _ => 0, fun _ _ => 0⟩ ⟨0, 0, 0⟩ zeroMem)
    (dispatchHeadParallel ((countHeadOps 0).onAll fun gpu =>
        ⟨sliceRows twoHeadConfig 2 gpu, fun _ _ => 0, fun _ _ => 0⟩)
      ⟨fun _ _ => (0, 0, 0), fun _ _ => 0⟩ twoHeadConfig 2 0 0 0 (fun _ => ⟨0, 0, 0⟩) [0, 1]
      (fun _ => zeroMem) 0) :=
  (headParallel_agrees_iff (countHeadOps 0) 0 ⟨fun _ _ => (0, 0, 0), fun _ _ => 0⟩
    sameInputs_twoHeads).2.2.1.mpr fun _ _ => rfl

/-- With one they do not: the first head is 2 on one GPU, whose Q is rotated, and 1 on two. -/
theorem headParallel_differs_rotated :
    ¬ ∀ (o : HeadOps ℕ) (cfg : AttnConfig) (L layer k numGpus position : ℕ) (T : Tables)
      (v : HeadView) (vs : ℕ → HeadView) (s : GpuSeq) (seq : ℕ → GpuSeq) (d : DevMem ℕ)
      (mem : ℕ → DevMem ℕ) (order : List ℕ),
      SameInputs cfg L k numGpus position v vs s seq d mem order →
      AttnOutAgrees cfg (singleRun o T cfg layer k position v s d)
        (dispatchHeadParallel (o.onAll vs) T cfg numGpus layer k position seq order mem 0) := by
  intro hall
  have hagree := hall (countHeadOps 1) twoHeadConfig 1 0 0 2 0 ⟨fun _ _ => (0, 0, 0), fun _ _ => 0⟩
    _ _ _ _ _ _ _ sameInputs_twoHeads
  have hrow := (sameInputs_twoHeads.attnOutAgrees_iff _ _ _).mp hagree 0 Nat.two_pos
  have heq : (2 : ℕ) = 1 := congrFun hrow ⟨0, Nat.zero_lt_one⟩
  omega

end Braidinfer.Megakernel
