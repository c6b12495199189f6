/-
Attention over several GPUs by heads (`model/decode/mod.rs`, `dispatch_head_parallel_attention` in
the distributed mode), beside the same layer on one GPU (`emit_attention_layer`, `PagedKv`).

Every GPU gets the normed layer input and projects its own slice of Q (with its gate) and all of K
and V; it stores the K and V rows of the token, attends for its own heads, and GPU 0 gathers the
slices.  On one GPU the norm and the rotation work on Q in place before attention; the kernel
applies them to the cached K only.

* `HeadOps`: projections by rows, norms, rotations and the softmax of a head, uninterpreted;
* `headParallelInsts`, `gatherInsts`, `dispatchHeadParallel`: the batches and the gather;
* `qkv_spec`: what the projections leave, for any slice of the heads;
* `stored_spec`: **the K and V rows of the token in its chunk**;
* `SameChunks.stored`, `SameChunks.tokens`: the same stores keep KV contents the same, and attention
  then reads the same tokens.
-/
import Mathlib.Tactic.Ring
import Braidinfer.Megakernel.KvExec

namespace Braidinfer.Megakernel

open Braidinfer.Lib Braidinfer.PagedKv

/-! ### The operations -/

/-- What the attention kernel takes from its instruction beside addresses and heads. -/
structure HeadParams where
  kNorm : Option Weight
  epsBits : ℕ
  rd : ℕ
  mropeSections : BitVec 64

/-- The K row and the V row of a token, and its positions. -/
abbrev TokenRow (V : Type*) (hd : ℕ) := (Fin hd → V) × (Fin hd → V) × (ℤ × ℤ × ℤ)

/-- The float operations; `dot` is one row of a projection, and `attend` is what a block of the
attention kernel computes from the partial state it starts from, its Q row and its tokens. -/
structure HeadOps (V : Type*) where
  rmsNorm : Weight → {dim : ℕ} → (Fin dim → V) → Fin dim → V
  dot : Weight → ℕ → {inDim : ℕ} → (Fin inDim → V) → V
  qkNorm : Weight → {hd : ℕ} → (Fin hd → V) → Fin hd → V
  rope : (rd : ℕ) → (sections : ℕ × ℕ × ℕ) → (pos : ℤ × ℤ × ℤ) → {hd : ℕ} → (Fin hd → V) →
    Fin hd → V
  attend : HeadParams → Option (ℕ → V) → {hd : ℕ} → (Fin hd → V) → List (TokenRow V hd) → Fin hd → V
  attnPagedQ : AttnPagedQInst → DevMem V → ℕ → V
  gate : V → V → V
  add : V → V → V

/-- What the kernels of a GPU read beside its float memory: which row of the full weight its row
is, and the page and position tables at a device address. -/
structure HeadView where
  rowOf : Weight → ℕ → ℕ
  pageTable : ℕ → ℕ → ℕ
  posTable : ℕ → ℕ → ℤ

namespace AttnPagedInst

variable {V : Type*} (i : AttnPagedInst) (v : HeadView) (d : DevMem V)

/-- The parameters of the kernel. -/
def params : HeadParams := ⟨i.kNorm, i.epsBits, i.rd, i.mropeSections⟩

/-- What `op_attn_paged` reads of token `t` for a KV head. -/
def token (kvHead hd t : ℕ) : TokenRow V hd :=
  let chunkBase := v.pageTable i.pageTable (t / i.chunkTokens)
  let tokenIdx := kvHead * i.chunkTokens + t % i.chunkTokens
  let row := fun (layerOffset : ℕ) (tid : Fin hd) =>
    d.pool (chunkBase + layerOffset + f32Bytes * (tokenIdx * i.hd + tid))
  let pos := fun sec => v.posTable i.posTable (t * 3 + sec)
  (row i.layerKOffset, row i.layerVOffset, (pos 0, pos 1, pos 2))

/-- `op_attn_paged` for its head `qHeadLocal`: Q and the partial state are found by the local head,
the KV head by the absolute one. -/
def headOut (o : HeadOps V) (qHeadLocal hd : ℕ) : Fin hd → V :=
  let qHead := i.localQHeadStart + qHeadLocal
  let kvHead := qHead / (i.nqh / i.nkh)
  let partialState := if i.partialState = 0 then none
    else some fun j => d.scratch (i.partialState + f32Bytes * (qHeadLocal * (2 + hd) + j))
  o.attend i.params partialState (d.load i.q hd qHeadLocal)
    ((List.range i.seqLen).map (i.token v d kvHead hd))

end AttnPagedInst

/-- The kernels of a GPU. -/
def HeadOps.on {V : Type*} (o : HeadOps V) (v : HeadView) : FloatOps V where
  rmsNorm := o.rmsNorm
  linear := fun w _ x _ j => o.dot w (v.rowOf w j) x
  qkNorm := o.qkNorm
  rope := o.rope
  attnPaged := fun i d head hd => i.headOut v d o head hd
  attnPagedQ := o.attnPagedQ
  gate := o.gate
  add := o.add

/-! ### One GPU -/

/-- All rows of every weight. -/
def wholeRows : Weight → ℕ → ℕ := fun _ r => r

/-- The patch of a decode step at `position` with no quantized chunk. -/
def wholePatch (position pageTable posTable : ℕ) : AttnPatch :=
  { gridQ := 0, scratch := 0, quantPageTable := 0, quantSeqLen := 0, pageTable, posTable,
    seqLen := position + 1, partialState := 0 }

/-- The instructions of `PagedKv` for the token at `position`, whose chunk is at `chunkBase`. -/
def singleInsts (cfg : AttnConfig) (layer k chunkBase position pageTable posTable : ℕ) :
    List Inst :=
  decodeLayer cfg layer k (layerCopies cfg fun h =>
      kvDst (cfg.numKvHeads * cfg.headDim) cfg.headDim chunkBase k h (position % chunkTokens))
    (wholePatch position pageTable posTable)

/-! ### Several GPUs -/

/-- `q_mult` -/
def qMult (cfg : AttnConfig) : ℕ := if cfg.hasOutputGate then 2 else 1

/-- The weights of a GPU after `init_split_attn_weights`: GPU `gpu` has the rows of its Q heads, and
all rows of K and V. -/
def sliceRows (cfg : AttnConfig) (numGpus gpu : ℕ) (w : Weight) (r : ℕ) : ℕ :=
  match w.name with
  | .qGate => gpu * (cfg.numQHeads / numGpus) * cfg.headDim * qMult cfg + r
  | _ => r

/-- Steps 1 to 4: the projections of `localNqh` heads and the split of Q from its gate.  The batch
size 0 of these instructions is 1 to the kernel. -/
def qkvInsts (cfg : AttnConfig) (layer localNqh : ℕ) : List Inst :=
  let buf := Ptr.buf .act
  let hs := cfg.hiddenSize
  let nkh := cfg.numKvHeads
  let hd := cfg.headDim
  let total := localNqh * hd
  [ batchedLinearProj ⟨layer, .qGate⟩ (buf .qGateAttn) (buf .normed) (localNqh * hd * qMult cfg) hs
      1,
    batchedLinearProj ⟨layer, .k⟩ (buf .kAttn) (buf .normed) (nkh * hd) hs 1,
    batchedLinearProj ⟨layer, .v⟩ (buf .vAttn) (buf .normed) (nkh * hd) hs 1,
    if cfg.hasOutputGate then
      .deinterleave { gridX := divCeil total 256, dstQ := buf .qAttn, dstGate := buf .gateAttn,
                      src := buf .qGateAttn, numHeads := localNqh, headDim := hd, batch := 1 }
    else
      .d2dCopy { gridX := divCeil total 256, dst := buf .qAttn, src := buf .qGateAttn,
                 nElems := total } ]

/-- Step 7: where the K row and the V row of head `h` go. -/
def headDst (cfg : AttnConfig) (chunkBase k chunkOffset h : ℕ) : ℕ × ℕ :=
  let chunkHeadStride := chunkTokens * cfg.headDim
  let headOff := h * chunkHeadStride * f32Bytes + chunkOffset * cfg.headDim * f32Bytes
  (chunkBase + layerKOff cfg k + headOff, chunkBase + layerVOff cfg k + headOff)

/-- Step 8: the attention of the heads of GPU `gpu`. -/
def headAttn (cfg : AttnConfig) (numGpus gpu layer k position pageTable posTable : ℕ) :
    AttnPagedInst :=
  let localNqh := cfg.numQHeads / numGpus
  { attnPagedInst cfg layer k (.buf .act .attnOut) (.buf .act .qAttn) (position + 1) with
    gridX := localNqh, pageTable, posTable, localQHeadStart := gpu * localNqh, localNqh }

/-- The batch of GPU `gpu`, after it has got the normed input. -/
def headParallelInsts (cfg : AttnConfig) (numGpus gpu layer k chunkBase position pageTable
    posTable : ℕ) : List Inst :=
  qkvInsts cfg layer (cfg.numQHeads / numGpus) ++
    (layerCopies cfg (headDst cfg chunkBase k (position % chunkTokens))).map .d2dCopy ++
    [.attnPaged (headAttn cfg numGpus gpu layer k position pageTable posTable)]

/-- An instruction of a GPU: on its own memory, or a copy from the memory of another GPU. -/
inductive GpuInst
  | own (i : Inst)
  | fromGpu (src : ℕ) (i : D2dCopyInst)

/-- The floats of a memory that `c` reads. -/
def D2dCopyInst.source {V : Type*} (c : D2dCopyInst) (d : DevMem V) : ℕ → Fin c.nElems → V :=
  fun _ => d.load c.src c.nElems 0

/-- An instruction of GPU `gpu`. -/
def execGpu {V : Type*} (ops : ℕ → FloatOps V) (T : Tables) (gpu : ℕ) (mem : ℕ → DevMem V) :
    GpuInst → ℕ → DevMem V
  | .own i => Function.update mem gpu (exec (ops gpu) T (mem gpu) i)
  | .fromGpu src i =>
      Function.update mem gpu ((mem gpu).store i.dst 1 i.nElems (i.source (mem src)))

/-- A batch of GPU `gpu`. -/
def execBatch {V : Type*} (ops : ℕ → FloatOps V) (T : Tables) (gpu : ℕ) (mem : ℕ → DevMem V)
    (is : List GpuInst) : ℕ → DevMem V := is.foldl (execGpu ops T gpu) mem

/-- Step 0: GPU 0 has the normed input in `normed_stage`, which the others copy; here every GPU has
it in its `normed`. -/
def broadcastInst (cfg : AttnConfig) : D2dCopyInst :=
  { gridX := divCeil cfg.hiddenSize 256, dst := .buf .act .normed, src := .buf .act .normed,
    nElems := cfg.hiddenSize }

/-- Where a GPU keeps the sequence: its current chunk and the addresses of its tables. -/
structure GpuSeq where
  chunkBase : ℕ
  pageTable : ℕ
  posTable : ℕ

/-- The batch of GPU `gpu`. -/
def headBatch (cfg : AttnConfig) (numGpus layer k position : ℕ) (seq : ℕ → GpuSeq) (gpu : ℕ) :
    List GpuInst :=
  (if 0 < gpu then [.fromGpu 0 (broadcastInst cfg)] else []) ++
    (headParallelInsts cfg numGpus gpu layer k (seq gpu).chunkBase position (seq gpu).pageTable
      (seq gpu).posTable).map .own

/-- The gather of one buffer: slice `gpu` of GPU 0 from every other GPU. -/
def gatherBuf (cfg : AttnConfig) (numGpus : ℕ) (b : Buf) : List GpuInst :=
  let nElems := cfg.numQHeads / numGpus * cfg.headDim
  (List.range' 1 (numGpus - 1)).map fun gpu =>
    .fromGpu gpu { gridX := divCeil nElems 256, dst := (Ptr.buf .act b).add (gpu * nElems),
                   src := .buf .act b, nElems }

/-- The gather instructions. -/
def gatherInsts (cfg : AttnConfig) (numGpus : ℕ) : List GpuInst :=
  gatherBuf cfg numGpus .attnOut ++
    if cfg.hasOutputGate then gatherBuf cfg numGpus .gateAttn else []

/-- Step 1 of a layer, on GPU 0. -/
def normInst (cfg : AttnConfig) (layer : ℕ) : Inst :=
  .rmsNorm { gridX := 1, output := .buf .act .normed, input := .buf .act .hidden,
             weight := ⟨layer, .inputNorm⟩, dim := cfg.hiddenSize }

/-- The layer up to the output gate: the norm on GPU 0, the batches of the GPUs in some order, and
the gather. -/
def dispatchHeadParallel {V : Type*} (ops : ℕ → FloatOps V) (T : Tables) (cfg : AttnConfig)
    (numGpus layer k position : ℕ) (seq : ℕ → GpuSeq) (order : List ℕ) (mem : ℕ → DevMem V) :
    ℕ → DevMem V :=
  let mem := execGpu ops T 0 mem (.own (normInst cfg layer))
  let mem := order.foldl
    (fun mem gpu => execBatch ops T gpu mem (headBatch cfg numGpus layer k position seq gpu)) mem
  execBatch ops T 0 mem (gatherInsts cfg numGpus)

/-! ### The projections -/

section Projections

variable {V : Type*} (o : HeadOps V) (cfg : AttnConfig) (layer : ℕ) {x : Fin cfg.hiddenSize → V}

/-- Element `e` of the Q row of head `h`, as projected from the normed input `x`. -/
def qProj (x : Fin cfg.hiddenSize → V) (h e : ℕ) : V :=
  o.dot ⟨layer, .qGate⟩ (h * qMult cfg * cfg.headDim + e) x

/-- Element `e` of the gate of head `h`. -/
def gateProj (x : Fin cfg.hiddenSize → V) (h e : ℕ) : V :=
  o.dot ⟨layer, .qGate⟩ ((h * 2 + 1) * cfg.headDim + e) x

/-- Element `e` of the K row or the V row of KV head `h`. -/
def kvProj (isV : Bool) (x : Fin cfg.hiddenSize → V) (h e : ℕ) : V :=
  o.dot ⟨layer, if isV then .v else .k⟩ (h * cfg.headDim + e) x

variable {o cfg layer} {v : HeadView} {T : Tables} {d : DevMem V} {n h e : ℕ}

/-- A projection of one token. -/
lemma exec_linear {b : Buf} {w : Weight} {outDim inDim j : ℕ} (hj : j < outDim) :
    (exec (o.on v) T d (batchedLinearProj w (.buf .act b) (.buf .act .normed) outDim inDim 1)).bufs
        (.act, b) j = o.dot w (v.rowOf w j) (d.load (.buf .act .normed) inDim 0) := by
  have hrow : (d.store (.buf .act b) 1 outDim fun r =>
      (o.on v).linear w (d.load (.buf .act .normed) inDim r) outDim).bufs (.act, b)
        (0 * outDim + j) = o.dot w (v.rowOf w j) (d.load (.buf .act .normed) inDim 0) :=
    DevMem.store_apply Nat.zero_lt_one (⟨j, hj⟩ : Fin outDim)
  rwa [Nat.zero_mul, Nat.zero_add] at hrow

/-- The projections write their own buffers alone. -/
lemma qkvInsts_avoids {blk : Block} (hqg : blk ≠ .buffer .act .qGateAttn)
    (hk : blk ≠ .buffer .act .kAttn) (hv : blk ≠ .buffer .act .vAttn)
    (hq : blk ≠ .buffer .act .qAttn) (hg : blk ≠ .buffer .act .gateAttn) :
    Avoids blk (qkvInsts cfg layer n) := by
  cases hgate : cfg.hasOutputGate <;>
    simp [Avoids, qkvInsts, batchedLinearProj, Inst.outputs, Ptr.buf, hgate, hqg.symm, hk.symm,
      hv.symm, hq.symm, hg.symm]

/-- What the three projections leave. -/
structure Projected (o : HeadOps V) (cfg : AttnConfig) (layer : ℕ) (v : HeadView) (n : ℕ)
    (x : Fin cfg.hiddenSize → V) (d : DevMem V) : Prop where
  q : ∀ h < n, ∀ e < cfg.headDim, d.bufs (.act, .qAttn) (h * cfg.headDim + e) =
    o.dot ⟨layer, .qGate⟩ (v.rowOf ⟨layer, .qGate⟩ (h * qMult cfg * cfg.headDim + e)) x
  gate : cfg.hasOutputGate = true → ∀ h < n, ∀ e < cfg.headDim,
    d.bufs (.act, .gateAttn) (h * cfg.headDim + e) =
      o.dot ⟨layer, .qGate⟩ (v.rowOf ⟨layer, .qGate⟩ ((h * 2 + 1) * cfg.headDim + e)) x
  kv : ∀ isV, ∀ h < cfg.numKvHeads, ∀ e < cfg.headDim,
    d.bufs (.act, kvBuf isV) (h * cfg.headDim + e) =
      o.dot ⟨layer, if isV then .v else .k⟩
        (v.rowOf ⟨layer, if isV then .v else .k⟩ (h * cfg.headDim + e)) x

/-- **What the projections leave**, for any number of heads. -/
lemma qkv_spec : Projected o cfg layer v n (d.load (.buf .act .normed) cfg.hiddenSize 0)
    (execAll (o.on v) T d (qkvInsts cfg layer n)) := by
  set x := d.load (.buf .act .normed) cfg.hiddenSize 0 with hx
  set d1 := exec (o.on v) T d (batchedLinearProj ⟨layer, .qGate⟩ (.buf .act .qGateAttn)
    (.buf .act .normed) (n * cfg.headDim * qMult cfg) cfg.hiddenSize 1) with hd1
  set d2 := exec (o.on v) T d1 (batchedLinearProj ⟨layer, .k⟩ (.buf .act .kAttn)
    (.buf .act .normed) (cfg.numKvHeads * cfg.headDim) cfg.hiddenSize 1) with hd2
  set d3 := exec (o.on v) T d2 (batchedLinearProj ⟨layer, .v⟩ (.buf .act .vAttn)
    (.buf .act .normed) (cfg.numKvHeads * cfg.headDim) cfg.hiddenSize 1) with hd3
  have hne : ∀ (d : DevMem V) (w : Weight) (b : Buf) (outDim inDim : ℕ) (b' : Buf), b ≠ b' →
      (exec (o.on v) T d (batchedLinearProj w (.buf .act b) (.buf .act .normed) outDim inDim
        1)).bufs (.act, b') = d.bufs (.act, b') := fun d w b outDim inDim b' hb => by
    have hblk : ∀ q ∈ (batchedLinearProj w (.buf .act b) (.buf .act .normed) outDim inDim
        1).outputs, q.block ≠ .buffer .act b' := by
      simpa [batchedLinearProj, Inst.outputs, Ptr.buf] using hb
    exact exec_of_avoids hblk
  have hx1 : d1.load (.buf .act .normed) cfg.hiddenSize 0 = x :=
    DevMem.load_congr (hne _ _ _ _ _ _ (by decide)) _ _
  have hx2 : d2.load (.buf .act .normed) cfg.hiddenSize 0 = x :=
    (DevMem.load_congr (hne _ _ _ _ _ _ (by decide)) _ _).trans hx1
  have hqg : ∀ j < n * cfg.headDim * qMult cfg, d3.bufs (.act, .qGateAttn) j =
      o.dot ⟨layer, .qGate⟩ (v.rowOf ⟨layer, .qGate⟩ j) x := fun j hj => by
    rw [hd3, hne _ _ _ _ _ _ (by decide), hd2, hne _ _ _ _ _ _ (by decide), hd1]
    exact exec_linear hj
  have hkv : ∀ isV, ∀ j < cfg.numKvHeads * cfg.headDim, d3.bufs (.act, kvBuf isV) j =
      o.dot ⟨layer, if isV then .v else .k⟩ (v.rowOf ⟨layer, if isV then .v else .k⟩ j) x := by
    rintro (_ | _) j hj
    · rw [show kvBuf false = .kAttn from rfl, hd3, hne _ _ _ _ _ _ (by decide), hd2, ← hx1]
      exact exec_linear hj
    · rw [← hx2]
      exact exec_linear hj
  by_cases hgate : cfg.hasOutputGate = true
  · have hmult : qMult cfg = 2 := if_pos hgate
    have hall : execAll (o.on v) T d (qkvInsts cfg layer n) = exec (o.on v) T d3 (.deinterleave
        { gridX := divCeil (n * cfg.headDim) 256, dstQ := .buf .act .qAttn,
          dstGate := .buf .act .gateAttn, src := .buf .act .qGateAttn, numHeads := n,
          headDim := cfg.headDim, batch := 1 }) := by
      rw [qkvInsts]
      simp only [hgate, if_true]
      rfl
    rw [hall]
    set d4 := d3.store (.buf .act .qAttn) (max 1 1 * n) cfg.headDim
      (fun r => d3.load (.buf .act .qGateAttn) cfg.headDim (r * 2)) with hd4
    have hd5 : exec (o.on v) T d3 (.deinterleave
        { gridX := divCeil (n * cfg.headDim) 256, dstQ := .buf .act .qAttn,
          dstGate := .buf .act .gateAttn, src := .buf .act .qGateAttn, numHeads := n,
          headDim := cfg.headDim, batch := 1 }) =
        d4.store (.buf .act .gateAttn) (max 1 1 * n) cfg.headDim
          fun r => d3.load (.buf .act .qGateAttn) cfg.headDim (r * 2 + 1) := rfl
    have hsrc : ∀ r < n * 2, ∀ e < cfg.headDim, ∀ he : e < cfg.headDim,
        d3.load (.buf .act .qGateAttn) cfg.headDim r ⟨e, he⟩ =
          o.dot ⟨layer, .qGate⟩ (v.rowOf ⟨layer, .qGate⟩ (r * cfg.headDim + e)) x :=
      fun r hr e he _ => by
        have hlt : r * cfg.headDim + e < n * cfg.headDim * qMult cfg := by
          rw [hmult, Nat.mul_right_comm]
          exact rowMajor_lt hr he
        rw [← hqg _ hlt]
        exact congrArg (d3.bufs (.act, .qGateAttn)) (Nat.zero_add _)
    rw [hd5]
    refine ⟨fun h hh e he => ?_, fun _ h hh e he => ?_, fun isV h hh e he => ?_⟩
    · have hkeep : (d4.store (.buf .act .gateAttn) (max 1 1 * n) cfg.headDim
          fun r => d3.load (.buf .act .qGateAttn) cfg.headDim (r * 2 + 1)).bufs (.act, .qAttn) =
          d4.bufs (.act, .qAttn) := by
        have hblk : (Ptr.buf .act .gateAttn).block ≠ .buffer .act .qAttn := by simp [Ptr.buf]
        exact DevMem.store_of_ne hblk
      rw [hkeep, hd4, hmult, ← hsrc (h * 2) (by omega) e he he]
      exact DevMem.store_apply (by simpa using hh) (⟨e, he⟩ : Fin cfg.headDim)
    · rw [← hsrc (h * 2 + 1) (by omega) e he he]
      exact DevMem.store_apply (by simpa using hh) (⟨e, he⟩ : Fin cfg.headDim)
    · rw [← hkv isV _ (rowMajor_lt hh he)]
      have hblk : ∀ b : Buf, b = .qAttn ∨ b = .gateAttn →
          (Ptr.buf .act b).block ≠ .buffer .act (kvBuf isV) := by
        rintro b (rfl | rfl) <;> cases isV <;> simp [Ptr.buf, kvBuf]
      refine congrFun ?_ (h * cfg.headDim + e)
      exact (DevMem.store_of_ne (hblk _ (.inr rfl))).trans (DevMem.store_of_ne (hblk _ (.inl rfl)))
  · have hmult : qMult cfg = 1 := if_neg hgate
    have hall : execAll (o.on v) T d (qkvInsts cfg layer n) =
        d3.store (.buf .act .qAttn) 1 (n * cfg.headDim)
          fun _ => d3.load (.buf .act .qGateAttn) (n * cfg.headDim) 0 := by
      rw [qkvInsts]
      simp only [hgate]
      rfl
    rw [hall]
    refine ⟨fun h hh e he => ?_, fun hg => absurd hg hgate, fun isV h hh e he => ?_⟩
    · have hlt := rowMajor_lt hh he
      have hrow : (d3.store (.buf .act .qAttn) 1 (n * cfg.headDim) fun _ =>
          d3.load (.buf .act .qGateAttn) (n * cfg.headDim) 0).bufs (.act, .qAttn)
            (0 * (n * cfg.headDim) + (h * cfg.headDim + e)) =
          d3.load (.buf .act .qGateAttn) (n * cfg.headDim) 0 ⟨h * cfg.headDim + e, hlt⟩ :=
        DevMem.store_apply Nat.zero_lt_one (⟨h * cfg.headDim + e, hlt⟩ : Fin (n * cfg.headDim))
      rw [Nat.zero_mul, Nat.zero_add] at hrow
      rw [hrow, hmult, Nat.mul_one, ← hqg _ (by rwa [hmult, Nat.mul_one])]
      refine congrArg (d3.bufs (.act, .qGateAttn)) ?_
      show 0 + (0 * (n * cfg.headDim) + (h * cfg.headDim + e)) = h * cfg.headDim + e
      omega
    · rw [← hkv isV _ (rowMajor_lt hh he)]
      have hblk : (Ptr.buf .act .qAttn).block ≠ .buffer .act (kvBuf isV) := by
        cases isV <;> simp [Ptr.buf, kvBuf]
      exact congrFun (DevMem.store_of_ne hblk) (h * cfg.headDim + e)

end Projections

/-! ### The rows that are stored -/

section Stored

variable {V : Type*} {o : HeadOps V} {cfg : AttnConfig} {layer L k t n : ℕ} {T : Tables}
  {x : Fin cfg.hiddenSize → V}

/-- The stores of the K rows and the V rows of a token, relative to its chunk. -/
def rowWrites (o : HeadOps V) (cfg : AttnConfig) (layer k t : ℕ) (x : Fin cfg.hiddenSize → V) :
    List (ℕ × V) :=
  (List.range cfg.numKvHeads).flatMap fun h =>
    rowStores (rowOffset cfg k false h t) (kvProj o cfg layer false x h) cfg.headDim ++
      rowStores (rowOffset cfg k true h t) (kvProj o cfg layer true x h) cfg.headDim

/-- The device computes the layout, as the patch of a decode step does. -/
lemma headDst_eq (cfg : AttnConfig) (base k t : ℕ) : headDst cfg base k t = fun h =>
    kvDst (cfg.numKvHeads * cfg.headDim) cfg.headDim base k h t := by
  funext h
  rw [headDst, kvDst_eq, Prod.mk.injEq, rowOffset, rowOffset, rowIndex, rowIndex, layerVOff,
    layerKOff, Bool.toNat_false, Bool.toNat_true]
  constructor <;> ring

lemma rowStores_shift (base off len : ℕ) (row : ℕ → V) :
    rowStores (base + off) row len = (rowStores off row len).map fun s => (base + s.1, s.2) := by
  rw [rowStores, rowStores, List.map_map]
  exact List.map_congr_left fun i _ => by rw [Function.comp_apply, Nat.add_assoc]

/-- Every store of a token lies inside its chunk. -/
lemma rowWrites_lt (hk : k < L) (ht : t < chunkTokens) :
    ∀ s ∈ rowWrites o cfg layer k t x, s.1 < chunkKvBytes cfg L := by
  have hrow : ∀ isV, ∀ h < cfg.numKvHeads, ∀ row : ℕ → V,
      ∀ s ∈ rowStores (rowOffset cfg k isV h t) row cfg.headDim, s.1 < chunkKvBytes cfg L := by
    rintro isV h hh row s hs
    obtain ⟨e, he, rfl⟩ := List.mem_map.mp hs
    have hin : rowOffset cfg k isV h t + cfg.headDim * f32Bytes ≤ chunkKvBytes cfg L :=
      rowOffset_add_le hk hh ht
    have := List.mem_range.mp he
    rw [f32Bytes] at hin
    change rowOffset cfg k isV h t + 4 * e < _
    omega
  intro s hs
  obtain ⟨h, hh, hs⟩ := List.mem_flatMap.mp hs
  rcases List.mem_append.mp hs with hs | hs
  · exact hrow false h (List.mem_range.mp hh) _ s hs
  · exact hrow true h (List.mem_range.mp hh) _ s hs

/-- What the projections and the KV copies leave on a device whose chunk is at `base`. -/
structure Stored (o : HeadOps V) (cfg : AttnConfig) (layer k t : ℕ) (v : HeadView) (n : ℕ)
    (x : Fin cfg.hiddenSize → V) (base : ℕ) (d d' : DevMem V) : Prop where
  projected : Projected o cfg layer v n x d'
  pool : d'.pool = applyStores d.pool
    ((rowWrites o cfg layer k t x).map fun s => (base + s.1, s.2))

/-- **The projections and the copies**, on a device with all rows of K and V. -/
lemma stored_spec {v : HeadView} {d : DevMem V} (base : ℕ)
    (hkv : ∀ (isV : Bool) r, v.rowOf ⟨layer, if isV then .v else .k⟩ r = r) :
    Stored o cfg layer k t v n (d.load (.buf .act .normed) cfg.hiddenSize 0) base d
      (execAll (o.on v) T d (qkvInsts cfg layer n ++ (layerCopies cfg fun h =>
        kvDst (cfg.numKvHeads * cfg.headDim) cfg.headDim base k h t).map .d2dCopy)) := by
  set x := d.load (.buf .act .normed) cfg.hiddenSize 0 with hx
  have hproj : Projected o cfg layer v n x (execAll (o.on v) T d (qkvInsts cfg layer n)) :=
    qkv_spec
  set copies := layerCopies cfg fun h =>
    kvDst (cfg.numKvHeads * cfg.headDim) cfg.headDim base k h t with hcopies
  have hblocks : ∀ c ∈ copies, c.dst.block = .kvPool ∧ ∃ b, c.src.block = .buffer .act b :=
    layerCopies_blocks _
  obtain ⟨hbufs, hpool⟩ : (execAll (o.on v) T (execAll (o.on v) T d (qkvInsts cfg layer n))
      (copies.map .d2dCopy)).bufs = (execAll (o.on v) T d (qkvInsts cfg layer n)).bufs ∧ _ :=
    execAll_copies hblocks
  have havoids : Avoids .kvPool (qkvInsts cfg layer n) :=
    qkvInsts_avoids (by simp) (by simp) (by simp) (by simp) (by simp)
  have hkeep : (execAll (o.on v) T d (qkvInsts cfg layer n)).pool = d.pool :=
    execAll_of_avoids havoids
  rw [execAll_append]
  refine ⟨⟨?_, ?_, ?_⟩, ?_⟩
  · rw [hbufs]
    exact hproj.q
  · rw [hbufs]
    exact hproj.gate
  · rw [hbufs]
    exact hproj.kv
  · rw [hpool, hkeep, hcopies, copyStores_layer, rowWrites, List.map_flatMap]
    refine congrArg (applyStores d.pool) (List.flatMap_congr fun h hh => ?_)
    have hrow : ∀ isV, rowStores (base + rowOffset cfg k isV h t)
        (fun i => (execAll (o.on v) T d (qkvInsts cfg layer n)).bufs (.act, kvBuf isV)
          (h * cfg.headDim + i)) cfg.headDim =
        (rowStores (rowOffset cfg k isV h t) (kvProj o cfg layer isV x h) cfg.headDim).map
          fun s => (base + s.1, s.2) := fun isV => by
      rw [← rowStores_shift]
      refine rowStores_congr fun e he => ?_
      rw [hproj.kv isV h (List.mem_range.mp hh) e he, hkv]
      rfl
    rw [kvDst_eq, List.map_append, ← hrow false, ← hrow true]
    rfl

end Stored

/-! ### The tokens that attention reads -/

section Tokens

variable {V : Type*} {o : HeadOps V} {cfg : AttnConfig} {layer L k position n : ℕ}

/-- The chunks of a sequence of `position + 1` tokens on a device: the current one, and the others
apart from it. -/
structure Chunks (cfg : AttnConfig) (L position : ℕ) (v : HeadView) (s : GpuSeq) : Prop where
  current : v.pageTable s.pageTable (position / chunkTokens) = s.chunkBase
  apart : ∀ c < position / chunkTokens,
    v.pageTable s.pageTable c + chunkKvBytes cfg L ≤ s.chunkBase ∨
      s.chunkBase + chunkKvBytes cfg L ≤ v.pageTable s.pageTable c

/-- Two devices hold the same KV contents and the same positions of the tokens up to `position`. -/
structure SameChunks (cfg : AttnConfig) (L position : ℕ) (v v' : HeadView) (s s' : GpuSeq)
    (d d' : DevMem V) : Prop where
  pool : ∀ c ≤ position / chunkTokens, ∀ off < chunkKvBytes cfg L,
    d.pool (v.pageTable s.pageTable c + off) = d'.pool (v'.pageTable s'.pageTable c + off)
  pos : ∀ j < (position + 1) * 3, v.posTable s.posTable j = v'.posTable s'.posTable j

/-- A chunk after the stores of the current token. -/
lemma Stored.pool_chunk {v : HeadView} {s : GpuSeq} {x : Fin cfg.hiddenSize → V} {d d' : DevMem V}
    {c off : ℕ} (hstored : Stored o cfg layer k (position % chunkTokens) v n x s.chunkBase d d')
    (hk : k < L) (hchunks : Chunks cfg L position v s) (hc : c ≤ position / chunkTokens)
    (hoff : off < chunkKvBytes cfg L) :
    d'.pool (v.pageTable s.pageTable c + off) =
      if c = position / chunkTokens then
        applyStores (fun off => d.pool (v.pageTable s.pageTable c + off))
          (rowWrites o cfg layer k (position % chunkTokens) x) off
      else d.pool (v.pageTable s.pageTable c + off) := by
  rw [hstored.pool]
  split_ifs with hcur
  · rw [hcur, hchunks.current]
    exact applyStores_shift s.chunkBase off
  · refine applyStores_of_notMem fun hmem => ?_
    rw [List.map_map] at hmem
    obtain ⟨w, hw, hwoff⟩ := List.mem_map.mp hmem
    have hlt := rowWrites_lt hk (Nat.mod_lt position (show 0 < chunkTokens by decide)) w hw
    have heq : s.chunkBase + w.1 = v.pageTable s.pageTable c + off := hwoff
    rcases hchunks.apart c (Nat.lt_of_le_of_ne hc hcur) with h | h <;> omega

/-- **The same stores keep the same contents.** -/
lemma SameChunks.stored {v v' : HeadView} {s s' : GpuSeq} {x : Fin cfg.hiddenSize → V}
    {d d' e e' : DevMem V} {n' : ℕ} (hsame : SameChunks cfg L position v v' s s' d d') (hk : k < L)
    (hchunks : Chunks cfg L position v s) (hchunks' : Chunks cfg L position v' s')
    (hstored : Stored o cfg layer k (position % chunkTokens) v n x s.chunkBase d e)
    (hstored' : Stored o cfg layer k (position % chunkTokens) v' n' x s'.chunkBase d' e') :
    SameChunks cfg L position v v' s s' e e' := by
  refine ⟨fun c hc off hoff => ?_, hsame.pos⟩
  rw [hstored.pool_chunk hk hchunks hc hoff, hstored'.pool_chunk hk hchunks' hc hoff]
  split_ifs with hcur
  · exact applyStores_congr (hsame.pool c hc off hoff)
  · exact hsame.pool c hc off hoff

/-- The row of element `e` that attention reads for a KV head lies inside the chunk. -/
def ReadsInChunk (cfg : AttnConfig) (L k kvHead : ℕ) : Prop :=
  layerVOff cfg k + f32Bytes * ((kvHead + 1) * chunkTokens * cfg.headDim) ≤ chunkKvBytes cfg L

/-- That is so for every KV head there is. -/
lemma readsInChunk_of_lt {h : ℕ} (hk : k < L) (hh : h < cfg.numKvHeads) :
    ReadsInChunk cfg L k h := by
  have hlast : rowOffset cfg k true h (chunkTokens - 1) + cfg.headDim * f32Bytes ≤
      chunkKvBytes cfg L := rowOffset_add_le hk hh (by decide)
  refine le_trans (le_of_eq ?_) hlast
  rw [layerVOff, layerKOff, rowOffset, rowIndex, Bool.toNat_true,
    show chunkTokens = 64 from rfl, f32Bytes]
  ring

/-- **The tokens are the same**, on devices with the same KV contents. -/
lemma SameChunks.tokens {v v' : HeadView} {s s' : GpuSeq} {d d' : DevMem V} {i i' : AttnPagedInst}
    {kvHead : ℕ} (hsame : SameChunks cfg L position v v' s s' d d')
    (hread : ReadsInChunk cfg L k kvHead)
    (hi : i.chunkTokens = chunkTokens ∧ i.hd = cfg.headDim ∧ i.layerKOffset = layerKOff cfg k ∧
      i.layerVOffset = layerVOff cfg k ∧ i.pageTable = s.pageTable ∧ i.posTable = s.posTable)
    (hi' : i'.chunkTokens = chunkTokens ∧ i'.hd = cfg.headDim ∧ i'.layerKOffset = layerKOff cfg k ∧
      i'.layerVOffset = layerVOff cfg k ∧ i'.pageTable = s'.pageTable ∧ i'.posTable = s'.posTable) :
    (List.range (position + 1)).map (i.token v d kvHead cfg.headDim) =
      (List.range (position + 1)).map (i'.token v' d' kvHead cfg.headDim) := by
  obtain ⟨hct, hhd, hko, hvo, hpt, hpos⟩ := hi
  obtain ⟨hct', hhd', hko', hvo', hpt', hpos'⟩ := hi'
  refine List.map_congr_left fun t ht => ?_
  have ht : t < position + 1 := List.mem_range.mp ht
  have hc : t / chunkTokens ≤ position / chunkTokens := Nat.div_le_div_right (by omega)
  have hrow : ∀ off ≤ layerVOff cfg k, ∀ e < cfg.headDim,
      off + f32Bytes * ((kvHead * chunkTokens + t % chunkTokens) * cfg.headDim + e) <
        chunkKvBytes cfg L := fun off hoff e he => by
    have hmod : t % chunkTokens < chunkTokens := Nat.mod_lt _ (by decide)
    have hidx : (kvHead * chunkTokens + t % chunkTokens) * cfg.headDim + e <
        (kvHead + 1) * chunkTokens * cfg.headDim :=
      rowMajor_lt (by rw [Nat.succ_mul]; omega) he
    rw [ReadsInChunk] at hread
    simp only [f32Bytes] at hread ⊢
    omega
  have hkv : layerKOff cfg k ≤ layerVOff cfg k := Nat.le_add_right _ _
  simp only [AttnPagedInst.token, hct, hhd, hko, hvo, hpt, hpos, hct', hhd', hko', hvo', hpt',
    hpos']
  refine Prod.ext ?_ (Prod.ext ?_ ?_)
  · funext e
    simp only [Nat.add_assoc]
    exact hsame.pool _ hc _ (by simpa only [Nat.add_assoc] using hrow _ hkv e e.isLt)
  · funext e
    simp only [Nat.add_assoc]
    exact hsame.pool _ hc _ (by simpa only [Nat.add_assoc] using hrow _ le_rfl e e.isLt)
  · rw [hsame.pos (t * 3 + 0) (by omega), hsame.pos (t * 3 + 1) (by omega),
      hsame.pos (t * 3 + 2) (by omega)]

end Tokens

end Braidinfer.Megakernel
