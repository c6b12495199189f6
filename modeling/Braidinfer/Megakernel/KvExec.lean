/-
What an attention layer leaves in the KV cache, in prefill and in decode (the emission orders of
`emit_attention_layer` and the kernels of `megakernel_ops.hip`).

Instructions are executed on the activation buffers and the KV pool; projections, norms, rotations
and attention are uninterpreted functions of the rows they read.  Decode copies the K rows out of
`k_attn` before `OP_QK_NORM` and `OP_MROPE` work on it in place; prefill writes them out after.

* `execAll`: the effect of a list of instructions;
* `exec_projections`, `exec_qkNormInsts`, `exec_mropeInst`: the rows of `k_attn` and `v_attn`;
* `decodeLayer_pool`, `prefillLayer_pool`: what a layer stores in the pool;
* `kvCache_agrees_iff`: **the two caches are the same exactly if the rotation of the normalised K
  row is the K row itself**.
-/
import Braidinfer.Lib.RowMem
import Braidinfer.Megakernel.KvLayout

namespace Braidinfer.Megakernel

open Braidinfer.Lib Braidinfer.PagedKv

/-! ### Execution -/

/-- The device memory an attention layer works on: the activation buffers, the KV pool at its raw
addresses, and the partial states of the quantized attention. -/
structure DevMem (V : Type*) where
  bufs : RowMem (Side × Buf) V
  pool : ℕ → V
  scratch : ℕ → V

/-- The float operations, as functions of the rows they read. -/
structure FloatOps (V : Type*) where
  rmsNorm : Weight → {dim : ℕ} → (Fin dim → V) → Fin dim → V
  linear : Weight → {inDim : ℕ} → (Fin inDim → V) → (outDim : ℕ) → Fin outDim → V
  qkNorm : Weight → {hd : ℕ} → (Fin hd → V) → Fin hd → V
  rope : (rd : ℕ) → (sections : ℕ × ℕ × ℕ) → (pos : ℤ × ℤ × ℤ) → {hd : ℕ} → (Fin hd → V) →
    Fin hd → V
  attnPaged : AttnPagedInst → DevMem V → (head hd : ℕ) → Fin hd → V
  attnPagedQ : AttnPagedQInst → DevMem V → ℕ → V
  gate : V → V → V
  add : V → V → V

/-- What the kernels read beside the float memory: the position ids of every token on either side,
and the page table at a device address. -/
structure Tables where
  posIds : Side → ℕ → ℤ × ℤ × ℤ
  pageTable : ℕ → ℕ → ℕ

section Exec

variable {V : Type*}

namespace DevMem

/-- Row `r` of the rows of length `len` at a pointer. -/
def load (d : DevMem V) (p : Ptr) (len r : ℕ) : Fin len → V :=
  match p.block with
  | .buffer side b => d.bufs.row (side, b) p.off len r
  | .kvPool => fun i => d.pool (p.off + 4 * (r * len + i))

/-- Store `n` rows of length `len` at a pointer. -/
def store (d : DevMem V) (p : Ptr) (n len : ℕ) (f : ℕ → Fin len → V) : DevMem V :=
  match p.block with
  | .buffer side b => { d with bufs := d.bufs.setRows (side, b) p.off n len f }
  | .kvPool =>
      { d with pool := applyStores d.pool ((List.range n).flatMap fun r =>
          (List.finRange len).map fun i : Fin len => (p.off + 4 * (r * len + i), f r i)) }

end DevMem

/-- The kernels. -/
def exec (ops : FloatOps V) (T : Tables) (d : DevMem V) : Inst → DevMem V
  | .rmsNorm i =>
      d.store i.output i.gridX i.dim fun r => ops.rmsNorm i.weight (d.load i.input i.dim r)
  | .linearProj i =>
      d.store i.output i.batch i.outDim fun r =>
        ops.linear i.weight (d.load i.input i.inDim r) i.outDim
  | .d2dCopy i => d.store i.dst 1 i.nElems fun _ => d.load i.src i.nElems 0
  | .deinterleave i =>
      let rows := max 1 i.batch * i.numHeads
      let d' := d.store i.dstQ rows i.headDim fun r => d.load i.src i.headDim (r * 2)
      d'.store i.dstGate rows i.headDim fun r => d.load i.src i.headDim (r * 2 + 1)
  | .qkNorm i =>
      -- one virtual block for every head of every token
      let tokens := i.gridX / (i.nqh + i.nkh)
      let d' := d.store i.q (tokens * i.nqh) i.hd fun r => ops.qkNorm i.qNorm (d.load i.q i.hd r)
      d'.store i.k (tokens * i.nkh) i.hd fun r => ops.qkNorm i.kNorm (d'.load i.k i.hd r)
  | .mrope i =>
      let tokens := i.gridX / (i.nqh + i.nkh)
      let d' := d.store i.q (tokens * i.nqh) i.hd fun r =>
        ops.rope i.rd i.sections (T.posIds i.posIds (r / i.nqh)) (d.load i.q i.hd r)
      d'.store i.k (tokens * i.nkh) i.hd fun r =>
        ops.rope i.rd i.sections (T.posIds i.posIds (r / i.nkh)) (d'.load i.k i.hd r)
  | .kvWritePagedBatch i =>
      match i.src.block with
      | .buffer side b =>
          let src := fun j => d.bufs (side, b) (i.src.off + j)
          { d with
            pool := applyStores d.pool (batchStores i.pack (T.pageTable i.pageTable) src) }
      | .kvPool => d
  | .attnPagedQ i => if i.gridX = 0 then d else { d with scratch := ops.attnPagedQ i d }
  | .attnPaged i => d.store i.output i.localNqh i.hd fun h => ops.attnPaged i d h i.hd
  | .outputGate i =>
      d.store i.output 1 i.size fun r j =>
        ops.gate (d.load i.attnOut i.size r j) (d.load i.gate i.size r j)
  | .residualAdd i =>
      d.store i.output 1 i.size fun r j => ops.add (d.load i.a i.size r j) (d.load i.b i.size r j)
  -- no part of an attention layer
  | .embedding _ => d
  | .other _ => d

/-- A list of instructions. -/
def execAll (ops : FloatOps V) (T : Tables) (d : DevMem V) (is : List Inst) : DevMem V :=
  is.foldl (exec ops T) d

variable {ops : FloatOps V} {T : Tables} {d : DevMem V} {side side' : Side} {b b' : Buf}
  {n len off : ℕ} {f : ℕ → Fin len → V}

lemma execAll_append (is js : List Inst) :
    execAll ops T d (is ++ js) = execAll ops T (execAll ops T d is) js := List.foldl_append

@[simp] lemma execAll_nil : execAll ops T d [] = d := rfl

@[simp] lemma execAll_cons (i : Inst) (is : List Inst) :
    execAll ops T d (i :: is) = execAll ops T (exec ops T d i) is := rfl

/-! ### What an instruction writes -/

/-- The contents of a block. -/
def DevMem.block (d : DevMem V) : Block → ℕ → V
  | .buffer side b => d.bufs (side, b)
  | .kvPool => d.pool

/-- The float pointers an instruction writes through. -/
def Inst.outputs : Inst → List Ptr
  | .rmsNorm i => [i.output]
  | .linearProj i => [i.output]
  | .d2dCopy i => [i.dst]
  | .deinterleave i => [i.dstQ, i.dstGate]
  | .qkNorm i => [i.q, i.k]
  | .mrope i => [i.q, i.k]
  | .kvWritePagedBatch _ => [.pool 0]
  | .attnPaged i => [i.output]
  | .outputGate i => [i.output]
  | .residualAdd i => [i.output]
  | .attnPagedQ _ | .embedding _ | .other _ => []

/-- No instruction of the list writes to the block. -/
def Avoids (blk : Block) (is : List Inst) : Prop := ∀ i ∈ is, ∀ q ∈ i.outputs, q.block ≠ blk

namespace DevMem

/-- A store touches only the block of its pointer. -/
lemma store_of_ne {p : Ptr} {blk : Block} (h : p.block ≠ blk) :
    (d.store p n len f).block blk = d.block blk := by
  obtain ⟨pblk, off⟩ := p
  cases pblk with
  | buffer side b =>
      cases blk with
      | buffer side' b' =>
          refine RowMem.setRows_of_ne fun heq => h ?_
          rw [(Prod.mk.inj heq).1, (Prod.mk.inj heq).2]
      | kvPool => rfl
  | kvPool =>
      cases blk with
      | buffer side' b' => rfl
      | kvPool => exact absurd rfl h

/-- The floats of a row that was stored to a buffer. -/
lemma store_apply {r : ℕ} (hr : r < n) (i : Fin len) :
    (d.store (.buf side b) n len f).bufs (side, b) (r * len + i) = f r i := by
  have h : RowMem.setRows d.bufs (side, b) 0 n len f (side, b) (0 + (r * len + i)) = f r i :=
    RowMem.setRows_apply hr i
  rwa [Nat.zero_add] at h

/-- A row that was stored to a buffer. -/
lemma load_store {r : ℕ} (hr : r < n) :
    (d.store (.buf side b) n len f).load (.buf side b) len r = f r :=
  RowMem.row_setRows hr

end DevMem

/-- **The frame of an instruction.** -/
lemma exec_of_avoids {i : Inst} {blk : Block} (h : ∀ q ∈ i.outputs, q.block ≠ blk) :
    (exec ops T d i).block blk = d.block blk := by
  cases i with
  | deinterleave i =>
      simp only [Inst.outputs, List.mem_cons, List.not_mem_nil, or_false, forall_eq_or_imp,
        forall_eq] at h
      exact (DevMem.store_of_ne h.2).trans (DevMem.store_of_ne h.1)
  | qkNorm i =>
      simp only [Inst.outputs, List.mem_cons, List.not_mem_nil, or_false, forall_eq_or_imp,
        forall_eq] at h
      exact (DevMem.store_of_ne h.2).trans (DevMem.store_of_ne h.1)
  | mrope i =>
      simp only [Inst.outputs, List.mem_cons, List.not_mem_nil, or_false, forall_eq_or_imp,
        forall_eq] at h
      exact (DevMem.store_of_ne h.2).trans (DevMem.store_of_ne h.1)
  | kvWritePagedBatch i =>
      have hpool : Block.kvPool ≠ blk := h (.pool 0) (List.mem_singleton.mpr rfl)
      cases blk with
      | kvPool => exact absurd rfl hpool
      | buffer side b =>
          simp only [exec]
          cases i.src.block <;> rfl
  | attnPagedQ i =>
      simp only [exec]
      split_ifs
      · rfl
      · cases blk <;> rfl
  | embedding _ => rfl
  | other _ => rfl
  | rmsNorm i => exact DevMem.store_of_ne (h _ (List.mem_singleton.mpr rfl))
  | linearProj i => exact DevMem.store_of_ne (h _ (List.mem_singleton.mpr rfl))
  | d2dCopy i => exact DevMem.store_of_ne (h _ (List.mem_singleton.mpr rfl))
  | attnPaged i => exact DevMem.store_of_ne (h _ (List.mem_singleton.mpr rfl))
  | outputGate i => exact DevMem.store_of_ne (h _ (List.mem_singleton.mpr rfl))
  | residualAdd i => exact DevMem.store_of_ne (h _ (List.mem_singleton.mpr rfl))

/-- The frame of a list of instructions. -/
lemma execAll_of_avoids {is : List Inst} {blk : Block} (h : Avoids blk is) :
    (execAll ops T d is).block blk = d.block blk := by
  induction is generalizing d with
  | nil => rfl
  | cons i is ih =>
      rw [execAll_cons, ih fun j hj => h j (List.mem_cons_of_mem _ hj),
        exec_of_avoids (h i List.mem_cons_self)]

end Exec

/-! ### The rows of K and V -/

section Rows

variable {V : Type*} {ops : FloatOps V} {T : Tables} {d : DevMem V} {cfg : AttnConfig}
  {layer n : ℕ} {side : Side}

/-- The buffer of the K rows or of the V rows. -/
def kvBuf (isV : Bool) : Buf := if isV then .vAttn else .kAttn

/-- The K row or the V row of a token, as a function of the layer input: norm and projection. -/
def projRow (ops : FloatOps V) (cfg : AttnConfig) (layer : ℕ) (isV : Bool)
    (x : Fin cfg.hiddenSize → V) : Fin (cfg.numKvHeads * cfg.headDim) → V :=
  ops.linear ⟨layer, if isV then .v else .k⟩ (ops.rmsNorm ⟨layer, .inputNorm⟩ x) _

/-- The part of head `h` of such a row. -/
def headRow {nkh hd : ℕ} (y : Fin (nkh * hd) → V) (h : Fin nkh) : Fin hd → V := fun i =>
  y ⟨h * hd + i, calc h * hd + i < h * hd + hd := Nat.add_lt_add_left i.isLt _
    _ = (h + 1) * hd := (Nat.succ_mul _ _).symm
    _ ≤ nkh * hd := Nat.mul_le_mul_right _ h.isLt⟩

lemma DevMem.load_congr {d d' : DevMem V} {b : Buf} (h : d.block (.buffer side b) =
    d'.block (.buffer side b)) (len r : ℕ) :
    d.load (.buf side b) len r = d'.load (.buf side b) len r := by
  funext i
  exact congrFun h _

/-- The rows of a projection from `normed`, whatever else runs around it. -/
lemma exec_normed_linear {b : Buf} {w w' : Weight} {dim outDim : ℕ} (before after : List Inst)
    (hbefore : Avoids (.buffer side .normed) before) (hafter : Avoids (.buffer side b) after)
    {t : ℕ} (ht : t < n) (j : Fin outDim) :
    (execAll ops T d (.rmsNorm ⟨n, .buf side .normed, .buf side .hidden, w, dim⟩ :: before ++
        batchedLinearProj w' (.buf side b) (.buf side .normed) outDim dim n :: after)).bufs (side, b)
        (t * outDim + j) =
      ops.linear w' (ops.rmsNorm w (d.bufs.row (side, .hidden) 0 dim t)) outDim j := by
  rw [execAll_append, execAll_cons, execAll_cons]
  refine (congrFun (execAll_of_avoids hafter) _).trans ?_
  refine (DevMem.store_apply ht j).trans ?_
  rw [DevMem.load_congr (execAll_of_avoids hbefore)]
  exact congrArg (fun row => ops.linear w' row outDim j) (DevMem.load_store ht)

/-- After the projections `k_attn` and `v_attn` hold the projected rows. -/
lemma exec_projections (isV : Bool) {t : ℕ} (ht : t < n)
    (j : Fin (cfg.numKvHeads * cfg.headDim)) :
    (execAll ops T d (projections cfg layer side n)).bufs (side, kvBuf isV)
        (t * (cfg.numKvHeads * cfg.headDim) + j) =
      projRow ops cfg layer isV (d.bufs.row (side, .hidden) 0 cfg.hiddenSize t) j := by
  cases isV with
  | false =>
      refine exec_normed_linear [_] [_, _] ?_ ?_ ht j
      · simp [Avoids, batchedLinearProj, Inst.outputs, Ptr.buf]
      · cases cfg.hasOutputGate <;> simp [Avoids, batchedLinearProj, Inst.outputs, Ptr.buf]
  | true =>
      refine exec_normed_linear [_, _] [_] ?_ ?_ ht j
      · simp [Avoids, batchedLinearProj, Inst.outputs, Ptr.buf]
      · cases cfg.hasOutputGate <;> simp [Avoids, Inst.outputs, Ptr.buf]

/-- The KV pool is not written by the projections, the norm, the rotation or the output. -/
lemma projections_avoids : Avoids .kvPool (projections cfg layer side n) := by
  cases hg : cfg.hasOutputGate <;>
    simp [Avoids, projections, batchedLinearProj, Inst.outputs, Ptr.buf, hg]

lemma qkNormInsts_avoids {blk : Block} (hq : blk ≠ .buffer side .qAttn)
    (hk : blk ≠ .buffer side .kAttn) : Avoids blk (qkNormInsts cfg layer side n) := by
  cases hn : cfg.hasQkNorm <;>
    simp [Avoids, qkNormInsts, Inst.outputs, Ptr.buf, hn, hq.symm, hk.symm]

lemma mropeInst_avoids {blk : Block} (hq : blk ≠ .buffer side .qAttn)
    (hk : blk ≠ .buffer side .kAttn) : Avoids blk [mropeInst cfg side n] := by
  simp [Avoids, mropeInst, Inst.outputs, Ptr.buf, hq.symm, hk.symm]

lemma outputInsts_avoids : Avoids .kvPool (outputInsts cfg layer side n) := by
  by_cases hg : cfg.hasOutputGate = true <;> by_cases hn : 1 < n <;> cases side <;>
    simp [Avoids, outputInsts, batchedLinearProj, Inst.outputs, Ptr.buf, hg, hn]

/-- A projected row, head by head. -/
lemma load_projections (ops : FloatOps V) (T : Tables) (d : DevMem V) (cfg : AttnConfig)
    (layer : ℕ) (side : Side) (isV : Bool) {t : ℕ} (ht : t < n) (h : Fin cfg.numKvHeads) :
    (execAll ops T d (projections cfg layer side n)).load (.buf side (kvBuf isV)) cfg.headDim
        (t * cfg.numKvHeads + h) =
      headRow (projRow ops cfg layer isV (d.bufs.row (side, .hidden) 0 cfg.hiddenSize t)) h := by
  funext i
  have hidx : 0 + ((t * cfg.numKvHeads + h) * cfg.headDim + i) =
      t * (cfg.numKvHeads * cfg.headDim) + (h * cfg.headDim + i) := by ring
  rw [headRow, ← exec_projections isV ht]
  change RowMem.row _ _ _ _ _ _ = _
  rw [RowMem.row]
  exact congrArg _ hidx

/-- The K row that attention uses: normalised, if the model has QK-norm. -/
def kNormed (ops : FloatOps V) (cfg : AttnConfig) (layer : ℕ) (row : Fin cfg.headDim → V) :
    Fin cfg.headDim → V :=
  if cfg.hasQkNorm then ops.qkNorm ⟨layer, .kNorm⟩ row else row

/-- The number of tokens that the grid of a per-head kernel covers. -/
lemma tokens_of_grid (hpos : 0 < cfg.numKvHeads) :
    n * (cfg.numQHeads + cfg.numKvHeads) / (cfg.numQHeads + cfg.numKvHeads) = n :=
  Nat.mul_div_cancel _ (by omega)

/-- QK-norm works on every K row in place. -/
lemma load_qkNormInsts {r : ℕ} (hr : r < n * cfg.numKvHeads) :
    (execAll ops T d (qkNormInsts cfg layer side n)).load (.buf side .kAttn) cfg.headDim r =
      kNormed ops cfg layer (d.load (.buf side .kAttn) cfg.headDim r) := by
  have hpos : 0 < cfg.numKvHeads := Nat.pos_of_ne_zero fun h0 => by simp [h0] at hr
  rw [qkNormInsts, kNormed]
  by_cases hn : cfg.hasQkNorm = true
  · rw [if_pos hn, if_pos hn]
    refine (DevMem.load_store (by rwa [tokens_of_grid hpos])).trans ?_
    refine congrArg (ops.qkNorm _) (DevMem.load_congr (DevMem.store_of_ne ?_) _ _)
    simp [Ptr.buf]
  · rw [if_neg hn, if_neg hn, execAll_nil]

/-- So does the rotation. -/
lemma load_mropeInst {r : ℕ} (hr : r < n * cfg.numKvHeads) :
    (execAll ops T d [mropeInst cfg side n]).load (.buf side .kAttn) cfg.headDim r =
      ops.rope cfg.ropeDim cfg.mropeSections (T.posIds side (r / cfg.numKvHeads))
        (d.load (.buf side .kAttn) cfg.headDim r) := by
  have hpos : 0 < cfg.numKvHeads := Nat.pos_of_ne_zero fun h0 => by simp [h0] at hr
  refine (DevMem.load_store (by rwa [tokens_of_grid hpos])).trans ?_
  refine congrArg (ops.rope _ _ _) (DevMem.load_congr (DevMem.store_of_ne ?_) _ _)
  simp [Ptr.buf]

end Rows

/-! ### Decode and prefill of one layer -/

section Layers

variable {V : Type*} {ops : FloatOps V} {T : Tables} {d : DevMem V} {cfg : AttnConfig}
  {layer L k n : ℕ}

/-- The fields of the attention instructions that a decode step patches. -/
structure AttnPatch where
  gridQ : ℕ
  scratch : ℕ
  quantPageTable : ℕ
  quantSeqLen : ℕ
  pageTable : ℕ
  posTable : ℕ
  seqLen : ℕ
  partialState : ℕ

/-- The attention instructions of a decode step, patched. -/
def decodeAttn (cfg : AttnConfig) (layer k : ℕ) (a : AttnPatch) : List Inst :=
  [ .attnPagedQ { attnPagedQInst cfg layer .act with
                  gridX := a.gridQ, scratch := a.scratch, quantPageTable := a.quantPageTable,
                  posTable := a.posTable, quantSeqLen := a.quantSeqLen },
    .attnPaged { attnPagedInst cfg layer k (.buf .act .attnOut) (.buf .act .qAttn) 1 with
                 pageTable := a.pageTable, posTable := a.posTable, seqLen := a.seqLen,
                 partialState := a.partialState } ]

/-- The instructions of an attention layer in a decode program, its KV copies and its attention
instructions patched. -/
def decodeLayer (cfg : AttnConfig) (layer k : ℕ) (copies : List D2dCopyInst) (a : AttnPatch) :
    List Inst :=
  projections cfg layer .act 1 ++ copies.map .d2dCopy ++ qkNormInsts cfg layer .act 1 ++
    [mropeInst cfg .act 1] ++ decodeAttn cfg layer k a ++ outputInsts cfg layer .act 1

/-- Nothing patched yet. -/
def AttnPatch.none : AttnPatch := ⟨0, 0, 0, 0, 0, 0, 1, 0⟩

lemma nullCopies_eq (cfg : AttnConfig) (hs : List ℕ) :
    nullCopies cfg hs = (hs.flatMap (headCopies cfg fun _ => (0, 0))).map .d2dCopy := by
  rw [nullCopies, List.map_flatMap]
  rfl

/-- That is what the compiler emits. -/
lemma emitAttentionLayer_decode (cfg : AttnConfig) (layer k : ℕ) (e : Emitted) :
    (emitAttentionLayer cfg layer .act 1 (.pagedKv k) e).instructions =
      e.instructions ++ decodeLayer cfg layer k (layerCopies cfg fun _ => (0, 0)) .none := by
  have hkv : ∀ e : Emitted, (emitKvWrites cfg .act e).instructions =
      e.instructions ++ (layerCopies cfg fun _ => (0, 0)).map .d2dCopy := by
    intro e
    obtain ⟨acc, hfold, -, -⟩ := foldl_emitKvCopy cfg (List.range cfg.numKvHeads) e []
    rw [emitKvWrites, hfold, nullCopies_eq]
    rfl
  simp only [emitAttentionLayer, emitVariant, Emitted.push, hkv, decodeLayer, decodeAttn,
    List.append_assoc]
  rfl

/-- The instructions of an attention layer in a prefill program for `n` tokens. -/
def prefillLayer (cfg : AttnConfig) (layer k n startPos pageTablePtr positionTablePtr : ℕ) :
    List Inst :=
  (emitAttentionLayer cfg layer .prefill n
    (.prefillPagedKv k startPos pageTablePtr positionTablePtr) ⟨[], [], [], [], []⟩).instructions

/-- The causal attention of a prefill layer. -/
def prefillAttn (cfg : AttnConfig) (layer k startPos pageTablePtr positionTablePtr : ℕ) (ts : List ℕ) :
    List Inst :=
  ts.map fun t =>
    let stride := t * cfg.numQHeads * cfg.headDim
    .attnPaged { attnPagedInst cfg layer k ((Ptr.buf .prefill .attnOut).add stride)
                   ((Ptr.buf .prefill .qAttn).add stride) (startPos + t + 1) with
                 pageTable := pageTablePtr, posTable := positionTablePtr }

lemma foldl_emitPrefillAttn (startPos pt post : ℕ) (ts : List ℕ) (e : Emitted) :
    (ts.foldl (emitPrefillAttn cfg layer k .prefill startPos pt post) e).instructions =
      e.instructions ++ prefillAttn cfg layer k startPos pt post ts := by
  induction ts generalizing e with
  | nil => simp [prefillAttn]
  | cons t ts ih =>
      rw [List.foldl_cons, ih]
      simp [emitPrefillAttn, prefillAttn, Emitted.push]

/-- Its parts: the cache is written after the norm and the rotation. -/
lemma prefillLayer_eq (startPos pt post : ℕ) :
    prefillLayer cfg layer k n startPos pt post =
      projections cfg layer .prefill n ++ qkNormInsts cfg layer .prefill n ++
        [mropeInst cfg .prefill n] ++
        [.kvWritePagedBatch (batchInst cfg k false pt startPos n),
          .kvWritePagedBatch (batchInst cfg k true pt startPos n)] ++
        prefillAttn cfg layer k startPos pt post (List.range n) ++
        outputInsts cfg layer .prefill n := by
  simp only [prefillLayer, emitAttentionLayer, emitVariant, Emitted.push, foldl_emitPrefillAttn,
    List.append_assoc]
  rfl

/-! ### What a layer stores in the pool -/

/-- Copies into the pool leave the buffers alone. -/
lemma execAll_copies {copies : List D2dCopyInst}
    (hcopies : ∀ c ∈ copies, c.dst.block = .kvPool ∧ ∃ b, c.src.block = .buffer .act b) :
    (execAll ops T d (copies.map .d2dCopy)).bufs = d.bufs ∧
      (execAll ops T d (copies.map .d2dCopy)).pool = applyStores d.pool
        (copies.flatMap (copyStores fun b => d.bufs (.act, b))) := by
  induction copies generalizing d with
  | nil => exact ⟨rfl, rfl⟩
  | cons c copies ih =>
      obtain ⟨hdst, b, hsrc⟩ := hcopies c List.mem_cons_self
      have hone : exec ops T d (.d2dCopy c) = { d with
          pool := applyStores d.pool (copyStores (fun b => d.bufs (.act, b)) c) } := by
        obtain ⟨gridX, ⟨dstBlock, dstOff⟩, ⟨srcBlock, srcOff⟩, nElems⟩ := c
        obtain rfl : dstBlock = .kvPool := hdst
        obtain rfl : srcBlock = .buffer .act b := hsrc
        simp only [exec, DevMem.store, DevMem.load, copyStores, rowStores, RowMem.row,
          List.range_one, List.flatMap_singleton, Nat.zero_mul, Nat.zero_add]
        rw [← List.map_coe_finRange_eq_range, List.map_map]
        rfl
      obtain ⟨hbufs, hpool⟩ := ih (d := exec ops T d (.d2dCopy c)) fun c' hc' =>
        hcopies c' (List.mem_cons_of_mem _ hc')
      rw [List.map_cons, execAll_cons, hbufs, hpool, hone, List.flatMap_cons, applyStores_append]
      exact ⟨rfl, rfl⟩

/-- The attention of either kind writes to the activation buffers only. -/
lemma decodeAttn_avoids (a : AttnPatch) : Avoids .kvPool (decodeAttn cfg layer k a) := by
  simp [Avoids, decodeAttn, Inst.outputs, attnPagedInst, Ptr.buf]

lemma prefillAttn_avoids (startPos pt post : ℕ) (ts : List ℕ) :
    Avoids .kvPool (prefillAttn cfg layer k startPos pt post ts) := by
  intro i hi q hq
  obtain ⟨t, -, rfl⟩ := List.mem_map.mp hi
  obtain rfl := List.mem_singleton.mp hq
  simp [attnPagedInst, Ptr.buf, Ptr.add]

lemma layerCopies_blocks (dst : ℕ → ℕ × ℕ) :
    ∀ c ∈ layerCopies cfg dst, c.dst.block = .kvPool ∧ ∃ b, c.src.block = .buffer .act b := by
  intro c hc
  obtain ⟨h, -, hc⟩ := List.mem_flatMap.mp hc
  simp only [headCopies, List.mem_cons, List.not_mem_nil, or_false] at hc
  rcases hc with rfl | rfl
  · exact ⟨rfl, .kAttn, rfl⟩
  · exact ⟨rfl, .vAttn, rfl⟩

/-- **What a decode layer stores**: the rows that the projections left. -/
lemma decodeLayer_pool (dst : ℕ → ℕ × ℕ) (a : AttnPatch) :
    (execAll ops T d (decodeLayer cfg layer k (layerCopies cfg dst) a)).pool =
      applyStores d.pool ((layerCopies cfg dst).flatMap (copyStores fun b =>
        (execAll ops T d (projections cfg layer .act 1)).bufs (.act, b))) := by
  have hkeep : ∀ (d' : DevMem V) (is : List Inst), Avoids .kvPool is →
      (execAll ops T d' is).pool = d'.pool := fun d' is h => execAll_of_avoids h
  simp only [decodeLayer, execAll_append]
  rw [hkeep _ _ outputInsts_avoids, hkeep _ _ (decodeAttn_avoids a),
    hkeep _ _ (mropeInst_avoids (by simp) (by simp)),
    hkeep _ _ (qkNormInsts_avoids (by simp) (by simp)),
    (execAll_copies (layerCopies_blocks dst)).2, hkeep _ _ projections_avoids]

/-- **What a prefill layer stores**: the rows that the norm and the rotation left. -/
lemma prefillLayer_pool (startPos pt post : ℕ) :
    let d' := execAll ops T (execAll ops T (execAll ops T d (projections cfg layer .prefill n))
      (qkNormInsts cfg layer .prefill n)) [mropeInst cfg .prefill n]
    (execAll ops T d (prefillLayer cfg layer k n startPos pt post)).pool =
      applyStores d.pool
        (batchStores (batchInst cfg k false pt startPos n).pack (T.pageTable pt)
            (d'.bufs (.prefill, .kAttn)) ++
          batchStores (batchInst cfg k true pt startPos n).pack (T.pageTable pt)
            (d'.bufs (.prefill, .vAttn))) := by
  intro d'
  have hkeep : ∀ (d' : DevMem V) (is : List Inst), Avoids .kvPool is →
      (execAll ops T d' is).pool = d'.pool := fun d' is h => execAll_of_avoids h
  have hpool : d'.pool = d.pool := by
    rw [hkeep _ _ (mropeInst_avoids (by simp) (by simp)),
      hkeep _ _ (qkNormInsts_avoids (by simp) (by simp)), hkeep _ _ projections_avoids]
  rw [prefillLayer_eq]
  simp only [execAll_append]
  rw [hkeep _ _ outputInsts_avoids, hkeep _ _ (prefillAttn_avoids startPos pt post _),
    applyStores_append, ← hpool]
  simp only [execAll_cons, execAll_nil, exec, batchInst, Ptr.buf, Nat.zero_add]
  rfl

end Layers

/-! ### Rows in the pool -/

section Pool

variable {V : Type*} {cfg : AttnConfig} {L k n : ℕ} {m : KvMem} {s : SequenceState}

/-- The chunks of two tokens are the same or apart. -/
lemma tokenBase_separated (hx : s.Exclusive m.heap m.vram) {u u' : ℕ}
    (hu : u / chunkTokens < m.vram.slots.capacity) (hu' : u' / chunkTokens < m.vram.slots.capacity)
    (hne : u / chunkTokens ≠ u' / chunkTokens) :
    tokenBase m.heap m.vram s u + m.vram.chunkBytes ≤ tokenBase m.heap m.vram s u' ∨
      tokenBase m.heap m.vram s u' + m.vram.chunkBytes ≤ tokenBase m.heap m.vram s u := by
  have hlen : (s.order m.heap m.vram).length = m.vram.slots.capacity := by
    rw [hx.order_perm.length_eq, List.length_range]
  have hnd : (s.order m.heap m.vram).Nodup := hx.order_perm.nodup_iff.mpr List.nodup_range
  rw [← hlen] at hu hu'
  rw [tokenBase, tokenBase, List.getD_eq_getElem _ _ hu, List.getD_eq_getElem _ _ hu',
    SlotPool.slotPtr, SlotPool.slotPtr]
  have hslots : (s.order m.heap m.vram)[u / chunkTokens] ≠
      (s.order m.heap m.vram)[u' / chunkTokens] := by
    intro heq
    exact hne ((List.Nodup.getElem_inj_iff hnd).mp heq)
  have hstep : ∀ a b : ℕ, a < b → a * m.vram.chunkBytes + m.vram.chunkBytes ≤
      b * m.vram.chunkBytes := by
    intro a b hab
    rw [← Nat.succ_mul]
    exact Nat.mul_le_mul_right _ hab
  rcases Nat.lt_or_gt_of_ne hslots with hlt | hgt
  · have := hstep _ _ hlt
    omega
  · have := hstep _ _ hgt
    omega

/-- The address of float `i` of a row in the pool; `u` is the index of its token. -/
def rowAddr (cfg : AttnConfig) (k : ℕ) (base : ℕ → ℕ) (isV : Bool) (u h i : ℕ) : ℕ :=
  base u + rowOffset cfg k isV h (u % chunkTokens) + 4 * i

/-- **Distinct floats have distinct addresses**, in all chunks. -/
lemma rowAddr_inj (hx : s.Exclusive m.heap m.vram) (hbytes : m.vram.chunkBytes = chunkKvBytes cfg L)
    (hk : k < L) {u u' h h' i i' : ℕ} {isV isV' : Bool}
    (hu : u / chunkTokens < m.vram.slots.capacity) (hu' : u' / chunkTokens < m.vram.slots.capacity)
    (hh : h < cfg.numKvHeads) (hh' : h' < cfg.numKvHeads) (hi : i < cfg.headDim)
    (hi' : i' < cfg.headDim)
    (heq : rowAddr cfg k (tokenBase m.heap m.vram s) isV u h i =
      rowAddr cfg k (tokenBase m.heap m.vram s) isV' u' h' i') :
    isV = isV' ∧ u = u' ∧ h = h' ∧ i = i' := by
  have ht : u % chunkTokens < chunkTokens := Nat.mod_lt _ (by decide)
  have ht' : u' % chunkTokens < chunkTokens := Nat.mod_lt _ (by decide)
  have hin : rowOffset cfg k isV h _ + _ ≤ _ := rowOffset_add_le hk hh ht
  have hin' : rowOffset cfg k isV' h' _ + _ ≤ _ := rowOffset_add_le hk hh' ht'
  rw [← hbytes] at hin hin'
  simp only [f32Bytes] at hin hin'
  simp only [rowAddr] at heq
  by_cases hchunk : u / chunkTokens = u' / chunkTokens
  · have hbase : tokenBase m.heap m.vram s u = tokenBase m.heap m.vram s u' := by
      rw [tokenBase, tokenBase, hchunk]
    by_cases hrow : (k, isV, h, u % chunkTokens) = (k, isV', h', u' % chunkTokens)
    · simp only [Prod.mk.injEq, true_and] at hrow
      obtain ⟨rfl, rfl, hmod⟩ := hrow
      refine ⟨rfl, ?_, rfl, ?_⟩
      · rw [← Nat.div_add_mod u chunkTokens, hchunk, hmod, Nat.div_add_mod]
      · rw [hbase, hmod] at heq
        omega
    · have hdis := rowOffset_disjoint hh hh' ht ht' hrow
      simp only [f32Bytes] at hdis
      omega
  · have hsep := tokenBase_separated hx hu hu' hchunk
    omega

/-- The floats of a slab: K or V, token, head and element. -/
def slabKeys (n nkh hd : ℕ) : List (Bool × ℕ × ℕ × ℕ) :=
  [false, true].product ((List.range n).product ((List.range nkh).product (List.range hd)))

lemma slabKeys_nodup (n nkh hd : ℕ) : (slabKeys n nkh hd).Nodup :=
  List.Nodup.product (by decide)
    (List.nodup_range.product (List.nodup_range.product List.nodup_range))

lemma mem_slabKeys {n nkh hd : ℕ} {isV : Bool} {t h i : ℕ} :
    (isV, t, h, i) ∈ slabKeys n nkh hd ↔ t < n ∧ h < nkh ∧ i < hd := by
  simp [slabKeys, List.pair_mem_product]

/-- The stores of a slab, float by float. -/
lemma batchStores_keys {startPos : ℕ} (hfit : SlabFits cfg startPos n) (pt : ℕ)
    (pageTable : ℕ → ℕ) (src : Bool → ℕ → V) :
    batchStores (batchInst cfg k false pt startPos n).pack pageTable (src false) ++
        batchStores (batchInst cfg k true pt startPos n).pack pageTable (src true) =
      (slabKeys n cfg.numKvHeads cfg.headDim).map fun e =>
        (rowAddr cfg k (fun u => pageTable (u / chunkTokens)) e.1 (startPos + e.2.1) e.2.2.1 e.2.2.2,
          src e.1 ((e.2.1 * cfg.numKvHeads + e.2.2.1) * cfg.headDim + e.2.2.2)) := by
  rw [batchStores_eq hfit, batchStores_eq hfit]
  simp [slabKeys, rowStores, List.product, List.map_flatMap, rowAddr, Function.comp_def]

end Pool

/-! ### Both caches -/

section Caches

variable {V : Type*} {cfg : AttnConfig} {L layer k : ℕ} {p : MegakernelProgram} {m m' : KvMem}
  {s s' : SequenceState} {steps : List (ℕ × ℕ)} {ps : List MegakernelProgram} {positions : List ℤ}

/-- Put layer inputs into `hidden`. -/
def DevMem.setHidden (d : DevMem V) (side : Side) (n : ℕ) {hs : ℕ} (X : ℕ → Fin hs → V) : DevMem V :=
  d.store (.buf side .hidden) n hs X

lemma setHidden_row {d : DevMem V} {side : Side} {n t hs : ℕ} {X : ℕ → Fin hs → V} (ht : t < n) :
    (d.setHidden side n X).bufs.row (side, .hidden) 0 hs t = X t :=
  DevMem.load_store ht

/-- One layer of a series of decode steps: in step `t` the layer gets the input `X t`. -/
def decodeRun (ops : FloatOps V) (cfg : AttnConfig) (layer k : ℕ) (T : ℕ → Tables)
    (A : ℕ → AttnPatch) (X : ℕ → Fin cfg.hiddenSize → V) (d : DevMem V)
    (ps : List MegakernelProgram) : DevMem V :=
  ps.zipIdx.foldl (fun d (p, t) => execAll ops (T t) (d.setHidden .act 1 fun _ => X t)
    (decodeLayer cfg layer k (layerSlice cfg k (kvCopies p.instructions)) (A t))) d

/-- One layer of a prefill of `n` tokens. -/
def prefillRun (ops : FloatOps V) (cfg : AttnConfig) (layer k : ℕ) (T : Tables)
    (startPos n pt post : ℕ) (X : ℕ → Fin cfg.hiddenSize → V) (d : DevMem V) : DevMem V :=
  execAll ops T (d.setHidden .prefill n X) (prefillLayer cfg layer k n startPos pt post)

/-- What attention makes of a K row: the norm, then the rotation. -/
def rotatedK (ops : FloatOps V) (cfg : AttnConfig) (layer : ℕ) (pos : ℤ × ℤ × ℤ)
    (row : Fin cfg.headDim → V) : Fin cfg.headDim → V :=
  ops.rope cfg.ropeDim cfg.mropeSections pos (kNormed ops cfg layer row)

/-- The rows of `normed`-projected tokens, one after the other. -/
def projSlab (ops : FloatOps V) (cfg : AttnConfig) (layer : ℕ) (X : ℕ → Fin cfg.hiddenSize → V)
    (dflt : V) (isV : Bool) (j : ℕ) : V :=
  let width := cfg.numKvHeads * cfg.headDim
  if h : 0 < width then projRow ops cfg layer isV (X (j / width)) ⟨j % width, Nat.mod_lt _ h⟩
  else dflt

lemma projSlab_apply (ops : FloatOps V) (X : ℕ → Fin cfg.hiddenSize → V) (dflt : V) (isV : Bool)
    (t : ℕ) (h : Fin cfg.numKvHeads) (i : Fin cfg.headDim) :
    projSlab ops cfg layer X dflt isV ((t * cfg.numKvHeads + h) * cfg.headDim + i) =
      headRow (projRow ops cfg layer isV (X t)) h i := by
  have hlt : h * cfg.headDim + i < cfg.numKvHeads * cfg.headDim := rowMajor_lt h.isLt i.isLt
  have hidx : (t * cfg.numKvHeads + h) * cfg.headDim + i =
      t * (cfg.numKvHeads * cfg.headDim) + (h * cfg.headDim + i) := by ring
  rw [projSlab, dif_pos (Nat.zero_lt_of_lt hlt), hidx]
  simp only [rowMajor_div hlt, rowMajor_mod hlt]
  rfl

lemma rowStores_congr {dst len : ℕ} {row row' : ℕ → V} (h : ∀ i < len, row i = row' i) :
    rowStores dst row len = rowStores dst row' len :=
  List.map_congr_left fun i hi => by rw [h i (List.mem_range.mp hi)]

/-- The stores of one decode step of the layer, whatever the memory before it. -/
lemma decodeStep_pool (ops : FloatOps V) (T : Tables) (a : AttnPatch)
    (X : ℕ → Fin cfg.hiddenSize → V)
    (dflt : V) (dst : ℕ → ℕ × ℕ) (t : ℕ) (d : DevMem V) :
    (execAll ops T (d.setHidden .act 1 fun _ => X t)
      (decodeLayer cfg layer k (layerCopies cfg dst) a)).pool =
      applyStores d.pool ((layerCopies cfg dst).flatMap (copyStores fun b j =>
        projSlab ops cfg layer X dflt (b == .vAttn)
          (t * (cfg.numKvHeads * cfg.headDim) + j))) := by
  rw [decodeLayer_pool]
  refine congrArg (applyStores _) ?_
  rw [copyStores_layer, copyStores_layer]
  refine List.flatMap_congr fun h hh => ?_
  have hrow : ∀ (isV : Bool) (i : Fin cfg.headDim),
      (execAll ops T (d.setHidden .act 1 fun _ => X t) (projections cfg layer .act 1)).bufs
          (.act, kvBuf isV) (h * cfg.headDim + i) =
        projSlab ops cfg layer X dflt isV
          (t * (cfg.numKvHeads * cfg.headDim) + (h * cfg.headDim + i)) := by
    intro isV i
    have hload := congrFun (load_projections ops T (d.setHidden .act 1 fun _ => X t) cfg layer .act
      isV Nat.zero_lt_one ⟨h, List.mem_range.mp hh⟩) i
    rw [setHidden_row Nat.zero_lt_one,
      ← projSlab_apply ops X dflt isV t ⟨h, List.mem_range.mp hh⟩ i] at hload
    have hfrom : 0 + ((0 * cfg.numKvHeads + h) * cfg.headDim + i) = h * cfg.headDim + i := by ring
    have hto : (t * cfg.numKvHeads + h) * cfg.headDim + i =
        t * (cfg.numKvHeads * cfg.headDim) + (h * cfg.headDim + i) := by ring
    rw [← hto, ← hload]
    exact congrArg _ hfrom.symm
  refine congrArg₂ (· ++ ·) ?_ ?_
  · exact rowStores_congr fun i hi => hrow false ⟨i, hi⟩
  · exact rowStores_congr fun i hi => hrow true ⟨i, hi⟩

/-- **The decode cache of a layer**: its stores are those of a batched write of the projected
rows. -/
lemma decodeRun_pool (ops : FloatOps V) (T : ℕ → Tables) (A : ℕ → AttnPatch)
    (X : ℕ → Fin cfg.hiddenSize → V) (d : DevMem V)
    (hslice : ∀ p ∈ ps, ∃ dst, layerSlice cfg k (kvCopies p.instructions) = layerCopies cfg dst) :
    (decodeRun ops cfg layer k T A X d ps).pool = applyStores d.pool
      (decodeStores cfg k ps fun b => projSlab ops cfg layer X (d.pool 0) (b == .vAttn)) := by
  have hrun : ∀ (es : List (MegakernelProgram × ℕ)) (d' : DevMem V),
      (∀ e ∈ es, ∃ dst, layerSlice cfg k (kvCopies e.1.instructions) = layerCopies cfg dst) →
      (es.foldl (fun d (p, t) => execAll ops (T t) (d.setHidden .act 1 fun _ => X t)
        (decodeLayer cfg layer k (layerSlice cfg k (kvCopies p.instructions)) (A t))) d').pool =
      applyStores d'.pool (es.flatMap fun (p, t) =>
        (layerSlice cfg k (kvCopies p.instructions)).flatMap (copyStores fun b j =>
          projSlab ops cfg layer X (d.pool 0) (b == .vAttn)
            (t * (cfg.numKvHeads * cfg.headDim) + j))) := by
    intro es
    induction es with
    | nil => exact fun d' _ => rfl
    | cons e es ih =>
        intro d' hes
        obtain ⟨dst, hdst⟩ := hes e List.mem_cons_self
        rw [List.foldl_cons, ih _ fun e' he' => hes e' (List.mem_cons_of_mem _ he'),
          List.flatMap_cons, applyStores_append]
        simp only [hdst]
        rw [decodeStep_pool]
  refine hrun _ d fun e he => hslice e.1 ?_
  exact List.fst_mem_of_mem_zipIdx he

/-- A slab of tokens on its way into the cache of a layer, by decode steps and by a batched write;
the sequence fits in the VRAM pool. -/
structure Slab (cfg : AttnConfig) (L k : ℕ) (p : MegakernelProgram) (m : KvMem) (s : SequenceState)
    (steps : List (ℕ × ℕ)) (ps : List MegakernelProgram) (positions : List ℤ) (m' : KvMem)
    (s' : SequenceState) : Prop where
  layer : k < L
  reached : Reached cfg L p m s
  chunkBytes : m.vram.chunkBytes = chunkKvBytes cfg L
  decode : decodeSteps p m s steps = some ps
  prefill : appendTokens m s positions = .ok (m', s')
  length : positions.length = steps.length
  words : SlabFits cfg s.seqLen steps.length
  vram : s.seqLen + steps.length ≤ chunkTokens * m.vram.slots.capacity

namespace Slab

variable (S : Slab cfg L k p m s steps ps positions m' s')

include S

/-- The page table of the prefill and the chunks of the decode steps are the same. -/
lemma pageTable_eq (table : ℕ → ℕ) {t : ℕ} (ht : t < steps.length) :
    writeEntries table (chunkPtrs m'.heap m'.vram s'.chunks) ((s.seqLen + t) / chunkTokens) =
      tokenBase m.heap m.vram s (s.seqLen + t) := by
  have hinv := S.reached.inv
  have happended := appended_slab hinv.exclusive hinv.shape S.prefill
  rw [S.length] at happended
  exact pageTable_slab happended hinv.chunkTokens table ht

/-- The rows that the stores of a slab leave in the pool. -/
lemma row_eq {stores : List (ℕ × V)} {pt : ℕ} {table : ℕ → ℕ} (src : Bool → ℕ → V) (mem : ℕ → V)
    (hperm : stores.Perm
      (batchStores (batchInst cfg k false pt s.seqLen steps.length).pack
          (writeEntries table (chunkPtrs m'.heap m'.vram s'.chunks)) (src false) ++
        batchStores (batchInst cfg k true pt s.seqLen steps.length).pack
          (writeEntries table (chunkPtrs m'.heap m'.vram s'.chunks)) (src true)))
    (isV : Bool) {t h i : ℕ} (ht : t < steps.length) (hh : h < cfg.numKvHeads)
    (hi : i < cfg.headDim) :
    applyStores mem stores (rowAddr cfg k (tokenBase m.heap m.vram s) isV (s.seqLen + t) h i) =
      src isV ((t * cfg.numKvHeads + h) * cfg.headDim + i) := by
  have hinv := S.reached.inv
  have hchunk : ∀ t < steps.length, (s.seqLen + t) / chunkTokens < m.vram.slots.capacity := by
    intro t ht
    have := S.vram
    exact Nat.div_lt_of_lt_mul (by omega)
  rw [batchStores_keys S.words] at hperm
  -- the addresses, with the chunks of the sequence in place of the page table
  have haddr : ∀ e ∈ slabKeys steps.length cfg.numKvHeads cfg.headDim,
      rowAddr cfg k (fun u => writeEntries table (chunkPtrs m'.heap m'.vram s'.chunks)
        (u / chunkTokens)) e.1 (s.seqLen + e.2.1) e.2.2.1 e.2.2.2 =
      rowAddr cfg k (tokenBase m.heap m.vram s) e.1 (s.seqLen + e.2.1) e.2.2.1 e.2.2.2 := by
    rintro ⟨v, t, h, i⟩ he
    rw [rowAddr, rowAddr, S.pageTable_eq table (mem_slabKeys.mp he).1]
  rw [List.map_congr_left fun e he => by rw [haddr e he]] at hperm
  refine applyStores_of_mem ?_ ?_
  · rw [(hperm.map Prod.fst).nodup_iff, List.map_map]
    refine List.Nodup.map_on ?_ (slabKeys_nodup _ _ _)
    rintro ⟨v, t, h, i⟩ he ⟨v', t', h', i'⟩ he' heq
    obtain ⟨ht, hh, hi⟩ := mem_slabKeys.mp he
    obtain ⟨ht', hh', hi'⟩ := mem_slabKeys.mp he'
    obtain ⟨rfl, hu, rfl, rfl⟩ := rowAddr_inj hinv.exclusive S.chunkBytes S.layer (hchunk t ht)
      (hchunk t' ht') hh hh' hi hi' heq
    rw [Nat.add_left_cancel hu]
  · refine hperm.mem_iff.mpr (List.mem_map.mpr ⟨(isV, t, h, i), mem_slabKeys.mpr ⟨ht, hh, hi⟩, rfl⟩)

/-- **The decode cache** holds the projected rows. -/
lemma decode_row (ops : FloatOps V) (layer : ℕ) (T : ℕ → Tables) (A : ℕ → AttnPatch)
    (X : ℕ → Fin cfg.hiddenSize → V) (d : DevMem V) (isV : Bool) {t : ℕ} (ht : t < steps.length)
    (h : Fin cfg.numKvHeads) (i : Fin cfg.headDim) :
    (decodeRun ops cfg layer k T A X d ps).pool
        (rowAddr cfg k (tokenBase m.heap m.vram s) isV (s.seqLen + t) h i) =
      headRow (projRow ops cfg layer isV (X t)) h i := by
  have hinv := S.reached.inv
  have hslice :
      ∀ p ∈ ps, ∃ dst, layerSlice cfg k (kvCopies p.instructions) = layerCopies cfg dst := by
    intro p hp
    have hcopies :=
      decodeSteps_copies hinv.program hinv.exclusive hinv.shape hinv.chunkTokens S.decode
    have hmem := List.mem_map_of_mem (f := fun p => kvCopies p.instructions) hp
    rw [hcopies] at hmem
    obtain ⟨u, -, hu⟩ := List.mem_map.mp hmem
    exact ⟨_, by rw [← hu, layerSlice_programCopies S.layer]⟩
  rw [decodeRun_pool ops T A X d hslice]
  have hperm := decodeStores_perm S.layer S.words hinv.program hinv.exclusive hinv.shape
    hinv.chunkTokens S.decode S.prefill S.length 0 (fun _ => 0)
    (fun b => projSlab ops cfg layer X (d.pool 0) (b == .vAttn))
  rw [S.row_eq (projSlab ops cfg layer X (d.pool 0)) d.pool hperm isV ht h.isLt i.isLt]
  exact projSlab_apply ops X (d.pool 0) isV t h i

/-- **The prefill cache** holds the projected V rows, and the K rows normalised and rotated. -/
lemma prefill_row (ops : FloatOps V) (layer : ℕ) (T : Tables) (pt post : ℕ) (table : ℕ → ℕ)
    (hpt : T.pageTable pt = writeEntries table (chunkPtrs m'.heap m'.vram s'.chunks))
    (X : ℕ → Fin cfg.hiddenSize → V) (d : DevMem V) (isV : Bool) {t : ℕ} (ht : t < steps.length)
    (h : Fin cfg.numKvHeads) (i : Fin cfg.headDim) :
    (prefillRun ops cfg layer k T s.seqLen steps.length pt post X d).pool
        (rowAddr cfg k (tokenBase m.heap m.vram s) isV (s.seqLen + t) h i) =
      if isV then headRow (projRow ops cfg layer true (X t)) h i
      else rotatedK ops cfg layer (T.posIds .prefill t)
        (headRow (projRow ops cfg layer false (X t)) h) i := by
  set dp := execAll ops T (d.setHidden .prefill steps.length X)
    (projections cfg layer .prefill steps.length) with hdp
  set dn := execAll ops T dp (qkNormInsts cfg layer .prefill steps.length) with hdn
  set dr := execAll ops T dn [mropeInst cfg .prefill steps.length] with hdr
  have hr : t * cfg.numKvHeads + h < steps.length * cfg.numKvHeads := rowMajor_lt ht h.isLt
  have htoken : (t * cfg.numKvHeads + h) / cfg.numKvHeads = t := rowMajor_div h.isLt
  have hproj : ∀ isV, dp.load (.buf .prefill (kvBuf isV)) cfg.headDim (t * cfg.numKvHeads + h) =
      headRow (projRow ops cfg layer isV (X t)) h := by
    intro isV
    rw [hdp, load_projections ops T _ cfg layer .prefill isV ht h, setHidden_row ht]
  have hk : dr.load (.buf .prefill .kAttn) cfg.headDim (t * cfg.numKvHeads + h) =
      rotatedK ops cfg layer (T.posIds .prefill t)
        (headRow (projRow ops cfg layer false (X t)) h) := by
    rw [hdr, load_mropeInst hr, hdn, load_qkNormInsts hr, htoken]
    exact congrArg (rotatedK ops cfg layer _) (hproj false)
  have hv : dr.load (.buf .prefill .vAttn) cfg.headDim (t * cfg.numKvHeads + h) =
      headRow (projRow ops cfg layer true (X t)) h := by
    rw [hdr, DevMem.load_congr (execAll_of_avoids (mropeInst_avoids (by simp) (by simp))), hdn,
      DevMem.load_congr (execAll_of_avoids (qkNormInsts_avoids (by simp) (by simp)))]
    exact hproj true
  have hpool : (prefillRun ops cfg layer k T s.seqLen steps.length pt post X d).pool =
      applyStores d.pool
        (batchStores (batchInst cfg k false pt s.seqLen steps.length).pack (T.pageTable pt)
            (dr.bufs (.prefill, kvBuf false)) ++
          batchStores (batchInst cfg k true pt s.seqLen steps.length).pack (T.pageTable pt)
            (dr.bufs (.prefill, kvBuf true))) :=
    prefillLayer_pool s.seqLen pt post
  rw [hpool, hpt, S.row_eq (fun isV => dr.bufs (.prefill, kvBuf isV)) d.pool (List.Perm.refl _) isV
    ht h.isLt i.isLt, ← Nat.zero_add ((t * cfg.numKvHeads + h) * cfg.headDim + i)]
  cases isV with
  | false => exact congrFun hk i
  | true => exact congrFun hv i

end Slab

/-- Prefill and decode leave the same rows of a slab in the cache of a layer. -/
def KvCacheAgrees (ops : FloatOps V) (cfg : AttnConfig) (layer k : ℕ) (m : KvMem)
    (s : SequenceState) (ps : List MegakernelProgram) (n : ℕ) (TD : ℕ → Tables) (A : ℕ → AttnPatch)
    (TP : Tables) (pt post : ℕ) (X : ℕ → Fin cfg.hiddenSize → V) (d : DevMem V) : Prop :=
  ∀ (isV : Bool), ∀ t < n, ∀ h < cfg.numKvHeads, ∀ i < cfg.headDim,
    (decodeRun ops cfg layer k TD A X d ps).pool
        (rowAddr cfg k (tokenBase m.heap m.vram s) isV (s.seqLen + t) h i) =
      (prefillRun ops cfg layer k TP s.seqLen n pt post X d).pool
        (rowAddr cfg k (tokenBase m.heap m.vram s) isV (s.seqLen + t) h i)

/-- **Prefill and decode caches.**  The caches that a slab leaves by decode steps and by a batched
prefill are the same if and only if, for every token and head, the normalised and rotated K row is
the projected K row itself: decode stores the projected row, prefill the rotated one. -/
theorem kvCache_agrees_iff (ops : FloatOps V)
    (S : Slab cfg L k p m s steps ps positions m' s') (TD : ℕ → Tables) (A : ℕ → AttnPatch)
    (TP : Tables) (pt post : ℕ) (table : ℕ → ℕ)
    (hpt : TP.pageTable pt = writeEntries table (chunkPtrs m'.heap m'.vram s'.chunks))
    (X : ℕ → Fin cfg.hiddenSize → V) (d : DevMem V) :
    KvCacheAgrees ops cfg layer k m s ps steps.length TD A TP pt post X d ↔
      ∀ t < steps.length, ∀ h : Fin cfg.numKvHeads,
        rotatedK ops cfg layer (TP.posIds .prefill t)
            (headRow (projRow ops cfg layer false (X t)) h) =
          headRow (projRow ops cfg layer false (X t)) h := by
  constructor
  · intro hagree t ht h
    funext i
    have hrow := hagree false t ht h h.isLt i i.isLt
    rw [S.decode_row ops layer TD A X d false ht h i,
      S.prefill_row ops layer TP pt post table hpt X d false ht h i] at hrow
    exact hrow.symm
  · intro hfix isV t ht h hh i hi
    have hdecode := S.decode_row ops layer TD A X d isV ht ⟨h, hh⟩ ⟨i, hi⟩
    have hprefill := S.prefill_row ops layer TP pt post table hpt X d isV ht ⟨h, hh⟩
      ⟨i, hi⟩
    refine hdecode.trans (Eq.trans ?_ hprefill.symm)
    cases isV with
    | false =>
        rw [if_neg Bool.false_ne_true, hfix t ht ⟨h, hh⟩]
    | true => rw [if_pos rfl]

end Caches

/-! ### One token -/

/-- A model with one attention layer of one head. -/
def oneHeadConfig : AttnConfig :=
  { hiddenSize := 1, numQHeads := 1, numKvHeads := 1, headDim := 2, ropeDim := 2,
    hasOutputGate := false, hasQkNorm := true, mropeSections := (1, 0, 0),
    rmsNormEps := 0x358637bd }

/-- The first token of a sequence. -/
lemma exists_slab : ∃ ps m' s',
    Slab oneHeadConfig 1 0 (compilePaged oneHeadConfig 256 [.attention] [0])
    ⟨.empty, .new 65536 1024 4, none⟩ (.new chunkTokens) [(7, 0)] ps [0] m' s' := by
  let p := compilePaged oneHeadConfig 256 [.attention] [0]
  let m : KvMem := ⟨.empty, .new 65536 1024 4, none⟩
  let s : SequenceState := .new chunkTokens
  have hreached : Reached oneHeadConfig 1 p m s :=
    .compile 256 [.attention] [0] 65536 1024 4 .empty none rfl
  have hdecode : (decodeSteps p m s [(7, 0)]).isSome = true := by decide +kernel
  have hprefill : (appendTokens m s [0]).isOk = true := by decide +kernel
  obtain ⟨ps, hps⟩ := Option.isSome_iff_exists.mp hdecode
  cases happ : appendTokens m s [0] with
  | error e =>
      rw [happ] at hprefill
      cases hprefill
  | ok r =>
      exact ⟨ps, r.1, r.2, by decide, hreached, by decide, hps, happ, rfl,
        ⟨by decide, by decide, by decide, by decide⟩, by decide⟩

/-- Operations on numbers; the rotation adds `turn` to every float. -/
def countOps (turn : ℕ) : FloatOps ℕ :=
  { rmsNorm := fun _ _ row => row
    linear := fun _ _ _ _ _ => 1
    qkNorm := fun _ _ row => row
    rope := fun _ _ _ _ row i => row i + turn
    attnPaged := fun _ _ _ _ _ => 0
    attnPagedQ := fun _ _ _ => 0
    gate := (· * ·)
    add := (· + ·) }

/-- Without a rotation the caches agree. -/
theorem kvCache_agrees_unrotated : ∃ ps m' s',
    Slab oneHeadConfig 1 0 (compilePaged oneHeadConfig 256 [.attention] [0])
      ⟨.empty, .new 65536 1024 4, none⟩ (.new chunkTokens) [(7, 0)] ps [0] m' s' ∧
    KvCacheAgrees (countOps 0) oneHeadConfig 0 0 ⟨.empty, .new 65536 1024 4, none⟩
      (.new chunkTokens) ps
      1 (fun _ => ⟨fun _ _ => (0, 0, 0), fun _ _ => 0⟩) (fun _ => .none)
      ⟨fun _ _ => (0, 0, 0),
        fun _ => writeEntries (fun _ => 0) (chunkPtrs m'.heap m'.vram s'.chunks)⟩
      4096 8192 (fun _ _ => 0) ⟨fun _ _ => 0, fun _ => 0, fun _ => 0⟩ := by
  obtain ⟨ps, m', s', S⟩ := exists_slab
  refine ⟨ps, m', s', S, ?_⟩
  refine (kvCache_agrees_iff (countOps 0) S _ _ _ 4096 8192 (fun _ => 0) rfl _ _).mpr ?_
  intro t _ h
  rfl

/-- With a rotation they do not: the K row of the first token is 1 in one and 2 in the other. -/
theorem kvCache_differs_rotated :
    ¬ ∀ (ops : FloatOps ℕ) (cfg : AttnConfig) (L layer k : ℕ) (p : MegakernelProgram) (m m' : KvMem)
      (s s' : SequenceState) (steps : List (ℕ × ℕ)) (ps : List MegakernelProgram)
      (positions : List ℤ) (TD : ℕ → Tables) (A : ℕ → AttnPatch) (TP : Tables) (pt post : ℕ)
      (table : ℕ → ℕ) (X : ℕ → Fin cfg.hiddenSize → ℕ) (d : DevMem ℕ),
      Slab cfg L k p m s steps ps positions m' s' →
      TP.pageTable pt = writeEntries table (chunkPtrs m'.heap m'.vram s'.chunks) →
      KvCacheAgrees ops cfg layer k m s ps steps.length TD A TP pt post X d := by
  intro hall
  obtain ⟨ps, m', s', S⟩ := exists_slab
  let TP : Tables := ⟨fun _ _ => (0, 0, 0), fun _ =>
    writeEntries (fun _ => 0) (chunkPtrs m'.heap m'.vram s'.chunks)⟩
  let d : DevMem ℕ := ⟨fun _ _ => 0, fun _ => 0, fun _ => 0⟩
  have hrow := hall (countOps 1) oneHeadConfig 1 0 0 _ _ m' _ s' _ ps _ (fun _ => TP)
    (fun _ => .none) TP
    4096 8192 (fun _ => 0) (fun _ _ => 0) d S rfl false 0 (by decide) 0 (by decide) 0 (by decide)
  have hdecode := S.decode_row (countOps 1) 0 (fun _ => TP) (fun _ => .none) (fun _ _ => 0) d false
    (t := 0) (by decide) ⟨0, by decide⟩ ⟨0, by decide⟩
  have hprefill := S.prefill_row (countOps 1) 0 TP 4096 8192 (fun _ => 0) rfl (fun _ _ => 0) d false
    (t := 0) (by decide) ⟨0, by decide⟩ ⟨0, by decide⟩
  have heq : (1 : ℕ) = 2 := hdecode.symm.trans (hrow.trans hprefill)
  cases heq

end Braidinfer.Megakernel
