/-
The KV copies of a paged program and where their patching sends them.

`compile_paged` emits, for every attention layer and every KV head, one copy of the K row and one
of the V row; `update_step_paged_no_upload` finds them again through `kv_write_indices`.

* `KvProgram`: what a paged program keeps of its KV copies from its compilation on;
* `compilePaged_kv`: a compiled program has it;
* `patchKvWrites_copies`: **after the patch, the copies of layer `l` and head `h` go to the two
  destinations of `kvDst`**, and nothing else about them changes;
* `updateStepPagedNoUpload_kv`: the whole update leaves the copies there.
-/
import Braidinfer.Megakernel.Update

namespace Braidinfer.Megakernel

open Braidinfer.Lib Braidinfer.PagedKv

/-! ### The copies of a program -/

/-- A copy into the KV pool. -/
def asKvCopy : Inst → Option D2dCopyInst
  | .d2dCopy i => if i.dst.block = .kvPool then some i else none
  | _ => none

/-- The copies into the KV pool, in program order. -/
def kvCopies (is : List Inst) : List D2dCopyInst := is.filterMap asKvCopy

/-- The copy of the row of head `h` to the pool address `dst`. -/
def kvCopyTo (cfg : AttnConfig) (src : Ptr) (h dst : ℕ) : D2dCopyInst :=
  { gridX := divCeil cfg.headDim 256, dst := .pool dst, src := src.add (h * cfg.headDim),
    nElems := cfg.headDim }

/-- The K copy and the V copy of head `h`. -/
def headCopies (cfg : AttnConfig) (dst : ℕ → ℕ × ℕ) (h : ℕ) : List D2dCopyInst :=
  [kvCopyTo cfg (.buf .act .kAttn) h (dst h).1, kvCopyTo cfg (.buf .act .vAttn) h (dst h).2]

/-- The copies of one layer: K and V of every head. -/
def layerCopies (cfg : AttnConfig) (dst : ℕ → ℕ × ℕ) : List D2dCopyInst :=
  (List.range cfg.numKvHeads).flatMap (headCopies cfg dst)

/-- The copies of `L` attention layers, to the destinations `dst`. -/
def programCopies (cfg : AttnConfig) (L : ℕ) (dst : ℕ → ℕ → ℕ × ℕ) : List D2dCopyInst :=
  (List.range L).flatMap fun l => layerCopies cfg (dst l)

/-- `kv_write_indices` as one list. -/
def flatIndices (hs : List (ℕ × ℕ)) : List ℕ := hs.flatMap fun kv => [kv.1, kv.2]

/-- What a list of instructions with its `kv_write_indices` keeps of the KV copies of `L`
layers. -/
structure KvIndexed (cfg : AttnConfig) (L : ℕ) (is : List Inst)
    (indices : List (List (ℕ × ℕ))) : Prop where
  copies : ∃ dst, kvCopies is = programCopies cfg L dst
  flat : indices.flatMap flatIndices = indicesOf (fun i => (asKvCopy i).isSome) is 0
  length : indices.length = L
  heads : ∀ hs ∈ indices, hs.length = cfg.numKvHeads

/-- Instructions without KV copies. -/
def KvInert (is : List Inst) : Prop := ∀ i ∈ is, asKvCopy i = none

variable {cfg : AttnConfig} {L : ℕ} {is js : List Inst} {indices : List (List (ℕ × ℕ))}

lemma KvInert.append (h : KvInert is) (h' : KvInert js) : KvInert (is ++ js) :=
  fun i hi => (List.mem_append.mp hi).elim (h i) (h' i)

lemma KvInert.kvCopies (h : KvInert is) : kvCopies is = [] :=
  List.filterMap_eq_nil_iff.mpr h

/-- More instructions without KV copies change nothing. -/
lemma KvIndexed.push (h : KvIndexed cfg L is indices) (js : List Inst) (hjs : KvInert js) :
    KvIndexed cfg L (is ++ js) indices := by
  obtain ⟨dst, hdst⟩ := h.copies
  refine ⟨⟨dst, ?_⟩, ?_, h.length, h.heads⟩
  · rw [kvCopies, List.filterMap_append]
    change kvCopies is ++ kvCopies js = _
    rw [hjs.kvCopies, List.append_nil, hdst]
  · have hnil : indicesOf (fun i => (asKvCopy i).isSome) js (0 + is.length) = [] :=
      indicesOf_eq_nil fun i hi => by simp [hjs i hi]
    rw [indicesOf_append, hnil, List.append_nil, h.flat]

/-! ### Compilation -/

lemma projections_kvInert (cfg : AttnConfig) (layer : ℕ) (side : Side) (n : ℕ) :
    KvInert (projections cfg layer side n) := by
  intro i hi
  simp only [projections, List.mem_cons, List.not_mem_nil, or_false] at hi
  rcases hi with rfl | rfl | rfl | rfl | rfl
  · rfl
  · rfl
  · rfl
  · rfl
  · split_ifs <;> rfl

lemma qkNormInsts_kvInert (cfg : AttnConfig) (layer : ℕ) (side : Side) (n : ℕ) :
    KvInert (qkNormInsts cfg layer side n) := by
  intro i hi
  unfold qkNormInsts at hi
  by_cases hq : cfg.hasQkNorm = true
  · rw [if_pos hq] at hi
    rw [List.mem_singleton.mp hi]
    rfl
  · rw [if_neg hq] at hi
    cases hi

lemma outputInsts_kvInert (cfg : AttnConfig) (layer : ℕ) (side : Side) (n : ℕ) :
    KvInert (outputInsts cfg layer side n) := by
  refine (KvInert.append ?_ ?_).append ?_
  · intro i hi
    split_ifs at hi
    · rw [List.mem_singleton.mp hi]
      rfl
    · cases hi
  · intro i hi
    rw [List.mem_singleton.mp hi]
    rfl
  · intro i hi
    split_ifs at hi
    · rw [List.mem_singleton.mp hi]
      rfl
    · cases side with
      | prefill =>
          rw [List.mem_singleton.mp hi]
          rfl
      | act =>
          rcases List.mem_cons.mp hi with rfl | hi
          · rfl
          · rw [List.mem_singleton.mp hi]
            rfl

/-- The instructions of the copies of some heads, their destinations still null. -/
def nullCopies (cfg : AttnConfig) (hs : List ℕ) : List Inst :=
  hs.flatMap fun h => [kvCopy cfg (.buf .act .kAttn) h, kvCopy cfg (.buf .act .vAttn) h]

/-- What the loop of step 4a has emitted after some heads. -/
lemma foldl_emitKvCopy (cfg : AttnConfig) (hs : List ℕ) (e : Emitted) (acc : List (ℕ × ℕ)) :
    ∃ acc', hs.foldl (emitKvCopy cfg .act) (e, acc) = (e.push (nullCopies cfg hs), acc') ∧
      flatIndices acc' = flatIndices acc ++
        indicesOf (fun i => (asKvCopy i).isSome) (nullCopies cfg hs) e.instructions.length ∧
      acc'.length = acc.length + hs.length := by
  induction hs generalizing e acc with
  | nil => exact ⟨acc, by simp [nullCopies, Emitted.push], by simp [nullCopies, indicesOf], rfl⟩
  | cons h hs ih =>
      obtain ⟨acc', hfold, hflat, hlen⟩ := ih
        (e.push [kvCopy cfg (.buf .act .kAttn) h, kvCopy cfg (.buf .act .vAttn) h])
        (acc ++ [(e.instructions.length, e.instructions.length + 1)])
      refine ⟨acc', ?_, ?_, ?_⟩
      · rw [List.foldl_cons]
        have hone : emitKvCopy cfg .act (e, acc) h =
            (e.push [kvCopy cfg (.buf .act .kAttn) h, kvCopy cfg (.buf .act .vAttn) h],
              acc ++ [(e.instructions.length, e.instructions.length + 1)]) := by
          simp [emitKvCopy, Emitted.push]
        rw [hone, hfold]
        simp [nullCopies, Emitted.push]
      · rw [hflat]
        simp [nullCopies, flatIndices, Emitted.push, indicesOf, kvCopy, asKvCopy, Ptr.pool]
      · rw [hlen]
        simp only [List.length_append, List.length_cons, List.length_nil]
        omega

lemma kvCopies_nullCopies (hs : List ℕ) :
    kvCopies (nullCopies cfg hs) = hs.flatMap (headCopies cfg fun _ => (0, 0)) := by
  induction hs with
  | nil => rfl
  | cons h hs ih =>
      rw [nullCopies, List.flatMap_cons, List.flatMap_cons, kvCopies, List.filterMap_append]
      exact congrArg₂ (· ++ ·) rfl ih

lemma programCopies_succ (dst : ℕ → ℕ → ℕ × ℕ) :
    programCopies cfg (L + 1) dst = programCopies cfg L dst ++ layerCopies cfg (dst L) := by
  rw [programCopies, List.range_succ, List.flatMap_append, List.flatMap_singleton]
  rfl

/-- Step 4a adds the copies of one layer. -/
lemma emitKvWrites_kv {e : Emitted} (h : KvIndexed cfg L e.instructions e.kvWriteIndices) :
    KvIndexed cfg (L + 1) (emitKvWrites cfg .act e).instructions
      (emitKvWrites cfg .act e).kvWriteIndices := by
  obtain ⟨acc, hfold, hflat, hlen⟩ := foldl_emitKvCopy cfg (List.range cfg.numKvHeads) e []
  obtain ⟨dst, hdst⟩ := h.copies
  have he : emitKvWrites cfg .act e = { e.push (nullCopies cfg (List.range cfg.numKvHeads)) with
      kvWriteIndices := e.kvWriteIndices ++ [acc] } := by
    rw [emitKvWrites, hfold]
    rfl
  rw [he]
  refine ⟨⟨fun l => if l = L then fun _ => (0, 0) else dst l, ?_⟩, ?_, ?_, ?_⟩
  · change kvCopies (e.instructions ++ _) = _
    rw [kvCopies, List.filterMap_append]
    change kvCopies e.instructions ++ kvCopies _ = _
    rw [hdst, kvCopies_nullCopies, programCopies_succ, if_pos rfl]
    refine congrArg (· ++ _) ?_
    refine List.flatMap_congr fun l hl => ?_
    have hne : l ≠ L := Nat.ne_of_lt (List.mem_range.mp hl)
    simp only [if_neg hne]
  · change (e.kvWriteIndices ++ [acc]).flatMap flatIndices =
      indicesOf _ (e.instructions ++ nullCopies cfg (List.range cfg.numKvHeads)) 0
    rw [List.flatMap_append, List.flatMap_singleton, h.flat, hflat, indicesOf_append, Nat.zero_add]
    rfl
  · change (e.kvWriteIndices ++ [acc]).length = L + 1
    rw [List.length_append, h.length, List.length_singleton]
  · intro hs hhs
    rcases List.mem_append.mp hhs with hhs | hhs
    · exact h.heads hs hhs
    · rw [List.mem_singleton.mp hhs, hlen]
      simp

/-- A paged attention layer adds the copies of one layer. -/
lemma emitAttentionLayer_kv {e : Emitted} (layer attnLayerIndex : ℕ)
    (h : KvIndexed cfg L e.instructions e.kvWriteIndices) :
    KvIndexed cfg (L + 1)
      (emitAttentionLayer cfg layer .act 1 (.pagedKv attnLayerIndex) e).instructions
      (emitAttentionLayer cfg layer .act 1 (.pagedKv attnLayerIndex) e).kvWriteIndices := by
  have h₁ : KvIndexed cfg L (e.push (projections cfg layer .act 1)).instructions
      (e.push (projections cfg layer .act 1)).kvWriteIndices :=
    h.push _ (projections_kvInert cfg layer .act 1)
  have h₂ := emitKvWrites_kv h₁
  have h₃ := h₂.push _ (qkNormInsts_kvInert cfg layer .act 1)
  have h₄ := h₃.push [mropeInst cfg .act 1] (by simp [KvInert, asKvCopy, mropeInst])
  have h₅ := h₄.push [.attnPagedQ (attnPagedQInst cfg layer .act)] (by simp [KvInert, asKvCopy])
  have h₆ := h₅.push [.attnPaged (attnPagedInst cfg layer attnLayerIndex
    (.buf .act .attnOut) (.buf .act .qAttn) 1)] (by simp [KvInert, asKvCopy])
  exact h₆.push _ (outputInsts_kvInert cfg layer .act 1)

/-- The number of attention layers. -/
def numAttn (layers : List LayerCode) : ℕ :=
  layers.countP fun
    | .attention => true
    | .other _ => false

lemma emitLayers_kv (layers : List LayerCode) (count : ℕ) {e : Emitted}
    (h : KvIndexed cfg L e.instructions e.kvWriteIndices) :
    KvIndexed cfg (L + numAttn layers) (emitLayers cfg layers count e).instructions
      (emitLayers cfg layers count e).kvWriteIndices := by
  induction layers generalizing L count e with
  | nil => exact h
  | cons code layers ih =>
      cases code with
      | attention =>
          have := ih (count + 1) (emitAttentionLayer_kv count count h)
          rw [show L + numAttn (.attention :: layers) = L + 1 + numAttn layers by
            simp only [numAttn, List.countP_cons_of_pos]
            omega]
          exact this
      | other opcodes =>
          have hpush : KvIndexed cfg L (e.push (opcodes.map .other)).instructions
              (e.push (opcodes.map .other)).kvWriteIndices :=
            h.push _ (by simp [KvInert, asKvCopy])
          rw [show numAttn (.other opcodes :: layers) = numAttn layers by
            simp [numAttn]]
          exact ih count hpush

/-- What a paged program keeps of its KV copies. -/
structure KvProgram (cfg : AttnConfig) (L : ℕ) (p : MegakernelProgram) : Prop where
  indexed : KvIndexed cfg L p.instructions p.kvWriteIndices
  headDim : p.headDim = cfg.headDim
  stride : p.pagedKv.kvStridePaged = cfg.numKvHeads * cfg.headDim

/-- A compiled program keeps track of the copies of all its attention layers. -/
theorem compilePaged_kv (cfg : AttnConfig) (maxSeqLen : ℕ) (layers : List LayerCode)
    (tail : List ℕ) : KvProgram cfg (numAttn layers) (compilePaged cfg maxSeqLen layers tail) := by
  refine ⟨?_, rfl, rfl⟩
  have h₀ : KvIndexed cfg 0 [.embedding 0] [] :=
    ⟨⟨fun _ _ => (0, 0), rfl⟩, rfl, rfl, by simp⟩
  have h := emitLayers_kv layers 0 (e := ⟨[.embedding 0], [], [], [], []⟩) h₀
  rw [Nat.zero_add] at h
  exact h.push _ (by simp [KvInert, asKvCopy])

/-! ### Patching -/

/-- The indices of the copies with the destinations they get. -/
def kvPairs (indices : List (List (ℕ × ℕ))) (dst : ℕ → ℕ → ℕ × ℕ) : List (ℕ × ℕ) :=
  indices.zipIdx.flatMap fun (hs, l) =>
    hs.zipIdx.flatMap fun (kv, h) => [(kv.1, (dst l h).1), (kv.2, (dst l h).2)]

/-- The slot of the last chunk, as the patch computes it. -/
def lastBase (heap : ChunkHeap) (seq : SequenceState) (allocator : PageAllocator) : ℕ :=
  allocator.slotPtr (match seq.chunks.getLast? with
    | none => 0
    | some last => slotIndex heap last)

/-- The destinations of a decode step. -/
def stepDst (p : MegakernelProgram) (heap : ChunkHeap) (seq : SequenceState)
    (allocator : PageAllocator) (l h : ℕ) : ℕ × ℕ :=
  kvDst p.pagedKv.kvStridePaged p.headDim (lastBase heap seq allocator) l h
    (seq.currentChunkOffset heap - 1)

lemma patchKvWrites_eq (p : MegakernelProgram) (heap : ChunkHeap) (seq : SequenceState)
    (allocator : PageAllocator) :
    (patchKvWrites p heap seq allocator).instructions =
      (kvPairs p.kvWriteIndices (stepDst p heap seq allocator)).foldl
        (fun is e => is.modify e.1 (patchDst (.pool e.2))) p.instructions := by
  rw [kvPairs, List.foldl_flatMap]
  simp only [List.foldl_flatMap, List.foldl_cons, List.foldl_nil]
  rfl

lemma kvPairs_fst (indices : List (List (ℕ × ℕ))) (dst : ℕ → ℕ → ℕ × ℕ) :
    (kvPairs indices dst).map Prod.fst = indices.flatMap flatIndices := by
  have hinner : ∀ (hs : List (ℕ × ℕ)) (l : ℕ),
      (hs.zipIdx.flatMap fun (kv, h) => [(kv.1, (dst l h).1), (kv.2, (dst l h).2)]).map Prod.fst =
        flatIndices hs := by
    intro hs l
    rw [List.map_flatMap]
    conv_rhs => rw [flatIndices, ← List.zipIdx_map_fst 0 hs, List.flatMap_map]
    rfl
  rw [kvPairs, List.map_flatMap]
  conv_rhs => rw [← List.zipIdx_map_fst 0 indices, List.flatMap_map]
  exact List.flatMap_congr fun e _ => hinner e.1 e.2

/-- The destinations, layer by layer and head by head. -/
lemma kvPairs_snd (h : KvIndexed cfg L is indices) (dst : ℕ → ℕ → ℕ × ℕ) :
    (kvPairs indices dst).map Prod.snd = (List.range L).flatMap fun l =>
      (List.range cfg.numKvHeads).flatMap fun h => [(dst l h).1, (dst l h).2] := by
  have hinner : ∀ (hs : List (ℕ × ℕ)) (l : ℕ), hs.length = cfg.numKvHeads →
      (hs.zipIdx.flatMap fun (kv, h) => [(kv.1, (dst l h).1), (kv.2, (dst l h).2)]).map Prod.snd =
        (List.range cfg.numKvHeads).flatMap fun h => [(dst l h).1, (dst l h).2] := by
    intro hs l hlen
    have hrange : List.range cfg.numKvHeads = hs.zipIdx.map Prod.snd := by
      rw [List.zipIdx_map_snd, hlen, List.range_eq_range']
    rw [List.map_flatMap, hrange, List.flatMap_map]
    rfl
  have hrange : List.range L = indices.zipIdx.map Prod.snd := by
    rw [List.zipIdx_map_snd, ← h.length, List.range_eq_range']
  rw [kvPairs, List.map_flatMap, hrange, List.flatMap_map]
  exact List.flatMap_congr fun e he => hinner e.1 e.2 (h.heads _ (List.fst_mem_of_mem_zipIdx he))

lemma zipWith_flatMap {α β γ δ : Type*} {f : β → γ → δ} {a : α → List β} {b : α → List γ}
    (l : List α) (h : ∀ x ∈ l, (a x).length = (b x).length) :
    List.zipWith f (l.flatMap a) (l.flatMap b) = l.flatMap fun x => List.zipWith f (a x) (b x) := by
  induction l with
  | nil => rfl
  | cons x l ih =>
      rw [List.flatMap_cons, List.flatMap_cons, List.flatMap_cons,
        List.zipWith_append (h x List.mem_cons_self),
        ih fun y hy => h y (List.mem_cons_of_mem _ hy)]

/-- Copies get new destinations one by one. -/
lemma zipWith_programCopies (dst dst' : ℕ → ℕ → ℕ × ℕ) :
    List.zipWith (fun d c => { c with dst := .pool d })
      ((List.range L).flatMap fun l =>
        (List.range cfg.numKvHeads).flatMap fun h => [(dst l h).1, (dst l h).2])
      (programCopies cfg L dst') = programCopies cfg L dst := by
  have hlen : ∀ l, ((List.range cfg.numKvHeads).flatMap fun h =>
      [(dst l h).1, (dst l h).2]).length = (layerCopies cfg (dst' l)).length := by
    intro l
    simp [layerCopies, headCopies, List.length_flatMap]
  rw [programCopies, zipWith_flatMap _ fun l _ => hlen l]
  refine List.flatMap_congr fun l _ => ?_
  have hheads : ∀ h ∈ List.range cfg.numKvHeads,
      [(dst l h).1, (dst l h).2].length = (headCopies cfg (dst' l) h).length := fun h _ => rfl
  rw [layerCopies, zipWith_flatMap _ hheads]
  rfl

/-- Changing the destination of a KV copy inside the pool changes only that. -/
lemma asKvCopy_patchDst (d : ℕ) (i : Inst) (c : D2dCopyInst) (h : asKvCopy i = some c) :
    asKvCopy (patchDst (.pool d) i) = some { c with dst := .pool d } := by
  cases i with
  | d2dCopy c' =>
      rw [asKvCopy] at h
      split_ifs at h
      obtain rfl := Option.some.inj h
      rfl
  | _ => cases h

/-- **The copies after the patch**: those of layer `l` and head `h` go where `kvDst` says. -/
theorem patchKvWrites_copies {p : MegakernelProgram} (hp : KvProgram cfg L p) (heap : ChunkHeap)
    (seq : SequenceState) (allocator : PageAllocator) :
    kvCopies (patchKvWrites p heap seq allocator).instructions =
      programCopies cfg L (stepDst p heap seq allocator) := by
  obtain ⟨dst, hdst⟩ := hp.indexed.copies
  rw [patchKvWrites_eq, kvCopies, filterMap_patchPairs asKvCopy_patchDst p.instructions
    ((kvPairs_fst _ _).trans hp.indexed.flat), kvPairs_snd hp.indexed]
  change List.zipWith _ _ (kvCopies p.instructions) = _
  rw [hdst, zipWith_programCopies]

/-- Two lists of instructions with the same KV copies at the same places. -/
structure SameKv (is js : List Inst) : Prop where
  copies : kvCopies js = kvCopies is
  indices : indicesOf (fun i => (asKvCopy i).isSome) js 0 =
    indicesOf (fun i => (asKvCopy i).isSome) is 0

namespace SameKv

lemma trans {ks : List Inst} (h : SameKv is js) (h' : SameKv js ks) : SameKv is ks :=
  ⟨h'.copies.trans h.copies, h'.indices.trans h.indices⟩

lemma modify {f : Inst → Inst} (hf : ∀ i, asKvCopy (f i) = asKvCopy i) (is : List Inst) (n : ℕ) :
    SameKv is (is.modify n f) :=
  ⟨filterMap_modify_of_same hf is n, indicesOf_modify fun i => by rw [hf]⟩

lemma patchAll {f : Inst → Inst} (hf : ∀ i, asKvCopy (f i) = asKvCopy i) (indices : List ℕ)
    (is : List Inst) : SameKv is (patchAll f indices is) := by
  rw [patchAll_eq_patchEnum]
  exact ⟨filterMap_patchEnum_of_same (fun _ => hf) indices is,
    indicesOf_patchEnum (fun _ i => by rw [hf]) indices is⟩

lemma patchEnum {f : ℕ → Inst → Inst} (hf : ∀ k i, asKvCopy (f k i) = asKvCopy i)
    (indices : List ℕ) (is : List Inst) : SameKv is (patchEnum f indices is) :=
  ⟨filterMap_patchEnum_of_same hf indices is,
    indicesOf_patchEnum (fun k i => by rw [hf]) indices is⟩

lemma indexed (h : SameKv is js) (hi : KvIndexed cfg L is indices) :
    KvIndexed cfg L js indices := by
  obtain ⟨dst, hdst⟩ := hi.copies
  exact ⟨⟨dst, h.copies.trans hdst⟩, hi.flat.trans h.indices.symm, hi.length, hi.heads⟩

end SameKv

lemma asKvCopy_patchToken (tokenId : ℕ) (i : Inst) :
    asKvCopy (patchToken tokenId i) = asKvCopy i := by
  cases i <;> rfl

lemma asKvCopy_patchAttn (f : AttnPagedInst → AttnPagedInst) (i : Inst) :
    asKvCopy (patchAttn f i) = asKvCopy i := by
  cases i <;> rfl

lemma asKvCopy_patchAttnQ (f : AttnPagedQInst → AttnPagedQInst) (i : Inst) :
    asKvCopy (patchAttnQ f i) = asKvCopy i := by
  cases i <;> rfl

variable {p p' : MegakernelProgram} {heap heap' : ChunkHeap} {seq : SequenceState}
  {allocator : PageAllocator} {tokenId position : ℕ}

/-- The patch of the KV writes keeps track of them. -/
lemma KvProgram.patchKvWrites (hp : KvProgram cfg L p) (heap : ChunkHeap) (seq : SequenceState)
    (allocator : PageAllocator) : KvProgram cfg L (patchKvWrites p heap seq allocator) := by
  refine ⟨⟨⟨_, patchKvWrites_copies hp heap seq allocator⟩, ?_, hp.indexed.length,
    hp.indexed.heads⟩, hp.headDim, hp.stride⟩
  have hflat : (kvPairs p.kvWriteIndices (stepDst p heap seq allocator)).map Prod.fst =
      indicesOf (fun i => (asKvCopy i).isSome) p.instructions 0 :=
    (kvPairs_fst _ _).trans hp.indexed.flat
  have hkind : ∀ d i, (asKvCopy i).isSome = true →
      (asKvCopy (patchDst (.pool d) i)).isSome = true := by
    intro d i hi
    obtain ⟨c, hc⟩ := Option.isSome_iff_exists.mp hi
    rw [asKvCopy_patchDst d i c hc]
    rfl
  rw [patchKvWrites_eq, indicesOf_patchPairs hkind]
  · exact hp.indexed.flat
  · intro e he
    rw [← hflat]
    exact List.mem_map_of_mem he

/-- The patch of the attention instructions leaves the KV copies alone. -/
lemma patchAttention_sameKv (h : patchAttention p seq = .ok p') :
    SameKv p.instructions p'.instructions ∧ p'.kvWriteIndices = p.kvWriteIndices ∧
      p'.headDim = p.headDim ∧ p'.pagedKv = p.pagedKv := by
  rw [patchAttention] at h
  split_ifs at h
  · split at h
    · split at h
      · cases h
      · obtain rfl := Except.ok.inj h
        exact ⟨(SameKv.patchAll (asKvCopy_patchAttnQ _) _ _).trans
          (SameKv.patchAll (asKvCopy_patchAttn _) _ _), rfl, rfl, rfl⟩
    · cases h
  · obtain rfl := Except.ok.inj h
    exact ⟨(SameKv.patchAll (asKvCopy_patchAttnQ _) _ _).trans
      (SameKv.patchAll (asKvCopy_patchAttn _) _ _), rfl, rfl, rfl⟩

/-- **The KV copies after a decode update.** -/
theorem updateStepPagedNoUpload_kv (hp : KvProgram cfg L p)
    (h : updateStepPagedNoUpload p tokenId position heap seq allocator = .ok (heap', p')) :
    KvProgram cfg L p' ∧
      kvCopies p'.instructions = programCopies cfg L (stepDst p heap seq allocator) := by
  obtain ⟨-, pos, p₁, -, hattn, hres⟩ := updateStepPagedNoUpload_steps h
  obtain ⟨hsame, hidx, hdim, hkv⟩ := patchAttention_sameKv hattn
  -- step 1 and step 2 leave the copies alone
  have hp₀ : KvProgram cfg L
      { p with
        instructions := p.instructions.modify p.embeddingInstIdx (patchToken tokenId)
        pagedKv := { p.pagedKv with
          positionTable := writeTriple p.pagedKv.positionTable (seq.seqLen - 1) pos } } :=
    ⟨(SameKv.modify (asKvCopy_patchToken tokenId) _ _).indexed hp.indexed, hp.headDim, hp.stride⟩
  have hstep := hp₀.patchKvWrites heap seq allocator
  have hcopies : kvCopies p₁.instructions = programCopies cfg L (stepDst p heap seq allocator) :=
    hsame.copies.trans (patchKvWrites_copies hp₀ heap seq allocator)
  have hp₁ : KvProgram cfg L p₁ := by
    refine ⟨?_, hdim.trans hstep.headDim, ?_⟩
    · rw [hidx]
      exact hsame.indexed hstep.indexed
    · rw [hkv]
      exact hstep.stride
  rw [writePageTable] at hres
  split_ifs at hres
  · obtain ⟨-, rfl⟩ := Prod.ext_iff.mp hres
    exact ⟨⟨hp₁.indexed, hp₁.headDim, hp₁.stride⟩, hcopies⟩
  · obtain ⟨-, rfl⟩ := Prod.ext_iff.mp hres
    exact ⟨hp₁, hcopies⟩

end Braidinfer.Megakernel
