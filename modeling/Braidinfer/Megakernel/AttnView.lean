/-
The attention instructions of a paged program, seen as two lists.

`compile_paged` records the indices of the two attention instructions of every layer, and
every later patch of these instructions goes through the recorded indices.  The index
vectors list exactly the instructions of their kind (`Indexed`), so each patch is a map over
the list of quantized or the list of f32 attention instructions of the program.

* `compilePaged_attn`: the two lists of a compiled program;
* `enableQuantizedKv_attn`, `updateStepPagedNoUpload_attn`: **what enabling and updating do to
  the two lists**.
-/
import Braidinfer.Megakernel.Update

namespace Braidinfer.Megakernel

open Braidinfer.Lib Braidinfer.PagedKv

/-- The quantized attention instruction, if it is one. -/
def asAttnQ : Inst → Option AttnPagedQInst
  | .attnPagedQ i => some i
  | _ => none

/-- The f32 attention instruction, if it is one. -/
def asAttn : Inst → Option AttnPagedInst
  | .attnPaged i => some i
  | _ => none

/-- The `OP_ATTN_PAGED_Q` instructions, one per attention layer. -/
def attnQs (is : List Inst) : List AttnPagedQInst := is.filterMap asAttnQ

/-- The `OP_ATTN_PAGED` instructions, one per attention layer. -/
def attns (is : List Inst) : List AttnPagedInst := is.filterMap asAttn

/-- The index vectors list exactly the attention instructions. -/
structure Indexed (is : List Inst) (quant paged : List ℕ) : Prop where
  quant : quant = indicesOf (fun i => (asAttnQ i).isSome) is 0
  paged : paged = indicesOf (fun i => (asAttn i).isSome) is 0

/-! ### Compilation -/

/-- Instructions among which there is no attention. -/
def Inert (is : List Inst) : Prop := ∀ i ∈ is, asAttnQ i = none ∧ asAttn i = none

/-- What was emitted for `count` attention layers so far. -/
structure EmittedAttn (cfg : AttnConfig) (count : ℕ) (e : Emitted) : Prop where
  indexed : Indexed e.instructions e.attnQuantIndices e.attnPagedIndices
  quant : attnQs e.instructions = (List.range count).map fun k => attnPagedQInst cfg k .act
  paged : attns e.instructions = (List.range count).map fun k =>
    attnPagedInst cfg k k (.buf .act .attnOut) (.buf .act .qAttn) 1

variable {cfg : AttnConfig} {count : ℕ} {e e' : Emitted}

lemma EmittedAttn.inert (h : EmittedAttn cfg count e) (is : List Inst) (his : Inert is)
    (hinst : e'.instructions = e.instructions ++ is)
    (hquant : e'.attnQuantIndices = e.attnQuantIndices)
    (hpaged : e'.attnPagedIndices = e.attnPagedIndices) : EmittedAttn cfg count e' := by
  have hq : ∀ i ∈ is, (asAttnQ i).isSome = false := fun i hi => by rw [(his i hi).1]; rfl
  have hp : ∀ i ∈ is, (asAttn i).isSome = false := fun i hi => by rw [(his i hi).2]; rfl
  refine ⟨⟨?_, ?_⟩, ?_, ?_⟩
  · rw [hquant, hinst, indicesOf_append, indicesOf_eq_nil hq, List.append_nil, h.indexed.quant]
  · rw [hpaged, hinst, indicesOf_append, indicesOf_eq_nil hp, List.append_nil, h.indexed.paged]
  · rw [hinst, attnQs, List.filterMap_append,
      List.filterMap_eq_nil_iff.mpr fun i hi => (his i hi).1, List.append_nil]
    exact h.quant
  · rw [hinst, attns, List.filterMap_append,
      List.filterMap_eq_nil_iff.mpr fun i hi => (his i hi).2, List.append_nil]
    exact h.paged

lemma EmittedAttn.push (h : EmittedAttn cfg count e) {is : List Inst} (his : Inert is) :
    EmittedAttn cfg count (e.push is) :=
  h.inert is his rfl rfl rfl

lemma others_inert (opcodes : List ℕ) : Inert (opcodes.map .other) := by
  intro i hi
  obtain ⟨op, -, rfl⟩ := List.mem_map.mp hi
  exact ⟨rfl, rfl⟩

lemma projections_inert (cfg : AttnConfig) (layer : ℕ) (side : Side) (n : ℕ) :
    Inert (projections cfg layer side n) := by
  intro i hi
  simp only [projections, List.mem_cons, List.not_mem_nil, or_false] at hi
  rcases hi with rfl | rfl | rfl | rfl | rfl
  · exact ⟨rfl, rfl⟩
  · exact ⟨rfl, rfl⟩
  · exact ⟨rfl, rfl⟩
  · exact ⟨rfl, rfl⟩
  · split_ifs <;> exact ⟨rfl, rfl⟩

lemma qkNormInsts_inert (cfg : AttnConfig) (layer : ℕ) (side : Side) (n : ℕ) :
    Inert (qkNormInsts cfg layer side n) := by
  intro i hi
  rw [qkNormInsts] at hi
  by_cases hqk : cfg.hasQkNorm
  · rw [if_pos hqk] at hi
    rw [List.mem_singleton.mp hi]
    exact ⟨rfl, rfl⟩
  · rw [if_neg hqk] at hi
    cases hi

lemma outputInsts_inert (cfg : AttnConfig) (layer : ℕ) (side : Side) (n : ℕ) :
    Inert (outputInsts cfg layer side n) := by
  intro i hi
  simp only [outputInsts, List.mem_append, List.mem_singleton] at hi
  rcases hi with (hi | rfl) | hi
  · split_ifs at hi
    · rw [List.mem_singleton.mp hi]
      exact ⟨rfl, rfl⟩
    · cases hi
  · exact ⟨rfl, rfl⟩
  · split_ifs at hi
    · rw [List.mem_singleton.mp hi]
      exact ⟨rfl, rfl⟩
    · cases side with
      | prefill =>
          rw [List.mem_singleton.mp hi]
          exact ⟨rfl, rfl⟩
      | act =>
          rcases List.mem_cons.mp hi with rfl | hi
          · exact ⟨rfl, rfl⟩
          · rw [List.mem_singleton.mp hi]
            exact ⟨rfl, rfl⟩

/-- The KV copies of the decode variant. -/
lemma emitKvWrites_inert (side : Side) (h : EmittedAttn cfg count e) :
    EmittedAttn cfg count (emitKvWrites cfg side e) := by
  have hfold : ∀ (hs : List ℕ) (acc : Emitted × List (ℕ × ℕ)), EmittedAttn cfg count acc.1 →
      EmittedAttn cfg count (hs.foldl (emitKvCopy cfg side) acc).1 := by
    intro hs
    induction hs with
    | nil => exact fun _ hacc => hacc
    | cons k hs ih =>
        intro acc hacc
        refine ih _ (hacc.inert [kvCopy cfg (.buf side .kAttn) k,
          kvCopy cfg (.buf side .vAttn) k] (fun i hi => ?_) ?_ rfl rfl)
        · rcases List.mem_cons.mp hi with rfl | hi
          · exact ⟨rfl, rfl⟩
          · rw [List.mem_singleton.mp hi]
            exact ⟨rfl, rfl⟩
        · simp [emitKvCopy, Emitted.push]
  exact (hfold _ (e, []) h).inert [] (fun i hi => by cases hi) (by simp [emitKvWrites]) rfl
    rfl

/-- The two attention instructions of a layer, one after the other. -/
lemma EmittedAttn.layer (h : EmittedAttn cfg count e)
    (hinst : e'.instructions = e.instructions ++ [.attnPagedQ (attnPagedQInst cfg count .act),
      .attnPaged (attnPagedInst cfg count count (.buf .act .attnOut) (.buf .act .qAttn) 1)])
    (hquant : e'.attnQuantIndices = e.attnQuantIndices ++ [e.instructions.length])
    (hpaged : e'.attnPagedIndices = e.attnPagedIndices ++ [e.instructions.length + 1]) :
    EmittedAttn cfg (count + 1) e' := by
  refine ⟨⟨?_, ?_⟩, ?_, ?_⟩
  · rw [hquant, hinst, indicesOf_append, ← h.indexed.quant]
    simp [indicesOf, asAttnQ]
  · rw [hpaged, hinst, indicesOf_append, ← h.indexed.paged]
    simp [indicesOf, asAttn]
  · have hq := h.quant
    rw [attnQs] at hq
    rw [hinst, attnQs, List.filterMap_append, hq, List.range_succ, List.map_append]
    simp [asAttnQ]
  · have hp := h.paged
    rw [attns] at hp
    rw [hinst, attns, List.filterMap_append, hp, List.range_succ, List.map_append]
    simp [asAttn, List.filterMap_cons]

/-- The rotation and the two attention instructions of a layer. -/
lemma emitVariant_attn (h : EmittedAttn cfg count e) :
    EmittedAttn cfg (count + 1) (emitVariant cfg count .act 1 (.pagedKv count) e) := by
  have hrope : EmittedAttn cfg count (e.push [mropeInst cfg .act 1]) :=
    h.push fun i hi => by rw [List.mem_singleton.mp hi]; exact ⟨rfl, rfl⟩
  refine hrope.layer ?_ ?_ ?_ <;> simp [emitVariant, Emitted.push]

/-- An attention layer adds its two instructions. -/
lemma emitAttentionLayer_attn (h : EmittedAttn cfg count e) :
    EmittedAttn cfg (count + 1) (emitAttentionLayer cfg count .act 1 (.pagedKv count) e) := by
  have hproj := h.push (projections_inert cfg count .act 1)
  have hnorm := (emitKvWrites_inert .act hproj).push (qkNormInsts_inert cfg count .act 1)
  exact (emitVariant_attn hnorm).push (outputInsts_inert cfg count .act 1)

/-- The layers of a program. -/
lemma emitLayers_attn (layers : List LayerCode) (h : EmittedAttn cfg count e) :
    ∃ total, EmittedAttn cfg total (emitLayers cfg layers count e) := by
  induction layers generalizing count e with
  | nil => exact ⟨count, h⟩
  | cons l layers ih =>
      cases l with
      | attention => exact ih (emitAttentionLayer_attn h)
      | other opcodes => exact ih (h.push (others_inert opcodes))

/-! ### Programs -/

/-- The index vectors of a program list exactly its attention instructions. -/
def MegakernelProgram.AttnIndexed (p : MegakernelProgram) : Prop :=
  Indexed p.instructions p.pagedKv.attnQuantInstIndices p.pagedKv.attnPagedInstIndices

/-- **A compiled program** has one quantized and one f32 attention instruction per attention
layer, and its index vectors list them. -/
theorem compilePaged_attn (cfg : AttnConfig) (maxSeqLen : ℕ) (layers : List LayerCode)
    (tail : List ℕ) : ∃ count, (compilePaged cfg maxSeqLen layers tail).AttnIndexed ∧
      attnQs (compilePaged cfg maxSeqLen layers tail).instructions =
        (List.range count).map (fun k => attnPagedQInst cfg k .act) ∧
      attns (compilePaged cfg maxSeqLen layers tail).instructions =
        (List.range count).map fun k =>
          attnPagedInst cfg k k (.buf .act .attnOut) (.buf .act .qAttn) 1 := by
  have hstart : EmittedAttn cfg 0 ⟨[.embedding 0], [], [], [], []⟩ := ⟨⟨rfl, rfl⟩, rfl, rfl⟩
  obtain ⟨count, h⟩ := emitLayers_attn layers hstart
  have htail := h.push (others_inert tail)
  exact ⟨count, htail.indexed, htail.quant, htail.paged⟩

/-! ### Patches -/

/-- Two instruction lists with the same attention instructions at the same places. -/
structure SameAttn (is js : List Inst) : Prop where
  quant : attnQs js = attnQs is
  paged : attns js = attns is
  quantIdx : indicesOf (fun i => (asAttnQ i).isSome) js 0 =
    indicesOf (fun i => (asAttnQ i).isSome) is 0
  pagedIdx : indicesOf (fun i => (asAttn i).isSome) js 0 =
    indicesOf (fun i => (asAttn i).isSome) is 0

namespace SameAttn

variable {is js ks : List Inst} {f : Inst → Inst}

lemma refl (is : List Inst) : SameAttn is is := ⟨rfl, rfl, rfl, rfl⟩

lemma trans (h : SameAttn is js) (h' : SameAttn js ks) : SameAttn is ks :=
  ⟨h'.quant.trans h.quant, h'.paged.trans h.paged, h'.quantIdx.trans h.quantIdx,
    h'.pagedIdx.trans h.pagedIdx⟩

/-- A patch of an instruction that is not attention. -/
lemma modify (hq : ∀ i, asAttnQ (f i) = asAttnQ i) (hp : ∀ i, asAttn (f i) = asAttn i) (n : ℕ) :
    SameAttn is (is.modify n f) :=
  ⟨filterMap_modify_of_same hq is n, filterMap_modify_of_same hp is n,
    indicesOf_modify fun i => by rw [hq], indicesOf_modify fun i => by rw [hp]⟩

/-- A loop of such patches. -/
lemma foldl {β : Type*} {step : List Inst → β → List Inst}
    (hstep : ∀ is b, SameAttn is (step is b)) (bs : List β) (is : List Inst) :
    SameAttn is (bs.foldl step is) := by
  induction bs generalizing is with
  | nil => exact refl is
  | cons b bs ih => exact (hstep is b).trans (ih (step is b))

lemma indexed (h : SameAttn is js) {quant paged : List ℕ} (hi : Indexed is quant paged) :
    Indexed js quant paged :=
  ⟨hi.quant.trans h.quantIdx.symm, hi.paged.trans h.pagedIdx.symm⟩

end SameAttn

lemma sameAttn_patchToken (tokenId : ℕ) (is : List Inst) (n : ℕ) :
    SameAttn is (is.modify n (patchToken tokenId)) :=
  .modify (fun i => by cases i <;> rfl) (fun i => by cases i <;> rfl) n

lemma sameAttn_patchDst (dst : Ptr) (is : List Inst) (n : ℕ) :
    SameAttn is (is.modify n (patchDst dst)) :=
  .modify (fun i => by cases i <;> rfl) (fun i => by cases i <;> rfl) n

variable {p p' : MegakernelProgram}

lemma sameAttn_patchKvWrites (p : MegakernelProgram) (heap : ChunkHeap) (seq : SequenceState)
    (allocator : PageAllocator) :
    SameAttn p.instructions (patchKvWrites p heap seq allocator).instructions := by
  refine .foldl (fun is layer => .foldl (fun is head => ?_) _ is) _ _
  exact (sameAttn_patchDst _ is _).trans (sameAttn_patchDst _ _ _)

/-- What patches of the two kinds of attention instructions do to the two lists. -/
lemma patch_attn (hp : p.AttnIndexed) (f : ℕ → AttnPagedQInst → AttnPagedQInst)
    (g : ℕ → AttnPagedInst → AttnPagedInst) (is : List Inst)
    (his : is = patchEnum (fun k => patchAttn (g k)) p.pagedKv.attnPagedInstIndices
      (patchEnum (fun k => patchAttnQ (f k)) p.pagedKv.attnQuantInstIndices p.instructions)) :
    Indexed is p.pagedKv.attnQuantInstIndices p.pagedKv.attnPagedInstIndices ∧
      attnQs is = (attnQs p.instructions).mapIdx f ∧ attns is = (attns p.instructions).mapIdx g := by
  have hqq : ∀ k i, asAttnQ (patchAttnQ (f k) i) = (asAttnQ i).map (f k) := by
    rintro k (i | i | i | i | i | i | i | i | i | i | i | i | i) <;> rfl
  have hqp : ∀ k i, asAttn (patchAttnQ (f k) i) = asAttn i := by
    rintro k (i | i | i | i | i | i | i | i | i | i | i | i | i) <;> rfl
  have hpp : ∀ k i, asAttn (patchAttn (g k) i) = (asAttn i).map (g k) := by
    rintro k (i | i | i | i | i | i | i | i | i | i | i | i | i) <;> rfl
  have hpq : ∀ k i, asAttnQ (patchAttn (g k) i) = asAttnQ i := by
    rintro k (i | i | i | i | i | i | i | i | i | i | i | i | i) <;> rfl
  have hpaged : p.pagedKv.attnPagedInstIndices = indicesOf (fun i => (asAttn i).isSome)
      (patchEnum (fun k => patchAttnQ (f k)) p.pagedKv.attnQuantInstIndices p.instructions) 0 := by
    rw [indicesOf_patchEnum fun k i => by rw [hqp]]
    exact hp.paged
  refine ⟨⟨?_, ?_⟩, ?_, ?_⟩
  · rw [his, indicesOf_patchEnum fun k i => by rw [hpq],
      indicesOf_patchEnum fun k i => by rw [hqq, Option.isSome_map]]
    exact hp.quant
  · rw [his, indicesOf_patchEnum fun k i => by rw [hpp, Option.isSome_map]]
    exact hpaged
  · rw [his, attnQs, filterMap_patchEnum_of_same hpq, hp.quant,
      filterMap_patchEnum fun k i a ha => by rw [hqq, ha, Option.map_some], attnQs]
  · rw [his, attns, hpaged, filterMap_patchEnum fun k i a ha => by rw [hpp, ha, Option.map_some],
      filterMap_patchEnum_of_same hqp, attns]

/-- **Enabling** writes the scratch pointers of each layer into its two instructions. -/
theorem enableQuantizedKv_attn (hp : p.AttnIndexed) (cfg : AttnConfig)
    (scratchBase quantPageTablePtr : ℕ) :
    (enableQuantizedKv p cfg scratchBase quantPageTablePtr).AttnIndexed ∧
      attnQs (enableQuantizedKv p cfg scratchBase quantPageTablePtr).instructions =
        (attnQs p.instructions).mapIdx
          (fun k i => { i with scratch := scratchPtr cfg scratchBase k }) ∧
      attns (enableQuantizedKv p cfg scratchBase quantPageTablePtr).instructions =
        (attns p.instructions).mapIdx
          fun k i => { i with partialState := scratchPtr cfg scratchBase k } :=
  patch_attn hp _ _ _ rfl

/-- The quantized instruction of a step that splits the sequence. -/
def splitQ (p : MegakernelProgram) (q : QuantizedKvState) (nqh numSealed : ℕ)
    (i : AttnPagedQInst) : AttnPagedQInst :=
  { i with gridX := nqh, quantPageTable := q.quantPageTablePtr,
           posTable := p.pagedKv.positionTablePtr, quantSeqLen := numSealed * chunkTokens }

/-- The f32 instruction of a step that splits the sequence. -/
def splitF (p : MegakernelProgram) (numSealed seqLen : ℕ) (i : AttnPagedInst) : AttnPagedInst :=
  { i with pageTable := p.pagedKv.pageTablePtr + numSealed * 8,
           posTable := p.pagedKv.positionTablePtr + numSealed * chunkTokens * 3 * 4,
           seqLen := seqLen - numSealed * chunkTokens }

/-- The f32 instruction of a step that does not. -/
def wholeF (p : MegakernelProgram) (seqLen : ℕ) (i : AttnPagedInst) : AttnPagedInst :=
  { i with pageTable := p.pagedKv.pageTablePtr, posTable := p.pagedKv.positionTablePtr,
           seqLen, partialState := 0 }

/-- The attention instructions after a step. -/
inductive AttnUpdate (p p' : MegakernelProgram) (seq : SequenceState) : Prop
  | split (q : QuantizedKvState) (f : AttnPagedInst) (hquant : p.quantizedKv = true)
      (hchunks : 1 < seq.chunks.length) (hkv : p.quantKv = some q)
      (hf : f ∈ attns p.instructions)
      (hqs : attnQs p'.instructions =
        (attnQs p.instructions).map (splitQ p q f.nqh (seq.chunks.length - 1)))
      (hfs : attns p'.instructions =
        (attns p.instructions).map (splitF p (seq.chunks.length - 1) seq.seqLen))
  | whole (hchunks : ¬ (p.quantizedKv = true ∧ 1 < seq.chunks.length))
      (hqs : attnQs p'.instructions =
        (attnQs p.instructions).map fun i => { i with gridX := 0 })
      (hfs : attns p'.instructions = (attns p.instructions).map (wholeF p seq.seqLen))

lemma mapIdx_const {α : Type*} (f : α → α) (l : List α) : l.mapIdx (fun _ => f) = l.map f :=
  List.ext_getElem? fun k => by rw [List.getElem?_mapIdx, List.getElem?_map]

/-- Step 4 on the two lists. -/
lemma patchAttention_attn {seq : SequenceState} (hp : p.AttnIndexed)
    (h : patchAttention p seq = .ok p') :
    Indexed p'.instructions p.pagedKv.attnQuantInstIndices p.pagedKv.attnPagedInstIndices ∧
      AttnUpdate p p' seq := by
  rw [patchAttention] at h
  split_ifs at h with hsplit
  · split at h
    · rename_i f hfirst
      split at h
      · cases h
      · rename_i q hq
        obtain rfl := Except.ok.inj h
        obtain ⟨hi, hqs, hfs⟩ := patch_attn hp
          (fun _ => splitQ p q f.nqh (seq.chunks.length - 1))
          (fun _ => splitF p (seq.chunks.length - 1) seq.seqLen) (patchAttnSplit p q f.nqh
            (seq.chunks.length - 1) seq.seqLen).instructions
          (by rw [patchAttnSplit, patchAll_eq_patchEnum, patchAll_eq_patchEnum]; rfl)
        obtain ⟨idx, -, hidx⟩ := Option.bind_eq_some_iff.mp hfirst
        have hmem : f ∈ attns p.instructions :=
          List.mem_filterMap.mpr ⟨_, List.mem_of_getElem? hidx, rfl⟩
        exact ⟨hi, .split q f hsplit.1 hsplit.2 hq hmem (hqs.trans (mapIdx_const _ _))
          (hfs.trans (mapIdx_const _ _))⟩
    · cases h
  · obtain rfl := Except.ok.inj h
    obtain ⟨hi, hqs, hfs⟩ := patch_attn hp (fun _ i => { i with gridX := 0 })
      (fun _ => wholeF p seq.seqLen) (patchAttnWhole p seq.seqLen).instructions
      (by rw [patchAttnWhole, patchAll_eq_patchEnum, patchAll_eq_patchEnum]; rfl)
    exact ⟨hi, .whole hsplit (hqs.trans (mapIdx_const _ _)) (hfs.trans (mapIdx_const _ _))⟩

/-- Step 5 touches none of this. -/
lemma writePageTable_attn {heap heap' : ChunkHeap} {seq : SequenceState}
    {allocator : PageAllocator} (h : writePageTable p heap seq allocator = (heap', p')) :
    p'.instructions = p.instructions ∧
      p'.pagedKv.attnQuantInstIndices = p.pagedKv.attnQuantInstIndices ∧
      p'.pagedKv.attnPagedInstIndices = p.pagedKv.attnPagedInstIndices ∧
      p'.pagedKv.pageTablePtr = p.pagedKv.pageTablePtr ∧
      p'.pagedKv.positionTablePtr = p.pagedKv.positionTablePtr := by
  rw [writePageTable] at h
  split_ifs at h <;> obtain ⟨-, rfl⟩ := Prod.mk.inj h <;> exact ⟨rfl, rfl, rfl, rfl, rfl⟩

/-- **A step** patches every quantized and every f32 attention instruction in the same way. -/
theorem updateStepPagedNoUpload_attn {heap heap' : ChunkHeap} {seq : SequenceState}
    {allocator : PageAllocator} {tokenId position : ℕ} (hp : p.AttnIndexed)
    (h : updateStepPagedNoUpload p tokenId position heap seq allocator = .ok (heap', p')) :
    p'.AttnIndexed ∧ AttnUpdate p p' seq ∧ p'.pagedKv.pageTablePtr = p.pagedKv.pageTablePtr ∧
      p'.pagedKv.positionTablePtr = p.pagedKv.positionTablePtr := by
  obtain ⟨-, pos, p₂, -, hattn, hres⟩ := updateStepPagedNoUpload_steps h
  have hsame : SameAttn p.instructions
      (beforeAttention p tokenId pos heap seq allocator).instructions := by
    refine SameAttn.trans ?_ (sameAttn_patchKvWrites _ heap seq allocator)
    exact sameAttn_patchToken tokenId p.instructions p.embeddingInstIdx
  obtain ⟨hi, hup⟩ := patchAttention_attn
    (p := beforeAttention p tokenId pos heap seq allocator) (hsame.indexed hp) hattn
  obtain ⟨hkv, -, -, -⟩ := patchAttention_pagedKv hattn
  obtain ⟨hinst, hquant, hpaged, hpage, hposTable⟩ := writePageTable_attn hres
  refine ⟨?_, ?_, by rw [hpage, hkv]; rfl, by rw [hposTable, hkv]; rfl⟩
  · rw [MegakernelProgram.AttnIndexed, hinst, hquant, hpaged, hkv]
    exact hi
  · cases hup with
    | split q f hq hchunks hkv hf hqs hfs =>
        rw [hsame.quant] at hqs
        rw [hsame.paged] at hf hfs
        exact .split q f hq hchunks hkv hf (by rw [hinst, hqs]; rfl) (by rw [hinst, hfs]; rfl)
    | whole hchunks hqs hfs =>
        rw [hsame.quant] at hqs
        rw [hsame.paged] at hfs
        exact .whole hchunks (by rw [hinst, hqs]) (by rw [hinst, hfs]; rfl)

end Braidinfer.Megakernel
