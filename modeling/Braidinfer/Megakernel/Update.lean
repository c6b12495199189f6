/-
What `update_step_paged_no_upload` and `post_step_paged` change, said once.

* `updateStepPagedNoUpload_spec`: the tables after a successful step;
* `sameView_update`: the chunks look the same before and after it;
* `postStepPaged_cases`: a step either seals the last chunk or changes nothing.
-/
import Braidinfer.Megakernel.Program
import Braidinfer.PagedKv.View

namespace Braidinfer.Megakernel

open Braidinfer.Lib Braidinfer.PagedKv

variable {p p' : MegakernelProgram} {heap heap' : ChunkHeap} {seq : SequenceState}
  {allocator : PageAllocator} {tokenId position : ℕ}

/-! ### Chunk generations -/

/-- The page-table rewrite marks chunks as rewritten and changes nothing else of them. -/
lemma sameView_bumpGenerations (cs chunks : List ChunkHandle) :
    SequenceState.SameView cs heap (bumpGenerations heap chunks) := by
  induction chunks generalizing heap with
  | nil => exact ⟨fun _ _ => rfl, fun _ _ => rfl, fun _ _ => rfl, fun _ _ => rfl⟩
  | cons c chunks ih =>
      obtain ⟨hstrong, htier, hslot, hlen⟩ :=
        @ih (heap.update c fun c => { c with generation := c.generation + 1 })
      refine ⟨fun h hh => (hstrong h hh).trans ArcHeap.strongCount_update,
        fun h hh => (htier h hh).trans ?_, fun h hh => (hslot h hh).trans ?_,
        fun h hh => (hlen h hh).trans ?_⟩
      · exact SequenceState.chunk_update ChunkRef.tier fun _ => rfl
      · exact SequenceState.chunk_update ChunkRef.vramSlot fun _ => rfl
      · exact SequenceState.chunk_update ChunkRef.len fun _ => rfl

/-! ### The update -/

/-- The tables and counters of a program after a successful update. -/
structure Updated (p p' : MegakernelProgram) (position : ℕ) (heap heap' : ChunkHeap)
    (seq : SequenceState) (allocator : PageAllocator) : Prop where
  inRange : position < p.maxSeqLen
  positionTable : ∃ pos, seq.positions[seq.seqLen - 1]? = some pos ∧
    p'.pagedKv.positionTable = writeTriple p.pagedKv.positionTable (seq.seqLen - 1) pos
  pageTable : p'.pagedKv.pageTable = if needsRewrite p seq
    then writeEntries p.pagedKv.pageTable (chunkPtrs heap allocator seq.chunks)
    else p.pagedKv.pageTable
  lastPageTableLen : p'.pagedKv.lastPageTableLen = seq.chunks.length
  pageTableDirty : p'.pagedKv.pageTableDirty = false
  quantKv : p'.quantKv = p.quantKv
  quantizedKv : p'.quantizedKv = p.quantizedKv
  maxSeqLen : p'.maxSeqLen = p.maxSeqLen
  heap : heap' = if needsRewrite p seq then bumpGenerations heap seq.chunks else heap

lemma patchAttention_pagedKv (h : patchAttention p seq = .ok p') :
    p'.pagedKv = p.pagedKv ∧ p'.quantKv = p.quantKv ∧ p'.quantizedKv = p.quantizedKv ∧
      p'.maxSeqLen = p.maxSeqLen := by
  rw [patchAttention] at h
  split_ifs at h
  · split at h
    · split at h
      · cases h
      · obtain rfl := Except.ok.inj h
        exact ⟨rfl, rfl, rfl, rfl⟩
    · cases h
  · obtain rfl := Except.ok.inj h
    exact ⟨rfl, rfl, rfl, rfl⟩

/-- The program after steps 1 to 3 of an update: token, position and KV writes. -/
def beforeAttention (p : MegakernelProgram) (tokenId : ℕ) (pos : ℤ) (heap : ChunkHeap)
    (seq : SequenceState) (allocator : PageAllocator) : MegakernelProgram :=
  patchKvWrites
    { p with
      instructions := p.instructions.modify p.embeddingInstIdx (patchToken tokenId)
      pagedKv := { p.pagedKv with
        positionTable := writeTriple p.pagedKv.positionTable (seq.seqLen - 1) pos } }
    heap seq allocator

/-- The five steps of a successful update. -/
lemma updateStepPagedNoUpload_steps
    (h : updateStepPagedNoUpload p tokenId position heap seq allocator = .ok (heap', p')) :
    position < p.maxSeqLen ∧ ∃ pos p₁, seq.positions[seq.seqLen - 1]? = some pos ∧
      patchAttention (beforeAttention p tokenId pos heap seq allocator) seq = .ok p₁ ∧
      writePageTable p₁ heap seq allocator = (heap', p') := by
  rw [updateStepPagedNoUpload] at h
  split_ifs at h with hpos
  simp only [writePosition] at h
  cases hp : seq.positions[seq.seqLen - 1]? with
  | none => simp [hp] at h
  | some pos =>
      simp only [hp] at h
      split at h
      · cases h
      · rename_i p₁ hattn
        exact ⟨by omega, pos, p₁, rfl, hattn, Except.ok.inj h⟩

/-- **What a successful update does** to the tables, the counters and the heap. -/
theorem updateStepPagedNoUpload_spec
    (h : updateStepPagedNoUpload p tokenId position heap seq allocator = .ok (heap', p')) :
    Updated p p' position heap heap' seq allocator := by
  obtain ⟨hpos, pos, p₁, hp, hattn, hres⟩ := updateStepPagedNoUpload_steps h
  obtain ⟨hkv, hq, hquant, hmax⟩ := patchAttention_pagedKv hattn
  rw [writePageTable] at hres
  have hneed : needsRewrite p₁ seq ↔ needsRewrite p seq := by
    rw [needsRewrite, needsRewrite, hkv]
    rfl
  by_cases hrw : needsRewrite p seq
  · rw [if_pos (hneed.mpr hrw), Prod.mk.injEq] at hres
    obtain ⟨rfl, rfl⟩ := hres
    refine ⟨hpos, ⟨pos, hp, by rw [hkv]; rfl⟩, ?_, rfl, rfl, hq, hquant, hmax, ?_⟩
    · rw [if_pos hrw, hkv]
      rfl
    · rw [if_pos hrw]
  · rw [if_neg (hneed.not.mpr hrw), Prod.mk.injEq] at hres
    obtain ⟨rfl, rfl⟩ := hres
    obtain ⟨hdirty, hlen⟩ := not_or.mp hrw
    refine ⟨hpos, ⟨pos, hp, by rw [hkv]; rfl⟩, ?_, ?_, ?_, hq, hquant, hmax, ?_⟩
    · rw [if_neg hrw, hkv]
      rfl
    · rw [hkv]
      exact (not_not.mp hlen).symm
    · rw [hkv]
      exact Bool.not_eq_true _ ▸ hdirty
    · rw [if_neg hrw]

/-- The chunks look the same before and after the update. -/
lemma Updated.sameView (h : Updated p p' position heap heap' seq allocator)
    (cs : List ChunkHandle) : SequenceState.SameView cs heap heap' := by
  rw [h.heap]
  split_ifs
  · exact sameView_bumpGenerations cs seq.chunks
  · exact ⟨fun _ _ => rfl, fun _ _ => rfl, fun _ _ => rfl, fun _ _ => rfl⟩

/-! ### Sealing -/

/-- **Everything `post_step_paged` can do**: nothing, or quantize the last chunk into a slot
it takes off the quantized pool and enter that slot in the table. -/
theorem postStepPaged_cases {s s' : SealState}
    (h : postStepPaged s position heap allocator = .ok s') :
    (s' = s ∧ ¬ ((position + 1) % chunkTokens = 0 ∧ s.prog.quantizedKv = true ∧
        s.quant.isSome)) ∨
      ((position + 1) % chunkTokens = 0 ∧ s.prog.quantizedKv = true ∧
        ∃ q sealed slot ptr q' quantKv, s.quant = some q ∧ s.seq.chunks.getLast? = some sealed ∧
          q.alloc = some (slot, ptr, q') ∧ s.prog.quantKv = some quantKv ∧
          s' = { prog := { s.prog with quantKv := some (quantKv.enter s.seq.chunks.length ptr) }
                 seq := { s.seq with quantSlots := s.seq.quantSlots ++ [slot] }
                 quant := some q'
                 filled := Function.update s.filled ptr
                   (some (sealed, allocator.slotPtr (slotIndex heap sealed))) }) := by
  rw [postStepPaged] at h
  split_ifs at h with hseal
  · obtain ⟨hmod, hquant⟩ := hseal
    cases hq : s.quant with
    | none =>
        simp only [hq, Except.ok.injEq] at h
        exact .inl ⟨h.symm, by simp⟩
    | some q =>
        right
        simp only [hq] at h
        cases hlast : s.seq.chunks.getLast? with
        | none => simp [hlast] at h
        | some sealed =>
            simp only [hlast] at h
            cases ha : q.alloc with
            | none => simp [ha] at h
            | some r =>
                obtain ⟨slot, ptr, q'⟩ := r
                simp only [ha] at h
                cases hkv : s.prog.quantKv with
                | none => simp [hkv] at h
                | some quantKv =>
                    simp only [hkv, Except.ok.injEq] at h
                    exact ⟨hmod, hquant, q, sealed, slot, ptr, q', quantKv, rfl, rfl, ha, rfl,
                      h.symm⟩
  · exact .inl ⟨(Except.ok.inj h).symm, fun hs => hseal ⟨hs.1, hs.2.1⟩⟩

/-- Sealing fails, other than by a panic, only for want of a quantized slot. -/
lemma postStepPaged_hip {s : SealState} {code : ℕ}
    (h : postStepPaged s position heap allocator = .error (.hip code)) :
    ∃ q, s.quant = some q ∧ q.alloc = none := by
  rw [postStepPaged] at h
  split_ifs at h with hseal
  cases hq : s.quant with
  | none => simp [hq] at h
  | some q =>
      simp only [hq] at h
      cases hlast : s.seq.chunks.getLast? with
      | none => simp [hlast] at h
      | some sealed =>
          simp only [hlast] at h
          cases ha : q.alloc with
          | none => exact ⟨q, rfl, ha⟩
          | some r =>
              simp only [ha] at h
              cases hkv : s.prog.quantKv with
              | none => simp [hkv] at h
              | some quantKv => simp [hkv] at h

/-- Sealing a chunk touches the quantized slots of the sequence and the entries of the
quantized table. -/
lemma postStepPaged_frame {s s' : SealState}
    (h : postStepPaged s position heap allocator = .ok s') :
    s'.seq = { s.seq with quantSlots := s'.seq.quantSlots } ∧
      s'.prog = { s.prog with quantKv := s'.prog.quantKv } ∧
      ∀ q, s.prog.quantKv = some q → ∃ q', s'.prog.quantKv = some q' ∧
        q'.quantPageTablePtr = q.quantPageTablePtr := by
  rcases postStepPaged_cases h with
    ⟨rfl, -⟩ | ⟨-, -, q, sealed, slot, ptr, q', kv, -, -, -, hkv, rfl⟩
  · exact ⟨rfl, rfl, fun q hq => ⟨q, hq, rfl⟩⟩
  · refine ⟨rfl, rfl, fun q hq => ⟨_, rfl, ?_⟩⟩
    rw [← Option.some.inj (hkv.symm.trans hq)]
    rfl

end Braidinfer.Megakernel
