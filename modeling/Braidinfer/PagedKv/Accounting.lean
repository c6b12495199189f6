/-
Every operation of the paged KV cache keeps the slots accounted for.

* `makeExclusive_inv`, `allocWithHostBacking_inv`, `promoteChunk_inv`,
  `evictChunkAndFree_inv`: the operations on handles;
* `appendToken_cases`: everything `append_token` can do, from which
  `appendToken_vramInv` and `appendToken_hostInv` follow;
* `resetChunks_inv`: `reset` gives the drained handles back and no `free` fails.
-/
import Braidinfer.PagedKv.PoolInv

namespace Braidinfer.PagedKv

open Braidinfer.Lib

/-! ### The operations on handles -/

variable {m : KvMem} {t : Tiers} {hs : List ChunkHandle} {h : ChunkHandle}

/-- Whether `make_exclusive` gets as far as issuing its copy: the chunk is shared, there is
a free slot for the private one, and there are bytes to copy. -/
def copyIssued (heap : ChunkHeap) (self : ChunkHandle) (allocator : PageAllocator) : Prop :=
  heap.strongCount self ≠ 1 ∧ ¬ allocator.freeCount < 1 ∧ (chunk heap self).len ≠ 0 ∧
    0 < allocator.chunkBytes

instance (heap : ChunkHeap) (self : ChunkHandle) (allocator : PageAllocator) :
    Decidable (copyIssued heap self allocator) :=
  inferInstanceAs (Decidable (_ ∧ _ ∧ _ ∧ _))

/-- `make_exclusive`, its copy not failing, adds the handle it returns, and an error leaves
the memory as it was. -/
lemma makeExclusive_inv (hm : MemInv m hs) (hh : h ∈ hs) {memcpy : HipStatus}
    (hcopy : copyIssued m.heap h m.vram → memcpy = .ok ()) :
    match makeExclusive m.heap h m.vram memcpy with
    | (.ok h', heap, vram) => MemInv { m with heap, vram } (h' :: hs)
    | (.error e, heap, vram) => e = .outOfMemory ∧ heap = m.heap ∧ vram = m.vram := by
  rw [makeExclusive]
  by_cases hone : m.heap.strongCount h = 1
  · rw [if_pos hone]
    exact ⟨hm.vram.clone hh, hm.host.clone (hm.vram.get hh).2⟩
  rw [if_neg hone]
  by_cases hfull : m.vram.freeCount < 1
  · rw [if_pos hfull]
    exact ⟨rfl, rfl, rfl⟩
  rw [if_neg hfull]
  cases ha : m.vram.alloc with
  | none => exact ⟨rfl, rfl, rfl⟩
  | some r =>
      obtain ⟨i, ptr, vram⟩ := r
      have hbytes : vram.chunkBytes = m.vram.chunkBytes :=
        (SlotPool.alloc_eq_some_iff.mp (PageAllocator.alloc_eq_some_iff.mp ha)).2.2.2
      have hnew : ∀ len, MemInv ⟨(m.heap.new { ChunkRef.ofVram i with len }).2, vram, m.host⟩
          (m.heap.cells.length :: hs) := fun len =>
        ⟨hm.vram.new_vram ha rfl rfl, hm.host.none_of_new rfl rfl⟩
      by_cases hlen : (chunk m.heap h).len = 0
      · simpa [hlen] using hnew 0
      by_cases hpos : 0 < m.vram.chunkBytes
      · rw [hcopy ⟨hone, hfull, hlen, hpos⟩]
        simpa [hlen, hbytes, hpos] using hnew _
      · simpa [hlen, hbytes, hpos] using hnew _

/-- The heap and both pools as the memory of a sequence operation. -/
def Tiers.mem (t : Tiers) : KvMem := ⟨t.heap, t.vram, some t.host⟩

/-- `alloc_with_host_backing` adds the handle it returns; its rollback restores the pools
and cannot fail. -/
lemma allocWithHostBacking_inv (hm : MemInv t.mem hs) :
    match allocWithHostBacking t with
    | (.ok h', t') => MemInv t'.mem (h' :: hs)
    | (.error e, t') => e = .outOfMemory ∧ t' = t := by
  have hvram : VramInv t.heap t.vram hs := hm.vram
  rw [allocWithHostBacking]
  cases ha : t.vram.alloc with
  | none => exact ⟨rfl, rfl⟩
  | some r =>
      obtain ⟨i, ptr, vram⟩ := r
      cases hb : t.host.alloc with
      | none =>
          have hfree := PageAllocator.free_of_ok (a := vram)
            (SlotPool.free_alloc (r := .pageSlotRange) (d := .pageDoubleFree)
              hvram.vram.holds (PageAllocator.alloc_eq_some_iff.mp ha))
          simp [hfree]
      | some r =>
          obtain ⟨j, ptr', host⟩ := r
          exact ⟨hvram.new_vram ha rfl rfl, hm.host.some_of_new hb rfl⟩

/-- `promote_chunk` keeps the invariant, and the rollback of a failed copy cannot fail. -/
lemma promoteChunk_inv (hm : MemInv t.mem hs) (hh : h ∈ hs) (memcpy : HipStatus) :
    MemInv (promoteChunk t h memcpy).2.mem hs ∧
      ∀ p, (promoteChunk t h memcpy).1 = .error (.panic p) → ¬ p.InFree := by
  have hvram : VramInv t.heap t.vram hs := hm.vram
  have hhost : HostInv t.heap (some t.host) := hm.host
  obtain ⟨hget, hpos⟩ := hvram.get hh
  have hc := hvram.chunk_tier hh
  rw [promoteChunk]
  by_cases htier : (chunk t.heap h).tier = .hostPinned
  · simp only [htier, ne_eq, not_true_eq_false, if_false, if_neg (hhost.slot h _ hget htier)]
    cases ha : t.vram.alloc with
    | none => exact ⟨hm, by simp [Fault.outOfMemory]⟩
    | some r =>
        obtain ⟨i, ptr, vram⟩ := r
        have ha' := PageAllocator.alloc_eq_some_iff.mp ha
        cases memcpy with
        | error e =>
            have hfree := PageAllocator.free_of_ok (a := vram)
              (SlotPool.free_alloc (r := .pageSlotRange) (d := .pageDoubleFree)
                hvram.vram.holds ha')
            simp [hfree, hm]
        | ok u =>
            cases u
            set g : ChunkRef → ChunkRef := fun c => { c with vramSlot := i, tier := .vram }
            refine ⟨⟨⟨hvram.counts.update (i := h) (g := g), ?_, ?_⟩, ?_⟩, by simp⟩
            · refine forall_update hvram.tier fun c _ => ?_
              simpa [ChunkRef.TierOk, g] using (hvram.vram.alloc ha').1
            · exact hvram.vram.update_take (g := g) hpos hget (hc.mp htier) ha' rfl
            · exact hhost.update_same (g := g) hpos hget (fun _ => rfl) (by simp [g])
  · simp only [ne_eq, htier, not_false_eq_true, if_true]
    refine ⟨hm, fun p hp => ?_⟩
    obtain rfl : Panic.promoteNotHostPinned _ = p := by simpa using hp
    exact id

/-- `evict_chunk_and_free` keeps the invariant, and freeing the VRAM slot cannot fail. -/
lemma evictChunkAndFree_inv (hm : MemInv t.mem hs) (hh : h ∈ hs) (memcpy sync : HipStatus) :
    MemInv (evictChunkAndFree t h memcpy sync).2.mem hs ∧
      ∀ p, (evictChunkAndFree t h memcpy sync).1 = .error (.panic p) → ¬ p.InFree := by
  have hvram : VramInv t.heap t.vram hs := hm.vram
  have hhost : HostInv t.heap (some t.host) := hm.host
  obtain ⟨hget, hpos⟩ := hvram.get hh
  have hc := hvram.chunk_tier hh
  unfold evictChunkAndFree evictChunk
  by_cases htier : (chunk t.heap h).tier = .vram
  · have hslot : (chunk t.heap h).vramSlot ≠ u32Max := by
      intro hmax
      rw [hc.mpr hmax] at htier
      cases htier
    by_cases hback : (chunk t.heap h).hostSlot = u32Max
    · simp only [htier, ne_eq, not_true_eq_false, if_false, hback, if_true]
      refine ⟨hm, fun p hp => ?_⟩
      obtain rfl : Panic.evictNoHostBacking = p := by simpa using hp
      exact id
    · simp only [htier, ne_eq, not_true_eq_false, if_false, hback]
      cases memcpy with
      | error e => exact ⟨hm, by simp⟩
      | ok u =>
          cases sync with
          | error e => exact ⟨hm, by simp⟩
          | ok u =>
              cases u
              set g : ChunkRef → ChunkRef := fun c =>
                { c with vramSlot := u32Max, tier := .hostPinned }
              obtain ⟨p', hfree, hinv⟩ := hvram.vram.update_free (r := .pageSlotRange)
                (d := .pageDoubleFree) (g := g) hpos hget hslot rfl
              simp only [PageAllocator.free_of_ok hfree]
              refine ⟨⟨⟨hvram.counts.update (i := h) (g := g), ?_, hinv⟩, ?_⟩, by simp⟩
              · exact forall_update hvram.tier fun c _ => by simp [ChunkRef.TierOk, g]
              · exact hhost.update_same (g := g) hpos hget (fun _ => rfl) fun _ => hback
  · simp only [ne_eq, htier, not_false_eq_true, if_true]
    refine ⟨hm, fun p hp => ?_⟩
    obtain rfl : Panic.evictNotVram _ = p := by simpa using hp
    exact id

/-! ### The operations on sequences -/

namespace SequenceState

variable {m m' : KvMem} {s s' : SequenceState} {hs : List ChunkHandle} {h : ChunkHandle}
  {position : ℤ}

/-- The token's bookkeeping in the sequence. -/
def pushed (s : SequenceState) (position : ℤ) : SequenceState :=
  { s with seqLen := s.seqLen + 1, positions := s.positions ++ [position] }

/-- The chunk's bookkeeping in the sequence. -/
def opened (s : SequenceState) (h : ChunkHandle) : SequenceState :=
  { s with chunks := s.chunks ++ [h], kvVersion := s.kvVersion + 1 }

/-- The heap after a token was counted in the last chunk. -/
def countedHeap (heap : ChunkHeap) (s : SequenceState) : ChunkHeap :=
  match s.chunks.getLast? with
  | none => heap
  | some last => heap.update last .incrementLen

/-- **Everything `append_token` can do**: count the token in the last chunk, or first open a
chunk, on a VRAM slot, or on a host slot when there is no VRAM slot left. -/
theorem appendToken_cases (happ : appendToken m s position = .ok (m', s')) :
    (s.needsNewChunk m.heap = false ∧ m' = { m with heap := countedHeap m.heap s } ∧
      s' = s.pushed position) ∨
    (s.needsNewChunk m.heap = true ∧ ∃ slot ptr vram, m.vram.alloc = some (slot, ptr, vram) ∧
      m' = { m with heap := countedHeap (m.heap.new (.ofVram slot)).2
                              (s.opened m.heap.cells.length), vram } ∧
      s' = (s.opened m.heap.cells.length).pushed position) ∨
    (s.needsNewChunk m.heap = true ∧ m.vram.alloc = none ∧
      ∃ ha slot ptr ha', m.host = some ha ∧ ha.alloc = some (slot, ptr, ha') ∧
      m' = { m with heap := countedHeap (m.heap.new (.ofHost slot)).2
                              (s.opened m.heap.cells.length), host := some ha' } ∧
      s' = (s.opened m.heap.cells.length).pushed position) := by
  rw [appendToken] at happ
  split_ifs at happ with hneed
  · right
    cases hvram : m.vram.alloc with
    | some r =>
        obtain ⟨slot, ptr, vram⟩ := r
        left
        simp only [openChunk, hvram, Except.ok.injEq, Prod.ext_iff] at happ
        obtain ⟨rfl, rfl⟩ := happ
        exact ⟨hneed, slot, ptr, vram, rfl, rfl, rfl⟩
    | none =>
        right
        cases hhost : m.host with
        | none => simp [openChunk, hvram, hhost] at happ
        | some ha =>
            cases halloc : ha.alloc with
            | none => simp [openChunk, hvram, hhost, halloc] at happ
            | some r =>
                obtain ⟨slot, ptr, ha'⟩ := r
                simp only [openChunk, hvram, hhost, halloc, Except.ok.injEq, Prod.ext_iff]
                  at happ
                obtain ⟨rfl, rfl⟩ := happ
                exact ⟨hneed, rfl, ha, slot, ptr, ha', rfl, halloc, rfl, rfl⟩
  · left
    simp only [Except.ok.injEq, Prod.ext_iff] at happ
    obtain ⟨rfl, rfl⟩ := happ
    exact ⟨by simpa using hneed, rfl, rfl⟩

/-- Without a host allocator there is none afterwards. -/
lemma appendToken_host_none (happ : appendToken m s position = .ok (m', s'))
    (hhost : m.host = none) : m'.host = none := by
  obtain ⟨-, rfl, rfl⟩ | ⟨-, slot, ptr, vram, -, rfl, rfl⟩ |
    ⟨-, -, ha, slot, ptr, ha', hsome, -, -, -⟩ := appendToken_cases happ
  · exact hhost
  · exact hhost
  · rw [hhost] at hsome
    cases hsome

/-- The only error of `append_token` is exhaustion of the pools. -/
lemma appendToken_error {e : Fault} (happ : appendToken m s position = .error e) :
    e = .outOfMemory := by
  rw [appendToken] at happ
  split_ifs at happ with hneed
  cases ho : openChunk m with
  | ok r => simp [ho] at happ
  | error e' =>
      simp only [ho, Except.error.injEq] at happ
      subst happ
      rw [openChunk] at ho
      cases ha : m.vram.alloc with
      | some r => simp [ha] at ho
      | none =>
          cases hb : m.host with
          | none => simpa [ha, hb] using ho.symm
          | some host => cases hc : host.alloc <;> simp_all

/-- Counting a token keeps the VRAM half. -/
lemma countedHeap_vramInv {heap : ChunkHeap} {vram : PageAllocator}
    (hm : VramInv heap vram hs) (hsub : ∀ h ∈ s.chunks, h ∈ hs) :
    VramInv (countedHeap heap s) vram hs := by
  rw [countedHeap]
  cases hlast : s.chunks.getLast? with
  | none => exact hm
  | some last =>
      exact hm.update_same (hsub last (List.mem_of_getLast? hlast)) (fun _ => rfl) fun _ => rfl

/-- Counting a token keeps the host half. -/
lemma countedHeap_hostInv {heap : ChunkHeap} {vram : PageAllocator}
    {host : Option HostPageAllocator} (hm : VramInv heap vram hs) (hhost : HostInv heap host)
    (hsub : ∀ h ∈ s.chunks, h ∈ hs) : HostInv (countedHeap heap s) host := by
  rw [countedHeap]
  cases hlast : s.chunks.getLast? with
  | none => exact hhost
  | some last =>
      obtain ⟨hget, hpos⟩ := hm.get (hsub last (List.mem_of_getLast? hlast))
      exact hhost.update_same (g := .incrementLen) hpos hget (fun _ => rfl)
        (hhost.slot last (chunk heap last) hget)

lemma mem_opened (hsub : ∀ h ∈ s.chunks, h ∈ hs) :
    ∀ h' ∈ (s.opened h).chunks, h' ∈ h :: hs := by
  intro h' hh'
  rcases List.mem_append.mp hh' with hmem | hmem
  · exact List.mem_cons_of_mem _ (hsub h' hmem)
  · rw [List.mem_singleton.mp hmem]
    exact List.mem_cons_self

/-- `append_token` keeps the VRAM half, adding the handle of the chunk it opens. -/
lemma appendToken_vramInv (hm : VramInv m.heap m.vram hs) (hsub : ∀ h ∈ s.chunks, h ∈ hs)
    (happ : appendToken m s position = .ok (m', s')) :
    ∃ new, s'.chunks = s.chunks ++ new ∧ VramInv m'.heap m'.vram (new ++ hs) := by
  obtain ⟨-, rfl, rfl⟩ | ⟨-, slot, ptr, vram, ha, rfl, rfl⟩ |
    ⟨-, -, ha, slot, ptr, ha', -, -, rfl, rfl⟩ := appendToken_cases happ
  · exact ⟨[], (List.append_nil _).symm, countedHeap_vramInv hm hsub⟩
  · exact ⟨[_], rfl, countedHeap_vramInv (hm.new_vram ha rfl rfl) (mem_opened hsub)⟩
  · exact ⟨[_], rfl, countedHeap_vramInv (hm.new_host rfl rfl) (mem_opened hsub)⟩

/-- `append_token` keeps the host half, for the pool passed to it and, if none was, for any
other. -/
lemma appendToken_hostInv (hm : VramInv m.heap m.vram hs) (hsub : ∀ h ∈ s.chunks, h ∈ hs)
    (happ : appendToken m s position = .ok (m', s')) :
    (HostInv m.heap m.host → HostInv m'.heap m'.host) ∧ m'.host.isSome = m.host.isSome ∧
      (m.host = none → ∀ host, HostInv m.heap host → HostInv m'.heap host) := by
  obtain ⟨-, rfl, rfl⟩ | ⟨-, slot, ptr, vram, ha, rfl, rfl⟩ |
    ⟨-, -, ha, slot, ptr, ha', hhost, halloc, rfl, rfl⟩ := appendToken_cases happ
  · exact ⟨fun hh => countedHeap_hostInv hm hh hsub, rfl,
      fun _ host hh => countedHeap_hostInv hm hh hsub⟩
  · have hm' := hm.new_vram (c := .ofVram slot) ha rfl rfl
    exact ⟨fun hh => countedHeap_hostInv hm' (hh.none_of_new rfl rfl) (mem_opened hsub), rfl,
      fun _ host hh => countedHeap_hostInv hm' (hh.none_of_new rfl rfl) (mem_opened hsub)⟩
  · have hm' := hm.new_host (c := .ofHost slot) rfl rfl
    refine ⟨fun hh => ?_, by simp [hhost], by simp [hhost]⟩
    rw [hhost] at hh
    exact countedHeap_hostInv hm' (hh.some_of_new halloc rfl) (mem_opened hsub)

/-- One chunk of `reset`: neither `free` fails, and the handle is gone. -/
lemma resetChunk_inv (hm : MemInv m (h :: hs)) :
    ∃ m', resetChunk m h = .ok m' ∧ MemInv m' hs ∧ m'.host.isSome = m.host.isSome := by
  obtain ⟨hget, hpos⟩ := hm.vram.get List.mem_cons_self
  rw [resetChunk]
  by_cases hone : m.heap.strongCount h = 1
  · obtain ⟨vram, hfreeV, hvram⟩ := hm.vram.drop_last hone
    obtain ⟨host, hfreeH, hhost, hsome⟩ := hm.host.drop_last hone hget
    exact ⟨⟨m.heap.drop h, vram, host⟩, by simp [hone, hfreeV, hfreeH], ⟨hvram, hhost⟩, hsome⟩
  · rw [if_neg hone]
    have hshared : 1 < m.heap.strongCount h := by omega
    exact ⟨_, rfl, ⟨hm.vram.drop_shared hshared, hm.host.drop_shared hshared⟩, rfl⟩

/-- The loop of `reset`: no `free` fails, and the drained handles are gone. -/
lemma resetChunks_inv {cs : List ChunkHandle} (hm : MemInv m (cs ++ hs)) :
    ∃ m', resetChunks m cs = .ok m' ∧ MemInv m' hs ∧ m'.host.isSome = m.host.isSome := by
  induction cs generalizing m with
  | nil => exact ⟨m, rfl, hm, rfl⟩
  | cons h cs ih =>
      obtain ⟨m₁, hstep, hm₁, hsome₁⟩ := resetChunk_inv hm
      obtain ⟨m₂, hrest, hm₂, hsome₂⟩ := ih hm₁
      exact ⟨m₂, by simp [resetChunks, hstep, hrest], hm₂, hsome₂.trans hsome₁⟩

end SequenceState

end Braidinfer.PagedKv
