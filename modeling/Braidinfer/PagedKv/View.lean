/-
A sequence that shares its chunks with nobody, seen as the list of its VRAM slots.

* `order heap vram s`: the VRAM slots of the chunks, followed by the free stack.  This list
  is the whole of the pool, and `append_token` does not change it
  (`appendToken_order`);
* `resetChunks_view`: `reset` gives the slots back one by one, so it reverses the part of
  the order that the sequence held;
* `slotIndex_eq_order`: chunk `i` sits on the `i`-th slot of the order;
* `Shape`, `Filled`: lengths.  `appendToken_shape`, `appendToken_filled`: one token more, in the
  chunk it belongs to.
-/
import Mathlib.Data.List.GetD
import Braidinfer.PagedKv.Accounting

namespace Braidinfer.PagedKv

open Braidinfer.Lib

namespace SequenceState

/-- The VRAM slots of a list of chunks, in order. -/
def vramSlots (heap : ChunkHeap) (cs : List ChunkHandle) : List ℕ :=
  (cs.map (slotIndex heap)).filter (· ≠ u32Max)

/-- The VRAM slots of the sequence, followed by the free stack. -/
def order (heap : ChunkHeap) (vram : PageAllocator) (s : SequenceState) : List ℕ :=
  vramSlots heap s.chunks ++ vram.slots.free

/-- A sequence that is the only holder of its chunks. -/
structure Exclusive (heap : ChunkHeap) (vram : PageAllocator) (s : SequenceState) : Prop where
  nodup : s.chunks.Nodup
  live : ∀ h ∈ s.chunks, heap.strongCount h = 1
  tier : ∀ h ∈ s.chunks, (chunk heap h).TierOk
  capacity_lt : vram.slots.capacity < 2 ^ 32
  order_perm : (order heap vram s).Perm (List.range vram.slots.capacity)
  pinned : ∃ k, s.chunks.map (slotIndex heap) =
    vramSlots heap s.chunks ++ List.replicate k u32Max ∧ (0 < k → vram.slots.free = [])

variable {heap : ChunkHeap} {vram : PageAllocator} {m m' : KvMem} {s s' : SequenceState}
  {h : ChunkHandle} {position : ℤ} {cs : List ChunkHandle}

lemma lt_length_of_live (hone : heap.strongCount h = 1) : h < heap.cells.length := by
  obtain ⟨c, hc, -⟩ := ArcHeap.exists_cell_of_strongCount_pos (h := heap) (i := h) (by omega)
  exact (List.getElem?_eq_some_iff.mp hc).1

/-! ### Chunks after an operation -/

lemma chunk_new_of_lt {c : ChunkRef} (hlt : h < heap.cells.length) :
    chunk (heap.new c).2 h = chunk heap h := by
  rw [chunk, chunk, ArcHeap.get?_new_of_lt hlt]

lemma chunk_new {c : ChunkRef} : chunk (heap.new c).2 heap.cells.length = c := by
  rw [chunk, ArcHeap.get?_new]
  rfl

lemma chunk_drop {h' : ChunkHandle} : chunk (heap.drop h') h = chunk heap h := by
  rw [chunk, chunk, ArcHeap.get?_drop]

/-- A write to one chunk shows in a field of another only if it changes that field. -/
lemma chunk_update {α : Type*} (f : ChunkRef → α) {g : ChunkRef → ChunkRef} {h' : ChunkHandle}
    (hf : ∀ c, f (g c) = f c) : f (chunk (heap.update h' g) h) = f (chunk heap h) := by
  rw [chunk, chunk, ArcHeap.get?_update]
  by_cases heq : h' = h
  · rw [if_pos heq]
    cases hc : heap.get? h with
    | none => rfl
    | some c => exact hf c
  · rw [if_neg heq]

/-- Counting a token changes the length of the last chunk and nothing else. -/
lemma chunk_countedHeap {α : Type*} (f : ChunkRef → α)
    (hf : ∀ c : ChunkRef, f c.incrementLen = f c) :
    f (chunk (countedHeap heap s) h) = f (chunk heap h) := by
  rw [countedHeap]
  cases s.chunks.getLast? with
  | none => rfl
  | some last => exact chunk_update f hf

lemma strongCount_countedHeap :
    (countedHeap heap s).strongCount h = heap.strongCount h := by
  rw [countedHeap]
  cases s.chunks.getLast? with
  | none => rfl
  | some last => exact ArcHeap.strongCount_update

lemma slotIndex_countedHeap : slotIndex (countedHeap heap s) h = slotIndex heap h :=
  chunk_countedHeap ChunkRef.vramSlot fun _ => rfl

lemma map_slotIndex_countedHeap :
    cs.map (slotIndex (countedHeap heap s)) = cs.map (slotIndex heap) :=
  List.map_congr_left fun _ _ => slotIndex_countedHeap

lemma vramSlots_countedHeap : vramSlots (countedHeap heap s) cs = vramSlots heap cs := by
  rw [vramSlots, map_slotIndex_countedHeap, vramSlots]

lemma map_slotIndex_new {c : ChunkRef} (hlive : ∀ h ∈ cs, heap.strongCount h = 1) :
    cs.map (slotIndex (heap.new c).2) = cs.map (slotIndex heap) :=
  List.map_congr_left fun h hh => by
    rw [slotIndex, chunk_new_of_lt (lt_length_of_live (hlive h hh)), slotIndex]

/-- A heap that differs in nothing the view reads. -/
structure SameView (cs : List ChunkHandle) (heap heap' : ChunkHeap) : Prop where
  strong : ∀ h ∈ cs, heap'.strongCount h = heap.strongCount h
  tier : ∀ h ∈ cs, (chunk heap' h).tier = (chunk heap h).tier
  slot : ∀ h ∈ cs, slotIndex heap' h = slotIndex heap h
  len : ∀ h ∈ cs, (chunk heap' h).len = (chunk heap h).len

lemma SameView.vramSlots {heap' : ChunkHeap} (hv : SameView cs heap heap') :
    vramSlots heap' cs = vramSlots heap cs := by
  rw [SequenceState.vramSlots, SequenceState.vramSlots, List.map_congr_left hv.slot]

lemma SameView.order {heap' : ChunkHeap} (hv : SameView s.chunks heap heap')
    (hs : s'.chunks = s.chunks) : order heap' vram s' = order heap vram s := by
  rw [SequenceState.order, SequenceState.order, hs, hv.vramSlots]

/-! ### Appending -/

namespace Exclusive

/-- An empty sequence over a full pool. -/
lemma new (pool chunkBytes chunkTokens : ℕ) (maxChunks : UInt32) (heap : ChunkHeap) :
    Exclusive heap (.new pool chunkBytes maxChunks) (.new chunkTokens) := by
  refine ⟨List.nodup_nil, by simp [SequenceState.new], by simp [SequenceState.new],
    maxChunks.toNat_lt, ?_, 0, by simp [SequenceState.new, vramSlots], by simp⟩
  simp [order, SequenceState.new, vramSlots, PageAllocator.new, SlotPool.new, FreePool.full]

/-- The view of a sequence is all that counts. -/
lemma congr {heap' : ChunkHeap} (hx : Exclusive heap vram s) (hv : SameView s.chunks heap heap')
    (hs : s'.chunks = s.chunks) : Exclusive heap' vram s' := by
  obtain ⟨hnodup, hlive, htier, hcap, horder, k, hslots, hfree⟩ := hx
  refine ⟨hs ▸ hnodup, fun h hh => ?_, fun h hh => ?_, hcap, ?_, k, ?_, hfree⟩
  · rw [hs] at hh
    exact (hv.strong h hh).trans (hlive h hh)
  · rw [hs] at hh
    have hslot : (chunk heap' h).vramSlot = (chunk heap h).vramSlot := hv.slot h hh
    rw [ChunkRef.TierOk, hv.tier h hh, hslot]
    exact htier h hh
  · rw [hv.order hs]
    exact horder
  · rw [hs, List.map_congr_left hv.slot, hv.vramSlots]
    exact hslots

/-- Counting a token in the last chunk. -/
lemma counted (hs : Exclusive heap vram s) :
    Exclusive (countedHeap heap s) vram (s.pushed position) := by
  obtain ⟨hnodup, hlive, htier, hcap, horder, k, hslots, hfree⟩ := hs
  refine ⟨hnodup, fun h hh => strongCount_countedHeap.trans (hlive h hh), fun h hh => ?_, hcap,
    ?_, k, ?_, hfree⟩
  · rw [ChunkRef.TierOk, chunk_countedHeap ChunkRef.tier fun _ => rfl,
      chunk_countedHeap ChunkRef.vramSlot fun _ => rfl]
    exact htier h hh
  · rw [order, vramSlots_countedHeap]
    exact horder
  · rw [map_slotIndex_countedHeap, vramSlots_countedHeap]
    exact hslots

/-- A chunk opened on a new heap cell, in the state `vram'` of the pool. -/
lemma openedWith (hs : Exclusive heap vram s) (c : ChunkRef) (vram' : PageAllocator) (k : ℕ)
    (hcap : vram'.slots.capacity = vram.slots.capacity) (htier : c.TierOk)
    (hslots : s.chunks.map (slotIndex heap) ++ [c.vramSlot] =
      vramSlots heap s.chunks ++ (if c.vramSlot = u32Max then [] else [c.vramSlot]) ++
        List.replicate k u32Max)
    (hfree : 0 < k → vram'.slots.free = [])
    (horder : (if c.vramSlot = u32Max then [] else [c.vramSlot]) ++ vram'.slots.free =
      vram.slots.free) :
    Exclusive (heap.new c).2 vram' (s.opened heap.cells.length) ∧
      order (heap.new c).2 vram' (s.opened heap.cells.length) = order heap vram s := by
  have hfresh : heap.cells.length ∉ s.chunks := fun hmem =>
    Nat.lt_irrefl _ (lt_length_of_live (hs.live _ hmem))
  have hmap : (s.opened heap.cells.length).chunks.map (slotIndex (heap.new c).2) =
      s.chunks.map (slotIndex heap) ++ [c.vramSlot] := by
    rw [opened, List.map_append, map_slotIndex_new hs.live, List.map_singleton, slotIndex,
      chunk_new]
  have hvs : vramSlots (heap.new c).2 (s.opened heap.cells.length).chunks =
      vramSlots heap s.chunks ++ (if c.vramSlot = u32Max then [] else [c.vramSlot]) := by
    rw [vramSlots, hmap, List.filter_append, vramSlots, List.filter_singleton]
    by_cases hmax : c.vramSlot = u32Max <;> simp [hmax]
  have hord : order (heap.new c).2 vram' (s.opened heap.cells.length) = order heap vram s := by
    rw [order, hvs, List.append_assoc, horder, order]
  refine ⟨⟨?_, fun h hh => ?_, fun h hh => ?_, hcap ▸ hs.capacity_lt, ?_, k, ?_, hfree⟩, hord⟩
  · exact List.nodup_append.mpr ⟨hs.nodup, List.nodup_singleton _, fun a ha b hb => by
      rintro rfl
      exact hfresh (List.mem_singleton.mp hb ▸ ha)⟩
  · rcases List.mem_append.mp hh with hmem | hmem
    · rw [ArcHeap.strongCount_new, if_neg]
      · exact hs.live h hmem
      · rintro rfl
        exact hfresh hmem
    · rw [List.mem_singleton.mp hmem, ArcHeap.strongCount_new, if_pos rfl]
  · rcases List.mem_append.mp hh with hmem | hmem
    · rw [chunk_new_of_lt (lt_length_of_live (hs.live h hmem))]
      exact hs.tier h hmem
    · rw [List.mem_singleton.mp hmem, chunk_new]
      exact htier
  · rw [hord, hcap]
    exact hs.order_perm
  · rw [hmap, hvs]
    exact hslots

end Exclusive

/-- `append_token` leaves the region of the pool as it is. -/
lemma appendToken_pool (happ : appendToken m s position = .ok (m', s')) :
    m'.vram.pool = m.vram.pool ∧ m'.vram.chunkBytes = m.vram.chunkBytes := by
  obtain ⟨-, rfl, rfl⟩ | ⟨-, slot, ptr, vram, ha, rfl, rfl⟩ |
    ⟨-, -, ha, slot, ptr, ha', -, -, rfl, rfl⟩ := appendToken_cases happ
  · exact ⟨rfl, rfl⟩
  · exact (SlotPool.alloc_eq_some_iff.mp (PageAllocator.alloc_eq_some_iff.mp ha)).2.2
  · exact ⟨rfl, rfl⟩

/-- A chunk opened on the slot just allocated. -/
lemma Exclusive.openedVram (hs : Exclusive heap vram s) {slot ptr : ℕ} {vram' : PageAllocator}
    (ha : vram.alloc = some (slot, ptr, vram')) :
    Exclusive (heap.new (.ofVram slot)).2 vram' (s.opened heap.cells.length) ∧
      order (heap.new (.ofVram slot)).2 vram' (s.opened heap.cells.length) = order heap vram s := by
  obtain ⟨hfree, hcap⟩ := FreePool.take?_eq_some_iff.mp
    (SlotPool.alloc_eq_some_iff.mp (PageAllocator.alloc_eq_some_iff.mp ha)).1
  obtain ⟨k, hslots, hpinned⟩ := hs.pinned
  -- a free slot is left, so no chunk of the sequence is host-pinned
  obtain rfl : k = 0 := by
    by_contra hk
    rw [hpinned (Nat.pos_of_ne_zero hk)] at hfree
    cases hfree
  have hmem : slot ∈ List.range vram.slots.capacity := by
    refine hs.order_perm.mem_iff.mp (List.mem_append_right _ ?_)
    rw [hfree]
    exact List.mem_cons_self
  have hmax : slot ≠ u32Max := PoolInv.ne_max hs.capacity_lt (List.mem_range.mp hmem)
  exact hs.openedWith (.ofVram slot) vram' 0 hcap
    (by simp [ChunkRef.TierOk, ChunkRef.ofVram, hmax])
    (by simpa [ChunkRef.ofVram, hmax] using hslots) (by simp)
    (by simp [ChunkRef.ofVram, hmax, hfree])

/-- A chunk opened on a host slot, the VRAM pool being exhausted. -/
lemma Exclusive.openedHost (hs : Exclusive heap vram s) (slot : ℕ) (hnone : vram.alloc = none) :
    Exclusive (heap.new (.ofHost slot)).2 vram (s.opened heap.cells.length) ∧
      order (heap.new (.ofHost slot)).2 vram (s.opened heap.cells.length) = order heap vram s := by
  have hfree := PageAllocator.alloc_eq_none_iff.mp hnone
  obtain ⟨k, hslots, -⟩ := hs.pinned
  exact hs.openedWith (.ofHost slot) vram (k + 1) rfl
    (by simp [ChunkRef.TierOk, ChunkRef.ofHost])
    (by simp [ChunkRef.ofHost, hslots, List.replicate_succ']) (fun _ => hfree)
    (by simp [ChunkRef.ofHost])

/-- `append_token` keeps the sequence exclusive and the order of the slots as it is. -/
theorem appendToken_order (hs : Exclusive m.heap m.vram s)
    (happ : appendToken m s position = .ok (m', s')) :
    Exclusive m'.heap m'.vram s' ∧ order m'.heap m'.vram s' = order m.heap m.vram s := by
  have hcount : ∀ {heap : ChunkHeap} {vram : PageAllocator} {s : SequenceState},
      order (countedHeap heap s) vram (s.pushed position) = order heap vram s := by
    intro heap vram s
    rw [order, vramSlots_countedHeap]
    rfl
  obtain ⟨-, rfl, rfl⟩ | ⟨-, slot, ptr, vram, ha, rfl, rfl⟩ |
    ⟨-, hnone, ha, slot, ptr, ha', -, -, rfl, rfl⟩ := appendToken_cases happ
  · exact ⟨hs.counted, hcount⟩
  · obtain ⟨hex, hord⟩ := hs.openedVram ha
    exact ⟨hex.counted, hcount.trans hord⟩
  · obtain ⟨hex, hord⟩ := hs.openedHost slot hnone
    exact ⟨hex.counted, hcount.trans hord⟩

lemma Exclusive.length_order (hs : Exclusive heap vram s) :
    (vramSlots heap s.chunks).length + vram.slots.free.length = vram.slots.capacity := by
  have hlen := hs.order_perm.length_eq
  rwa [order, List.length_append, List.length_range] at hlen

/-- With a free slot left, every chunk has one. -/
lemma Exclusive.length_chunks (hs : Exclusive heap vram s) (hfree : vram.slots.free ≠ []) :
    s.chunks.length + vram.slots.free.length = vram.slots.capacity := by
  obtain ⟨k, hslots, hpinned⟩ := hs.pinned
  obtain rfl : k = 0 := by
    by_contra hk
    exact hfree (hpinned (Nat.pos_of_ne_zero hk))
  have hlen := congrArg List.length hslots
  rw [List.length_map, List.length_append, List.length_replicate, Nat.add_zero] at hlen
  rw [hlen]
  exact hs.length_order

lemma appendToken_capacity (hs : Exclusive m.heap m.vram s)
    (happ : appendToken m s position = .ok (m', s')) :
    m'.vram.slots.capacity = m.vram.slots.capacity := by
  obtain ⟨hx, hord⟩ := appendToken_order hs happ
  have hlen := congrArg List.length hord
  rwa [order, order, List.length_append, List.length_append, hx.length_order,
    hs.length_order] at hlen

/-- Without a host allocator the chunks never outnumber the VRAM slots. -/
lemma appendToken_length_le (hs : Exclusive m.heap m.vram s)
    (happ : appendToken m s position = .ok (m', s')) (hhost : m.host = none)
    (hle : s.chunks.length ≤ m.vram.slots.capacity) :
    s'.chunks.length ≤ m.vram.slots.capacity := by
  obtain ⟨-, rfl, rfl⟩ | ⟨-, slot, ptr, vram, ha, rfl, rfl⟩ |
    ⟨-, -, ha, slot, ptr, ha', hsome, -, -, -⟩ := appendToken_cases happ
  · exact hle
  · obtain ⟨hfree, -⟩ := FreePool.take?_eq_some_iff.mp
      (SlotPool.alloc_eq_some_iff.mp (PageAllocator.alloc_eq_some_iff.mp ha)).1
    have hlen := hs.length_chunks (by rw [hfree]; exact List.cons_ne_nil _ _)
    rw [hfree, List.length_cons] at hlen
    simp only [pushed, opened, List.length_append, List.length_singleton]
    omega
  · rw [hhost] at hsome
    cases hsome

/-- Chunk `i` sits on the `i`-th slot of the order; past its end, on none. -/
lemma slotIndex_eq_order (hs : Exclusive heap vram s) {i : ℕ} (hi : s.chunks[i]? = some h) :
    slotIndex heap h = (order heap vram s).getD i u32Max := by
  obtain ⟨k, hslots, hfree⟩ := hs.pinned
  have hget : (s.chunks.map (slotIndex heap))[i]? = some (slotIndex heap h) := by
    rw [List.getElem?_map, hi]
    rfl
  rw [hslots] at hget
  rcases Nat.lt_or_ge i (vramSlots heap s.chunks).length with hlt | hge
  · rw [List.getElem?_append_left hlt] at hget
    rw [List.getD_eq_getElem?_getD, order, List.getElem?_append_left hlt, hget]
    rfl
  · rw [List.getElem?_append_right hge, List.getElem?_replicate] at hget
    split_ifs at hget with hk
    rw [List.getD_eq_getElem?_getD, order, hfree (by omega), List.append_nil,
      List.getElem?_eq_none hge]
    exact (Option.some.inj hget).symm

/-! ### Resetting -/

lemma vramSlots_drop {h' : ChunkHandle} : vramSlots (heap.drop h') cs = vramSlots heap cs := by
  have hmap : cs.map (slotIndex (heap.drop h')) = cs.map (slotIndex heap) :=
    List.map_congr_left fun h _ => by rw [slotIndex, chunk_drop, slotIndex]
  rw [vramSlots, hmap, vramSlots]

/-- `reset` without a host allocator pushes the VRAM slots of the chunks one by one. -/
lemma resetChunks_view (hnodup : cs.Nodup) (hlive : ∀ h ∈ cs, heap.strongCount h = 1)
    (htier : ∀ h ∈ cs, (chunk heap h).TierOk)
    (hslots : (vramSlots heap cs ++ vram.slots.free).Nodup)
    (hlt : ∀ i ∈ vramSlots heap cs, i < vram.slots.capacity) :
    ∃ heap' vram', resetChunks ⟨heap, vram, none⟩ cs = .ok ⟨heap', vram', none⟩ ∧
      vram'.slots = ⟨vram.slots.capacity, (vramSlots heap cs).reverse ++ vram.slots.free⟩ ∧
      vram'.pool = vram.pool ∧ vram'.chunkBytes = vram.chunkBytes := by
  induction cs generalizing heap vram with
  | nil => exact ⟨heap, vram, rfl, rfl, rfl, rfl⟩
  | cons h cs ih =>
      obtain ⟨hh, hnodup'⟩ := List.nodup_cons.mp hnodup
      have hlive' : ∀ h' ∈ cs, (heap.drop h).strongCount h' = 1 := by
        intro h' hh'
        rw [ArcHeap.strongCount_drop, if_neg]
        · exact hlive h' (List.mem_cons_of_mem _ hh')
        · rintro rfl
          exact hh hh'
      have htier' : ∀ h' ∈ cs, (chunk (heap.drop h) h').TierOk := fun h' hh' => by
        rw [chunk_drop]
        exact htier h' (List.mem_cons_of_mem _ hh')
      have hone := hlive h List.mem_cons_self
      have ht := htier h List.mem_cons_self
      by_cases hmax : slotIndex heap h = u32Max
      · -- a host-pinned chunk has no VRAM slot to give back
        have hvs : vramSlots heap (h :: cs) = vramSlots heap cs := by simp [vramSlots, hmax]
        rw [hvs] at hslots hlt
        obtain ⟨heap', vram', hreset, hspec⟩ := ih hnodup' hlive' htier'
          (by rwa [vramSlots_drop]) (by rwa [vramSlots_drop])
        rw [vramSlots_drop] at hspec
        refine ⟨heap', vram', ?_, by rwa [hvs]⟩
        have hpin : (chunk heap h).tier = .hostPinned := ht.mpr hmax
        simp [resetChunks, resetChunk, hone, freeVramSlot, freeHostSlot, hpin, hreset]
      · have hvs : vramSlots heap (h :: cs) = slotIndex heap h :: vramSlots heap cs := by
          simp [vramSlots, hmax]
        rw [hvs] at hslots hlt
        obtain ⟨hnew, hslots'⟩ := List.nodup_cons.mp hslots
        have hfree := PageAllocator.free_push (hlt _ List.mem_cons_self)
          (fun hmem => hnew (List.mem_append_right _ hmem))
        set vram₁ : PageAllocator := ⟨{ vram.toSlotPool with
          slots := ⟨vram.slots.capacity, slotIndex heap h :: vram.slots.free⟩ }⟩ with hvram₁
        obtain ⟨heap', vram', hreset, hspec⟩ := @ih (heap.drop h) vram₁ hnodup' hlive' htier'
          (by rw [vramSlots_drop]; exact (List.perm_middle.nodup_iff).mpr hslots)
          (by rw [vramSlots_drop]; exact fun i hi => hlt i (List.mem_cons_of_mem _ hi))
        rw [vramSlots_drop] at hspec
        refine ⟨heap', vram', ?_, by simpa [hvs, hvram₁] using hspec⟩
        have htierV : (chunk heap h).tier = .vram := by
          cases hc : (chunk heap h).tier with
          | vram => rfl
          | hostPinned => exact absurd (ht.mp hc) hmax
        have hmax' : (chunk heap h).vramSlot ≠ u32Max := hmax
        have hfree' : vram.free (chunk heap h).vramSlot = .ok vram₁ := hfree
        simp [resetChunks, resetChunk, hone, freeVramSlot, freeHostSlot, htierV, hmax', hfree',
          hreset]

/-- `reset` of an exclusive sequence succeeds, and the order it leaves has the part that the
sequence held reversed. -/
theorem reset_order (hs : Exclusive heap vram s) :
    ∃ heap' vram' s', reset ⟨heap, vram, none⟩ s = .ok (⟨heap', vram', none⟩, s') ∧
      s' = { s with chunks := [], seqLen := 0, positions := [], kvVersion := s.kvVersion + 1 } ∧
      Exclusive heap' vram' s' ∧ vram'.slots.capacity = vram.slots.capacity ∧
      vram'.pool = vram.pool ∧ vram'.chunkBytes = vram.chunkBytes ∧
      order heap' vram' s' = (vramSlots heap s.chunks).reverse ++ vram.slots.free := by
  have hnd : (order heap vram s).Nodup := hs.order_perm.nodup_iff.mpr List.nodup_range
  obtain ⟨heap', vram', hreset, hslots, hpool, hbytes⟩ := resetChunks_view hs.nodup hs.live
    hs.tier hnd fun i hi =>
      List.mem_range.mp (hs.order_perm.mem_iff.mp (List.mem_append_left _ hi))
  have hcap : vram'.slots.capacity = vram.slots.capacity := by rw [hslots]
  have hord : ∀ s' : SequenceState, s'.chunks = [] →
      order heap' vram' s' = (vramSlots heap s.chunks).reverse ++ vram.slots.free := by
    intro s' hs'
    rw [order, hs', hslots]
    rfl
  refine ⟨heap', vram', _, by simp [reset, hreset], rfl, ?_, hcap, hpool, hbytes, hord _ rfl⟩
  refine ⟨List.nodup_nil, by simp, by simp, hcap ▸ hs.capacity_lt, ?_, 0, by simp [vramSlots],
    by simp⟩
  rw [hord _ rfl, hcap]
  exact ((List.reverse_perm _).append_right _).trans hs.order_perm

/-! ### Lengths -/

/-- The lengths of a sequence: one position per token, and the last chunk holds what the
full chunks before it leave. -/
structure Shape (heap : ChunkHeap) (s : SequenceState) : Prop where
  tokens_pos : 0 < s.chunkTokens
  positions : s.positions.length = s.seqLen
  last : (s.chunks = [] ∧ s.seqLen = 0) ∨ ∃ h, s.chunks.getLast? = some h ∧
    1 ≤ (chunk heap h).len ∧ (chunk heap h).len ≤ s.chunkTokens ∧
    s.seqLen = s.chunkTokens * (s.chunks.length - 1) + (chunk heap h).len

/-- The shape of a sequence, too, only depends on its view. -/
lemma Shape.congr {heap' : ChunkHeap} (hs : Shape heap s) (hv : SameView s.chunks heap heap')
    (hchunks : s'.chunks = s.chunks) (hlen : s'.seqLen = s.seqLen)
    (hpos : s'.positions = s.positions) (htok : s'.chunkTokens = s.chunkTokens) :
    Shape heap' s' := by
  refine ⟨htok ▸ hs.tokens_pos, by rw [hpos, hlen]; exact hs.positions, ?_⟩
  rcases hs.last with ⟨hempty, hzero⟩ | ⟨h, hh, hlast⟩
  · exact .inl ⟨hchunks.trans hempty, hlen.trans hzero⟩
  · refine .inr ⟨h, by rw [hchunks]; exact hh, ?_⟩
    rw [hv.len h (List.mem_of_getLast? hh), hchunks, hlen, htok]
    exact hlast

/-- The number of chunks of a sequence of `n + 1` tokens. -/
lemma Shape.length_chunks (hs : Shape heap s) {n : ℕ} (hn : s.seqLen = n + 1) :
    s.chunks.length = n / s.chunkTokens + 1 := by
  rcases hs.last with ⟨-, hzero⟩ | ⟨h, hh, hge, hle, hseq⟩
  · omega
  · have hpos : 0 < s.chunks.length := List.length_pos_of_mem (List.mem_of_getLast? hh)
    have hdiv : n / s.chunkTokens = s.chunks.length - 1 := by
      rw [Nat.div_eq_iff hs.tokens_pos, Nat.mul_comm]
      constructor <;> omega
    omega

lemma chunk_countedHeap_last {last : ChunkHandle} (hlast : s.chunks.getLast? = some last)
    (hlive : heap.strongCount last = 1) :
    (chunk (countedHeap heap s) last).len = (chunk heap last).len + 1 := by
  obtain ⟨c, hc, -⟩ := ArcHeap.exists_cell_of_strongCount_pos (h := heap) (i := last) (by omega)
  have hget : heap.get? last = some c.val := by simp [ArcHeap.get?, hc]
  simp [countedHeap, hlast, chunk, ArcHeap.get?_update, hget, ChunkRef.incrementLen]

/-- `append_token` adds one token to the chunk it belongs to. -/
theorem appendToken_shape (hx : Exclusive m.heap m.vram s) (hs : Shape m.heap s)
    (happ : appendToken m s position = .ok (m', s')) :
    Shape m'.heap s' ∧ s'.seqLen = s.seqLen + 1 ∧ s'.positions = s.positions ++ [position] ∧
      s'.chunkTokens = s.chunkTokens ∧ s'.quantSlots = s.quantSlots := by
  have hopen : ∀ c : ChunkRef, c.len = 0 → s.needsNewChunk m.heap = true →
      Shape (countedHeap (m.heap.new c).2 (s.opened m.heap.cells.length))
        ((s.opened m.heap.cells.length).pushed position) := by
    intro c hc hneed
    have hlast : (s.opened m.heap.cells.length).chunks.getLast? = some m.heap.cells.length := by
      simp [opened]
    have hone : (m.heap.new c).2.strongCount m.heap.cells.length = 1 := by
      rw [ArcHeap.strongCount_new, if_pos rfl]
    have hlen := chunk_countedHeap_last hlast hone
    rw [chunk_new, hc] at hlen
    refine ⟨hs.tokens_pos, by simp [pushed, opened, hs.positions], Or.inr ⟨_, hlast, ?_, ?_, ?_⟩⟩
    · omega
    · rw [hlen]
      exact hs.tokens_pos
    · rw [hlen]
      rcases hs.last with ⟨hempty, hzero⟩ | ⟨h, hh, -, hle, hseq⟩
      · simp [pushed, opened, hempty, hzero]
      · -- the old last chunk is full
        have hfull : s.chunkTokens ≤ (chunk m.heap h).len := by
          simpa [needsNewChunk, hh] using hneed
        have hpos : 0 < s.chunks.length :=
          List.length_pos_of_mem (List.mem_of_getLast? hh)
        obtain ⟨n, hn⟩ : ∃ n, s.chunks.length = n + 1 := ⟨_, (Nat.succ_pred_eq_of_pos hpos).symm⟩
        have hmul : s.chunkTokens * (n + 1) = s.chunkTokens * n + s.chunkTokens := Nat.mul_succ _ _
        simp only [pushed, opened, List.length_append, List.length_singleton, hn,
          Nat.add_sub_cancel] at hseq ⊢
        omega
  obtain ⟨hneed, rfl, rfl⟩ | ⟨hneed, slot, ptr, vram, -, rfl, rfl⟩ |
    ⟨hneed, -, ha, slot, ptr, ha', -, -, rfl, rfl⟩ := appendToken_cases happ
  · refine ⟨⟨hs.tokens_pos, by simp [pushed, hs.positions], ?_⟩, rfl, rfl, rfl, rfl⟩
    rcases hs.last with ⟨hempty, -⟩ | ⟨h, hh, hge, hle, hseq⟩
    · simp [needsNewChunk, hempty] at hneed
    · have hlen := chunk_countedHeap_last hh (hx.live h (List.mem_of_getLast? hh))
      have hroom : (chunk m.heap h).len < s.chunkTokens := by
        simpa [needsNewChunk, hh] using hneed
      refine Or.inr ⟨h, hh, ?_, ?_, ?_⟩ <;> simp only [pushed, hlen] <;> omega
  · exact ⟨hopen _ rfl hneed, rfl, rfl, rfl, rfl⟩
  · exact ⟨hopen _ rfl hneed, rfl, rfl, rfl, rfl⟩

/-- The chunks fit in `n` exactly if the tokens do. -/
lemma Shape.length_le_iff (hs : Shape heap s) (n : ℕ) :
    s.chunks.length ≤ n ↔ s.seqLen ≤ s.chunkTokens * n := by
  rcases hs.last with ⟨hempty, hzero⟩ | ⟨last, hlast, hge, hle, hseq⟩
  · simp [hempty, hzero]
  · have hpos : 0 < s.chunks.length := List.length_pos_of_mem (List.mem_of_getLast? hlast)
    obtain ⟨k, hk⟩ : ∃ k, s.chunks.length = k + 1 := ⟨_, (Nat.succ_pred_eq_of_pos hpos).symm⟩
    rw [hk, Nat.add_sub_cancel] at hseq
    rw [hk, hseq]
    constructor
    · intro hlt
      calc s.chunkTokens * k + (chunk heap last).len ≤ s.chunkTokens * k + s.chunkTokens := by omega
        _ = s.chunkTokens * (k + 1) := (Nat.mul_succ _ _).symm
        _ ≤ s.chunkTokens * n := Nat.mul_le_mul_left _ hlt
    · intro hlt
      exact Nat.lt_of_mul_lt_mul_left (a := s.chunkTokens) (by omega)

/-- Chunk `i` of a sequence holds what the chunks before it leave of its tokens. -/
def Filled (heap : ChunkHeap) (s : SequenceState) : Prop :=
  ∀ i h, s.chunks[i]? = some h →
    (chunk heap h).len = min s.chunkTokens (s.seqLen - s.chunkTokens * i)

lemma Filled.congr {heap' : ChunkHeap} (hf : Filled heap s) (hv : SameView s.chunks heap heap')
    (hchunks : s'.chunks = s.chunks) (hlen : s'.seqLen = s.seqLen)
    (htok : s'.chunkTokens = s.chunkTokens) : Filled heap' s' := by
  intro i h hi
  rw [hchunks] at hi
  rw [hv.len h (List.mem_of_getElem? hi), htok, hlen]
  exact hf i h hi

/-- A chunk before the last one is full. -/
lemma Shape.full_of_lt (hs : Shape heap s) {i : ℕ} (hi : i + 1 < s.chunks.length) :
    s.chunkTokens * i + s.chunkTokens < s.seqLen := by
  have hlt := (hs.length_le_iff (i + 1)).not.mp (by omega)
  rw [Nat.mul_succ] at hlt
  omega

lemma chunk_countedHeap_of_ne {last : ChunkHandle} (hlast : s.chunks.getLast? = some last)
    (hne : h ≠ last) : chunk (countedHeap heap s) h = chunk heap h := by
  simp [countedHeap, hlast, chunk, ArcHeap.get?_update, hne.symm]

/-- The last chunk of a sequence is the one at the last index. -/
lemma getElem?_eq_last {i : ℕ} {last : ChunkHandle} (hi : s.chunks[i]? = some h)
    (hlast : s.chunks.getLast? = some last) (heq : i + 1 = s.chunks.length) : h = last := by
  rw [List.getLast?_eq_getElem?, ← heq, Nat.add_sub_cancel, hi] at hlast
  exact Option.some.inj hlast

/-- Counting a token in the last chunk, of which the rest has room for it. -/
lemma Filled.counted (hx : Exclusive heap vram s) {last : ChunkHandle}
    (hlast : s.chunks.getLast? = some last)
    (hfull : ∀ i h, s.chunks[i]? = some h → i + 1 < s.chunks.length →
      (chunk heap h).len = s.chunkTokens ∧ s.chunkTokens * i + s.chunkTokens ≤ s.seqLen)
    (hroom : (chunk heap last).len < s.chunkTokens)
    (hlen : s.seqLen = s.chunkTokens * (s.chunks.length - 1) + (chunk heap last).len) :
    Filled (countedHeap heap s) (s.pushed position) := by
  intro i h hi
  change (chunk _ h).len = min s.chunkTokens (s.seqLen + 1 - s.chunkTokens * i)
  have hlt : i < s.chunks.length := (List.getElem?_eq_some_iff.mp hi).1
  by_cases heq : i + 1 = s.chunks.length
  · rw [getElem?_eq_last hi hlast heq,
      chunk_countedHeap_last hlast (hx.live last (List.mem_of_getLast? hlast))]
    rw [← heq, Nat.add_sub_cancel] at hlen
    omega
  · have hne : h ≠ last := by
      rintro rfl
      rw [List.getLast?_eq_getElem?] at hlast
      have hij : i = s.chunks.length - 1 := hx.nodup.getElem_inj_iff.mp
        ((List.getElem?_eq_some_iff.mp hi).2.trans (List.getElem?_eq_some_iff.mp hlast).2.symm)
      omega
    obtain ⟨hc, hle⟩ := hfull i h hi (by omega)
    rw [chunk_countedHeap_of_ne hlast hne, hc]
    omega

/-- `append_token` fills chunk after chunk. -/
theorem appendToken_filled (hx : Exclusive m.heap m.vram s) (hs : Shape m.heap s)
    (hf : Filled m.heap s) (happ : appendToken m s position = .ok (m', s')) :
    Filled m'.heap s' := by
  have hbefore : ∀ i h, s.chunks[i]? = some h → s.chunkTokens * i + s.chunkTokens ≤ s.seqLen →
      (chunk m.heap h).len = s.chunkTokens := by
    intro i h hi hle
    rw [hf i h hi]
    omega
  have hopen : ∀ (c : ChunkRef) (vram : PageAllocator), c.len = 0 →
      Exclusive (m.heap.new c).2 vram (s.opened m.heap.cells.length) →
      s.needsNewChunk m.heap = true →
      Filled (countedHeap (m.heap.new c).2 (s.opened m.heap.cells.length))
        ((s.opened m.heap.cells.length).pushed position) := by
    intro c vram hc hx' hneed
    -- the old last chunk is full
    have hseq : s.seqLen = s.chunkTokens * s.chunks.length := by
      rcases hs.last with ⟨hempty, hzero⟩ | ⟨last, hlast, -, hle, hseq⟩
      · simp [hempty, hzero]
      · have hfull : s.chunkTokens ≤ (chunk m.heap last).len := by
          simpa [needsNewChunk, hlast] using hneed
        obtain ⟨n, hn⟩ : ∃ n, s.chunks.length = n + 1 := ⟨_, (Nat.succ_pred_eq_of_pos
          (List.length_pos_of_mem (List.mem_of_getLast? hlast))).symm⟩
        rw [hn, Nat.add_sub_cancel] at hseq
        rw [hn, Nat.mul_succ]
        omega
    have hlast : (s.opened m.heap.cells.length).chunks.getLast? = some m.heap.cells.length := by
      simp [opened]
    refine Filled.counted hx' hlast (fun i h hi hlt => ?_) ?_ ?_
    · simp only [opened, List.length_append, List.length_singleton] at hi hlt
      rw [List.getElem?_append_left (by omega)] at hi
      have hle : s.chunkTokens * i + s.chunkTokens ≤ s.seqLen := by
        rw [hseq, ← Nat.mul_succ]
        exact Nat.mul_le_mul_left _ (by omega)
      rw [chunk_new_of_lt (lt_length_of_live (hx.live h (List.mem_of_getElem? hi)))]
      exact ⟨hbefore i h hi hle, hle⟩
    · rw [chunk_new, hc]
      exact hs.tokens_pos
    · rw [chunk_new, hc]
      simpa [opened] using hseq
  obtain ⟨hneed, rfl, rfl⟩ | ⟨hneed, slot, ptr, vram, ha, rfl, rfl⟩ |
    ⟨hneed, hnone, ha, slot, ptr, ha', -, -, rfl, rfl⟩ := appendToken_cases happ
  · rcases hs.last with ⟨hempty, -⟩ | ⟨last, hlast, -, -, hseq⟩
    · simp [needsNewChunk, hempty] at hneed
    · have hroom : (chunk m.heap last).len < s.chunkTokens := by
        simpa [needsNewChunk, hlast] using hneed
      refine Filled.counted hx hlast (fun i h hi hlt => ?_) hroom hseq
      have hle := (hs.full_of_lt hlt).le
      exact ⟨hbefore i h hi hle, hle⟩
  · exact hopen _ vram rfl (hx.openedVram ha).1 hneed
  · exact hopen _ m.vram rfl (hx.openedHost slot hnone).1 hneed

/-- Below the size of the VRAM pool, `append_token` succeeds. -/
lemma appendToken_ok (position : ℤ) (hx : Exclusive m.heap m.vram s) (hs : Shape m.heap s)
    (hlt : s.seqLen < s.chunkTokens * m.vram.slots.capacity) :
    ∃ r, appendToken m s position = .ok r := by
  rw [appendToken]
  by_cases hneed : s.needsNewChunk m.heap
  · rw [if_pos hneed, openChunk]
    cases ha : m.vram.alloc with
    | some r => exact ⟨_, rfl⟩
    | none =>
        -- the pool is exhausted, so the sequence fills it
        have hfull : s.chunkTokens * s.chunks.length ≤ s.seqLen := by
          rcases hs.last with ⟨hempty, -⟩ | ⟨h, hh, -, hle, hseq⟩
          · simp [hempty]
          · have hroom : s.chunkTokens ≤ (chunk m.heap h).len := by
              simpa [needsNewChunk, hh] using hneed
            obtain ⟨n, hn⟩ : ∃ n, s.chunks.length = n + 1 := ⟨_, (Nat.succ_pred_eq_of_pos
              (List.length_pos_of_mem (List.mem_of_getLast? hh))).symm⟩
            rw [hn, Nat.add_sub_cancel] at hseq
            rw [hn, Nat.mul_succ]
            omega
        have hcap := hx.length_order
        rw [PageAllocator.alloc_eq_none_iff.mp ha, List.length_nil, Nat.add_zero] at hcap
        have hle : (vramSlots m.heap s.chunks).length ≤ s.chunks.length :=
          (List.length_filter_le _ _).trans (List.length_map _).le
        have hmul := Nat.mul_le_mul_left s.chunkTokens (hcap ▸ hle)
        omega
  · rw [if_neg hneed]
    exact ⟨_, rfl⟩

/-! ### Quantized slots -/

/-- The slots a sequence holds in the quantized pool can be given back, each once. -/
lemma freeQuantSlots_holds {a : PageAllocator} {held : List ℕ} (h : a.slots.Holds held) :
    ∃ a', freeQuantSlots a held = .ok a' ∧ a'.slots.Holds [] ∧
      a'.slots.capacity = a.slots.capacity ∧ a'.pool = a.pool ∧ a'.chunkBytes = a.chunkBytes := by
  induction held generalizing a with
  | nil => exact ⟨a, rfl, h, rfl, rfl, rfl⟩
  | cons slot held ih =>
      obtain ⟨p, hfree, hheld, hcap⟩ :=
        SlotPool.free_holds (p := a.toSlotPool) (r := .pageSlotRange) (d := .pageDoubleFree) h
      obtain ⟨hpool, hbytes⟩ := SlotPool.free_pool hfree
      obtain ⟨a', hrest, hnil, hcap', hpool', hbytes'⟩ := ih (a := ⟨p⟩) hheld
      refine ⟨a', ?_, hnil, hcap'.trans hcap, hpool'.trans hpool, hbytes'.trans hbytes⟩
      rw [freeQuantSlots, PageAllocator.free_of_ok hfree]
      exact hrest

end SequenceState

end Braidinfer.PagedKv
