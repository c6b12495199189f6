/-
The accounting invariant of a slot pool against the live chunks, and how the heap operations
keep it.

* `PoolInv p f heap`: the free slots of `p` and the slots `f c` of the live chunks `c` make
  up the pool, each slot once;
* `VramInv heap vram hs`, `HostInv heap host`: the two halves of the invariant of a heap and
  its pools, `hs` being every handle there is;
* `MemInv m hs`: both halves together.
-/
import Braidinfer.PagedKv.Sequence

namespace Braidinfer.PagedKv

open Braidinfer.Lib

/-- The slots that a chunk holds in the pool behind the field `f`: none for the sentinel. -/
def slotsOf (f : ChunkRef → ℕ) (c : ChunkRef) : List ℕ := if f c = u32Max then [] else [f c]

/-- The free slots of `p` and the slots of the live chunks make up the pool, each once. -/
structure PoolInv (p : SlotPool) (f : ChunkRef → ℕ) (heap : ChunkHeap) : Prop where
  capacity_lt : p.slots.capacity < 2 ^ 32
  holds : p.slots.Holds (heap.owned (slotsOf f))

section Slots

variable {f : ChunkRef → ℕ} {c : ChunkRef}

lemma slotsOf_none (h : f c = u32Max) : slotsOf f c = [] := if_pos h

lemma slotsOf_some (h : f c ≠ u32Max) : slotsOf f c = [f c] := if_neg h

end Slots

namespace PoolInv

variable {p p' : SlotPool} {f : ChunkRef → ℕ} {heap : ChunkHeap} {h i ptr : ℕ}
  {c : ChunkRef} {g : ChunkRef → ChunkRef} {r : ℕ → ℕ → Panic} {d : ℕ → Panic}

/-- A slot of the pool is never the sentinel. -/
lemma ne_max (hp : p.slots.capacity < 2 ^ 32) (hi : i < p.slots.capacity) : i ≠ u32Max := by
  rw [u32Max]
  omega

/-- A pool without chunks. -/
lemma new (pool chunkBytes : ℕ) (capacity : UInt32) :
    PoolInv (.new pool chunkBytes capacity) f .empty :=
  ⟨capacity.toNat_lt, FreePool.full_holds _⟩

/-- What an allocation hands out, and how the pool is left. -/
lemma alloc (hp : PoolInv p f heap) (ha : p.alloc = some (i, ptr, p')) :
    i ≠ u32Max ∧ p'.slots.capacity < 2 ^ 32 ∧
      p'.slots.Holds (i :: heap.owned (slotsOf f)) := by
  obtain ⟨hholds, hcap⟩ := SlotPool.alloc_holds hp.holds ha
  have hlt : i < p'.slots.capacity := hholds.held_lt List.mem_cons_self
  have hcap' : p'.slots.capacity < 2 ^ 32 := hcap ▸ hp.capacity_lt
  exact ⟨ne_max hcap' hlt, hcap', hholds⟩

/-- A new chunk without a slot in this pool. -/
lemma new_none (hp : PoolInv p f heap) (hc : f c = u32Max) : PoolInv p f (heap.new c).2 :=
  ⟨hp.capacity_lt, by rw [ArcHeap.owned_new, slotsOf_none hc, List.append_nil]; exact hp.holds⟩

/-- A new chunk that takes the slot just allocated. -/
lemma new_some (hp : PoolInv p f heap) (ha : p.alloc = some (i, ptr, p')) (hc : f c = i) :
    PoolInv p' f (heap.new c).2 := by
  obtain ⟨hmax, hcap, hholds⟩ := hp.alloc ha
  refine ⟨hcap, hholds.perm ?_⟩
  rw [ArcHeap.owned_new, slotsOf_some (hc ▸ hmax), hc]
  exact (List.perm_append_singleton _ _).symm

lemma clone (hp : PoolInv p f heap) (hpos : 0 < heap.strongCount h) :
    PoolInv p f (heap.clone h) :=
  ⟨hp.capacity_lt, hp.holds.perm (ArcHeap.owned_clone _ hpos).symm⟩

lemma drop_shared (hp : PoolInv p f heap) (hs : 1 < heap.strongCount h) :
    PoolInv p f (heap.drop h) :=
  ⟨hp.capacity_lt, hp.holds.perm (ArcHeap.owned_drop_shared _ hs).symm⟩

/-- The last handle of a chunk without a slot in this pool is dropped. -/
lemma drop_last_none (hp : PoolInv p f heap) (hs : heap.strongCount h = 1)
    (hget : heap.get? h = some c) (hc : f c = u32Max) : PoolInv p f (heap.drop h) := by
  have hperm := ArcHeap.owned_drop_last (slotsOf f) hs hget
  rw [slotsOf_none hc, List.nil_append] at hperm
  exact ⟨hp.capacity_lt, hp.holds.perm hperm⟩

/-- The last handle of a chunk is dropped and its slot is freed: the assertions hold. -/
lemma drop_last_some (hp : PoolInv p f heap) (hs : heap.strongCount h = 1)
    (hget : heap.get? h = some c) (hc : f c ≠ u32Max) :
    ∃ p', p.free r d (f c) = .ok p' ∧ PoolInv p' f (heap.drop h) := by
  have hperm := ArcHeap.owned_drop_last (slotsOf f) hs hget
  rw [slotsOf_some hc, List.singleton_append] at hperm
  obtain ⟨p', hfree, hholds, hcap⟩ := SlotPool.free_holds (r := r) (d := d) (hp.holds.perm hperm)
  exact ⟨p', hfree, hcap ▸ hp.capacity_lt, hholds⟩

/-- A write that does not touch the slot of this pool. -/
lemma update_same (hp : PoolInv p f heap) (hpos : 0 < heap.strongCount h)
    (hget : heap.get? h = some c) (hc : f (g c) = f c) : PoolInv p f (heap.update h g) := by
  obtain ⟨rest, hold, hnew⟩ := ArcHeap.owned_update (slotsOf f) g hpos hget
  have hsame : slotsOf f (g c) = slotsOf f c := by rw [slotsOf, slotsOf, hc]
  rw [hsame] at hnew
  exact ⟨hp.capacity_lt, hp.holds.perm (hold.trans hnew.symm)⟩

/-- A write that gives a chunk without slot the slot just allocated. -/
lemma update_take (hp : PoolInv p f heap) (hpos : 0 < heap.strongCount h)
    (hget : heap.get? h = some c) (hc : f c = u32Max) (ha : p.alloc = some (i, ptr, p'))
    (hg : f (g c) = i) : PoolInv p' f (heap.update h g) := by
  obtain ⟨hmax, hcap, hholds⟩ := hp.alloc ha
  obtain ⟨rest, hold, hnew⟩ := ArcHeap.owned_update (slotsOf f) g hpos hget
  rw [slotsOf_none hc, List.nil_append] at hold
  rw [slotsOf_some (hg ▸ hmax), hg, List.singleton_append] at hnew
  exact ⟨hcap, hholds.perm ((hold.cons i).trans hnew.symm)⟩

/-- A write that takes the slot from a chunk, the slot being freed: the assertions hold. -/
lemma update_free (hp : PoolInv p f heap) (hpos : 0 < heap.strongCount h)
    (hget : heap.get? h = some c) (hc : f c ≠ u32Max) (hg : f (g c) = u32Max) :
    ∃ p', p.free r d (f c) = .ok p' ∧ PoolInv p' f (heap.update h g) := by
  obtain ⟨rest, hold, hnew⟩ := ArcHeap.owned_update (slotsOf f) g hpos hget
  rw [slotsOf_some hc, List.singleton_append] at hold
  rw [slotsOf_none hg, List.nil_append] at hnew
  obtain ⟨p', hfree, hholds, hcap⟩ := SlotPool.free_holds (r := r) (d := d) (hp.holds.perm hold)
  exact ⟨p', hfree, hcap ▸ hp.capacity_lt, hholds.perm hnew.symm⟩

end PoolInv

/-! ### The memory of a sequence operation -/

/-- A chunk is host-pinned exactly if it has no VRAM slot. -/
def ChunkRef.TierOk (c : ChunkRef) : Prop := c.tier = .hostPinned ↔ c.vramSlot = u32Max

/-- The VRAM half of the invariant of a heap and its pools, `hs` being every handle there
is. -/
structure VramInv (heap : ChunkHeap) (vram : PageAllocator) (hs : List ChunkHandle) : Prop where
  counts : heap.Counts hs
  tier : ∀ h c, heap.get? h = some c → c.TierOk
  vram : PoolInv vram.toSlotPool ChunkRef.vramSlot heap

/-- The host half: a host-pinned chunk has a host slot, and the host pool, if there is one,
is accounted for. -/
structure HostInv (heap : ChunkHeap) (host : Option HostPageAllocator) : Prop where
  slot : ∀ h c, heap.get? h = some c → c.tier = .hostPinned → c.hostSlot ≠ u32Max
  host : ∀ ha, host = some ha → PoolInv ha.toSlotPool ChunkRef.hostSlot heap

/-- The invariant of the memory of a sequence operation. -/
structure MemInv (m : KvMem) (hs : List ChunkHandle) : Prop where
  vram : VramInv m.heap m.vram hs
  host : HostInv m.heap m.host

section Heap

variable {heap : ChunkHeap} {h : ChunkHandle} {P : ChunkRef → Prop}

/-- A property of all chunks survives a new chunk that has it. -/
lemma forall_new (hall : ∀ h c, heap.get? h = some c → P c) {c : ChunkRef} (hc : P c) :
    ∀ h' c', (heap.new c).2.get? h' = some c' → P c' := by
  intro h' c' hget
  simp only [ArcHeap.get?, ArcHeap.new, List.getElem?_append] at hget
  split_ifs at hget with hlt
  · exact hall h' c' hget
  · rcases Nat.eq_zero_or_pos (h' - heap.cells.length) with hz | hz
    · simp only [hz, List.getElem?_cons_zero, Option.map_some, Option.some.injEq] at hget
      exact hget ▸ hc
    · rw [List.getElem?_eq_none (by simp; omega)] at hget
      simp at hget

/-- A property of all chunks survives a write that keeps it on the chunk it changes. -/
lemma forall_update (hall : ∀ h c, heap.get? h = some c → P c) {g : ChunkRef → ChunkRef}
    (hg : ∀ c, heap.get? h = some c → P (g c)) :
    ∀ h' c', (heap.update h g).get? h' = some c' → P c' := by
  intro h' c' hget
  rw [ArcHeap.get?_update] at hget
  split_ifs at hget with heq
  · subst heq
    obtain ⟨c, hc, rfl⟩ := Option.map_eq_some_iff.mp hget
    exact hg c hc
  · exact hall h' c' hget

lemma forall_drop (hall : ∀ h c, heap.get? h = some c → P c) :
    ∀ h' c', (heap.drop h).get? h' = some c' → P c' :=
  fun h' c' hget => hall h' c' (by simpa using hget)

lemma forall_clone (hall : ∀ h c, heap.get? h = some c → P c) :
    ∀ h' c', (heap.clone h).get? h' = some c' → P c' :=
  fun h' c' hget => hall h' c' (by simpa using hget)

end Heap

namespace VramInv

variable {heap : ChunkHeap} {vram vram' : PageAllocator} {hs hs' : List ChunkHandle}
  {h : ChunkHandle} {c : ChunkRef} {i ptr : ℕ}

lemma perm (hm : VramInv heap vram hs) (hp : hs.Perm hs') : VramInv heap vram hs' :=
  ⟨hm.counts.perm hp, hm.tier, hm.vram⟩

/-- Behind every handle there is a live chunk. -/
lemma get (hm : VramInv heap vram hs) (hh : h ∈ hs) :
    heap.get? h = some (chunk heap h) ∧ 0 < heap.strongCount h := by
  obtain ⟨c, hcell, -⟩ := hm.counts.exists_cell hh
  exact ⟨by simp [chunk, ArcHeap.get?, hcell], hm.counts.strong_pos hh⟩

/-- Tier and VRAM slot agree on the chunk behind a handle. -/
lemma chunk_tier (hm : VramInv heap vram hs) (hh : h ∈ hs) : (chunk heap h).TierOk :=
  hm.tier h _ (hm.get hh).1

/-- A VRAM chunk opened on the slot just allocated. -/
lemma new_vram (hm : VramInv heap vram hs) (ha : vram.alloc = some (i, ptr, vram'))
    (hslot : c.vramSlot = i) (htier : c.tier = .vram) :
    VramInv (heap.new c).2 vram' ((heap.new c).1 :: hs) := by
  have ha' := PageAllocator.alloc_eq_some_iff.mp ha
  have hmax : c.vramSlot ≠ u32Max := hslot ▸ (hm.vram.alloc ha').1
  refine ⟨hm.counts.new, forall_new hm.tier ?_, hm.vram.new_some ha' hslot⟩
  simp [ChunkRef.TierOk, htier, hmax]

/-- A chunk opened without VRAM slot. -/
lemma new_host (hm : VramInv heap vram hs) (hslot : c.vramSlot = u32Max)
    (htier : c.tier = .hostPinned) : VramInv (heap.new c).2 vram ((heap.new c).1 :: hs) :=
  ⟨hm.counts.new, forall_new hm.tier (by simp [ChunkRef.TierOk, htier, hslot]),
    hm.vram.new_none hslot⟩

/-- A write through a handle that touches neither tier nor VRAM slot. -/
lemma update_same (hm : VramInv heap vram hs) (hh : h ∈ hs) {g : ChunkRef → ChunkRef}
    (htier : ∀ c, (g c).tier = c.tier) (hslot : ∀ c, (g c).vramSlot = c.vramSlot) :
    VramInv (heap.update h g) vram hs := by
  obtain ⟨hget, hpos⟩ := hm.get hh
  refine ⟨hm.counts.update, forall_update hm.tier fun c hc => ?_,
    hm.vram.update_same hpos hget (hslot _)⟩
  have hc := hm.tier h c hc
  rwa [ChunkRef.TierOk, ← htier c, ← hslot c] at hc

lemma clone (hm : VramInv heap vram hs) (hh : h ∈ hs) : VramInv (heap.clone h) vram (h :: hs) :=
  ⟨hm.counts.clone hh, forall_clone hm.tier, hm.vram.clone (hm.get hh).2⟩

/-- Dropping a handle of a chunk that has another one. -/
lemma drop_shared (hm : VramInv heap vram (h :: hs)) (hlive : 1 < heap.strongCount h) :
    VramInv (heap.drop h) vram hs :=
  ⟨hm.counts.drop, forall_drop hm.tier, hm.vram.drop_shared hlive⟩

/-- The VRAM half of `reset` for a chunk with its last handle: `free` does not fail. -/
lemma drop_last (hm : VramInv heap vram (h :: hs)) (hone : heap.strongCount h = 1) :
    ∃ vram', SequenceState.freeVramSlot vram (chunk heap h) = .ok vram' ∧
      VramInv (heap.drop h) vram' hs := by
  obtain ⟨hget, -⟩ := hm.get List.mem_cons_self
  have hc := hm.chunk_tier List.mem_cons_self
  cases htier : (chunk heap h).tier with
  | vram =>
      have hslot : (chunk heap h).vramSlot ≠ u32Max := by
        intro hmax
        rw [hc.mpr hmax] at htier
        cases htier
      obtain ⟨p, hfree, hinv⟩ := hm.vram.drop_last_some hone hget hslot
        (r := .pageSlotRange) (d := .pageDoubleFree)
      refine ⟨⟨p⟩, ?_, hm.counts.drop, forall_drop hm.tier, hinv⟩
      simp [SequenceState.freeVramSlot, htier, hslot, PageAllocator.free_of_ok hfree]
  | hostPinned =>
      exact ⟨vram, by simp [SequenceState.freeVramSlot, htier], hm.counts.drop,
        forall_drop hm.tier, hm.vram.drop_last_none hone hget (hc.mp htier)⟩

end VramInv

namespace HostInv

variable {heap : ChunkHeap} {host : Option HostPageAllocator} {h : ChunkHandle} {c : ChunkRef}

lemma none_of_new (hm : HostInv heap host) (hc : c.hostSlot = u32Max) (htier : c.tier = .vram) :
    HostInv (heap.new c).2 host :=
  ⟨forall_new (P := fun c => c.tier = .hostPinned → c.hostSlot ≠ u32Max) hm.slot
    (by simp [htier]), fun ha hha => (hm.host ha hha).new_none hc⟩

/-- A new chunk on the host slot just allocated. -/
lemma some_of_new {ha ha' : HostPageAllocator} {i ptr : ℕ} (hm : HostInv heap (some ha))
    (halloc : ha.alloc = some (i, ptr, ha')) (hc : c.hostSlot = i) :
    HostInv (heap.new c).2 (some ha') := by
  have halloc' := HostPageAllocator.alloc_eq_some_iff.mp halloc
  have hmax : c.hostSlot ≠ u32Max := hc ▸ ((hm.host ha rfl).alloc halloc').1
  refine ⟨forall_new (P := fun c => c.tier = .hostPinned → c.hostSlot ≠ u32Max) hm.slot
    (fun _ => hmax), fun ha'' hha => ?_⟩
  obtain rfl : ha' = ha'' := Option.some.inj hha
  exact (hm.host ha rfl).new_some halloc' hc

/-- A write through a handle that does not touch the host slot. -/
lemma update_same (hm : HostInv heap host) (hpos : 0 < heap.strongCount h)
    (hget : heap.get? h = some c) {g : ChunkRef → ChunkRef}
    (hslot : ∀ c, (g c).hostSlot = c.hostSlot)
    (htier : (g c).tier = .hostPinned → c.hostSlot ≠ u32Max) : HostInv (heap.update h g) host := by
  refine ⟨forall_update (P := fun c => c.tier = .hostPinned → c.hostSlot ≠ u32Max) hm.slot
    fun c' hc' => ?_, fun ha hha => (hm.host ha hha).update_same hpos hget (hslot c)⟩
  obtain rfl : c = c' := Option.some.inj (hget.symm.trans hc')
  rw [hslot]
  exact htier

lemma clone (hm : HostInv heap host) (hpos : 0 < heap.strongCount h) :
    HostInv (heap.clone h) host :=
  ⟨forall_clone (P := fun c => c.tier = .hostPinned → c.hostSlot ≠ u32Max) hm.slot,
    fun ha hha => (hm.host ha hha).clone hpos⟩

lemma drop_shared (hm : HostInv heap host) (hs : 1 < heap.strongCount h) :
    HostInv (heap.drop h) host :=
  ⟨forall_drop (P := fun c => c.tier = .hostPinned → c.hostSlot ≠ u32Max) hm.slot,
    fun ha hha => (hm.host ha hha).drop_shared hs⟩

/-- The host half of `reset` for a chunk with its last handle: `free` does not fail. -/
lemma drop_last (hm : HostInv heap host) (hone : heap.strongCount h = 1)
    (hget : heap.get? h = some (chunk heap h)) :
    ∃ host', SequenceState.freeHostSlot host (chunk heap h) = .ok host' ∧
      HostInv (heap.drop h) host' ∧ host'.isSome = host.isSome := by
  have hslot' := forall_drop (h := h)
    (P := fun c => c.tier = .hostPinned → c.hostSlot ≠ u32Max) hm.slot
  cases hh : host with
  | none => exact ⟨none, rfl, ⟨hslot', by simp⟩, rfl⟩
  | some ha =>
      by_cases hslot : (chunk heap h).hostSlot = u32Max
      · refine ⟨some ha, by simp [SequenceState.freeHostSlot, hslot],
          ⟨hslot', fun ha' hha' => ?_⟩, rfl⟩
        obtain rfl : ha = ha' := Option.some.inj hha'
        exact (hm.host ha hh).drop_last_none hone hget hslot
      · obtain ⟨p, hfree, hinv⟩ := (hm.host ha hh).drop_last_some hone hget hslot
          (r := .hostPageSlotRange) (d := .hostPageDoubleFree)
        refine ⟨some ⟨p⟩, ?_, ⟨hslot', fun ha' hha' => ?_⟩, rfl⟩
        · simp [SequenceState.freeHostSlot, hslot, HostPageAllocator.free_of_ok hfree, Except.map]
        · obtain rfl : HostPageAllocator.mk p = ha' := Option.some.inj hha'
          exact hinv

end HostInv

namespace MemInv

variable {m : KvMem} {hs hs' : List ChunkHandle} {h : ChunkHandle}

lemma perm (hm : MemInv m hs) (hp : hs.Perm hs') : MemInv m hs' :=
  ⟨hm.vram.perm hp, hm.host⟩

/-- Dropping a handle of a chunk that has another one. -/
lemma drop_shared (hm : MemInv m (h :: hs)) (hh : h ∈ hs) :
    MemInv { m with heap := m.heap.drop h } hs := by
  have hshared : 1 < m.heap.strongCount h := by
    rw [hm.vram.counts.count, List.count_cons_self]
    exact Nat.succ_lt_succ (List.count_pos_iff.mpr hh)
  exact ⟨hm.vram.drop_shared hshared, hm.host.drop_shared hshared⟩

end MemInv

end Braidinfer.PagedKv
