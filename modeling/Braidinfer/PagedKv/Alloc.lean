/-
The two slot pools of the paged KV cache (`paged_kv.rs`, `PageAllocator` and
`HostPageAllocator`), the chunk tiers, and the ways a pool operation can end.

Both allocators pre-allocate `capacity` slots of `chunk_bytes` bytes and hand them out from
a free list that starts as `(0..capacity).rev()` and is popped from its end, so the top of
the stack, and the head of the list here, is slot `0`.  A slot index and a capacity are
`u32`; `u32Max` is the sentinel for "no slot".
-/
import Mathlib.Algebra.Group.Nat.Defs
import Mathlib.Tactic.Common
import Braidinfer.Lib.FreePool

namespace Braidinfer.PagedKv

open Braidinfer.Lib

/-- `CHUNK_TOKENS`: tokens per KV chunk. -/
def chunkTokens : ℕ := 64

/-- `u32::MAX`, the slot index of a chunk that has no slot in a pool. -/
def u32Max : ℕ := 2 ^ 32 - 1

/-- `hipErrorOutOfMemory`. -/
def hipErrorOutOfMemory : ℕ := 2

/-- `ChunkTier`: which pool a chunk's data currently lives in. -/
inductive ChunkTier
  | vram
  | hostPinned
deriving DecidableEq, Repr, Inhabited

/-- The `{:?}` rendering of a tier. -/
def ChunkTier.debug : ChunkTier → String
  | .vram => "Vram"
  | .hostPinned => "HostPinned"

/-! ### Failures -/

/-- The assertions of the paged KV cache that can fail. -/
inductive Panic
  | pageSlotRange (slot capacity : ℕ)
  | pageDoubleFree (slot : ℕ)
  | hostPageSlotRange (slot capacity : ℕ)
  | hostPageDoubleFree (slot : ℕ)
  | promoteNotHostPinned (tier : ChunkTier)
  | promoteNoHostBacking
  | evictNotVram (tier : ChunkTier)
  | evictNoHostBacking
deriving DecidableEq, Repr

/-- The message of a failed assertion. -/
def Panic.message : Panic → String
  | .pageSlotRange slot capacity =>
      "page slot " ++ toString slot ++ " >= capacity " ++ toString capacity
  | .pageDoubleFree slot => "double-free of page slot " ++ toString slot
  | .hostPageSlotRange slot capacity =>
      "host page slot " ++ toString slot ++ " >= capacity " ++ toString capacity
  | .hostPageDoubleFree slot => "double-free of host page slot " ++ toString slot
  | .promoteNotHostPinned tier =>
      "promote_chunk: handle is not HostPinned (tier=" ++ tier.debug ++ ")"
  | .promoteNoHostBacking => "promote_chunk: no host backing slot"
  | .evictNotVram tier => "evict_chunk: handle is not Vram (tier=" ++ tier.debug ++ ")"
  | .evictNoHostBacking => "evict_chunk: no host backing slot"

/-- The assertions made by the two `free` functions. -/
def Panic.InFree : Panic → Prop
  | .pageSlotRange .. | .pageDoubleFree _ | .hostPageSlotRange .. | .hostPageDoubleFree _ => True
  | _ => False

/-- How an operation fails: with a HIP error code, or with a failed assertion. -/
inductive Fault
  | hip (code : ℕ)
  | panic (p : Panic)
deriving DecidableEq, Repr

/-- `HipError(ffi::hipErrorOutOfMemory)`. -/
def Fault.outOfMemory : Fault := .hip hipErrorOutOfMemory

/-! ### The pools -/

/-- What the two allocators share: a stack of free slots over a contiguous region of
`capacity * chunkBytes` bytes at address `pool`. -/
structure SlotPool where
  slots : FreePool
  pool : ℕ
  chunkBytes : ℕ
deriving DecidableEq, Repr

namespace SlotPool

/-- A pool of `capacity` free slots at address `pool`. -/
def new (pool chunkBytes : ℕ) (capacity : UInt32) : SlotPool :=
  ⟨.full capacity.toNat, pool, chunkBytes⟩

/-- Base pointer of a slot. -/
def slotPtr (p : SlotPool) (slot : ℕ) : ℕ := p.pool + slot * p.chunkBytes

/-- Pop one slot: its index, its base pointer, and the pool without it. -/
def alloc (p : SlotPool) : Option (ℕ × ℕ × SlotPool) :=
  (p.slots.take?).map fun (idx, slots) => (idx, p.slotPtr idx, { p with slots })

/-- Push a slot, with the two assertions of `free`. -/
def free (outOfRange : ℕ → ℕ → Panic) (doubleFree : ℕ → Panic) (p : SlotPool) (slot : ℕ) :
    Except Panic SlotPool :=
  match p.slots.put slot with
  | .ok slots => .ok { p with slots }
  | .error .outOfRange => .error (outOfRange slot p.slots.capacity)
  | .error .doubleFree => .error (doubleFree slot)

/-- `free_count`. -/
def freeCount (p : SlotPool) : ℕ := p.slots.free.length

variable {p p' : SlotPool} {held : List ℕ} {i ptr : ℕ}

lemma alloc_eq_some_iff :
    p.alloc = some (i, ptr, p') ↔
      p.slots.take? = some (i, p'.slots) ∧ ptr = p.slotPtr i ∧
        p'.pool = p.pool ∧ p'.chunkBytes = p.chunkBytes := by
  rw [alloc, Option.map_eq_some_iff]
  constructor
  · rintro ⟨⟨j, slots⟩, htake, heq⟩
    obtain ⟨rfl, rfl, rfl⟩ : j = i ∧ p.slotPtr j = ptr ∧ { p with slots } = p' := by
      simpa using heq
    exact ⟨htake, rfl, rfl, rfl⟩
  · rintro ⟨htake, rfl, hpool, hbytes⟩
    obtain ⟨slots, pool, bytes⟩ := p'
    obtain rfl : pool = p.pool := hpool
    obtain rfl : bytes = p.chunkBytes := hbytes
    exact ⟨(i, slots), htake, rfl⟩

lemma alloc_eq_none_iff : p.alloc = none ↔ p.slots.free = [] := by
  rw [alloc, Option.map_eq_none_iff, FreePool.take?_eq_none_iff]

/-- The bytes of two slots are apart. -/
lemma slotPtr_add_notMem {slot slot' off : ℕ} (p : SlotPool) (hne : slot ≠ slot')
    (hoff : off < p.chunkBytes) :
    ¬ (p.slotPtr slot' ≤ p.slotPtr slot + off ∧
      p.slotPtr slot + off < p.slotPtr slot' + p.chunkBytes) := by
  simp only [slotPtr]
  rcases Nat.lt_or_gt_of_ne hne with hlt | hgt
  · have hle := Nat.mul_le_mul_right p.chunkBytes (Nat.succ_le_of_lt hlt)
    rw [Nat.succ_mul] at hle
    omega
  · have hle := Nat.mul_le_mul_right p.chunkBytes (Nat.succ_le_of_lt hgt)
    rw [Nat.succ_mul] at hle
    omega

/-- What an allocation does to the pool: one slot is held more. -/
lemma alloc_holds (h : p.slots.Holds held) (ha : p.alloc = some (i, ptr, p')) :
    p'.slots.Holds (i :: held) ∧ p'.slots.capacity = p.slots.capacity := by
  obtain ⟨htake, -⟩ := alloc_eq_some_iff.mp ha
  exact ⟨h.take htake, (FreePool.take?_eq_some_iff.mp htake).2⟩

/-- A held slot can be freed: neither assertion fails. -/
lemma free_holds {r : ℕ → ℕ → Panic} {d : ℕ → Panic} (h : p.slots.Holds (i :: held)) :
    ∃ p', p.free r d i = .ok p' ∧ p'.slots.Holds held ∧
      p'.slots.capacity = p.slots.capacity := by
  obtain ⟨slots, hput, hheld, hcap⟩ := h.put
  exact ⟨{ p with slots }, by simp [free, hput], hheld, hcap⟩

/-- Freeing leaves the region of the pool as it is. -/
lemma free_pool {r : ℕ → ℕ → Panic} {d : ℕ → Panic} (h : p.free r d i = .ok p') :
    p'.pool = p.pool ∧ p'.chunkBytes = p.chunkBytes := by
  rw [free] at h
  split at h
  · rw [← Except.ok.inj h]
    exact ⟨rfl, rfl⟩
  · cases h
  · cases h

/-- Freeing the slot just allocated restores the pool. -/
lemma free_alloc {r : ℕ → ℕ → Panic} {d : ℕ → Panic} (h : p.slots.Holds held)
    (ha : p.alloc = some (i, ptr, p')) : p'.free r d i = .ok p := by
  obtain ⟨htake, -, hpool, hbytes⟩ := alloc_eq_some_iff.mp ha
  obtain ⟨hfree, hcap⟩ := FreePool.take?_eq_some_iff.mp htake
  have hmem : i ∈ p.slots.free := by rw [hfree]; exact List.mem_cons_self
  have hlt : ¬ p'.slots.capacity ≤ i := by
    rw [hcap]
    exact Nat.not_le.mpr (h.free_lt hmem)
  have hnew : i ∉ p'.slots.free := by
    have hnd := h.free_nodup
    rw [hfree] at hnd
    exact (List.nodup_cons.mp hnd).1
  obtain ⟨⟨cap, fr⟩, pool, bytes⟩ := p
  obtain ⟨⟨cap', fr'⟩, pool', bytes'⟩ := p'
  simp only at hfree hcap hpool hbytes hlt hnew
  subst hfree hcap hpool hbytes
  simp [free, FreePool.put, hnew, hlt]

end SlotPool

/-- `PageAllocator`: the pool of VRAM chunk slots. -/
structure PageAllocator extends SlotPool
deriving DecidableEq, Repr

namespace PageAllocator

/-- `new_with_chunk_bytes`, the device allocation having returned `pool`. -/
def new (pool chunkBytes : ℕ) (maxChunks : UInt32) : PageAllocator :=
  ⟨.new pool chunkBytes maxChunks⟩

/-- `PageAllocator::alloc`. -/
def alloc (a : PageAllocator) : Option (ℕ × ℕ × PageAllocator) :=
  a.toSlotPool.alloc.map fun (idx, ptr, p) => (idx, ptr, ⟨p⟩)

/-- `PageAllocator::free`. -/
def free (a : PageAllocator) (slot : ℕ) : Except Panic PageAllocator :=
  (a.toSlotPool.free .pageSlotRange .pageDoubleFree slot).map .mk

end PageAllocator

/-- `HostPageAllocator`: the pool of host-pinned chunk slots. -/
structure HostPageAllocator extends SlotPool
deriving DecidableEq, Repr

namespace HostPageAllocator

/-- `HostPageAllocator::new`, the pinned allocation having returned `pool`. -/
def new (pool chunkBytes : ℕ) (capacity : UInt32) : HostPageAllocator :=
  ⟨.new pool chunkBytes capacity⟩

/-- `HostPageAllocator::alloc`. -/
def alloc (a : HostPageAllocator) : Option (ℕ × ℕ × HostPageAllocator) :=
  a.toSlotPool.alloc.map fun (idx, ptr, p) => (idx, ptr, ⟨p⟩)

/-- `HostPageAllocator::free`. -/
def free (a : HostPageAllocator) (slot : ℕ) : Except Panic HostPageAllocator :=
  (a.toSlotPool.free .hostPageSlotRange .hostPageDoubleFree slot).map .mk

end HostPageAllocator

/-! ### The allocators as pools -/

variable {i ptr : ℕ}

lemma PageAllocator.alloc_eq_some_iff {a a' : PageAllocator} :
    a.alloc = some (i, ptr, a') ↔ a.toSlotPool.alloc = some (i, ptr, a'.toSlotPool) := by
  rw [alloc, Option.map_eq_some_iff]
  constructor
  · rintro ⟨⟨j, q, p⟩, halloc, heq⟩
    obtain ⟨rfl, rfl, rfl⟩ : j = i ∧ q = ptr ∧ PageAllocator.mk p = a' := by simpa using heq
    exact halloc
  · intro halloc
    exact ⟨_, halloc, rfl⟩

lemma PageAllocator.alloc_eq_none_iff {a : PageAllocator} :
    a.alloc = none ↔ a.slots.free = [] := by
  rw [alloc, Option.map_eq_none_iff, SlotPool.alloc_eq_none_iff]

lemma PageAllocator.free_of_ok {a : PageAllocator} {p : SlotPool}
    (h : a.toSlotPool.free .pageSlotRange .pageDoubleFree i = .ok p) : a.free i = .ok ⟨p⟩ := by
  simp [free, h, Except.map]

/-- `free` of a slot in range that is not free pushes it. -/
lemma PageAllocator.free_push {a : PageAllocator} (hlt : i < a.slots.capacity)
    (hnew : i ∉ a.slots.free) :
    a.free i = .ok ⟨{ a.toSlotPool with slots := ⟨a.slots.capacity, i :: a.slots.free⟩ }⟩ := by
  simp [free, SlotPool.free, FreePool.put, Nat.not_le.mpr hlt, hnew, Except.map]

lemma HostPageAllocator.alloc_eq_some_iff {a a' : HostPageAllocator} :
    a.alloc = some (i, ptr, a') ↔ a.toSlotPool.alloc = some (i, ptr, a'.toSlotPool) := by
  rw [alloc, Option.map_eq_some_iff]
  constructor
  · rintro ⟨⟨j, q, p⟩, halloc, heq⟩
    obtain ⟨rfl, rfl, rfl⟩ : j = i ∧ q = ptr ∧ HostPageAllocator.mk p = a' := by
      simpa using heq
    exact halloc
  · intro halloc
    exact ⟨_, halloc, rfl⟩

lemma HostPageAllocator.free_of_ok {a : HostPageAllocator} {p : SlotPool}
    (h : a.toSlotPool.free .hostPageSlotRange .hostPageDoubleFree i = .ok p) :
    a.free i = .ok ⟨p⟩ := by
  simp [free, h, Except.map]

end Braidinfer.PagedKv
