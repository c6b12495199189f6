/-
The bytes of chunks that move between VRAM and host memory (`alloc_with_host_backing`,
`promote_chunk`, `evict_chunk_and_free` in `paged_kv.rs`, and the flush of the stream that follows
them).

A copy that was issued is in flight until the stream has been synchronised: the copies of a stream
run in order, at any time from then on.  A copy that fails, and one in flight, may leave anything in
its destination slot and touches nothing else.  A synchronisation that succeeds finds every copy
done; one that fails says nothing.

* `TierCopy`: a copy between the two memories, and what it leaves alone;
* `TierWorld.attempt`: the operations with their memory; `TierWorld.apply`: each with its flush;
* `TierWorld.Inv.apply`: **each step keeps every chunk's bytes**, wherever the chunk is moved;
* `keepsContents_of_run`: so does every run, but for a chunk whose promotion was never flushed;
* `not_keepsContents_unflushed`: such a chunk.
-/
import Braidinfer.Lib.RowMem
import Braidinfer.PagedKv.Ownership
import Braidinfer.PagedKv.View

namespace Braidinfer.PagedKv

open Braidinfer.Lib Braidinfer.Lib.RowMem

/-! ### Copies -/

/-- The bytes of the two memories. -/
abbrev TierMem := ChunkTier → ℕ → UInt8

/-- `hipMemcpyAsync` between the two memories. -/
structure TierCopy where
  dst : ChunkTier × ℕ
  src : ChunkTier × ℕ
  bytes : ℕ

namespace TierCopy

/-- The copy runs. -/
def run (c : TierCopy) (m : TierMem) : TierMem :=
  Function.update m c.dst.1 (copyRange (m c.src.1) c.src.2 (m c.dst.1) c.dst.2 c.bytes)

/-- The copy leaves `junk` in its destination. -/
def spoil (c : TierCopy) (junk : ℕ → UInt8) (m : TierMem) : TierMem :=
  Function.update m c.dst.1 (copyRange junk 0 (m c.dst.1) c.dst.2 c.bytes)

/-- Copies that run in order. -/
def runAll (cs : List TierCopy) (m : TierMem) : TierMem := cs.foldl (fun m c => c.run m) m

/-- The `n` bytes at `p` are not in the destination of the copy. -/
def Spares (c : TierCopy) (p : ChunkTier × ℕ) (n : ℕ) : Prop :=
  ∀ i < n, p.1 = c.dst.1 → ¬ (c.dst.2 ≤ p.2 + i ∧ p.2 + i < c.dst.2 + c.bytes)

variable {c : TierCopy} {cs : List TierCopy} {m : TierMem} {p : ChunkTier × ℕ} {n i : ℕ}
  {junk : ℕ → UInt8}

lemma run_of_spares (h : c.Spares p n) (hi : i < n) : c.run m p.1 (p.2 + i) = m p.1 (p.2 + i) := by
  rw [run]
  by_cases ht : p.1 = c.dst.1
  · rw [ht, Function.update_self, copyRange_of_notMem (h i hi ht)]
  · rw [Function.update_of_ne ht]

lemma spoil_of_spares (h : c.Spares p n) (hi : i < n) :
    c.spoil junk m p.1 (p.2 + i) = m p.1 (p.2 + i) := by
  rw [spoil]
  by_cases ht : p.1 = c.dst.1
  · rw [ht, Function.update_self, copyRange_of_notMem (h i hi ht)]
  · rw [Function.update_of_ne ht]

lemma run_dst (hi : i < c.bytes) : c.run m c.dst.1 (c.dst.2 + i) = m c.src.1 (c.src.2 + i) := by
  rw [run, Function.update_self, copyRange_add hi]

lemma runAll_of_spares (h : ∀ c ∈ cs, c.Spares p n) (hi : i < n) :
    runAll cs m p.1 (p.2 + i) = m p.1 (p.2 + i) := by
  induction cs generalizing m with
  | nil => rfl
  | cons c cs ih =>
      rw [runAll, List.foldl_cons, ← runAll, ih fun c hc => h c (List.mem_cons_of_mem _ hc)]
      exact run_of_spares (h c List.mem_cons_self) hi

lemma runAll_snoc : runAll (cs ++ [c]) m = c.run (runAll cs m) := by
  rw [runAll, List.foldl_append]
  rfl

/-- A copy into the other memory. -/
lemma spares_of_tier (h : p.1 ≠ c.dst.1) : c.Spares p n := fun _ _ ht => absurd ht h

/-- A copy into another slot of the same pool. -/
lemma spares_of_slot {pool : SlotPool} {slot slot' : ℕ} (hp : p.2 = pool.slotPtr slot)
    (hc : c.dst.2 = pool.slotPtr slot') (hbytes : c.bytes = pool.chunkBytes)
    (hne : slot ≠ slot') : c.Spares p pool.chunkBytes := by
  intro i hi _
  rw [hp, hc, hbytes]
  exact pool.slotPtr_add_notMem hne hi

end TierCopy

/-! ### The operations -/

/-- The address of the `VRAM` slot of a chunk. -/
def vramPlace (t : Tiers) (h : ChunkHandle) : ChunkTier × ℕ :=
  (.vram, t.vram.slotPtr (chunk t.heap h).vramSlot)

/-- The address of the host slot of a chunk. -/
def hostPlace (t : Tiers) (h : ChunkHandle) : ChunkTier × ℕ :=
  (.hostPinned, t.host.slotPtr (chunk t.heap h).hostSlot)

/-- Where a chunk is read: `vram_ptr` or `host_ptr`. -/
def place (t : Tiers) (h : ChunkHandle) : ChunkTier × ℕ :=
  match (chunk t.heap h).tier with
  | .vram => vramPlace t h
  | .hostPinned => hostPlace t h

/-- The copy of `evict_chunk`. -/
def evictCopy (t : Tiers) (h : ChunkHandle) : TierCopy :=
  ⟨hostPlace t h, vramPlace t h, t.vram.chunkBytes⟩

/-- The copy of `promote_chunk`, into the slot at `vramDst`. -/
def promoteCopy (t : Tiers) (h : ChunkHandle) (vramDst : ℕ) : TierCopy :=
  ⟨(.vram, vramDst), hostPlace t h, t.vram.chunkBytes⟩

/-- The pools with their memory, the copies in flight, the handles there are, and two records that
nobody reads: what was last written to each chunk, and the chunks with a promotion whose flush
failed. -/
structure TierWorld where
  tiers : Tiers
  mem : TierMem
  stream : List TierCopy
  handles : List ChunkHandle
  written : ChunkHandle → ℕ → UInt8
  unflushed : List ChunkHandle

namespace TierWorld

/-- Two full pools. -/
def initial (vram : PageAllocator) (host : HostPageAllocator) (mem : TierMem) : TierWorld :=
  ⟨⟨.empty, vram, host⟩, mem, [], [], fun _ _ => 0, []⟩

/-- Byte `i` of a chunk, read through its current tier. -/
def read (w : TierWorld) (h : ChunkHandle) (i : ℕ) : UInt8 :=
  w.mem (place w.tiers h).1 ((place w.tiers h).2 + i)

/-- `hipStreamSynchronize`, and `flush_tier_ops`. -/
def synchronize (w : TierWorld) : HipStatus → TierWorld
  | .ok () => { w with mem := TierCopy.runAll w.stream w.mem, stream := [] }
  | .error _ => w

/-- `evict_chunk`, with what a failed copy leaves. -/
def evictChunk (w : TierWorld) (handle : ChunkHandle) (memcpy : HipStatus) (junk : ℕ → UInt8) :
    Except Fault Unit × TierWorld :=
  match PagedKv.evictChunk w.tiers.heap handle memcpy with
  | .ok () => (.ok (), { w with stream := w.stream ++ [evictCopy w.tiers handle] })
  | .error (.hip e) =>
      (.error (.hip e), { w with mem := (evictCopy w.tiers handle).spoil junk w.mem })
  | .error (.panic p) => (.error (.panic p), w)

/-- `evict_chunk_and_free`. -/
def evictChunkAndFree (w : TierWorld) (handle : ChunkHandle) (memcpy sync : HipStatus)
    (junk : ℕ → UInt8) : Except Fault Unit × TierWorld :=
  match w.evictChunk handle memcpy junk with
  | (.error e, w) => (.error e, w)
  | (.ok (), w) =>
      let w := w.synchronize sync
      let (r, tiers) := PagedKv.evictChunkAndFree w.tiers handle memcpy sync
      (r, { w with tiers })

/-- `promote_chunk`: the copy goes to the slot that was allocated. -/
def promoteChunk (w : TierWorld) (handle : ChunkHandle) (memcpy : HipStatus)
    (junk : ℕ → UInt8) : Except Fault Unit × TierWorld :=
  match PagedKv.promoteChunk w.tiers handle memcpy, w.tiers.vram.alloc with
  | (.ok (), tiers), some (_, vramDst, _) =>
      (.ok (), { w with tiers, stream := w.stream ++ [promoteCopy w.tiers handle vramDst] })
  | (.error (.hip e), tiers), some (_, vramDst, _) =>
      (.error (.hip e),
        { w with tiers, mem := (promoteCopy w.tiers handle vramDst).spoil junk w.mem })
  | (r, tiers), _ => (r, { w with tiers })

end TierWorld

/-- The operations, with the outcomes of their HIP calls, and what the copy engine does. -/
inductive TierOp
  | alloc
  | write (h : ChunkHandle) (i : ℕ) (b : UInt8)
  | evict (h : ChunkHandle) (memcpy sync flush : HipStatus) (junk : ℕ → UInt8)
  | promote (h : ChunkHandle) (memcpy flush : HipStatus) (junk : ℕ → UInt8)
  /-- The oldest copy in flight runs. -/
  | dma
  /-- Copy `k` in flight writes to its destination. -/
  | disturb (k : ℕ) (junk : ℕ → UInt8)

namespace TierWorld

/-- What an operation returns and how it leaves the world, before its flush; `none` where it may
not be called. -/
def attempt (w : TierWorld) : TierOp → Option (Except Fault Unit × TierWorld)
  | .alloc =>
      match allocWithHostBacking w.tiers with
      | (.error e, tiers) => some (.error e, { w with tiers })
      | (.ok h, tiers) =>
          some (.ok (), { w with
            tiers
            handles := h :: w.handles
            written := Function.update w.written h fun i =>
              w.mem .vram ((vramPlace tiers h).2 + i) })
  | .write h i b =>
      if h ∈ w.handles ∧ (chunk w.tiers.heap h).tier = .vram ∧ i < w.tiers.vram.chunkBytes then
        some (.ok (), { w with
          mem := Function.update w.mem .vram
            (Function.update (w.mem .vram) ((vramPlace w.tiers h).2 + i) b)
          written := Function.update w.written h (Function.update (w.written h) i b) })
      else none
  | .evict h memcpy sync _ junk =>
      if h ∈ w.handles ∧ (chunk w.tiers.heap h).tier = .vram then
        some (w.evictChunkAndFree h memcpy sync junk)
      else none
  | .promote h memcpy _ junk =>
      if h ∈ w.handles ∧ (chunk w.tiers.heap h).tier = .hostPinned then
        some (w.promoteChunk h memcpy junk)
      else none
  | .dma =>
      match w.stream with
      | [] => none
      | c :: rest => some (.ok (), { w with mem := c.run w.mem, stream := rest })
  | .disturb k junk =>
      match w.stream[k]? with
      | none => none
      | some c => some (.ok (), { w with mem := c.spoil junk w.mem })

/-- The flush after an operation. -/
def flush (w : TierWorld) : TierOp → Except Fault Unit → TierWorld
  | .evict _ _ _ flush _, _ => w.synchronize flush
  | .promote h _ (.error e) _, .ok () => { w.synchronize (.error e) with
      unflushed := h :: w.unflushed }
  | .promote _ _ flush _, _ => w.synchronize flush
  | _, _ => w

/-- An operation and its flush. -/
def apply (w : TierWorld) (op : TierOp) : Option TierWorld :=
  (w.attempt op).map fun (r, w') => w'.flush op r

/-- One step of a run. -/
def Step (w : TierWorld) (op : TierOp) (w' : TierWorld) : Prop := w.apply op = some w'

end TierWorld

/-! ### Slots of different chunks -/

section Slots

variable {t t' : Tiers} {hs : List ChunkHandle} {h g : ChunkHandle}

/-- Two chunks share no VRAM slot. -/
lemma vramSlot_ne (hm : MemInv t.mem hs) (hh : h ∈ hs) (hg : g ∈ hs) (hne : g ≠ h)
    (htier : (chunk t.heap h).tier = .vram) :
    (chunk t.heap g).vramSlot ≠ (chunk t.heap h).vramSlot := by
  have hvram : VramInv t.heap t.vram hs := hm.vram
  intro heq
  have hmax : (chunk t.heap h).vramSlot ≠ u32Max := fun hmax =>
    absurd (htier.symm.trans ((hvram.chunk_tier hh).mpr hmax)) (by decide)
  exact hne (hvram.vram.ownership.distinct g h _
    ⟨_, (hvram.get hg).1, (hvram.get hg).2, heq, hmax⟩
    ⟨_, (hvram.get hh).1, (hvram.get hh).2, rfl, hmax⟩)

/-- Two chunks share no host slot. -/
lemma hostSlot_ne (hm : MemInv t.mem hs) (hh : h ∈ hs) (hg : g ∈ hs) (hne : g ≠ h)
    (hback : (chunk t.heap h).hostSlot ≠ u32Max) :
    (chunk t.heap g).hostSlot ≠ (chunk t.heap h).hostSlot := by
  have hvram : VramInv t.heap t.vram hs := hm.vram
  have hhost : PoolInv t.host.toSlotPool ChunkRef.hostSlot t.heap := hm.host.host _ rfl
  intro heq
  exact hne (hhost.ownership.distinct g h _
    ⟨_, (hvram.get hg).1, (hvram.get hg).2, heq, hback⟩
    ⟨_, (hvram.get hh).1, (hvram.get hh).2, rfl, hback⟩)

/-- A slot that can be allocated belongs to no chunk in VRAM. -/
lemma vramSlot_ne_alloc (hm : MemInv t.mem hs) (hg : g ∈ hs) {slot ptr : ℕ} {vram : PageAllocator}
    (ha : t.vram.alloc = some (slot, ptr, vram)) : (chunk t.heap g).vramSlot ≠ slot := by
  have hvram : VramInv t.heap t.vram hs := hm.vram
  have ha' := PageAllocator.alloc_eq_some_iff.mp ha
  obtain ⟨htake, -⟩ := SlotPool.alloc_eq_some_iff.mp ha'
  have hfree : slot ∈ t.vram.slots.free := by
    rw [(FreePool.take?_eq_some_iff.mp htake).1]
    exact List.mem_cons_self
  rintro rfl
  exact hvram.vram.ownership.not_free g _
    ⟨_, (hvram.get hg).1, (hvram.get hg).2, rfl, (hvram.vram.alloc ha').1⟩ hfree

lemma place_vram (htier : (chunk t.heap h).tier = .vram) : place t h = vramPlace t h := by
  rw [place, htier]

lemma place_host (htier : (chunk t.heap h).tier = .hostPinned) : place t h = hostPlace t h := by
  rw [place, htier]

/-- Pools with the same region. -/
structure SameRegions (t t' : Tiers) : Prop where
  vramPool : t'.vram.pool = t.vram.pool
  vramBytes : t'.vram.chunkBytes = t.vram.chunkBytes
  hostPool : t'.host.pool = t.host.pool
  hostBytes : t'.host.chunkBytes = t.host.chunkBytes

lemma SameRegions.vramPlace_eq (hs : SameRegions t t') (hc : chunk t'.heap g = chunk t.heap g) :
    vramPlace t' g = vramPlace t g := by
  rw [vramPlace, vramPlace, hc, SlotPool.slotPtr, SlotPool.slotPtr, hs.vramPool, hs.vramBytes]

lemma SameRegions.hostPlace_eq (hs : SameRegions t t')
    (hc : (chunk t'.heap g).hostSlot = (chunk t.heap g).hostSlot) :
    hostPlace t' g = hostPlace t g := by
  rw [hostPlace, hostPlace, hc, SlotPool.slotPtr, SlotPool.slotPtr, hs.hostPool, hs.hostBytes]

/-- A chunk that an operation leaves alone stays where it is. -/
lemma SameRegions.place_eq (hs : SameRegions t t') (hc : chunk t'.heap g = chunk t.heap g) :
    place t' g = place t g := by
  rw [place, place, hc, hs.vramPlace_eq hc, hs.hostPlace_eq (congrArg _ hc)]

lemma SameRegions.evictCopy_eq (hs : SameRegions t t') (hc : chunk t'.heap g = chunk t.heap g) :
    evictCopy t' g = evictCopy t g := by
  rw [evictCopy, evictCopy, hs.vramPlace_eq hc, hs.hostPlace_eq (congrArg _ hc), hs.vramBytes]

lemma SameRegions.promoteCopy_eq (hs : SameRegions t t')
    (hc : (chunk t'.heap g).hostSlot = (chunk t.heap g).hostSlot) (ptr : ℕ) :
    promoteCopy t' g ptr = promoteCopy t g ptr := by
  rw [promoteCopy, promoteCopy, hs.hostPlace_eq hc, hs.vramBytes]

/-- The copy of an eviction leaves every chunk alone that is read: its destination is the host slot
of a chunk in VRAM. -/
lemma evictCopy_spares (hm : MemInv t.mem hs) (hbytes : t.vram.chunkBytes = t.host.chunkBytes)
    (hh : h ∈ hs) (htier : (chunk t.heap h).tier = .vram)
    (hback : (chunk t.heap h).hostSlot ≠ u32Max) (hg : g ∈ hs) :
    (evictCopy t h).Spares (place t g) t.vram.chunkBytes := by
  cases hgt : (chunk t.heap g).tier with
  | vram =>
      rw [place_vram hgt]
      exact TierCopy.spares_of_tier (by simp [evictCopy, vramPlace, hostPlace])
  | hostPinned =>
      have hne : g ≠ h := by
        rintro rfl
        exact absurd (hgt.symm.trans htier) (by decide)
      rw [place_host hgt, hbytes]
      exact TierCopy.spares_of_slot rfl rfl hbytes (hostSlot_ne hm hh hg hne hback)

/-- The copy of a promotion into a slot leaves the chunks outside of that slot alone. -/
lemma promoteCopy_spares {slot : ℕ}
    (hne : (chunk t.heap g).tier = .vram → (chunk t.heap g).vramSlot ≠ slot) :
    (promoteCopy t h (t.vram.slotPtr slot)).Spares (place t g) t.vram.chunkBytes := by
  cases hgt : (chunk t.heap g).tier with
  | vram =>
      rw [place_vram hgt]
      exact TierCopy.spares_of_slot rfl rfl rfl (hne hgt)
  | hostPinned =>
      rw [place_host hgt]
      exact TierCopy.spares_of_tier (by simp [promoteCopy, hostPlace])

end Slots

namespace TierWorld

/-! ### The invariant -/

/-- A copy in flight: an eviction that was not completed, or a promotion that was not flushed, of a
chunk in VRAM. -/
def InFlight (w : TierWorld) (c : TierCopy) : Prop :=
  ∃ h ∈ w.handles, (chunk w.tiers.heap h).tier = .vram ∧
    (c = evictCopy w.tiers h ∨
      h ∈ w.unflushed ∧ c = promoteCopy w.tiers h (vramPlace w.tiers h).2)

/-- The invariant of the tiers and their bytes. -/
structure Inv (w : TierWorld) : Prop where
  mem : MemInv w.tiers.mem w.handles
  backed : ∀ h ∈ w.handles, (chunk w.tiers.heap h).hostSlot ≠ u32Max
  bytes : w.tiers.vram.chunkBytes = w.tiers.host.chunkBytes
  stream : ∀ c ∈ w.stream, w.InFlight c
  intact : ∀ h ∈ w.handles, h ∉ w.unflushed → ∀ i < w.tiers.vram.chunkBytes,
    w.read h i = w.written h i

variable {w w' : TierWorld} {h g : ChunkHandle} {c : TierCopy} {junk : ℕ → UInt8}

/-- The cell of a chunk. -/
lemma Inv.get (hw : w.Inv) (hh : h ∈ w.handles) :
    w.tiers.heap.get? h = some (chunk w.tiers.heap h) :=
  (hw.mem.vram.get hh).1

lemma Inv.lt (hw : w.Inv) (hh : h ∈ w.handles) : h < w.tiers.heap.cells.length := by
  obtain ⟨c, hc, -⟩ := hw.mem.vram.counts.exists_cell hh
  exact (List.getElem?_eq_some_iff.mp hc).1

/-- What is in flight leaves the chunks alone whose promotions were flushed. -/
lemma Inv.spares (hw : w.Inv) (hc : w.InFlight c) (hg : g ∈ w.handles) (hgu : g ∉ w.unflushed) :
    c.Spares (place w.tiers g) w.tiers.vram.chunkBytes := by
  obtain ⟨h, hh, htier, rfl | ⟨hu, rfl⟩⟩ := hc
  · exact evictCopy_spares hw.mem hw.bytes hh htier (hw.backed h hh) hg
  · refine promoteCopy_spares fun _ => vramSlot_ne hw.mem hh hg ?_ htier
    rintro rfl
    exact hgu hu

/-- A change of bytes that leaves the chunks alone, and a shorter stream. -/
lemma Inv.of_mem (hw : w.Inv) {mem : TierMem} {stream : List TierCopy}
    (hmem : ∀ g ∈ w.handles, g ∉ w.unflushed → ∀ i < w.tiers.vram.chunkBytes,
      mem (place w.tiers g).1 ((place w.tiers g).2 + i) = w.read g i)
    (hstream : ∀ c ∈ stream, w.InFlight c) : Inv { w with mem, stream } :=
  ⟨hw.mem, hw.backed, hw.bytes, hstream, fun g hg hgu i hi =>
    (hmem g hg hgu i hi).trans (hw.intact g hg hgu i hi)⟩

/-- A synchronisation. -/
lemma Inv.synchronize (hw : w.Inv) (sync : HipStatus) : (w.synchronize sync).Inv := by
  cases sync with
  | error e => exact hw
  | ok u =>
      refine hw.of_mem (fun g hg hgu i hi => ?_) (fun c hc => absurd hc List.not_mem_nil)
      exact TierCopy.runAll_of_spares (fun c hc => hw.spares (hw.stream c hc) hg hgu) hi

/-! ### Eviction -/

/-- The chunk after an eviction. -/
def evicted (c : ChunkRef) : ChunkRef := { c with vramSlot := u32Max, tier := .hostPinned }

/-- The chunk after a promotion to a slot. -/
def promoted (slot : ℕ) (c : ChunkRef) : ChunkRef := { c with vramSlot := slot, tier := .vram }

section Chunks

variable {heap : ChunkHeap} {f : ChunkRef → ChunkRef}

lemma chunk_update_self (hget : heap.get? h = some (chunk heap h)) :
    chunk (heap.update h f) h = f (chunk heap h) := by
  rw [chunk, ArcHeap.get?_update, if_pos rfl, hget]
  rfl

lemma chunk_update_of_ne (hne : g ≠ h) : chunk (heap.update h f) g = chunk heap g := by
  rw [chunk, chunk, ArcHeap.get?_update, if_neg (Ne.symm hne)]

end Chunks

/-- The ways an eviction ends: its copy fails, its synchronisation fails, or the chunk is moved. -/
lemma evictChunkAndFree_cases (hw : w.Inv) (hh : h ∈ w.handles)
    (htier : (chunk w.tiers.heap h).tier = .vram) (memcpy sync : HipStatus) (junk : ℕ → UInt8) :
    (∃ e, w.evictChunkAndFree h memcpy sync junk =
      (.error (.hip e), { w with mem := (evictCopy w.tiers h).spoil junk w.mem })) ∨
    (∃ e, w.evictChunkAndFree h memcpy sync junk =
      (.error (.hip e), { w with stream := w.stream ++ [evictCopy w.tiers h] })) ∨
    ∃ tiers, w.evictChunkAndFree h memcpy sync junk = (.ok (), { w with
        tiers, mem := TierCopy.runAll (w.stream ++ [evictCopy w.tiers h]) w.mem, stream := [] }) ∧
      tiers.heap = w.tiers.heap.update h evicted ∧ SameRegions w.tiers tiers ∧
      MemInv tiers.mem w.handles := by
  have hback := hw.backed h hh
  have hevict : PagedKv.evictChunk w.tiers.heap h memcpy = memcpy.mapError .hip := by
    cases memcpy <;> simp [PagedKv.evictChunk, htier, hback, Except.mapError]
  cases memcpy with
  | error e =>
      refine .inl ⟨e, ?_⟩
      simp [evictChunkAndFree, evictChunk, hevict, Except.mapError]
  | ok u =>
      cases sync with
      | error e =>
          refine .inr (.inl ⟨e, ?_⟩)
          simp [evictChunkAndFree, evictChunk, hevict, synchronize, PagedKv.evictChunkAndFree,
            Except.mapError]
      | ok u =>
          have hvram : VramInv w.tiers.heap w.tiers.vram w.handles := hw.mem.vram
          obtain ⟨hget, hpos⟩ := hvram.get hh
          have hslot : (chunk w.tiers.heap h).vramSlot ≠ u32Max := fun hmax =>
            absurd (htier.symm.trans ((hvram.chunk_tier hh).mpr hmax)) (by decide)
          obtain ⟨pool, hfree, -⟩ := hvram.vram.update_free (r := .pageSlotRange)
            (d := .pageDoubleFree) (g := evicted) hpos hget hslot rfl
          obtain ⟨hpool, hbytes⟩ := SlotPool.free_pool hfree
          have hdone : PagedKv.evictChunkAndFree w.tiers h (.ok ()) (.ok ()) =
              (.ok (), ⟨w.tiers.heap.update h evicted, ⟨pool⟩, w.tiers.host⟩) := by
            simp only [PagedKv.evictChunkAndFree, hevict, Except.mapError,
              PageAllocator.free_of_ok hfree]
            rfl
          have hinv := (evictChunkAndFree_inv hw.mem hh (.ok ()) (.ok ())).1
          rw [hdone] at hinv
          refine .inr (.inr ⟨⟨w.tiers.heap.update h evicted, ⟨pool⟩, w.tiers.host⟩, ?_, rfl,
            ⟨hpool, hbytes, rfl, rfl⟩, hinv⟩)
          simp only [evictChunkAndFree, evictChunk, hevict, Except.mapError, synchronize, hdone]

/-- The copy of an eviction is one in flight. -/
lemma inFlight_evict (hh : h ∈ w.handles) (htier : (chunk w.tiers.heap h).tier = .vram) :
    w.InFlight (evictCopy w.tiers h) :=
  ⟨h, hh, htier, .inl rfl⟩

/-- **A chunk that is evicted keeps its bytes**, and so do the others. -/
lemma Inv.evict (hw : w.Inv) (hh : h ∈ w.handles)
    (htier : (chunk w.tiers.heap h).tier = .vram) (memcpy sync : HipStatus) (junk : ℕ → UInt8) :
    (w.evictChunkAndFree h memcpy sync junk).2.Inv := by
  have hflight := inFlight_evict hh htier
  have hstream : ∀ c ∈ w.stream ++ [evictCopy w.tiers h], w.InFlight c := by
    intro c hc
    rcases List.mem_append.mp hc with hc | hc
    · exact hw.stream c hc
    · rwa [List.mem_singleton.mp hc]
  rcases evictChunkAndFree_cases hw hh htier memcpy sync junk with
    ⟨e, heq⟩ | ⟨e, heq⟩ | ⟨tiers, heq, hheap, hsame, hinv⟩ <;> rw [heq]
  · exact hw.of_mem (fun g hg hgu i hi => TierCopy.spoil_of_spares (hw.spares hflight hg hgu) hi)
      hw.stream
  · exact hw.of_mem (fun g hg hgu i hi => rfl) hstream
  · have hself : chunk tiers.heap h = evicted (chunk w.tiers.heap h) := by
      rw [hheap]
      exact chunk_update_self (hw.get hh)
    have hother : ∀ {g}, g ≠ h → chunk tiers.heap g = chunk w.tiers.heap g := fun hne => by
      rw [hheap, chunk_update_of_ne hne]
    refine ⟨hinv, fun g hg => ?_, ?_, fun c hc => absurd hc List.not_mem_nil, ?_⟩
    · by_cases hgh : g = h
      · subst hgh
        rw [hself]
        exact hw.backed g hg
      · rw [hother hgh]
        exact hw.backed g hg
    · rw [hsame.vramBytes, hsame.hostBytes]
      exact hw.bytes
    · intro g hg hgu i hi
      replace hi : i < w.tiers.vram.chunkBytes := hsame.vramBytes ▸ hi
      by_cases hgh : g = h
      · subst hgh
        -- the last copy fills the host slot from the slot the chunk leaves
        have hplace : place tiers g = (evictCopy w.tiers g).dst := by
          rw [place_host (by rw [hself]; rfl), hsame.hostPlace_eq (by rw [hself]; rfl)]
          rfl
        calc TierCopy.runAll (w.stream ++ [evictCopy w.tiers g]) w.mem (place tiers g).1
              ((place tiers g).2 + i)
            = TierCopy.runAll w.stream w.mem (vramPlace w.tiers g).1
                ((vramPlace w.tiers g).2 + i) := by
              rw [hplace, TierCopy.runAll_snoc]
              exact TierCopy.run_dst hi
          _ = w.read g i := by
              rw [← place_vram htier]
              exact TierCopy.runAll_of_spares
                (fun c hc => hw.spares (hw.stream c hc) hg hgu) hi
          _ = w.written g i := hw.intact g hg hgu i hi
      · show TierCopy.runAll _ w.mem (place tiers g).1 ((place tiers g).2 + i) = w.written g i
        rw [hsame.place_eq (hother hgh)]
        exact (TierCopy.runAll_of_spares (fun c hc => hw.spares (hstream c hc) hg hgu) hi).trans
          (hw.intact g hg hgu i hi)

/-! ### Promotion -/

/-- The ways a promotion ends: there is no slot, its copy fails, or the chunk is moved while its
copy is in flight. -/
lemma promoteChunk_cases (hw : w.Inv) (hh : h ∈ w.handles)
    (htier : (chunk w.tiers.heap h).tier = .hostPinned) (memcpy : HipStatus) (junk : ℕ → UInt8) :
    w.promoteChunk h memcpy junk = (.error .outOfMemory, w) ∨
    ∃ slot vram, w.tiers.vram.alloc = some (slot, w.tiers.vram.slotPtr slot, vram) ∧
      ((∃ e, w.promoteChunk h memcpy junk = (.error (.hip e), { w with
          mem := (promoteCopy w.tiers h (w.tiers.vram.slotPtr slot)).spoil junk w.mem })) ∨
        ∃ tiers, w.promoteChunk h memcpy junk = (.ok (), { w with
            tiers, stream := w.stream ++ [promoteCopy w.tiers h (w.tiers.vram.slotPtr slot)] }) ∧
          tiers.heap = w.tiers.heap.update h (promoted slot) ∧ SameRegions w.tiers tiers ∧
          MemInv tiers.mem w.handles) := by
  have hback := hw.backed h hh
  have hinv := (promoteChunk_inv hw.mem hh memcpy).1
  cases ha : w.tiers.vram.alloc with
  | none =>
      have hdone : PagedKv.promoteChunk w.tiers h memcpy = (.error .outOfMemory, w.tiers) := by
        simp [PagedKv.promoteChunk, htier, hback, ha]
      refine .inl ?_
      simp [promoteChunk, hdone, ha, Fault.outOfMemory]
  | some r =>
      obtain ⟨slot, ptr, vram⟩ := r
      have ha' := PageAllocator.alloc_eq_some_iff.mp ha
      obtain ⟨-, rfl, hpool, hbytes⟩ := SlotPool.alloc_eq_some_iff.mp ha'
      refine .inr ⟨slot, vram, rfl, ?_⟩
      cases memcpy with
      | error e =>
          have hfree := PageAllocator.free_of_ok (a := vram)
            (SlotPool.free_alloc (r := .pageSlotRange) (d := .pageDoubleFree)
              hw.mem.vram.vram.holds ha')
          have hdone : PagedKv.promoteChunk w.tiers h (.error e) = (.error (.hip e), w.tiers) := by
            simp only [PagedKv.promoteChunk, htier, ne_eq, not_true_eq_false, if_false,
              if_neg hback, ha, hfree]
            rfl
          refine .inl ⟨e, ?_⟩
          simp only [promoteChunk, hdone, ha]
      | ok u =>
          have hdone : PagedKv.promoteChunk w.tiers h (.ok u) =
              (.ok (), ⟨w.tiers.heap.update h (promoted slot), vram, w.tiers.host⟩) := by
            simp only [PagedKv.promoteChunk, htier, ne_eq, not_true_eq_false, if_false,
              if_neg hback, ha]
            rfl
          rw [hdone] at hinv
          refine .inr ⟨⟨w.tiers.heap.update h (promoted slot), vram, w.tiers.host⟩, ?_, rfl,
            ⟨hpool, hbytes, rfl, rfl⟩, hinv⟩
          simp only [promoteChunk, hdone, ha]

section Promoted

variable {slot : ℕ} {tiers : Tiers} (hw : w.Inv) (hh : h ∈ w.handles)
  (hheap : tiers.heap = w.tiers.heap.update h (promoted slot)) (hsame : SameRegions w.tiers tiers)
  (hinv : MemInv tiers.mem w.handles)
include hw hh hheap hsame hinv

/-- What stays of the invariant when a chunk is promoted, whatever the bytes. -/
lemma Inv.of_promoted {mem : TierMem} {stream : List TierCopy} {unflushed : List ChunkHandle}
    (hstream : ∀ c ∈ stream, InFlight ⟨tiers, mem, stream, w.handles, w.written, unflushed⟩ c)
    (hsub : ∀ g ∈ w.unflushed, g ∈ unflushed)
    (hother : ∀ g ∈ w.handles, g ∉ w.unflushed → g ≠ h → ∀ i < w.tiers.vram.chunkBytes,
      mem (place w.tiers g).1 ((place w.tiers g).2 + i) = w.read g i)
    (hself : h ∉ unflushed → ∀ i < w.tiers.vram.chunkBytes,
      mem .vram (w.tiers.vram.slotPtr slot + i) = w.read h i) :
    Inv ⟨tiers, mem, stream, w.handles, w.written, unflushed⟩ := by
  have hchunk : chunk tiers.heap h = promoted slot (chunk w.tiers.heap h) := by
    rw [hheap]
    exact chunk_update_self (hw.get hh)
  have hrest : ∀ {g}, g ≠ h → chunk tiers.heap g = chunk w.tiers.heap g := fun hne => by
    rw [hheap, chunk_update_of_ne hne]
  refine ⟨hinv, fun g hg => ?_, ?_, hstream, fun g hg hgu i hi => ?_⟩
  · by_cases hgh : g = h
    · subst hgh
      show (chunk tiers.heap g).hostSlot ≠ u32Max
      rw [hchunk]
      exact hw.backed g hg
    · show (chunk tiers.heap g).hostSlot ≠ u32Max
      rw [hrest hgh]
      exact hw.backed g hg
  · show tiers.vram.chunkBytes = tiers.host.chunkBytes
    rw [hsame.vramBytes, hsame.hostBytes]
    exact hw.bytes
  · replace hi : i < w.tiers.vram.chunkBytes := hsame.vramBytes ▸ hi
    have hgu' : g ∉ w.unflushed := fun hmem => hgu (hsub g hmem)
    show mem (place tiers g).1 ((place tiers g).2 + i) = w.written g i
    rw [← hw.intact g hg hgu' i hi]
    by_cases hgh : g = h
    · subst hgh
      have hplace : place tiers g = (.vram, w.tiers.vram.slotPtr slot) := by
        rw [place_vram (by rw [hchunk]; rfl), vramPlace, hchunk, SlotPool.slotPtr,
          hsame.vramPool, hsame.vramBytes]
        rfl
      rw [hplace]
      exact hself hgu i hi
    · rw [hsame.place_eq (hrest hgh)]
      exact hother g hg hgu' hgh i hi

end Promoted

/-- **A chunk that is promoted keeps its bytes** once its promotion is flushed, and so do the
others in any case. -/
lemma Inv.promote (hw : w.Inv) (hh : h ∈ w.handles)
    (htier : (chunk w.tiers.heap h).tier = .hostPinned) (memcpy sync : HipStatus)
    (junk : ℕ → UInt8) :
    ((w.promoteChunk h memcpy junk).2.flush (.promote h memcpy sync junk)
      (w.promoteChunk h memcpy junk).1).Inv := by
  rcases promoteChunk_cases hw hh htier memcpy junk with
    heq | ⟨slot, vram, ha, ⟨e, heq⟩ | ⟨tiers, heq, hheap, hsame, hinv⟩⟩ <;> rw [heq]
  · have : w.flush (.promote h memcpy sync junk) (.error .outOfMemory) = w.synchronize sync := by
      cases sync <;> rfl
    rw [this]
    exact hw.synchronize sync
  · -- the destination of the failed copy is a free slot
    have hspoilt : Inv { w with
        mem := (promoteCopy w.tiers h (w.tiers.vram.slotPtr slot)).spoil junk w.mem } :=
      hw.of_mem (fun g hg _ i hi => TierCopy.spoil_of_spares
        (promoteCopy_spares fun _ => vramSlot_ne_alloc hw.mem hg ha) hi) hw.stream
    have hflushed := hspoilt.synchronize sync
    cases sync <;> exact hflushed
  have hspares : ∀ {g}, g ∈ w.handles → (promoteCopy w.tiers h (w.tiers.vram.slotPtr slot)).Spares
      (place w.tiers g) w.tiers.vram.chunkBytes := fun hg =>
    promoteCopy_spares fun _ => vramSlot_ne_alloc hw.mem hg ha
  have hold : ∀ {g}, g ∈ w.handles → g ∉ w.unflushed → ∀ c ∈ w.stream,
      c.Spares (place w.tiers g) w.tiers.vram.chunkBytes := fun hg hgu c hc =>
    hw.spares (hw.stream c hc) hg hgu
  cases sync with
  | ok u =>
      refine hw.of_promoted hh hheap hsame hinv (fun c hc => absurd hc List.not_mem_nil)
        (fun g hg => hg) (fun g hg hgu _ i hi => ?_) (fun hhu i hi => ?_)
      · refine TierCopy.runAll_of_spares (fun c hc => ?_) hi
        rcases List.mem_append.mp hc with hc | hc
        · exact hold hg hgu c hc
        · rw [List.mem_singleton.mp hc]
          exact hspares hg
      · -- the last copy fills the new slot from the host slot
        calc TierCopy.runAll (w.stream ++ [promoteCopy w.tiers h (w.tiers.vram.slotPtr slot)])
              w.mem .vram (w.tiers.vram.slotPtr slot + i)
            = TierCopy.runAll w.stream w.mem (hostPlace w.tiers h).1
                ((hostPlace w.tiers h).2 + i) := by
              rw [TierCopy.runAll_snoc]
              exact TierCopy.run_dst (c := promoteCopy w.tiers h (w.tiers.vram.slotPtr slot)) hi
          _ = w.read h i := by
              rw [← place_host htier]
              exact TierCopy.runAll_of_spares (hold hh hhu) hi
  | error e =>
      refine hw.of_promoted hh hheap hsame hinv (fun c hc => ?_)
        (fun g hg => List.mem_cons_of_mem _ hg) (fun g hg _ _ i hi => rfl)
        (fun hhu => absurd List.mem_cons_self hhu)
      have hself : chunk tiers.heap h = promoted slot (chunk w.tiers.heap h) := by
        rw [hheap]
        exact chunk_update_self (hw.get hh)
      rcases List.mem_append.mp hc with hc | hc
      · -- an older copy belongs to a chunk in VRAM, which is another one
        obtain ⟨g, hg, hgt, hcopy⟩ := hw.stream c hc
        have hne : g ≠ h := by
          rintro rfl
          exact absurd (hgt.symm.trans htier) (by decide)
        have hrest : chunk tiers.heap g = chunk w.tiers.heap g := by
          rw [hheap, chunk_update_of_ne hne]
        refine ⟨g, hg, (congrArg ChunkRef.tier hrest).trans hgt, ?_⟩
        rcases hcopy with rfl | ⟨hu, rfl⟩
        · exact .inl (hsame.evictCopy_eq hrest).symm
        · refine .inr ⟨List.mem_cons_of_mem _ hu, ?_⟩
          show _ = promoteCopy tiers g (vramPlace tiers g).2
          rw [hsame.vramPlace_eq hrest, hsame.promoteCopy_eq (congrArg _ hrest)]
      · rw [List.mem_singleton.mp hc]
        refine ⟨h, hh, congrArg ChunkRef.tier hself, .inr ⟨List.mem_cons_self, ?_⟩⟩
        have hhost : (chunk tiers.heap h).hostSlot = (chunk w.tiers.heap h).hostSlot := by
          rw [hself]
          rfl
        show _ = promoteCopy tiers h (vramPlace tiers h).2
        rw [hsame.promoteCopy_eq hhost, vramPlace, hself, SlotPool.slotPtr, SlotPool.slotPtr,
          hsame.vramPool, hsame.vramBytes]
        rfl

/-! ### The other operations -/

lemma initial_inv (vramBase hostBase bytes : ℕ) (vramCap hostCap : UInt32) (mem : TierMem) :
    (initial (.new vramBase bytes vramCap) (.new hostBase bytes hostCap) mem).Inv := by
  have hnocell : ∀ h c, (ArcHeap.empty : ChunkHeap).get? h ≠ some c := by
    simp [ArcHeap.empty, ArcHeap.get?]
  refine ⟨⟨⟨ArcHeap.Counts.empty, fun h c hc => absurd hc (hnocell h c), PoolInv.new _ _ _⟩,
    ⟨fun h c hc => absurd hc (hnocell h c), fun ha hha => ?_⟩⟩,
    fun h hh => absurd hh List.not_mem_nil, rfl, fun c hc => absurd hc List.not_mem_nil,
    fun h hh => absurd hh List.not_mem_nil⟩
  obtain rfl := Option.some.inj hha
  exact PoolInv.new _ _ _

/-- The ways an allocation ends: nothing happens, or there is one more chunk, with a slot in each
pool. -/
lemma alloc_cases (hw : w.Inv) :
    w.attempt .alloc = some (.error .outOfMemory, w) ∨
    ∃ tiers slot hostSlot,
      w.attempt .alloc = some (.ok (), { w with
        tiers
        handles := w.tiers.heap.cells.length :: w.handles
        written := Function.update w.written w.tiers.heap.cells.length fun i =>
          w.mem .vram ((vramPlace tiers w.tiers.heap.cells.length).2 + i) }) ∧
      tiers.heap = (w.tiers.heap.new (.ofBoth slot hostSlot)).2 ∧ hostSlot ≠ u32Max ∧
      SameRegions w.tiers tiers ∧
      MemInv tiers.mem (w.tiers.heap.cells.length :: w.handles) := by
  have hinv := allocWithHostBacking_inv hw.mem
  rw [attempt]
  rcases hx : allocWithHostBacking w.tiers with ⟨e | h, tiers⟩
  · rw [hx] at hinv
    obtain ⟨rfl, rfl⟩ := hinv
    exact .inl rfl
  · rw [hx] at hinv
    right
    rw [allocWithHostBacking] at hx
    cases ha : w.tiers.vram.alloc with
    | none => simp [ha] at hx
    | some r =>
        obtain ⟨slot, ptr, vram⟩ := r
        cases hb : w.tiers.host.alloc with
        | none =>
            simp only [ha, hb] at hx
            split at hx <;> simp at hx
        | some r =>
            obtain ⟨hostSlot, ptr', host⟩ := r
            simp only [ha, hb, Prod.mk.injEq, Except.ok.injEq] at hx
            obtain ⟨rfl, rfl⟩ := hx
            have hb' := HostPageAllocator.alloc_eq_some_iff.mp hb
            have hhost : PoolInv w.tiers.host.toSlotPool ChunkRef.hostSlot w.tiers.heap :=
              hw.mem.host.host _ rfl
            obtain ⟨-, -, hpool, hbytes⟩ :=
              SlotPool.alloc_eq_some_iff.mp (PageAllocator.alloc_eq_some_iff.mp ha)
            obtain ⟨-, -, hpool', hbytes'⟩ := SlotPool.alloc_eq_some_iff.mp hb'
            exact ⟨_, slot, hostSlot, rfl, rfl, (hhost.alloc hb').1,
              ⟨hpool, hbytes, hpool', hbytes'⟩, hinv⟩

/-- An allocation: the other chunks stay where they are. -/
lemma Inv.alloc (hw : w.Inv) {r : Except Fault Unit} (hat : w.attempt .alloc = some (r, w')) :
    w'.Inv := by
  rcases alloc_cases hw with heq | ⟨tiers, slot, hostSlot, heq, hheap, hback, hsame, hinv⟩
  · obtain ⟨rfl, rfl⟩ : _ = r ∧ w = w' := by simpa [heq] using hat
    exact hw
  rw [heq, Option.some.injEq, Prod.mk.injEq] at hat
  obtain ⟨-, rfl⟩ := hat
  have hold : ∀ g ∈ w.handles, chunk tiers.heap g = chunk w.tiers.heap g := fun g hg => by
    rw [hheap, SequenceState.chunk_new_of_lt (hw.lt hg)]
  have hself : chunk tiers.heap w.tiers.heap.cells.length = .ofBoth slot hostSlot := by
    rw [hheap, SequenceState.chunk_new]
  refine ⟨hinv, fun g hg => ?_, ?_, fun c hc => ?_, fun g hg hgu i hi => ?_⟩
  · rcases List.mem_cons.mp hg with rfl | hg
    · show (chunk tiers.heap _).hostSlot ≠ u32Max
      rw [hself]
      exact hback
    · show (chunk tiers.heap g).hostSlot ≠ u32Max
      rw [hold g hg]
      exact hw.backed g hg
  · show tiers.vram.chunkBytes = tiers.host.chunkBytes
    rw [hsame.vramBytes, hsame.hostBytes]
    exact hw.bytes
  · obtain ⟨g, hg, hgt, hcopy⟩ := hw.stream c hc
    refine ⟨g, List.mem_cons_of_mem _ hg, (congrArg ChunkRef.tier (hold g hg)).trans hgt, ?_⟩
    rcases hcopy with rfl | ⟨hu, rfl⟩
    · exact .inl (hsame.evictCopy_eq (hold g hg)).symm
    · refine .inr ⟨hu, ?_⟩
      show _ = promoteCopy tiers g (vramPlace tiers g).2
      rw [hsame.vramPlace_eq (hold g hg), hsame.promoteCopy_eq (congrArg _ (hold g hg))]
  · show w.mem (place tiers g).1 ((place tiers g).2 + i) = Function.update w.written _ _ g i
    rcases List.mem_cons.mp hg with rfl | hg
    · rw [Function.update_self, place_vram (by rw [hself]; rfl)]
      rfl
    · rw [Function.update_of_ne (Nat.ne_of_lt (hw.lt hg)), hsame.place_eq (hold g hg)]
      exact hw.intact g hg hgu i (hsame.vramBytes ▸ hi)

/-- A write through the VRAM slot of a chunk. -/
lemma Inv.write (hw : w.Inv) {i : ℕ} {b : UInt8} (hh : h ∈ w.handles)
    (htier : (chunk w.tiers.heap h).tier = .vram) (hi : i < w.tiers.vram.chunkBytes) :
    Inv { w with
      mem := Function.update w.mem .vram
        (Function.update (w.mem .vram) ((vramPlace w.tiers h).2 + i) b)
      written := Function.update w.written h (Function.update (w.written h) i b) } := by
  refine ⟨hw.mem, hw.backed, hw.bytes, hw.stream, fun g hg hgu j hj => ?_⟩
  have hintact := hw.intact g hg hgu j hj
  show Function.update w.mem .vram _ (place w.tiers g).1 ((place w.tiers g).2 + j) =
    Function.update w.written h _ g j
  by_cases hgh : g = h
  · subst hgh
    rw [read, place_vram htier] at hintact
    rw [Function.update_self, place_vram htier]
    show Function.update w.mem _ _ ChunkTier.vram _ = _
    rw [Function.update_self]
    by_cases hij : j = i
    · subst hij
      rw [Function.update_self, Function.update_self]
    · rw [Function.update_of_ne hij, Function.update_of_ne fun heq => hij (Nat.add_left_cancel heq)]
      exact hintact
  · rw [Function.update_of_ne hgh]
    refine Eq.trans ?_ hintact
    rw [read]
    cases hgt : (chunk w.tiers.heap g).tier with
    | hostPinned => rw [place_host hgt]; rfl
    | vram =>
        rw [place_vram hgt]
        show Function.update w.mem _ _ ChunkTier.vram _ = _
        rw [Function.update_self]
        refine Function.update_of_ne (fun heq => ?_) _ _
        -- the byte would lie in the slots of both chunks
        refine w.tiers.vram.slotPtr_add_notMem (vramSlot_ne hw.mem hh hg hgh htier) hj ?_
        have heq' : w.tiers.vram.slotPtr (chunk w.tiers.heap g).vramSlot + j =
            w.tiers.vram.slotPtr (chunk w.tiers.heap h).vramSlot + i := heq
        omega

/-! ### Runs -/

/-- **The step lemma**: an operation and its flush keep every chunk's bytes. -/
lemma Inv.apply (hw : w.Inv) {op : TierOp} (happ : w.apply op = some w') : w'.Inv := by
  rw [TierWorld.apply, Option.map_eq_some_iff] at happ
  obtain ⟨⟨r, w₁⟩, hat, rfl⟩ := happ
  cases op with
  | alloc => exact hw.alloc hat
  | write h i b =>
      rw [attempt] at hat
      split at hat
      · next hpre =>
          obtain ⟨-, rfl⟩ : _ = r ∧ _ = w₁ := by simpa using hat
          exact hw.write hpre.1 hpre.2.1 hpre.2.2
      · cases hat
  | evict h memcpy sync flush junk =>
      rw [attempt] at hat
      split at hat
      · next hpre =>
          have hinv := (hw.evict hpre.1 hpre.2 memcpy sync junk).synchronize flush
          rw [Option.some.inj hat] at hinv
          exact hinv
      · cases hat
  | promote h memcpy flush junk =>
      rw [attempt] at hat
      split at hat
      · next hpre =>
          have hinv := hw.promote hpre.1 hpre.2 memcpy flush junk
          rw [Option.some.inj hat] at hinv
          exact hinv
      · cases hat
  | dma =>
      rw [attempt] at hat
      split at hat
      · cases hat
      · next c rest hstream =>
          obtain ⟨-, rfl⟩ : _ = r ∧ _ = w₁ := by simpa using hat
          have hc : w.InFlight c := hw.stream c (by rw [hstream]; exact List.mem_cons_self)
          exact hw.of_mem (fun g hg hgu i hi => TierCopy.run_of_spares (hw.spares hc hg hgu) hi)
            fun c hc => hw.stream c (by rw [hstream]; exact List.mem_cons_of_mem _ hc)
  | disturb k junk =>
      rw [attempt] at hat
      split at hat
      · cases hat
      · next c hk =>
          obtain ⟨-, rfl⟩ : _ = r ∧ _ = w₁ := by simpa using hat
          have hc : w.InFlight c := hw.stream c (List.mem_of_getElem? hk)
          exact hw.of_mem (fun g hg hgu i hi => TierCopy.spoil_of_spares (hw.spares hc hg hgu) hi)
            hw.stream

/-! ### What is kept -/

/-- What the operations promise of the chunks, but for those in `lost`. -/
structure KeepsContents (w : TierWorld) (lost : List ChunkHandle) : Prop where
  /-- A chunk is read as it was written. -/
  intact : ∀ h ∈ w.handles, h ∉ lost → ∀ i < w.tiers.vram.chunkBytes, w.read h i = w.written h i
  /-- A chunk keeps its host slot. -/
  hostSlot : ∀ op w', w.apply op = some w' → ∀ h ∈ w.handles,
    h ∈ w'.handles ∧ (chunk w'.tiers.heap h).hostSlot = (chunk w.tiers.heap h).hostSlot
  /-- An operation that returns an error leaves the chunks, their bytes and the pools alone; none
  panics. -/
  onError : ∀ op e w', w.attempt op = some (.error e, w') →
    (∃ code, e = .hip code) ∧ w'.tiers = w.tiers ∧ w'.handles = w.handles ∧
      ∀ h ∈ w.handles, ∀ i < w.tiers.vram.chunkBytes, w'.read h i = w.read h i

/-- A flush moves no chunk. -/
lemma flush_same (op : TierOp) (r : Except Fault Unit) :
    (w.flush op r).tiers = w.tiers ∧ (w.flush op r).handles = w.handles := by
  have hsync : ∀ sync, (w.synchronize sync).tiers = w.tiers ∧
      (w.synchronize sync).handles = w.handles := fun sync => by
    cases sync <;> exact ⟨rfl, rfl⟩
  unfold flush
  split
  · exact hsync _
  · exact ⟨rfl, rfl⟩
  · exact hsync _
  · exact ⟨rfl, rfl⟩

/-- A chunk that is moved keeps its host slot. -/
lemma Inv.hostSlot_update (hw : w.Inv) (hh : h ∈ w.handles) (f : ChunkRef → ChunkRef)
    (hf : ∀ c, (f c).hostSlot = c.hostSlot) :
    (chunk (w.tiers.heap.update h f) g).hostSlot = (chunk w.tiers.heap g).hostSlot := by
  by_cases hgh : g = h
  · subst hgh
    rw [chunk_update_self (hw.get hh), hf]
  · rw [chunk_update_of_ne hgh]

/-- An operation keeps the host slot of each chunk. -/
lemma Inv.attempt_hostSlot (hw : w.Inv) {op : TierOp} {r : Except Fault Unit}
    (hat : w.attempt op = some (r, w')) (hg : g ∈ w.handles) :
    g ∈ w'.handles ∧ (chunk w'.tiers.heap g).hostSlot = (chunk w.tiers.heap g).hostSlot := by
  cases op with
  | alloc =>
      rcases alloc_cases hw with heq | ⟨tiers, slot, hostSlot, heq, hheap, -, -, -⟩
      · obtain ⟨rfl, rfl⟩ : _ = r ∧ w = w' := by simpa [heq] using hat
        exact ⟨hg, rfl⟩
      · rw [heq, Option.some.injEq, Prod.mk.injEq] at hat
        obtain ⟨-, rfl⟩ := hat
        refine ⟨List.mem_cons_of_mem _ hg, ?_⟩
        show (chunk tiers.heap g).hostSlot = _
        rw [hheap, SequenceState.chunk_new_of_lt (hw.lt hg)]
  | write h i b =>
      rw [attempt] at hat
      split at hat
      · obtain ⟨-, rfl⟩ : _ = r ∧ _ = w' := by simpa using hat
        exact ⟨hg, rfl⟩
      · cases hat
  | evict h memcpy sync flush junk =>
      rw [attempt] at hat
      split at hat
      · next hpre =>
          rcases evictChunkAndFree_cases hw hpre.1 hpre.2 memcpy sync junk with
            ⟨e, heq⟩ | ⟨e, heq⟩ | ⟨tiers, heq, hheap, -, -⟩ <;>
          rw [heq, Option.some.injEq, Prod.mk.injEq] at hat <;> obtain ⟨-, rfl⟩ := hat
          · exact ⟨hg, rfl⟩
          · exact ⟨hg, rfl⟩
          · refine ⟨hg, ?_⟩
            show (chunk tiers.heap g).hostSlot = _
            rw [hheap, hw.hostSlot_update hpre.1 evicted fun _ => rfl]
      · cases hat
  | promote h memcpy flush junk =>
      rw [attempt] at hat
      split at hat
      · next hpre =>
          rcases promoteChunk_cases hw hpre.1 hpre.2 memcpy junk with
            heq | ⟨slot, vram, -, ⟨e, heq⟩ | ⟨tiers, heq, hheap, -, -⟩⟩ <;>
          rw [heq, Option.some.injEq, Prod.mk.injEq] at hat <;> obtain ⟨-, rfl⟩ := hat
          · exact ⟨hg, rfl⟩
          · exact ⟨hg, rfl⟩
          · refine ⟨hg, ?_⟩
            show (chunk tiers.heap g).hostSlot = _
            rw [hheap, hw.hostSlot_update hpre.1 (promoted slot) fun _ => rfl]
      · cases hat
  | dma =>
      rw [attempt] at hat
      split at hat
      · cases hat
      · obtain ⟨-, rfl⟩ : _ = r ∧ _ = w' := by simpa using hat
        exact ⟨hg, rfl⟩
  | disturb k junk =>
      rw [attempt] at hat
      split at hat
      · cases hat
      · obtain ⟨-, rfl⟩ : _ = r ∧ _ = w' := by simpa using hat
        exact ⟨hg, rfl⟩

/-- **An operation that returns an error** moves no chunk, changes no pool, and spoils at most a
slot that no chunk is read from. -/
lemma Inv.attempt_error (hw : w.Inv) {op : TierOp} {e : Fault}
    (hat : w.attempt op = some (.error e, w')) :
    (∃ code, e = .hip code) ∧ w'.tiers = w.tiers ∧ w'.handles = w.handles ∧
      ∀ g ∈ w.handles, ∀ i < w.tiers.vram.chunkBytes, w'.read g i = w.read g i := by
  cases op with
  | alloc =>
      rcases alloc_cases hw with heq | ⟨tiers, slot, hostSlot, heq, -⟩
      · obtain ⟨rfl, rfl⟩ : Fault.outOfMemory = e ∧ w = w' := by simpa [heq] using hat
        exact ⟨⟨_, rfl⟩, rfl, rfl, fun g _ i _ => rfl⟩
      · simp [heq] at hat
  | write h i b =>
      rw [attempt] at hat
      split at hat <;> simp at hat
  | evict h memcpy sync flush junk =>
      rw [attempt] at hat
      split at hat
      · next hpre =>
          rcases evictChunkAndFree_cases hw hpre.1 hpre.2 memcpy sync junk with
            ⟨e', heq⟩ | ⟨e', heq⟩ | ⟨tiers, heq, -⟩ <;>
          rw [heq, Option.some.injEq, Prod.mk.injEq] at hat
          · obtain ⟨herr, rfl⟩ := hat
            refine ⟨⟨e', (Except.error.inj herr).symm⟩, rfl, rfl, fun g hg i hi => ?_⟩
            -- the destination of the failed copy is the host slot of a chunk in VRAM
            exact TierCopy.spoil_of_spares (evictCopy_spares hw.mem hw.bytes hpre.1 hpre.2
              (hw.backed h hpre.1) hg) hi
          · obtain ⟨herr, rfl⟩ := hat
            exact ⟨⟨e', (Except.error.inj herr).symm⟩, rfl, rfl, fun g _ i _ => rfl⟩
          · simp at hat
      · cases hat
  | promote h memcpy flush junk =>
      rw [attempt] at hat
      split at hat
      · next hpre =>
          rcases promoteChunk_cases hw hpre.1 hpre.2 memcpy junk with
            heq | ⟨slot, vram, ha, ⟨e', heq⟩ | ⟨tiers, heq, -⟩⟩ <;>
          rw [heq, Option.some.injEq, Prod.mk.injEq] at hat
          · obtain ⟨herr, rfl⟩ := hat
            exact ⟨⟨_, (Except.error.inj herr).symm⟩, rfl, rfl, fun g _ i _ => rfl⟩
          · obtain ⟨herr, rfl⟩ := hat
            refine ⟨⟨e', (Except.error.inj herr).symm⟩, rfl, rfl, fun g hg i hi => ?_⟩
            exact TierCopy.spoil_of_spares
              (promoteCopy_spares fun _ => vramSlot_ne_alloc hw.mem hg ha) hi
          · simp at hat
      · cases hat
  | dma =>
      rw [attempt] at hat
      split at hat <;> simp at hat
  | disturb k junk =>
      rw [attempt] at hat
      split at hat <;> simp at hat

lemma Inv.keepsContents (hw : w.Inv) : w.KeepsContents w.unflushed := by
  refine ⟨hw.intact, fun op w' happ g hg => ?_, fun op e w' hat => hw.attempt_error hat⟩
  rw [TierWorld.apply, Option.map_eq_some_iff] at happ
  obtain ⟨⟨r, w₁⟩, hat, rfl⟩ := happ
  have hslot := hw.attempt_hostSlot hat hg
  show g ∈ (w₁.flush op r).handles ∧ (chunk (w₁.flush op r).tiers.heap g).hostSlot = _
  rw [(flush_same op _).1, (flush_same op _).2]
  exact hslot

/-- **Chunks keep their contents.**  From two full pools, in every run of allocations, writes,
evictions and promotions, however their copies and flushes end, each chunk is read as it was
written, unless a promotion of it was not flushed. -/
theorem keepsContents_of_run (vramBase hostBase bytes : ℕ) (vramCap hostCap : UInt32)
    (mem : TierMem) (ops : List TierOp) (w : TierWorld)
    (hrun : Run Step
      (.initial (.new vramBase bytes vramCap) (.new hostBase bytes hostCap) mem) ops w) :
    w.KeepsContents w.unflushed :=
  (hrun.invariant (fun _ _ _ hw happ => hw.apply happ)
    (initial_inv vramBase hostBase bytes vramCap hostCap mem)).keepsContents

/-- A chunk that is written, evicted and promoted. -/
theorem keepsContents_of_run_promoted :
    ∃ ops w, ops.length = 4 ∧
      Run Step (.initial (.new 0 1 2) (.new 0 1 2) fun _ _ => 0) ops w ∧
      w.KeepsContents w.unflushed := by
  have hrun : Run Step (.initial (.new 0 1 2) (.new 0 1 2) fun _ _ => 0)
      ([] ++ [.alloc] ++ [.write 0 0 1] ++ [.evict 0 (.ok ()) (.ok ()) (.ok ()) fun _ => 0] ++
        [.promote 0 (.ok ()) (.ok ()) fun _ => 0]) _ :=
    (((Run.nil.snoc (by rfl)).snoc (by rfl)).snoc (by rfl)).snoc (by rfl)
  exact ⟨_, _, rfl, hrun, keepsContents_of_run 0 0 1 2 2 _ _ _ hrun⟩

/-- A chunk is read from its new slot although the flush of its promotion failed. -/
theorem not_keepsContents_unflushed :
    ¬ ∀ (vramBase hostBase bytes : ℕ) (vramCap hostCap : UInt32) (mem : TierMem)
      (ops : List TierOp) (w : TierWorld),
      Run Step (.initial (.new vramBase bytes vramCap) (.new hostBase bytes hostCap) mem) ops w →
      w.KeepsContents [] := by
  intro hall
  have hrun : Run Step (.initial (.new 0 1 2) (.new 0 1 2) fun _ _ => 0)
      ([] ++ [.alloc] ++ [.write 0 0 1] ++ [.evict 0 (.ok ()) (.ok ()) (.ok ()) fun _ => 0] ++
        [.alloc] ++ [.promote 0 (.ok ()) (.error 1) fun _ => 0]) _ :=
    ((((Run.nil.snoc (by rfl)).snoc (by rfl)).snoc (by rfl)).snoc (by rfl)).snoc (by rfl)
  -- the chunk is read from slot 1, which its copy has not reached
  have hread := (hall 0 0 1 2 2 _ _ _ hrun).intact 0 (by decide) List.not_mem_nil 0 (by decide)
  exact absurd hread (by decide)

end TierWorld

end Braidinfer.PagedKv
