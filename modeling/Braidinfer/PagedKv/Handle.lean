/-
Chunk handles and the tier transitions (`paged_kv.rs`, `ChunkRef`, `ChunkHandle`,
`alloc_with_host_backing`, `promote_chunk`, `evict_chunk`, `evict_chunk_and_free`).

A `ChunkHandle` is an `Arc` of a `ChunkRef`, so a handle is an index into a heap of
reference-counted chunks.  Every operation takes the heap and the pools it uses and returns
them as it leaves them, on the error paths too; the outcome of each HIP call it makes is an
argument.
-/
import Braidinfer.Lib.ArcHeap
import Braidinfer.PagedKv.Alloc

namespace Braidinfer.PagedKv

open Braidinfer.Lib

/-- `ChunkRef`: the shared metadata of one KV chunk. -/
structure ChunkRef where
  vramSlot : ℕ
  hostSlot : ℕ
  len : ℕ
  contentHash : Option ℕ
  tier : ChunkTier
  generation : ℕ
deriving DecidableEq, Repr, Inhabited

/-- The heap of chunks. -/
abbrev ChunkHeap := ArcHeap ChunkRef

/-- `ChunkHandle`: a counted reference to a chunk. -/
abbrev ChunkHandle := ℕ

/-- The chunk behind a handle. -/
def chunk (heap : ChunkHeap) (h : ChunkHandle) : ChunkRef := (heap.get? h).getD default

/-- `slot_index`: the VRAM slot of a chunk. -/
def slotIndex (heap : ChunkHeap) (h : ChunkHandle) : ℕ := (chunk heap h).vramSlot

namespace ChunkRef

/-- The chunk of `ChunkHandle::new`: a fresh VRAM slot without host backing. -/
def ofVram (slot : ℕ) : ChunkRef :=
  { vramSlot := slot, hostSlot := u32Max, len := 0, contentHash := none, tier := .vram,
    generation := 0 }

/-- The chunk of `alloc_with_host_backing`: a VRAM slot with a host slot behind it. -/
def ofBoth (vram host : ℕ) : ChunkRef :=
  { vramSlot := vram, hostSlot := host, len := 0, contentHash := none, tier := .vram,
    generation := 0 }

/-- The chunk of the exhausted-VRAM branch of `append_token`: a host slot only. -/
def ofHost (slot : ℕ) : ChunkRef :=
  { vramSlot := u32Max, hostSlot := slot, len := 0, contentHash := none, tier := .hostPinned,
    generation := 0 }

/-- `increment_len`. -/
def incrementLen (c : ChunkRef) : ChunkRef := { c with len := c.len + 1 }

end ChunkRef

/-- The outcome of a HIP call: `hipSuccess` or an error code. -/
abbrev HipStatus := Except ℕ Unit

/-- `ChunkHandle::make_exclusive`.  The copy is issued only for a chunk that holds tokens,
and its failure returns without giving the new slot back. -/
def makeExclusive (heap : ChunkHeap) (self : ChunkHandle) (allocator : PageAllocator)
    (memcpy : HipStatus) : Except Fault ChunkHandle × ChunkHeap × PageAllocator :=
  if heap.strongCount self = 1 then
    (.ok self, heap.clone self, allocator)
  else if allocator.freeCount < 1 then
    (.error .outOfMemory, heap, allocator)
  else
    match allocator.alloc with
    | none => (.error .outOfMemory, heap, allocator)
    | some (newSlot, _newPtr, allocator') =>
        let len := (chunk heap self).len
        let copyBytes := if len = 0 then 0 else allocator'.chunkBytes
        let exclusive := heap.new { ChunkRef.ofVram newSlot with len }
        if 0 < copyBytes then
          match memcpy with
          | .error e => (.error (.hip e), heap, allocator')
          | .ok () => (.ok exclusive.1, exclusive.2, allocator')
        else (.ok exclusive.1, exclusive.2, allocator')

/-- The heap and the two pools. -/
structure Tiers where
  heap : ChunkHeap
  vram : PageAllocator
  host : HostPageAllocator
deriving DecidableEq, Repr

/-- `alloc_with_host_backing`: one slot of each pool, the VRAM slot being given back when
the host pool is exhausted. -/
def allocWithHostBacking (t : Tiers) : Except Fault ChunkHandle × Tiers :=
  match t.vram.alloc with
  | none => (.error .outOfMemory, t)
  | some (vramSlot, _, vram) =>
      match t.host.alloc with
      | none =>
          match vram.free vramSlot with
          | .error p => (.error (.panic p), { t with vram })
          | .ok vram => (.error .outOfMemory, { t with vram })
      | some (hostSlot, _, host) =>
          let (handle, heap) := t.heap.new (.ofBoth vramSlot hostSlot)
          (.ok handle, { heap, vram, host })

/-- `promote_chunk`: a fresh VRAM slot filled from the host slot.  A failed copy gives the
slot back. -/
def promoteChunk (t : Tiers) (handle : ChunkHandle) (memcpy : HipStatus) :
    Except Fault Unit × Tiers :=
  let c := chunk t.heap handle
  if c.tier ≠ .hostPinned then (.error (.panic (.promoteNotHostPinned c.tier)), t)
  else if c.hostSlot = u32Max then (.error (.panic .promoteNoHostBacking), t)
  else
    match t.vram.alloc with
    | none => (.error .outOfMemory, t)
    | some (newVramSlot, _vramDst, vram) =>
        match memcpy with
        | .error e =>
            match vram.free newVramSlot with
            | .error p => (.error (.panic p), { t with vram })
            | .ok vram => (.error (.hip e), { t with vram })
        | .ok () =>
            let heap := t.heap.update handle fun c =>
              { c with vramSlot := newVramSlot, tier := .vram }
            (.ok (), { t with heap, vram })

/-- `evict_chunk`: the assertions and the device-to-host copy; no slot changes hands. -/
def evictChunk (heap : ChunkHeap) (handle : ChunkHandle) (memcpy : HipStatus) :
    Except Fault Unit :=
  let c := chunk heap handle
  if c.tier ≠ .vram then .error (.panic (.evictNotVram c.tier))
  else if c.hostSlot = u32Max then .error (.panic .evictNoHostBacking)
  else
    match memcpy with
    | .error e => .error (.hip e)
    | .ok () => .ok ()

/-- `evict_chunk_and_free`: evict, synchronise the stream, free the VRAM slot and flip the
tier. -/
def evictChunkAndFree (t : Tiers) (handle : ChunkHandle) (memcpy sync : HipStatus) :
    Except Fault Unit × Tiers :=
  match evictChunk t.heap handle memcpy with
  | .error e => (.error e, t)
  | .ok () =>
      match sync with
      | .error e => (.error (.hip e), t)
      | .ok () =>
          match t.vram.free (chunk t.heap handle).vramSlot with
          | .error p => (.error (.panic p), t)
          | .ok vram =>
              let heap := t.heap.update handle fun c =>
                { c with vramSlot := u32Max, tier := .hostPinned }
              (.ok (), { t with heap, vram })

end Braidinfer.PagedKv
