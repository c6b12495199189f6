/-
Per-sequence KV tracking (`paged_kv.rs`, `SequenceState`).

A sequence owns an ordered list of chunk handles.  `append_token` opens a new chunk when the
last one is full, falling back to the host pool when the VRAM pool is exhausted and a host
allocator is passed; `reset` gives back the slots of every chunk of which this sequence
holds the last handle.
-/
import Braidinfer.PagedKv.Handle

namespace Braidinfer.PagedKv

open Braidinfer.Lib

/-- `SequenceState`. -/
structure SequenceState where
  chunks : List ChunkHandle
  seqLen : ℕ
  positions : List ℤ
  kvVersion : ℕ
  chunkTokens : ℕ
  quantSlots : List ℕ
deriving DecidableEq, Repr

/-- The memory a sequence operation works on; `host` is its `host_alloc` argument. -/
structure KvMem where
  heap : ChunkHeap
  vram : PageAllocator
  host : Option HostPageAllocator
deriving DecidableEq, Repr

namespace SequenceState

/-- `SequenceState::new`. -/
def new (chunkTokens : ℕ) : SequenceState :=
  { chunks := [], seqLen := 0, positions := [], kvVersion := 0, chunkTokens, quantSlots := [] }

/-- The condition under which `append_token` opens a new chunk. -/
def needsNewChunk (heap : ChunkHeap) (s : SequenceState) : Bool :=
  match s.chunks.getLast? with
  | none => true
  | some last => s.chunkTokens ≤ (chunk heap last).len

/-- The allocation of `append_token`: a VRAM slot, or else a host slot if a host allocator
was passed. -/
def openChunk (m : KvMem) : Except Fault (ChunkHandle × KvMem) :=
  match m.vram.alloc with
  | some (slot, _ptr, vram) =>
      let (handle, heap) := m.heap.new (.ofVram slot)
      .ok (handle, { m with heap, vram })
  | none =>
      match m.host with
      | none => .error .outOfMemory
      | some ha =>
          match ha.alloc with
          | none => .error .outOfMemory
          | some (hostSlot, _hostPtr, host) =>
              let (handle, heap) := m.heap.new (.ofHost hostSlot)
              .ok (handle, { m with heap, host := some host })

/-- `increment_len` on the last chunk, and the token's bookkeeping. -/
def pushToken (m : KvMem) (s : SequenceState) (position : ℤ) : KvMem × SequenceState :=
  let heap :=
    match s.chunks.getLast? with
    | none => m.heap
    | some last => m.heap.update last .incrementLen
  ({ m with heap }, { s with seqLen := s.seqLen + 1, positions := s.positions ++ [position] })

/-- `append_token`.  Its error paths come before any write. -/
def appendToken (m : KvMem) (s : SequenceState) (position : ℤ) :
    Except Fault (KvMem × SequenceState) :=
  if s.needsNewChunk m.heap then
    match openChunk m with
    | .error e => .error e
    | .ok (handle, m) =>
        .ok (pushToken m { s with chunks := s.chunks ++ [handle], kvVersion := s.kvVersion + 1 }
          position)
  else .ok (pushToken m s position)

/-- `current_chunk_offset`: the number of tokens in the last chunk. -/
def currentChunkOffset (heap : ChunkHeap) (s : SequenceState) : ℕ :=
  match s.chunks.getLast? with
  | none => 0
  | some last => (chunk heap last).len

/-- The host half of `reset` for one chunk: free the host slot, if there is an allocator
and a slot. -/
def freeHostSlot (host : Option HostPageAllocator) (c : ChunkRef) :
    Except Panic (Option HostPageAllocator) :=
  match host with
  | none => .ok none
  | some ha => if c.hostSlot = u32Max then .ok (some ha) else (ha.free c.hostSlot).map some

/-- The VRAM half of `reset` for one chunk. -/
def freeVramSlot (vram : PageAllocator) (c : ChunkRef) : Except Panic PageAllocator :=
  match c.tier with
  | .vram => if c.vramSlot = u32Max then .ok vram else vram.free c.vramSlot
  | .hostPinned => .ok vram

/-- One iteration of the loop of `reset`: a chunk of which this is the last handle gives its
slots back; then the handle is dropped. -/
def resetChunk (m : KvMem) (h : ChunkHandle) : Except Panic KvMem :=
  if m.heap.strongCount h = 1 then
    match freeVramSlot m.vram (chunk m.heap h) with
    | .error p => .error p
    | .ok vram =>
        match freeHostSlot m.host (chunk m.heap h) with
        | .error p => .error p
        | .ok host => .ok { heap := m.heap.drop h, vram, host }
  else .ok { m with heap := m.heap.drop h }

/-- The loop of `reset` over the drained chunks. -/
def resetChunks : KvMem → List ChunkHandle → Except Panic KvMem
  | m, [] => .ok m
  | m, h :: hs =>
      match resetChunk m h with
      | .error p => .error p
      | .ok m => resetChunks m hs

/-- `reset`. -/
def reset (m : KvMem) (s : SequenceState) : Except Panic (KvMem × SequenceState) :=
  match resetChunks m s.chunks with
  | .error p => .error p
  | .ok m =>
      .ok (m, { s with chunks := [], seqLen := 0, positions := [], kvVersion := s.kvVersion + 1 })

/-- `free_quant_slots`: the quantized slots go back to their allocator, in order. -/
def freeQuantSlots : PageAllocator → List ℕ → Except Panic PageAllocator
  | a, [] => .ok a
  | a, slot :: rest =>
      match a.free slot with
      | .error p => .error p
      | .ok a => freeQuantSlots a rest

end SequenceState

end Braidinfer.PagedKv
