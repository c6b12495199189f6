/-
The KV bookkeeping of the two paged-prefill compilers (`megakernel/megakernel_compile.rs`,
`compile_prefill_paged_persistent` and `compile_prefill_segment_paged`).

The dense compiler appends its tokens itself, enters every chunk of the sequence in the
prefill page table and writes one position triple per token of the slab.  The segment
compiler, used for MoE models, runs after the tokens were appended and writes the triples of
all tokens of the sequence so far.
-/
import Braidinfer.Megakernel.Program

namespace Braidinfer.Megakernel

open Braidinfer.Lib Braidinfer.PagedKv

/-- The host-mapped page and position tables of the paged prefill. -/
structure PrefillTables where
  pageTable : ℕ → ℕ
  positionTable : ℕ → ℤ

/-- The positions of a slab of `n` tokens: `start_pos as i32 + i as i32`. -/
def slabPositions (startPos n : ℕ) : List ℤ := (List.range n).map fun i => toI32 (startPos + i)

/-- `append_token` for every token of a slab. -/
def appendTokens : KvMem → SequenceState → List ℤ → Except Fault (KvMem × SequenceState)
  | m, s, [] => .ok (m, s)
  | m, s, position :: rest =>
      match s.appendToken m position with
      | .error e => .error e
      | .ok (m, s) => appendTokens m s rest

/-- Position triples written one after the other: index and position. -/
def writeTriples (table : ℕ → ℤ) (entries : List (ℕ × ℤ)) : ℕ → ℤ :=
  entries.foldl (fun table e => writeTriple table e.1 e.2) table

/-- The position table after step 3 of `compile_prefill_paged_persistent`. -/
def densePositionTable (table : ℕ → ℤ) (startPos n : ℕ) : ℕ → ℤ :=
  writeTriples table ((List.range n).map fun i => (i, toI32 (startPos + i)))

/-- The position table after `compile_prefill_segment_paged`. -/
def segmentPositionTable (table : ℕ → ℤ) (startPos n : ℕ) : ℕ → ℤ :=
  writeTriples table ((List.range (startPos + n)).map fun i => (i, toI32 i))

/-- The bookkeeping of `compile_prefill_paged_persistent`: append the slab without a host
allocator, then write both tables. -/
def compilePrefillPagedPersistent (heap : ChunkHeap) (seq : SequenceState)
    (allocator : PageAllocator) (tables : PrefillTables) (startPos n : ℕ) :
    Except Fault (ChunkHeap × SequenceState × PageAllocator × PrefillTables) :=
  match appendTokens ⟨heap, allocator, none⟩ seq (slabPositions startPos n) with
  | .error e => .error e
  | .ok (m, seq) =>
      .ok (m.heap, seq, m.vram,
        { pageTable := writeEntries tables.pageTable (chunkPtrs m.heap m.vram seq.chunks)
          positionTable := densePositionTable tables.positionTable startPos n })

/-- The bookkeeping of `compile_prefill_segment_paged`: write both tables. -/
def compilePrefillSegmentPaged (heap : ChunkHeap) (seq : SequenceState)
    (allocator : PageAllocator) (tables : PrefillTables) (startPos n : ℕ) : PrefillTables :=
  { pageTable := writeEntries tables.pageTable (chunkPtrs heap allocator seq.chunks)
    positionTable := segmentPositionTable tables.positionTable startPos n }

end Braidinfer.Megakernel
