/-
The paged decode program and its per-step patching (`megakernel/megakernel_compile.rs`,
`compile_inner` for `paged`, and `megakernel/megakernel_run.rs`).

The program is compiled once and patched in place before every decode step:
`updateStepPagedNoUpload` writes the token, its position, the KV-write destinations, the
attention instructions and, if the chunk count changed, the page table; `postStepPaged`
quantizes a chunk that was just sealed.  The two host-mapped tables and the quantized page
table are functions from indices to entries, zero where nothing was written.
-/
import Braidinfer.Lib.Patch
import Braidinfer.Megakernel.Attention
import Braidinfer.PagedKv.Sequence

namespace Braidinfer.Megakernel

open Braidinfer.Lib Braidinfer.PagedKv

/-- `x as i32` for an unsigned `x`. -/
def toI32 (n : ℕ) : ℤ := Int.bmod n (2 ^ 32)

/-- `PagedKvState`. -/
structure PagedKvState where
  pageTablePtr : ℕ
  positionTablePtr : ℕ
  pageTable : ℕ → ℕ
  positionTable : ℕ → ℤ
  attnPagedInstIndices : List ℕ
  attnQuantInstIndices : List ℕ
  lastPageTableLen : ℕ
  pageTableDirty : Bool
  kvStridePaged : ℕ

/-- `QuantizedKvState`. -/
structure QuantizedKvState where
  quantScratch : ℕ
  quantPageTablePtr : ℕ
  quantPageTable : ℕ → ℕ
  lastQuantPageTableLen : ℕ

/-- `MegakernelProgram`, the fields of a paged program that its patching uses. -/
structure MegakernelProgram where
  instructions : List Inst
  embeddingInstIdx : ℕ
  maxSeqLen : ℕ
  headDim : ℕ
  kvWriteIndices : List (List (ℕ × ℕ))
  pagedKv : PagedKvState
  quantizedKv : Bool
  quantKv : Option QuantizedKvState

/-! ### Compilation -/

/-- What the compiler emits for one mixer or FFN: an attention layer, or other code. -/
inductive LayerCode
  | attention
  | other (opcodes : List ℕ)

/-- The loop of `compile_inner` over the layers, counting the attention layers. -/
def emitLayers (cfg : AttnConfig) : List LayerCode → ℕ → Emitted → Emitted
  | [], _, e => e
  | .attention :: rest, count, e =>
      emitLayers cfg rest (count + 1) (emitAttentionLayer cfg count .act 1 (.pagedKv count) e)
  | .other opcodes :: rest, count, e => emitLayers cfg rest count (e.push (opcodes.map .other))

/-- `compile_paged`: embedding, layers, and `tail` for the final norm, the head and HALT. -/
def compilePaged (cfg : AttnConfig) (maxSeqLen : ℕ) (layers : List LayerCode)
    (tail : List ℕ) : MegakernelProgram :=
  let e := emitLayers cfg layers 0 ⟨[.embedding 0], [], [], [], []⟩
  { instructions := e.instructions ++ tail.map .other
    embeddingInstIdx := 0
    maxSeqLen
    headDim := cfg.headDim
    kvWriteIndices := e.kvWriteIndices
    pagedKv :=
      { pageTablePtr := 0, positionTablePtr := 0, pageTable := fun _ => 0,
        positionTable := fun _ => 0, attnPagedInstIndices := e.attnPagedIndices,
        attnQuantInstIndices := e.attnQuantIndices, lastPageTableLen := 0,
        pageTableDirty := false, kvStridePaged := cfg.numKvHeads * cfg.headDim }
    quantizedKv := false
    quantKv := none }

/-- `init_paged_buffers`: the two host-mapped tables, zero-filled. -/
def initPagedBuffers (p : MegakernelProgram) (pageTablePtr positionTablePtr : ℕ) :
    MegakernelProgram :=
  { p with pagedKv := { p.pagedKv with
      pageTablePtr, positionTablePtr, pageTable := fun _ => 0, positionTable := fun _ => 0 } }

/-! ### Patching -/

/-- Write through an `EmbeddingInst` pointer. -/
def patchToken (tokenId : ℕ) : Inst → Inst
  | .embedding _ => .embedding tokenId
  | i => i

/-- Write through a `D2dCopyInst` pointer. -/
def patchDst (dst : Ptr) : Inst → Inst
  | .d2dCopy i => .d2dCopy { i with dst }
  | i => i

/-- Write through an `AttnPagedInst` pointer. -/
def patchAttn (f : AttnPagedInst → AttnPagedInst) : Inst → Inst
  | .attnPaged i => .attnPaged (f i)
  | i => i

/-- Write through an `AttnPagedQInst` pointer. -/
def patchAttnQ (f : AttnPagedQInst → AttnPagedQInst) : Inst → Inst
  | .attnPagedQ i => .attnPagedQ (f i)
  | i => i

/-- The scratch region of an attention layer. -/
def scratchPtr (cfg : AttnConfig) (scratchBase layerI : ℕ) : ℕ :=
  scratchBase + layerI * (cfg.numQHeads * (2 + cfg.headDim)) * f32Bytes

/-- `enable_quantized_kv`, its scratch buffer and quantized page table having been allocated
at the given addresses. -/
def enableQuantizedKv (p : MegakernelProgram) (cfg : AttnConfig)
    (scratchBase quantPageTablePtr : ℕ) : MegakernelProgram :=
  let is := patchEnum
    (fun layerI => patchAttnQ fun i => { i with scratch := scratchPtr cfg scratchBase layerI })
    p.pagedKv.attnQuantInstIndices p.instructions
  let is := patchEnum
    (fun layerI => patchAttn fun i => { i with partialState := scratchPtr cfg scratchBase layerI })
    p.pagedKv.attnPagedInstIndices is
  { p with
    instructions := is
    quantKv := some { quantScratch := scratchBase, quantPageTablePtr,
                      quantPageTable := fun _ => 0, lastQuantPageTableLen := 0 }
    quantizedKv := true }

/-- The panics of a decode step. -/
inductive StepPanic
  | position (position maxSeqLen : ℕ)
  | positionMissing
  | noAttention
  | quantKvMissing
  | noChunk
deriving DecidableEq, Repr

/-- The message of a panic of a decode step. -/
def StepPanic.message : StepPanic → String
  | .position pos maxSeqLen =>
      "position " ++ toString pos ++ " >= max_seq_len " ++ toString maxSeqLen
  | .positionMissing => "position missing for appended paged token"
  | .noAttention => "index out of bounds: the len is 0 but the index is 0"
  | .quantKvMissing => "quant_kv not initialized"
  | .noChunk => "called Option::unwrap() on a None value"

/-- Write the triple of one token into a position table. -/
def writeTriple (table : ℕ → ℤ) (i : ℕ) (pos : ℤ) : ℕ → ℤ := fun j =>
  if j = i * 3 ∨ j = i * 3 + 1 ∨ j = i * 3 + 2 then pos else table j

/-- Step 2: the position of the appended token. -/
def writePosition (p : MegakernelProgram) (seq : SequenceState) :
    Except StepPanic MegakernelProgram :=
  let seqTokenIdx := seq.seqLen - 1
  match seq.positions[seqTokenIdx]? with
  | none => .error .positionMissing
  | some pos =>
      .ok { p with pagedKv := { p.pagedKv with
        positionTable := writeTriple p.pagedKv.positionTable seqTokenIdx pos } }

/-- The destinations of the K copy and of the V copy of one head in the chunk at
`chunkBase`. -/
def kvDst (kvStride hd chunkBase layerI h chunkOffset : ℕ) : ℕ × ℕ :=
  let layerKOffset := layerI * 2 * chunkTokens * kvStride * f32Bytes
  let layerVOffset := layerKOffset + chunkTokens * kvStride * f32Bytes
  let headByteOff := (h * (chunkTokens * hd) + chunkOffset * hd) * f32Bytes
  (chunkBase + layerKOffset + headByteOff, chunkBase + layerVOffset + headByteOff)

/-- Step 3: the KV-write destinations. -/
def patchKvWrites (p : MegakernelProgram) (heap : ChunkHeap) (seq : SequenceState)
    (allocator : PageAllocator) : MegakernelProgram :=
  let chunkOffset := seq.currentChunkOffset heap - 1
  let chunkSlot := match seq.chunks.getLast? with
    | none => 0
    | some last => slotIndex heap last
  let chunkBase := allocator.slotPtr chunkSlot
  let patchHead := fun (layerI : ℕ) (is : List Inst) (entry : (ℕ × ℕ) × ℕ) =>
    let dst := kvDst p.pagedKv.kvStridePaged p.headDim chunkBase layerI entry.2 chunkOffset
    let is := is.modify entry.1.1 (patchDst (.pool dst.1))
    is.modify entry.1.2 (patchDst (.pool dst.2))
  let patchLayer := fun (is : List Inst) (entry : List (ℕ × ℕ) × ℕ) =>
    entry.1.zipIdx.foldl (patchHead entry.2) is
  { p with instructions := p.kvWriteIndices.zipIdx.foldl patchLayer p.instructions }

/-- Step 4, first branch: the sealed chunks go to the quantized instruction, the last chunk
to the f32 one.  `partial_state` is left as it is. -/
def patchAttnSplit (p : MegakernelProgram) (q : QuantizedKvState) (nqh numSealed seqLen : ℕ) :
    MegakernelProgram :=
  let sealedTokens := numSealed * chunkTokens
  let is := patchAll (patchAttnQ fun i =>
      { i with gridX := nqh, quantPageTable := q.quantPageTablePtr,
               posTable := p.pagedKv.positionTablePtr, quantSeqLen := sealedTokens })
    p.pagedKv.attnQuantInstIndices p.instructions
  let is := patchAll (patchAttn fun i =>
      { i with pageTable := p.pagedKv.pageTablePtr + numSealed * 8,
               posTable := p.pagedKv.positionTablePtr + numSealed * chunkTokens * 3 * 4,
               seqLen := seqLen - sealedTokens })
    p.pagedKv.attnPagedInstIndices is
  { p with instructions := is }

/-- Step 4, second branch: everything goes to the f32 instruction. -/
def patchAttnWhole (p : MegakernelProgram) (seqLen : ℕ) : MegakernelProgram :=
  let is := patchAll (patchAttnQ fun i => { i with gridX := 0 })
    p.pagedKv.attnQuantInstIndices p.instructions
  let is := patchAll (patchAttn fun i =>
      { i with pageTable := p.pagedKv.pageTablePtr, posTable := p.pagedKv.positionTablePtr,
               seqLen, partialState := 0 })
    p.pagedKv.attnPagedInstIndices is
  { p with instructions := is }

/-- Step 4: the attention instructions.  The head count of the quantized instruction is read
off the first f32 one. -/
def patchAttention (p : MegakernelProgram) (seq : SequenceState) :
    Except StepPanic MegakernelProgram :=
  if p.quantizedKv ∧ 1 < seq.chunks.length then
    match p.pagedKv.attnPagedInstIndices.head?.bind fun idx => p.instructions[idx]? with
    | some (.attnPaged i) =>
        match p.quantKv with
        | none => .error .quantKvMissing
        | some q => .ok (patchAttnSplit p q i.nqh (seq.chunks.length - 1) seq.seqLen)
    | _ => .error .noAttention
  else .ok (patchAttnWhole p seq.seqLen)

/-- `bump_generation` on every chunk. -/
def bumpGenerations (heap : ChunkHeap) (chunks : List ChunkHandle) : ChunkHeap :=
  chunks.foldl (fun heap h => heap.update h fun c => { c with generation := c.generation + 1 })
    heap

/-- The entries `slot_ptr(slot_index)` of the chunks of a sequence. -/
def chunkPtrs (heap : ChunkHeap) (allocator : PageAllocator) (chunks : List ChunkHandle) :
    List ℕ :=
  chunks.map fun h => allocator.slotPtr (slotIndex heap h)

/-- Write a list of entries at the start of a table. -/
def writeEntries (table : ℕ → ℕ) (entries : List ℕ) : ℕ → ℕ := fun i =>
  entries.getD i (table i)

/-- Whether step 5 rewrites the page table. -/
def needsRewrite (p : MegakernelProgram) (seq : SequenceState) : Prop :=
  p.pagedKv.pageTableDirty = true ∨ seq.chunks.length ≠ p.pagedKv.lastPageTableLen

instance (p : MegakernelProgram) (seq : SequenceState) : Decidable (needsRewrite p seq) :=
  inferInstanceAs (Decidable (_ ∨ _))

/-- Step 5: the page table, if the chunk count changed or it is marked dirty. -/
def writePageTable (p : MegakernelProgram) (heap : ChunkHeap) (seq : SequenceState)
    (allocator : PageAllocator) : ChunkHeap × MegakernelProgram :=
  if needsRewrite p seq then
    (bumpGenerations heap seq.chunks,
      { p with pagedKv := { p.pagedKv with
          pageTable := writeEntries p.pagedKv.pageTable (chunkPtrs heap allocator seq.chunks)
          lastPageTableLen := seq.chunks.length
          pageTableDirty := false } })
  else (heap, p)

/-- `update_step_paged_no_upload`. -/
def updateStepPagedNoUpload (p : MegakernelProgram) (tokenId position : ℕ) (heap : ChunkHeap)
    (seq : SequenceState) (allocator : PageAllocator) :
    Except StepPanic (ChunkHeap × MegakernelProgram) :=
  if p.maxSeqLen ≤ position then .error (.position position p.maxSeqLen)
  else
    -- step 1: the token
    let is := p.instructions.modify p.embeddingInstIdx (patchToken tokenId)
    let p := { p with instructions := is }
    match writePosition p seq with
    | .error e => .error e
    | .ok p =>
        let p := patchKvWrites p heap seq allocator
        match patchAttention p seq with
        | .error e => .error e
        | .ok p => .ok (writePageTable p heap seq allocator)

/-! ### Sealing a chunk -/

/-- What `OP_KV_QUANTIZE` left in the quantized pool: for the slot at an address, the chunk
it was filled from and the f32 address it was read at. -/
abbrev QuantMemory := ℕ → Option (ChunkHandle × ℕ)

/-- How a decode step fails. -/
inductive StepFault
  | hip (code : ℕ)
  | panic (p : StepPanic)
deriving DecidableEq, Repr

/-- Enter a quantized slot in the quantized page table. -/
def QuantizedKvState.enter (q : QuantizedKvState) (numSealed qPtr : ℕ) : QuantizedKvState :=
  { q with quantPageTable := Function.update q.quantPageTable (numSealed - 1) qPtr,
           lastQuantPageTableLen := numSealed }

/-- The state `post_step_paged` works on. -/
structure SealState where
  prog : MegakernelProgram
  seq : SequenceState
  quant : Option PageAllocator
  filled : QuantMemory

/-- `post_step_paged`: a chunk that was just sealed is quantized into a fresh slot, which is
entered in the quantized page table. -/
def postStepPaged (s : SealState) (position : ℕ) (heap : ChunkHeap)
    (allocator : PageAllocator) : Except StepFault SealState :=
  if (position + 1) % chunkTokens = 0 ∧ s.prog.quantizedKv then
    match s.quant with
    | none => .ok s
    | some qAlloc =>
        match s.seq.chunks.getLast? with
        | none => .error (.panic .noChunk)
        | some sealed =>
            match qAlloc.alloc with
            | none => .error (.hip hipErrorOutOfMemory)
            | some (qSlot, qPtr, qAlloc) =>
                match s.prog.quantKv with
                | none => .error (.panic .quantKvMissing)
                | some quantKv =>
                    let f32Ptr := allocator.slotPtr (slotIndex heap sealed)
                    let quantKv := quantKv.enter s.seq.chunks.length qPtr
                    .ok { prog := { s.prog with quantKv := some quantKv }
                          seq := { s.seq with quantSlots := s.seq.quantSlots ++ [qSlot] }
                          quant := some qAlloc
                          filled := Function.update s.filled qPtr (some (sealed, f32Ptr)) }
  else .ok s

end Braidinfer.Megakernel
