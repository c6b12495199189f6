/-
Megakernel instructions (`megakernel/instructions.rs`) and the configuration the attention
compiler reads.

An instruction is nineteen 64-bit words behind one structure per opcode; here it is the
structure.  `grid_x`, the number of virtual blocks packed into the first word, is a field of
its own.  Float pointers are a block together with an offset in it (`Ptr`): distinct device
buffers never overlap.  Inside the KV pool the offset is the raw device address, since page
tables hold raw addresses.
-/
import Mathlib.Tactic.Common
import Braidinfer.PagedKv.Alloc

namespace Braidinfer.Megakernel

/-- The activation buffers an attention layer uses. -/
inductive Buf
  | normed | hidden | qGateAttn | kAttn | vAttn | qAttn | gateAttn | attnOut | gatedOut
  | outProj | residual
deriving DecidableEq, Repr

/-- Which set of buffers: the single-token activations, or the prefill buffers. -/
inductive Side
  | act
  | prefill
deriving DecidableEq, Repr

/-- A device memory block. -/
inductive Block
  | buffer (side : Side) (b : Buf)
  | kvPool
deriving DecidableEq, Repr

/-- A pointer to floats: a block and an offset, in floats for a buffer and in bytes, as a raw
device address, for the KV pool. -/
structure Ptr where
  block : Block
  off : ℕ
deriving DecidableEq, Repr

namespace Ptr

/-- The start of a buffer. -/
def buf (side : Side) (b : Buf) : Ptr := ⟨.buffer side b, 0⟩

/-- `ptr.add(n)` on a buffer pointer. -/
def add (p : Ptr) (n : ℕ) : Ptr := { p with off := p.off + n }

/-- A raw address in the KV pool; address `0` is the null pointer. -/
def pool (addr : ℕ) : Ptr := ⟨.kvPool, addr⟩

end Ptr

/-- The weights of an attention layer. -/
inductive WeightName
  | inputNorm | qGate | k | v | o | qNorm | kNorm
deriving DecidableEq, Repr

/-- A weight: the attention layer it belongs to and its name. -/
structure Weight where
  layer : ℕ
  name : WeightName
deriving DecidableEq, Repr

/-- `D2dCopyInst`. -/
structure D2dCopyInst where
  gridX : ℕ
  dst : Ptr
  src : Ptr
  nElems : ℕ

/-- `RmsNormInst`. -/
structure RmsNormInst where
  gridX : ℕ
  output : Ptr
  input : Ptr
  weight : Weight
  dim : ℕ

/-- `LinearProjInst`, one instruction for all `batch` tokens. -/
structure LinearProjInst where
  gridX : ℕ
  output : Ptr
  weight : Weight
  input : Ptr
  outDim : ℕ
  inDim : ℕ
  batch : ℕ

/-- `DeinterleaveInst`. -/
structure DeinterleaveInst where
  gridX : ℕ
  dstQ : Ptr
  dstGate : Ptr
  src : Ptr
  numHeads : ℕ
  headDim : ℕ
  batch : ℕ

/-- `QkNormInst`. -/
structure QkNormInst where
  gridX : ℕ
  q : Ptr
  k : Ptr
  qNorm : Weight
  kNorm : Weight
  nqh : ℕ
  nkh : ℕ
  hd : ℕ
  batch : ℕ

/-- `MropeInst`; `posIds` names the set of buffers whose `position_ids` it reads. -/
structure MropeInst where
  gridX : ℕ
  q : Ptr
  k : Ptr
  posIds : Side
  nqh : ℕ
  nkh : ℕ
  hd : ℕ
  rd : ℕ
  sections : ℕ × ℕ × ℕ
  batch : ℕ

/-- `KvWritePagedBatchInst`. -/
structure KvWritePagedBatchInst where
  gridX : ℕ
  src : Ptr
  pageTable : ℕ
  layerKvOffset : ℕ
  startPos : ℕ
  nTokens : ℕ
  localKvHeadStart : ℕ
  localNkh : ℕ
  headDim : ℕ
  chunkTokens : ℕ

/-- `AttnPagedInst`. -/
structure AttnPagedInst where
  gridX : ℕ
  output : Ptr
  q : Ptr
  pageTable : ℕ
  posTable : ℕ
  nqh : ℕ
  nkh : ℕ
  hd : ℕ
  seqLen : ℕ
  chunkTokens : ℕ
  rd : ℕ
  layerKOffset : ℕ
  layerVOffset : ℕ
  partialState : ℕ
  mropeSections : BitVec 64
  kNorm : Option Weight
  epsBits : ℕ
  localQHeadStart : ℕ
  localNqh : ℕ

/-- `AttnPagedQInst`. -/
structure AttnPagedQInst where
  gridX : ℕ
  scratch : ℕ
  q : Ptr
  quantPageTable : ℕ
  posTable : ℕ
  nqh : ℕ
  nkh : ℕ
  hd : ℕ
  quantSeqLen : ℕ
  chunkTokens : ℕ
  rd : ℕ
  kNorm : Option Weight
  localQHeadStart : ℕ
  localNqh : ℕ

/-- `OutputGateInst`. -/
structure OutputGateInst where
  gridX : ℕ
  output : Ptr
  attnOut : Ptr
  gate : Ptr
  size : ℕ

/-- `ResidualAddInst`. -/
structure ResidualAddInst where
  gridX : ℕ
  output : Ptr
  a : Ptr
  b : Ptr
  size : ℕ

/-- An instruction.  `embedding` keeps the field that is patched; `other` stands for the
instructions of the layers without attention, the FFNs and the head, which no function
modelled here patches. -/
inductive Inst
  | embedding (tokenId : ℕ)
  | rmsNorm (i : RmsNormInst)
  | linearProj (i : LinearProjInst)
  | d2dCopy (i : D2dCopyInst)
  | deinterleave (i : DeinterleaveInst)
  | qkNorm (i : QkNormInst)
  | mrope (i : MropeInst)
  | kvWritePagedBatch (i : KvWritePagedBatchInst)
  | attnPagedQ (i : AttnPagedQInst)
  | attnPaged (i : AttnPagedInst)
  | outputGate (i : OutputGateInst)
  | residualAdd (i : ResidualAddInst)
  | other (opcode : ℕ)

/-- The fields of `ModelConfig` that the attention compiler reads. -/
structure AttnConfig where
  hiddenSize : ℕ
  numQHeads : ℕ
  numKvHeads : ℕ
  headDim : ℕ
  ropeDim : ℕ
  hasOutputGate : Bool
  hasQkNorm : Bool
  mropeSections : ℕ × ℕ × ℕ
  /-- The bits of the `f32`. -/
  rmsNormEps : UInt32

/-- `div_ceil`. -/
def divCeil (a b : ℕ) : ℕ := (a + b - 1) / b

end Braidinfer.Megakernel
