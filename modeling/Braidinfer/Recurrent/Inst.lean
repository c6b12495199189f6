/-
Instructions of the layers without attention (`megakernel/instructions.rs`), and the memory that
their kernels (`kernels/megakernel_ops.hip`) work on.

Activations and recurrent states are blocks of device memory; read-only vectors (norms, convolution
weights, biases) are what their pointers point to, widened to `float`; the matrices of the linear
projections are the bytes of a `LinearWeight`.  `grid_x` is a field of its own.

* `Block`, `Mem`: the buffers of `ActivationBuffers` and `PrefillBuffers`, and the states of the
  recurrent layers;
* `Inst`: the instructions;
* `FloatFns`: the functions of the device library that the kernels call.
-/
import Mathlib
import Braidinfer.Lib.DeviceMem
import Braidinfer.Moe.ExpertWeights

namespace Braidinfer.Recurrent

open Braidinfer.Lib
open Braidinfer.Moe (LinearWeight WeightFormat)

/-! ### Memory -/

/-- The buffers of `ActivationBuffers` and of `PrefillBuffers` that these layers use. -/
inductive Buf
  | hidden | normed | residual | qkv | aProj | bProj | zProj
  | qGdn | kGdn | vGdn | gateGdn | recurrentOut | normedGated | outProj
  | mamba2InProj | mamba2ConvOut | mamba2SsmOut
  | ffnGate | ffnUp | ffnAct | ffnDown
  | ffnGateScratch | ffnUpScratch | ffnDownScratch
  | logits
deriving DecidableEq, Repr

/-- A block of device memory: a buffer of the single-token activations or of the prefill, and the
states of the recurrent layers (`gdn_conv_states`, `gdn_states`, `mamba2_states`). -/
inductive Block
  | act (b : Buf)
  | prefill (b : Buf)
  | gdnConv (i : ℕ)
  | gdnRecurrent (i : ℕ)
  | mamba2Conv (i : ℕ)
  | mamba2Ssm (i : ℕ)
deriving DecidableEq, Repr

/-- A pointer to floats. -/
abbrev FPtr := DevPtr Block

/-- Device memory. -/
abbrev Mem (V : Type*) := RowMem Block V

/-- `act.b.as_ptr()` -/
def act (b : Buf) : FPtr := ⟨.act b, 0⟩

/-- `bufs.b.as_ptr()` -/
def prefill (b : Buf) : FPtr := ⟨.prefill b, 0⟩

@[simp] lemma act_block (b : Buf) : (act b).block = .act b := rfl

@[simp] lemma prefill_block (b : Buf) : (prefill b).block = .prefill b := rfl

/-- `blockDim.x` -/
def blockDim : ℕ := 256

lemma blockDim_pos : 0 < blockDim := Nat.zero_lt_succ _

/-- The pointer is aligned to 16 bytes; blocks are. -/
def aligned (p : FPtr) : Bool := p.off % 4 = 0

/-! ### Operations -/

/-- Functions of the device library. -/
class FloatFns (V : Type*) where
  expf : V → V
  logf : V → V
  log1pf : V → V
  rsqrtf : V → V

export FloatFns (expf logf log1pf rsqrtf)

/-- The functions, exactly. -/
noncomputable instance instFloatFnsReal : FloatFns ℝ where
  expf := Real.exp
  logf := Real.log
  log1pf x := Real.log (1 + x)
  rsqrtf x := (Real.sqrt x)⁻¹

section Ops

variable {V : Type*}

/-- `1.0f / (1.0f + expf(-x))` -/
def sigmoid [One V] [Add V] [Neg V] [Div V] [FloatFns V] (x : V) : V := 1 / (1 + expf (-x))

/-- `x / (1.0f + expf(-x))` -/
def silu [One V] [Add V] [Neg V] [Div V] [FloatFns V] (x : V) : V := x / (1 + expf (-x))

end Ops

/-! ### Instructions -/

/-- `linear_proj_opcode_ptr`'s opcodes, and `OP_LM_HEAD`. -/
inductive LinearOp
  | linearProj | linearProjRnf4 | linearProjPcg32 | lmHead
deriving DecidableEq, Repr

/-- `RmsNormInst`, of `OP_RMSNORM` (`onePlusW`) or `OP_RMSNORM_WX`. -/
structure RmsNormInst (V : Type*) where
  onePlusW : Bool
  gridX : ℕ
  output : FPtr
  input : FPtr
  weight : ℕ → V
  dim : ℕ
  eps : V

/-- `LinearProjInst` -/
structure LinearProjInst where
  op : LinearOp
  gridX : ℕ
  output : FPtr
  weight : List UInt8
  input : FPtr
  outDim : ℕ
  inDim : ℕ
  batch : ℕ

/-- `LinearProj2xInst` -/
structure LinearProj2xInst where
  outputA : FPtr
  outputB : FPtr
  weightA : List UInt8
  weightB : List UInt8
  input : FPtr
  outDim : ℕ
  inDim : ℕ
  batch : ℕ

/-- `Conv1dInst` -/
structure Conv1dInst (V : Type*) where
  gridX : ℕ
  state : FPtr
  input : FPtr
  weight : ℕ → V
  output : FPtr
  dim : ℕ
  kernelSize : ℕ

/-- `Conv1d3xInst`; `blocksQk` and `blocksV` are packed in `blocks_qk_v`. -/
structure Conv1d3xInst (V : Type*) where
  gridX : ℕ
  qState : FPtr
  qInput : FPtr
  qWeight : ℕ → V
  qOutput : FPtr
  kState : FPtr
  kInput : FPtr
  kWeight : ℕ → V
  kOutput : FPtr
  vState : FPtr
  vInput : FPtr
  vWeight : ℕ → V
  vOutput : FPtr
  qkDim : ℕ
  vDim : ℕ
  kernelSize : ℕ
  blocksQk : ℕ
  blocksV : ℕ

/-- `GdnGateInst` -/
structure GdnGateInst (V : Type*) where
  gridX : ℕ
  output : FPtr
  aProj : FPtr
  aLog : ℕ → V
  dtBias : ℕ → V
  numHeads : ℕ

/-- `GdnRecurInst` -/
structure GdnRecurInst where
  gridX : ℕ
  numHeads : ℕ
  q : FPtr
  k : FPtr
  v : FPtr
  gate : FPtr
  bProj : FPtr
  state : FPtr
  output : FPtr
  kd : ℕ
  vd : ℕ
  gqaGroup : ℕ

/-- `RmsNormGateInst` -/
structure RmsNormGateInst (V : Type*) where
  gridX : ℕ
  output : FPtr
  x : FPtr
  z : FPtr
  weight : ℕ → V
  numHeads : ℕ
  vd : ℕ
  eps : V

/-- `ResidualAddInst` -/
structure ResidualAddInst where
  gridX : ℕ
  output : FPtr
  src : FPtr
  residual : FPtr
  n : ℕ

/-- `ScaleAddInst` -/
structure ScaleAddInst (V : Type*) where
  gridX : ℕ
  output : FPtr
  src : FPtr
  scale : V
  size : ℕ

/-- `D2dCopyInst`, without the words of a wait or a signal, which are zero here. -/
structure D2dCopyInst where
  gridX : ℕ
  dst : FPtr
  src : FPtr
  nElems : ℕ

/-- `SiluMulInst` -/
structure SiluMulInst where
  gridX : ℕ
  output : FPtr
  gate : FPtr
  up : FPtr
  size : ℕ

/-- `Mamba2Conv1dInst` -/
structure Mamba2Conv1dInst (V : Type*) where
  gridX : ℕ
  state : FPtr
  input : FPtr
  weight : ℕ → V
  bias : ℕ → V
  output : FPtr
  convDim : ℕ
  kernelSize : ℕ

/-- `SsmUpdateInst` -/
structure SsmUpdateInst (V : Type*) where
  gridX : ℕ
  state : FPtr
  x : FPtr
  dt : FPtr
  dtBias : ℕ → V
  aLog : ℕ → V
  b : FPtr
  c : FPtr
  dWeight : ℕ → V
  output : FPtr
  nh : ℕ
  hd : ℕ
  sd : ℕ
  ng : ℕ

/-- `Mamba2NormGatedInst` -/
structure Mamba2NormGatedInst (V : Type*) where
  gridX : ℕ
  output : FPtr
  x : FPtr
  z : FPtr
  weight : ℕ → V
  numHeads : ℕ
  valueDim : ℕ
  eps : V

/-- `FfnGateUpInst`, of `OP_FFN_GATE_UP` and its variants for `rnf4` weights and for norms without
`onePlusW`. -/
structure FfnGateUpInst (V : Type*) where
  rnf4 : Bool
  onePlusW : Bool
  gridX : ℕ
  output : FPtr
  hidden : FPtr
  normWeight : ℕ → V
  wGate : List UInt8
  wUp : List UInt8
  hs : ℕ
  intermediate : ℕ
  eps : V
  batch : ℕ

/-- `FfnDownResInst`, of `OP_FFN_DOWN_RES` or `OP_FFN_DOWN_RES_RNF4`. -/
structure FfnDownResInst where
  rnf4 : Bool
  gridX : ℕ
  output : FPtr
  residual : FPtr
  wDown : List UInt8
  ffnAct : FPtr
  hs : ℕ
  intermediate : ℕ
  batch : ℕ

/-- `EmbeddingInst` -/
structure EmbeddingInst (V : Type*) where
  gridX : ℕ
  output : FPtr
  embedWeight : ℕ → V
  tokenId : ℕ
  hs : ℕ

/-- The instructions. -/
inductive Inst (V : Type*)
  | embedding (i : EmbeddingInst V)
  | rmsNorm (i : RmsNormInst V)
  | linearProj (i : LinearProjInst)
  | linearProj2x (i : LinearProj2xInst)
  | conv1d (i : Conv1dInst V)
  | conv1d3x (i : Conv1d3xInst V)
  | gdnGate (i : GdnGateInst V)
  | gdnRecur (i : GdnRecurInst)
  | rmsNormGate (i : RmsNormGateInst V)
  | residualAdd (i : ResidualAddInst)
  | scaleAdd (i : ScaleAddInst V)
  | d2dCopy (i : D2dCopyInst)
  | siluMul (i : SiluMulInst)
  | mamba2Conv1d (i : Mamba2Conv1dInst V)
  | ssmUpdate (i : SsmUpdateInst V)
  | mamba2NormGated (i : Mamba2NormGatedInst V)
  | ffnGateUp (i : FfnGateUpInst V)
  | ffnDownRes (i : FfnDownResInst)
  | halt

end Braidinfer.Recurrent
