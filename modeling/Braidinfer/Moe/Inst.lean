/-
Instructions of the mixture-of-experts layers.

Pointers are a buffer and an offset in elements; the weights of a layer are named, not stored.
Floats that an instruction carries as bits (`routed_scaling_factor`) stay bits.

* `Buf`, `Ptr`: the buffers of `ActivationBuffers` and `MoeP2pContext`;
* `Inst`: the instructions that `compile_moe.rs`, `compile_inner_p2p` and `moe_forward.rs` emit;
  every other instruction of the program is `Inst.other`;
* `MoeLayer`: what a MoE layer's configuration and weights decide about its code.
-/
import Mathlib.Data.Nat.Notation
import Mathlib.Tactic.Common

namespace Braidinfer.Moe

/-! ### Buffers and pointers -/

/-- A device or host buffer. -/
inductive Buf
  | hidden | residual | normed | normedStage
  | moeScores | moeExpertIds | moeExpertWeights
  | moeExpertGate | moeExpertUp | moeExpertAct | moeExpertOut | moeLatent
  | ffnDown | ffnDownStage
  | activationStagingVram | routingIdsStagingVram | routingWeightsStagingVram
  | outputSlots | gpu0ZeroBuffer
  | localOutputUc (worker : ℕ)
  | moeActSentinel (layer : ℕ)
  | moeResultSentinel (layer worker : ℕ)
deriving DecidableEq, Repr

/-- A pointer into a buffer, in elements. -/
structure Ptr where
  buf : Buf
  off : ℕ
deriving DecidableEq, Repr

/-- `ptr.add(n)` -/
def Ptr.add (p : Ptr) (n : ℕ) : Ptr := { p with off := p.off + n }

/-- `buf.as_ptr()` -/
def Buf.ptr (b : Buf) : Ptr := ⟨b, 0⟩

@[simp] lemma Ptr.buf_add (p : Ptr) (n : ℕ) : (p.add n).buf = p.buf := rfl

@[simp] lemma Ptr.off_add (p : Ptr) (n : ℕ) : (p.add n).off = p.off + n := rfl

@[simp] lemma Ptr.add_zero (p : Ptr) : p.add 0 = p := rfl

@[simp] lemma Buf.buf_ptr (b : Buf) : b.ptr.buf = b := rfl

@[simp] lemma Buf.off_ptr (b : Buf) : b.ptr.off = 0 := rfl

/-! ### Layers -/

/-- `GateType`; scaling factors are float bits. -/
inductive GateType
  | softmax
  | normTopK (routedScalingFactor : ℕ)
  | sigmoid (routedScalingFactor : ℕ)
deriving DecidableEq, Repr

/-- `(gate_mode, rsf)`: `1.0f32` has the bits `0x3F800000`. -/
def GateType.modeAndFactor : GateType → ℕ × ℕ
  | .softmax => (0, 0x3F800000)
  | .normTopK rsf => (1, rsf)
  | .sigmoid rsf => (2, rsf)

/-- A MoE layer: `FfnType::MoE` of the configuration and the parts `MoeWeights` has. -/
structure MoeLayer where
  numExperts : ℕ
  numActive : ℕ
  gateType : GateType
  expertIntermediateSize : ℕ
  sharedIntermediateSize : ℕ
  hasGateProj : Bool
  sharedExpert : Bool
  sharedExpertGate : Bool
  scoreCorrectionBias : Bool
  fc1LatentProj : Bool
  fc2LatentProj : Bool
  /-- `dist.gate_up_in_dim`: the input dimension of the expert tensors. -/
  gateUpInDim : ℕ
deriving DecidableEq, Repr

/-- `se_is` -/
def MoeLayer.seIs (moe : MoeLayer) : ℕ :=
  if moe.sharedIntermediateSize > 0 then moe.sharedIntermediateSize
  else moe.expertIntermediateSize

/-- The weights a MoE layer's instructions name. -/
inductive WeightName
  | norm | gate | fc1LatentProj | fc2LatentProj
  | seGateProj | seUpProj | seDownProj | sharedExpertGate
deriving DecidableEq, Repr

/-- A weight tensor of a layer. -/
structure Weight where
  layer : ℕ
  name : WeightName
deriving DecidableEq, Repr

/-! ### Instructions -/

/-- `D2dCopyInst`; the wait words are zero without `YEF52_GPU_BP`. -/
structure D2dCopy where
  dst : Ptr
  src : Ptr
  nElems : ℕ
  signalPtr : Option Ptr
  signalSeq : ℕ
deriving DecidableEq, Repr

/-- `D2dCopyInst::new` -/
def D2dCopy.new (dst src : Ptr) (nElems : ℕ) : D2dCopy := ⟨dst, src, nElems, none, 0⟩

/-- `D2dCopyInst::with_signal` -/
def D2dCopy.withSignal (c : D2dCopy) (sentinel : Ptr) (seq : ℕ) : D2dCopy :=
  { c with signalPtr := some sentinel, signalSeq := seq }

/-- `MoeGateInst` -/
structure MoeGate where
  scores : Ptr
  expertIds : Ptr
  expertWeights : Ptr
  ne : ℕ
  k : ℕ
  gateMode : ℕ
  rsf : ℕ
  /-- the layer whose correction bias is added, if it has one -/
  bias : Option ℕ
deriving DecidableEq, Repr

/-- `MoeFfnInst` -/
structure MoeFfn where
  expertIds : Ptr
  expertWeights : Ptr
  normed : Ptr
  ffnDown : Ptr
  /-- the layer whose packed expert tensors are `gate_up_data` and `down_data` -/
  experts : ℕ
  gateUpExpertStride : ℕ
  downExpertStride : ℕ
  k : ℕ
  hsEis : ℕ
  flags : ℕ
  expertGate : Ptr
  expertUp : Ptr
  expertAct : Ptr
  expertOut : Ptr
  gateUpRowStride : ℕ
deriving DecidableEq, Repr

/-- `MoeResultDesc` -/
structure MoeResultDesc where
  resultSentinel : Ptr
  localOutputUc : Ptr
deriving DecidableEq, Repr

/-- The words of `MoeDispatchInst` that `OP_MOE_DISPATCH_POST` reads. -/
structure MoeDispatchPost where
  outputSlots : Ptr
  finalOutput : Ptr
  seqCounter : ℕ
  hs : ℕ
  numGpus : ℕ
  gateUpInDim : ℕ
  /-- the descriptor array `result_descs` points to; `none` is the null pointer -/
  resultDescs : Option (List MoeResultDesc)
deriving DecidableEq, Repr

/-- An instruction of the program. -/
inductive Inst
  | d2dCopy (c : D2dCopy)
  | rmsNorm (dst src : Ptr) (w : Weight) (n : ℕ)
  | linearProj (dst : Ptr) (w : Weight) (src : Ptr) (outDim inDim : ℕ)
  | moeGate (g : MoeGate)
  | moeFfn (f : MoeFfn)
  | siluMul (dst gate up : Ptr) (n : ℕ)
  | reluSq (dst src : Ptr) (n : ℕ)
  | sigmoidWeightedAdd (dst scores src : Ptr) (n : ℕ)
  | residualAdd (dst a b : Ptr) (n : ℕ)
  | barrier (layer : ℕ)
  | moeDispatchPost (p : MoeDispatchPost)
  | other (words : ℕ)
deriving DecidableEq, Repr

/-- The copy an instruction is, if it is one. -/
def Inst.asCopy : Inst → Option D2dCopy
  | .d2dCopy c => some c
  | _ => none

/-- The copies of a batch into a buffer, in order. -/
def copiesInto (b : Buf) (insts : List Inst) : List D2dCopy :=
  (insts.filterMap Inst.asCopy).filter (·.dst.buf = b)

@[simp] lemma copiesInto_nil (b : Buf) : copiesInto b [] = [] := rfl

lemma copiesInto_append (b : Buf) (insts insts' : List Inst) :
    copiesInto b (insts ++ insts') = copiesInto b insts ++ copiesInto b insts' := by
  simp [copiesInto]

end Braidinfer.Moe
