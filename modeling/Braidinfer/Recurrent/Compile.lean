/-
The instructions of the layers without attention (`compile_gdn_layer`, `compile_mamba2_layer`,
`compile_ffn`, `compile_ffn_batched` in `megakernel/compile_layers.rs`, with
`megakernel/compile_common.rs`, and the same layers in `compile_prefill_segment_paged` and
`compile_prefill_paged_persistent` of `megakernel/megakernel_compile.rs`).

Decoding works on the buffers of one token.  Prefill has `n` rows: a GDN layer projects all of them
at once, and then takes them one after the other through its recurrence.

* `ModelConfig`, `Model`: the configuration and the weights that these layers read;
* `compileGdnLayer`, `compileMamba2Layer`, `compileFfn`: decoding; `prefillGdnLayer`,
  `prefillMamba2Layer`, `compileFfnBatched`: prefill;
* `decodeInsts`, `prefillInsts`: the instructions of blocks of layers;
* `sound_decodeInsts`, `sound_prefillInsts`: **all instructions are sound** under `Model.Valid`.
-/
import Braidinfer.Engine.MixedPrefill
import Braidinfer.Recurrent.Exec

namespace Braidinfer.Recurrent

open Braidinfer.Lib
open Braidinfer.Megakernel (GdnPartition.blocksPerHead GdnPartition.Geometry
  GdnPartition.UpdatesOnce GdnPartition.gdnRecur)
open Braidinfer.Engine (MixedPrefill.Block)
open Braidinfer.Moe (LinearWeight WeightFormat)

/-! ### Configuration and weights -/

/-- `RecurrentLayerKind::Mamba2`, as far as the compilers read it. -/
structure Mamba2Kind where
  numHeads : ℕ
  headDim : ℕ
  stateDim : ℕ
  convKernel : ℕ
  nGroups : ℕ
  convDim : ℕ

/-- The fields of `ModelConfig` that the layers read; `mamba2` is `recurrent_kind`. -/
structure ModelConfig (V : Type*) where
  hiddenSize : ℕ
  intermediateSize : ℕ
  linearNumHeads : ℕ
  linearNumValueHeads : ℕ
  linearKeyHeadDim : ℕ
  linearValueHeadDim : ℕ
  linearConvKernelDim : ℕ
  mamba2 : Mamba2Kind
  rmsNormEps : V
  rmsNormOnePlusW : Bool
  vocabSize : ℕ

/-- The weights of a dense FFN, with its norm. -/
structure FfnWeights (V : Type*) where
  postNorm : ℕ → V
  wGate : LinearWeight
  wUp : LinearWeight
  wDown : LinearWeight

/-- `GdnLayerWeights` -/
structure GdnLayerWeights (V : Type*) extends FfnWeights V where
  inputNorm : ℕ → V
  wQkv : LinearWeight
  wA : LinearWeight
  wB : LinearWeight
  wZ : LinearWeight
  conv1dWeightQ : ℕ → V
  conv1dWeightK : ℕ → V
  conv1dWeightV : ℕ → V
  aLog : ℕ → V
  dtBias : ℕ → V
  outputNorm : ℕ → V
  wOut : LinearWeight

/-- `Mamba2LayerWeights` -/
structure Mamba2LayerWeights (V : Type*) where
  inputNorm : ℕ → V
  inProj : LinearWeight
  conv1dWeight : ℕ → V
  conv1dBias : ℕ → V
  dtBias : ℕ → V
  aLog : ℕ → V
  d : ℕ → V
  normWeight : ℕ → V
  outProj : LinearWeight

/-- A model: its embeddings, and the weights of its GDN and of its Mamba2 layers, by the index of the
layer, and of the head. -/
structure Model (V : Type*) where
  config : ModelConfig V
  embedWeight : ℕ → V
  gdn : ℕ → GdnLayerWeights V
  mamba2 : ℕ → Mamba2LayerWeights V
  finalNormWeight : ℕ → V
  lmHeadWeight : List UInt8

namespace ModelConfig

variable {V : Type*} (cfg : ModelConfig V)

/-- `q_dim`, `k_dim` -/
def qDim : ℕ := cfg.linearNumHeads * cfg.linearKeyHeadDim

/-- `v_dim` -/
def vDim : ℕ := cfg.linearNumValueHeads * cfg.linearValueHeadDim

/-- `qkv_dim`, `conv_dim` -/
def qkvDim : ℕ := cfg.linearNumHeads * cfg.linearKeyHeadDim * 2 + cfg.vDim

end ModelConfig

namespace Mamba2Kind

variable (kind : Mamba2Kind)

/-- `intermediate` -/
def intermediate : ℕ := kind.numHeads * kind.headDim

/-- `in_proj_size` -/
def inProjSize : ℕ := kind.intermediate + kind.convDim + kind.numHeads

/-- `group_size` -/
def groupSize : ℕ := kind.intermediate / kind.nGroups

end Mamba2Kind

/-! ### Helpers -/

/-- `div_ceil` -/
def divCeil (a b : ℕ) : ℕ := (a + b - 1) / b

/-- `linear_proj_opcode_ptr` -/
def linearProjOpcodePtr : LinearWeight → LinearOp × List UInt8
  | .bf16 data => (.linearProj, data)
  | .packed data .rnf4G128 _ _ => (.linearProjRnf4, data)
  | .packed data .pcG32Q4 _ _ => (.linearProjPcg32, data)
  | .packed data .bf16 _ _ => (.linearProj, data)

/-- `matches!(w, LinearWeight::Bf16(_))` -/
def isBf16 : LinearWeight → Bool
  | .bf16 _ => true
  | .packed .. => false

/-- `matches!(w, LinearWeight::Packed(pw) if pw.format == WeightFormat::Rnf4G128)` -/
def isRnf4 : LinearWeight → Bool
  | .packed _ .rnf4G128 _ _ => true
  | _ => false

section Compile

variable {V : Type*}

/-- A `LinearProjInst` with the opcode of its weight. -/
def linearProj (w : LinearWeight) (output input : FPtr) (outDim inDim batch : ℕ) : Inst V :=
  .linearProj ⟨(linearProjOpcodePtr w).1, outDim, output, (linearProjOpcodePtr w).2, input, outDim,
    inDim, batch⟩

/-- A copy of a row of `hidden_size`. -/
def copyRow (hs : ℕ) (dst src : FPtr) : Inst V := .d2dCopy ⟨divCeil hs 256, dst, src, hs⟩

/-- A norm of `n` rows of `hidden_size`. -/
def normRows (cfg : ModelConfig V) (weight : ℕ → V) (n : ℕ) (output input : FPtr) : Inst V :=
  .rmsNorm ⟨cfg.rmsNormOnePlusW, n, output, input, weight, cfg.hiddenSize, cfg.rmsNormEps⟩

@[simp] lemma writes_linearProj {w : LinearWeight} {output input : FPtr}
    {outDim inDim batch : ℕ} :
    (linearProj (V := V) w output input outDim inDim batch).writes = [output.block] := rfl

@[simp] lemma writes_copyRow {hs : ℕ} {dst src : FPtr} :
    (copyRow (V := V) hs dst src).writes = [dst.block] := rfl

@[simp] lemma writes_normRows {cfg : ModelConfig V} {weight : ℕ → V} {n : ℕ}
    {output input : FPtr} : (normRows cfg weight n output input).writes = [output.block] := rfl

/-! ### GDN layers -/

/-- The gate, the recurrence, the gated norm and the output projection of a token, with its rows of
the projections `a`, `b` and `z`. -/
def gdnTail (cfg : ModelConfig V) (w : GdnLayerWeights V) (idx numBlocks : ℕ)
    (a b z : FPtr) : List (Inst V) :=
  let nh := cfg.linearNumHeads
  let nvh := cfg.linearNumValueHeads
  let kd := cfg.linearKeyHeadDim
  let vd := cfg.linearValueHeadDim
  let gqaGroup := nvh / nh
  [.gdnGate ⟨divCeil nvh 256, act .gateGdn, a, w.aLog, w.dtBias, nvh⟩,
    .gdnRecur ⟨nvh * GdnPartition.blocksPerHead numBlocks nvh, nvh, act .qGdn, act .kGdn,
      act .vGdn, act .gateGdn, b, ⟨.gdnRecurrent idx, 0⟩, act .recurrentOut, kd, vd, gqaGroup⟩,
    .rmsNormGate ⟨nvh, act .normedGated, act .recurrentOut, z, w.outputNorm, nvh, vd,
      cfg.rmsNormEps⟩,
    linearProj w.wOut (act .outProj) (act .normedGated) cfg.hiddenSize (nvh * vd) 0]

/-- `compile_gdn_layer` -/
def compileGdnLayer [One V] (cfg : ModelConfig V) (w : GdnLayerWeights V) (idx numBlocks : ℕ) :
    List (Inst V) :=
  let hs := cfg.hiddenSize
  let nvh := cfg.linearNumValueHeads
  let vd := cfg.linearValueHeadDim
  let ck := cfg.linearConvKernelDim
  let convState : FPtr := ⟨.gdnConv idx, 0⟩
  let qDim := cfg.qDim
  [normRows cfg w.inputNorm 1 (act .normed) (act .hidden),
    linearProj w.wQkv (act .qkv) (act .normed) cfg.qkvDim hs 0] ++
  (if isBf16 w.wA && isBf16 w.wB then
    [.linearProj2x ⟨act .aProj, act .bProj, w.wA.rawData, w.wB.rawData, act .normed, nvh, hs, 0⟩]
  else
    [linearProj w.wA (act .aProj) (act .normed) nvh hs 0,
      linearProj w.wB (act .bProj) (act .normed) nvh hs 0]) ++
  [linearProj w.wZ (act .zProj) (act .normed) (nvh * vd) hs 0,
    .conv1d3x (.new convState ((act .qkv).add 0) w.conv1dWeightQ (act .qGdn)
      (convState.add (qDim * (ck - 1))) ((act .qkv).add qDim) w.conv1dWeightK (act .kGdn)
      (convState.add ((qDim + qDim) * (ck - 1))) ((act .qkv).add (qDim + qDim)) w.conv1dWeightV
      (act .vGdn) qDim cfg.vDim ck)] ++
  gdnTail cfg w idx numBlocks (act .aProj) (act .bProj) (act .zProj) ++
  [.scaleAdd ⟨divCeil hs 256, act .hidden, act .outProj, 1, hs⟩]

/-- A token of a GDN layer in prefill. -/
def prefillGdnToken (cfg : ModelConfig V) (w : GdnLayerWeights V) (idx numBlocks t : ℕ) :
    List (Inst V) :=
  let hs := cfg.hiddenSize
  let nvh := cfg.linearNumValueHeads
  let vd := cfg.linearValueHeadDim
  let ck := cfg.linearConvKernelDim
  let convState : FPtr := ⟨.gdnConv idx, 0⟩
  let qDim := cfg.qDim
  let hidden := (prefill .hidden).add (t * hs)
  [.conv1d ⟨divCeil qDim 256, convState, (prefill .qkv).add (t * cfg.qkvDim), w.conv1dWeightQ,
      act .qGdn, qDim, ck⟩,
    .conv1d ⟨divCeil qDim 256, convState.add (qDim * (ck - 1)),
      (prefill .qkv).add (t * cfg.qkvDim + qDim), w.conv1dWeightK, act .kGdn, qDim, ck⟩,
    .conv1d ⟨divCeil cfg.vDim 256, convState.add ((qDim + qDim) * (ck - 1)),
      (prefill .qkv).add (t * cfg.qkvDim + qDim + qDim), w.conv1dWeightV, act .vGdn, cfg.vDim,
      ck⟩] ++
  gdnTail cfg w idx numBlocks ((prefill .aProj).add (t * nvh)) ((prefill .bProj).add (t * nvh))
    ((prefill .zProj).add (t * nvh * vd)) ++
  [.residualAdd ⟨divCeil hs 256, hidden, act .outProj, hidden, hs⟩]

/-- A GDN layer in prefill. -/
def prefillGdnLayer (cfg : ModelConfig V) (w : GdnLayerWeights V) (idx numBlocks n : ℕ) :
    List (Inst V) :=
  let hs := cfg.hiddenSize
  let nvh := cfg.linearNumValueHeads
  [normRows cfg w.inputNorm n (prefill .normed) (prefill .hidden),
    linearProj w.wQkv (prefill .qkv) (prefill .normed) cfg.qkvDim hs n,
    linearProj w.wA (prefill .aProj) (prefill .normed) nvh hs n,
    linearProj w.wB (prefill .bProj) (prefill .normed) nvh hs n,
    linearProj w.wZ (prefill .zProj) (prefill .normed) (nvh * cfg.linearValueHeadDim) hs n] ++
  (List.range n).flatMap (prefillGdnToken cfg w idx numBlocks)

/-! ### Mamba2 layers -/

/-- `compile_mamba2_layer` -/
def compileMamba2Layer (cfg : ModelConfig V) (w : Mamba2LayerWeights V) (idx : ℕ) :
    List (Inst V) :=
  let kind := cfg.mamba2
  let hs := cfg.hiddenSize
  let nh := kind.numHeads
  let cd := kind.convDim
  let ng := kind.nGroups
  let sd := kind.stateDim
  let intermediate := kind.intermediate
  [normRows cfg w.inputNorm 1 (act .normed) (act .hidden),
    linearProj w.inProj (act .mamba2InProj) (act .normed) kind.inProjSize hs 0,
    .mamba2Conv1d ⟨divCeil cd 256, ⟨.mamba2Conv idx, 0⟩, (act .mamba2InProj).add intermediate,
      w.conv1dWeight, w.conv1dBias, act .mamba2ConvOut, cd, kind.convKernel⟩,
    .ssmUpdate ⟨nh, ⟨.mamba2Ssm idx, 0⟩, act .mamba2ConvOut,
      (act .mamba2InProj).add (intermediate + cd), w.dtBias, w.aLog,
      (act .mamba2ConvOut).add intermediate, (act .mamba2ConvOut).add (intermediate + ng * sd),
      w.d, act .mamba2SsmOut, nh, kind.headDim, sd, ng⟩,
    .mamba2NormGated ⟨ng, act .mamba2ConvOut, act .mamba2SsmOut, act .mamba2InProj, w.normWeight,
      ng, kind.groupSize, cfg.rmsNormEps⟩,
    linearProj w.outProj (act .outProj) (act .mamba2ConvOut) hs intermediate 0,
    copyRow hs (act .residual) (act .hidden),
    .residualAdd ⟨divCeil hs 256, act .hidden, act .outProj, act .residual, hs⟩]

/-- A Mamba2 layer in prefill: the rows go through the buffers of one token. -/
def prefillMamba2Layer (cfg : ModelConfig V) (w : Mamba2LayerWeights V) (idx n : ℕ) :
    List (Inst V) :=
  (List.range n).flatMap fun t =>
    copyRow cfg.hiddenSize (act .hidden) ((prefill .hidden).add (t * cfg.hiddenSize)) ::
      compileMamba2Layer cfg w idx ++
      [copyRow cfg.hiddenSize ((prefill .hidden).add (t * cfg.hiddenSize)) (act .hidden)]

/-! ### Dense FFNs -/

/-- The fused instructions of an FFN: `batch` is zero for one token, and the grids are `rows` times
the sizes. -/
def fusedFfn (cfg : ModelConfig V) (w : FfnWeights V) (rnf4 : Bool) (rows batch : ℕ)
    (ffnAct hidden residual : FPtr) : List (Inst V) :=
  let hs := cfg.hiddenSize
  let is := cfg.intermediateSize
  [.ffnGateUp ⟨rnf4, cfg.rmsNormOnePlusW, is * rows, ffnAct, hidden, w.postNorm, w.wGate.rawData,
      w.wUp.rawData, hs, is, cfg.rmsNormEps, batch⟩,
    .d2dCopy ⟨divCeil (rows * hs) 256, residual, hidden, rows * hs⟩,
    .ffnDownRes ⟨rnf4, hs * rows, hidden, residual, w.wDown.rawData, ffnAct, hs, is, batch⟩]

/-- The unfused instructions of the FFN of a token. -/
def unfusedFfn (cfg : ModelConfig V) (w : FfnWeights V)
    (hidden residual normed gate up ffnAct down : FPtr) : List (Inst V) :=
  let hs := cfg.hiddenSize
  let is := cfg.intermediateSize
  [copyRow hs residual hidden,
    normRows cfg w.postNorm 1 normed hidden,
    linearProj w.wGate gate normed is hs 0,
    linearProj w.wUp up normed is hs 0,
    .siluMul ⟨divCeil is 256, ffnAct, gate, up, is⟩,
    linearProj w.wDown down ffnAct hs is 0,
    .residualAdd ⟨divCeil hs 256, hidden, down, residual, hs⟩]

/-- `all_bf16` -/
def FfnWeights.allBf16 (w : FfnWeights V) : Bool := isBf16 w.wGate && isBf16 w.wUp && isBf16 w.wDown

/-- `all_rnf4` -/
def FfnWeights.allRnf4 (w : FfnWeights V) : Bool := isRnf4 w.wGate && isRnf4 w.wUp && isRnf4 w.wDown

/-- `compile_ffn` -/
def compileFfn (cfg : ModelConfig V) (w : FfnWeights V) : List (Inst V) :=
  if w.allBf16 then fusedFfn cfg w false 1 0 (act .ffnAct) (act .hidden) (act .residual)
  else if w.allRnf4 then fusedFfn cfg w true 1 0 (act .ffnAct) (act .hidden) (act .residual)
  else
    unfusedFfn cfg w (act .hidden) (act .residual) (act .normed) (act .ffnGate) (act .ffnUp)
      (act .ffnAct) (act .ffnDown)

/-- `compile_ffn_batched` of a dense FFN. -/
def compileFfnBatched (cfg : ModelConfig V) (w : FfnWeights V) (n : ℕ) : List (Inst V) :=
  if w.allBf16 then
    fusedFfn cfg w false n n (prefill .ffnAct) (prefill .hidden) (prefill .residual)
  else if w.allRnf4 then
    fusedFfn cfg w true n n (prefill .ffnAct) (prefill .hidden) (prefill .residual)
  else
    (List.range n).flatMap fun t =>
      unfusedFfn cfg w ((prefill .hidden).add (t * cfg.hiddenSize))
        ((prefill .residual).add (t * cfg.hiddenSize))
        ((prefill .normed).add (t * cfg.hiddenSize)) (prefill .ffnGateScratch)
        (prefill .ffnUpScratch) ((prefill .ffnAct).add (t * cfg.intermediateSize))
        (prefill .ffnDownScratch)

/-! ### Blocks -/

/-- The final norm and the head, on the hidden state of a token. -/
def finalInsts (model : Model V) : List (Inst V) :=
  let cfg := model.config
  [copyRow cfg.hiddenSize (act .normed) (act .hidden),
    normRows cfg model.finalNormWeight 1 (act .hidden) (act .normed),
    .linearProj ⟨.lmHead, cfg.vocabSize, act .logits, model.lmHeadWeight, act .hidden,
      cfg.vocabSize, cfg.hiddenSize, 0⟩]

/-- The instructions of a block of `compile_inner`; those of attention layers and MoE FFNs are not
modelled. -/
def decodeBlock [One V] (model : Model V) (numBlocks : ℕ) : MixedPrefill.Block → List (Inst V)
  | .gdn layer idx => compileGdnLayer model.config (model.gdn layer) idx numBlocks
  | .mamba2 layer idx => compileMamba2Layer model.config (model.mamba2 layer) idx
  | .denseFfn layer => compileFfn model.config (model.gdn layer).toFfnWeights
  | _ => []

/-- The instructions of a block of a prefill program, for `n` tokens. -/
def prefillBlock (model : Model V) (numBlocks n : ℕ) : MixedPrefill.Block → List (Inst V)
  | .gdn layer idx => prefillGdnLayer model.config (model.gdn layer) idx numBlocks n
  | .mamba2 layer idx => prefillMamba2Layer model.config (model.mamba2 layer) idx n
  | .denseFfn layer => compileFfnBatched model.config (model.gdn layer).toFfnWeights n
  | _ => []

/-- The instructions of the layers in decoding. -/
def decodeInsts [One V] (model : Model V) (numBlocks : ℕ) (blocks : List MixedPrefill.Block) :
    List (Inst V) :=
  blocks.flatMap (decodeBlock model numBlocks)

/-- The instructions of the layers in prefill, for `n` tokens. -/
def prefillInsts (model : Model V) (numBlocks n : ℕ) (blocks : List MixedPrefill.Block) :
    List (Inst V) :=
  blocks.flatMap (prefillBlock model numBlocks n)

/-- The instructions behind the layers of the last segment: the last row goes to the buffers of one
token. -/
def prefillFinal (model : Model V) (n : ℕ) : List (Inst V) :=
  copyRow model.config.hiddenSize (act .hidden)
    ((prefill .hidden).add ((n - 1) * model.config.hiddenSize)) :: finalInsts model

end Compile

/-! ### Soundness -/

/-- The configuration of the GDN layers: the values' heads are several for each of the keys', on a
grid of `gridDim` the blocks that the compiler assumes update every column once, and the key and the
deltas of a block fit in shared memory behind the two reductions. -/
structure ModelConfig.GdnValid {V : Type*} (cfg : ModelConfig V) (gridDim numBlocks : ℕ) :
    Prop where
  two_le : 2 ≤ cfg.linearConvKernelDim
  heads_pos : 0 < cfg.linearNumHeads
  valueHeads_pos : 0 < cfg.linearNumValueHeads
  dvd : cfg.linearNumHeads ∣ cfg.linearNumValueHeads
  once : GdnPartition.UpdatesOnce (GdnPartition.gdnRecur ⟨cfg.linearNumValueHeads,
    cfg.linearKeyHeadDim, cfg.linearValueHeadDim, valueHeads_pos⟩ numBlocks) gridDim
  fits : 2 * blockDim + cfg.linearKeyHeadDim + cfg.linearValueHeadDim ≤
    Megakernel.GdnPartition.sharedLprojTotal / 4

/-- The configuration of the Mamba2 layers, with the `conv_dim` of `config.rs`. -/
structure Mamba2Kind.Valid (kind : Mamba2Kind) : Prop where
  two_le : 2 ≤ kind.convKernel
  heads_pos : 0 < kind.numHeads
  dvd : kind.nGroups ∣ kind.numHeads
  convDim : kind.convDim = kind.intermediate + 2 * (kind.nGroups * kind.stateDim)

/-- The kernel of a weight's projections is that for `bf16`. -/
def OnBf16 (w : LinearWeight) : Prop := (linearProjOpcodePtr w).1 = .linearProj

/-- The projections of an FFN are on the kernels for `bf16`. -/
def FfnWeights.OnBf16 {V : Type*} (w : FfnWeights V) : Prop :=
  Recurrent.OnBf16 w.wGate ∧ Recurrent.OnBf16 w.wUp ∧ Recurrent.OnBf16 w.wDown

/-- Those of a GDN layer. -/
def GdnLayerWeights.OnBf16 {V : Type*} (w : GdnLayerWeights V) : Prop :=
  Recurrent.OnBf16 w.wQkv ∧ Recurrent.OnBf16 w.wA ∧ Recurrent.OnBf16 w.wB ∧
    Recurrent.OnBf16 w.wZ ∧ Recurrent.OnBf16 w.wOut

/-- Those of a Mamba2 layer. -/
def Mamba2LayerWeights.OnBf16 {V : Type*} (w : Mamba2LayerWeights V) : Prop :=
  Recurrent.OnBf16 w.inProj ∧ Recurrent.OnBf16 w.outProj

/-- A block that is modelled, with a valid configuration and `bf16` weights. -/
def BlockValid {V : Type*} (model : Model V) (gridDim numBlocks : ℕ) : MixedPrefill.Block → Prop
  | .gdn layer _ => model.config.GdnValid gridDim numBlocks ∧ (model.gdn layer).OnBf16
  | .mamba2 layer _ => model.config.mamba2.Valid ∧ (model.mamba2 layer).OnBf16
  | .denseFfn layer => (model.gdn layer).toFfnWeights.OnBf16
  | _ => False

section Sound

variable {V : Type*} [Add V] [Sub V] [Mul V] [Div V] [Neg V] [Zero V] [One V] [NatCast V] [LT V]
  [DecidableLT V] [FloatFns V]

set_option linter.unusedSectionVars false

variable {cfg : ModelConfig V} {gridDim numBlocks n idx : ℕ}

lemma le_divCeil (n : ℕ) : n ≤ divCeil n 256 * blockDim := by
  rw [divCeil, blockDim]
  omega

lemma sound_linearProj {w : LinearWeight} {output input : FPtr} {outDim inDim batch : ℕ}
    (hw : OnBf16 w) (hin : input.block ≠ output.block) :
    (linearProj (V := V) w output input outDim inDim batch).Sound gridDim :=
  ⟨hin, le_rfl, .inl hw⟩

lemma sound_copyRow {hs : ℕ} {dst src : FPtr} (h : src.block ≠ dst.block) :
    (copyRow (V := V) hs dst src).Sound gridDim := ⟨le_divCeil hs, .inl h⟩

lemma gqa_pos (h : cfg.GdnValid gridDim numBlocks) :
    0 < cfg.linearNumValueHeads / cfg.linearNumHeads :=
  Nat.div_pos (Nat.le_of_dvd h.valueHeads_pos h.dvd) h.heads_pos

lemma sound_gdnTail {w : GdnLayerWeights V} {a b z : FPtr} (h : cfg.GdnValid gridDim numBlocks)
    (hw : w.OnBf16)
    (ha : a.block ≠ .act .gateGdn)
    (hb : b.block ≠ .gdnRecurrent idx ∧ b.block ≠ .act .recurrentOut)
    (hz : z.block ≠ .act .normedGated) :
    ∀ i ∈ gdnTail cfg w idx numBlocks a b z, i.Sound gridDim := by
  rw [gdnTail]
  simp only [List.forall_mem_cons, List.not_mem_nil, false_imp_iff, implies_true, and_true]
  refine ⟨⟨le_divCeil _, ha⟩, ⟨⟨?_, ?_⟩, ⟨h.once, h.valueHeads_pos⟩, ?_⟩, ⟨?_, hz⟩,
    sound_linearProj hw.2.2.2.2 (by simp)⟩
  · simp
  · simp only [List.forall_mem_cons, List.not_mem_nil, false_imp_iff, implies_true, and_true]
    exact ⟨by simp, by simp, by simp, by simp, hb⟩
  · rw [GdnRecurInst.gqa, if_neg (gqa_pos h).ne']
    exact Nat.div_dvd_of_dvd h.dvd
  · simp

lemma sound_compileGdnLayer {w : GdnLayerWeights V} (h : cfg.GdnValid gridDim numBlocks)
    (hw : w.OnBf16) : ∀ i ∈ compileGdnLayer cfg w idx numBlocks, i.Sound gridDim := by
  obtain ⟨hqkv, ha, hb, hz, -⟩ := id hw
  rw [compileGdnLayer]
  have hab : ∀ i ∈ (if isBf16 w.wA && isBf16 w.wB then
      [(.linearProj2x ⟨act .aProj, act .bProj, w.wA.rawData, w.wB.rawData, act .normed,
        cfg.linearNumValueHeads, cfg.hiddenSize, 0⟩ : Inst V)]
    else
      [linearProj w.wA (act .aProj) (act .normed) cfg.linearNumValueHeads cfg.hiddenSize 0,
        linearProj w.wB (act .bProj) (act .normed) cfg.linearNumValueHeads cfg.hiddenSize 0]),
      i.Sound gridDim := by
    split_ifs
    · simp only [List.forall_mem_cons, List.not_mem_nil, false_imp_iff, implies_true, and_true]
      exact ⟨by simp, by simp, by simp⟩
    · simp only [List.forall_mem_cons, List.not_mem_nil, false_imp_iff, implies_true, and_true]
      exact ⟨sound_linearProj ha (by simp), sound_linearProj hb (by simp)⟩
  have hconv : Inst.Sound gridDim (.conv1d3x (.new ⟨.gdnConv idx, 0⟩ ((act .qkv).add 0)
      w.conv1dWeightQ (act .qGdn) (DevPtr.add ⟨.gdnConv idx, 0⟩
        (cfg.qDim * (cfg.linearConvKernelDim - 1))) ((act .qkv).add cfg.qDim) w.conv1dWeightK
      (act .kGdn) (DevPtr.add ⟨.gdnConv idx, 0⟩
        ((cfg.qDim + cfg.qDim) * (cfg.linearConvKernelDim - 1)))
      ((act .qkv).add (cfg.qDim + cfg.qDim)) w.conv1dWeightV (act .vGdn) cfg.qDim cfg.vDim
      cfg.linearConvKernelDim)) :=
    Conv1d3xInst.sound_new h.two_le (by simp)
  simp only [List.forall_mem_append, List.forall_mem_cons, List.not_mem_nil, false_imp_iff,
    implies_true, and_true]
  refine ⟨⟨⟨⟨⟨?_, sound_linearProj hqkv (by simp)⟩, hab⟩, sound_linearProj hz (by simp), hconv⟩,
    sound_gdnTail h hw (by simp) (by simp) (by simp)⟩, le_divCeil _, .inl (by simp)⟩
  simp [normRows, Inst.Sound]

lemma sound_prefillGdnLayer {w : GdnLayerWeights V} (h : cfg.GdnValid gridDim numBlocks)
    (hw : w.OnBf16) : ∀ i ∈ prefillGdnLayer cfg w idx numBlocks n, i.Sound gridDim := by
  obtain ⟨hqkv, ha, hb, hz, -⟩ := id hw
  have htoken : ∀ t, ∀ i ∈ prefillGdnToken cfg w idx numBlocks t, i.Sound gridDim := fun t => by
    rw [prefillGdnToken]
    simp only [List.forall_mem_append, List.forall_mem_cons, List.not_mem_nil, false_imp_iff,
      implies_true, and_true]
    have hconv : ∀ {state output input : FPtr} {weight : ℕ → V} {dim : ℕ},
        output.block ≠ state.block → input.block ≠ output.block → input.block ≠ state.block →
        (Inst.conv1d ⟨divCeil dim 256, state, input, weight, output, dim,
          cfg.linearConvKernelDim⟩).Sound gridDim := fun h₁ h₂ h₃ =>
      ⟨⟨h.two_le, h₁, h₂, h₃⟩, le_divCeil _⟩
    refine ⟨⟨⟨hconv ?_ ?_ ?_, hconv ?_ ?_ ?_, hconv ?_ ?_ ?_⟩,
      sound_gdnTail h hw (by simp) (by simp) (by simp)⟩, le_divCeil _, .inl (by simp), .inr rfl⟩ <;>
      simp
  rw [prefillGdnLayer]
  simp only [List.forall_mem_append, List.forall_mem_cons, List.not_mem_nil, false_imp_iff,
    implies_true, and_true]
  refine ⟨⟨?_, sound_linearProj hqkv (by simp), sound_linearProj ha (by simp),
    sound_linearProj hb (by simp), sound_linearProj hz (by simp)⟩, fun i hi => ?_⟩
  · simp [normRows, Inst.Sound]
  · obtain ⟨t, -, hi⟩ := List.mem_flatMap.mp hi
    exact htoken t i hi

lemma sound_compileMamba2Layer {w : Mamba2LayerWeights V} (h : cfg.mamba2.Valid)
    (hw : w.OnBf16) : ∀ i ∈ compileMamba2Layer cfg w idx, i.Sound gridDim := by
  have hgroups : 0 < cfg.mamba2.numHeads / cfg.mamba2.nGroups :=
    Nat.div_pos (Nat.le_of_dvd h.heads_pos h.dvd) (Nat.pos_of_dvd_of_pos h.dvd h.heads_pos)
  rw [compileMamba2Layer]
  simp only [List.forall_mem_cons, List.not_mem_nil, false_imp_iff, implies_true, and_true]
  refine ⟨?_, sound_linearProj hw.1 (by simp), ⟨⟨h.two_le, ?_, ?_, ?_⟩, le_divCeil _⟩,
    ⟨⟨?_, ?_, le_rfl, hgroups⟩, h.dvd⟩, ⟨?_, ?_⟩, sound_linearProj hw.2 (by simp),
    sound_copyRow (by simp), le_divCeil _, .inl (by simp), .inl (by simp)⟩
  · simp [normRows, Inst.Sound]
  · simp [Mamba2Conv1dInst.args]
  · simp [Mamba2Conv1dInst.args]
  · simp [Mamba2Conv1dInst.args]
  · simp
  · simp
  · simp
  · simp

lemma sound_prefillMamba2Layer {w : Mamba2LayerWeights V} (h : cfg.mamba2.Valid)
    (hw : w.OnBf16) : ∀ i ∈ prefillMamba2Layer cfg w idx n, i.Sound gridDim := by
  intro i hi
  obtain ⟨t, -, hi⟩ := List.mem_flatMap.mp hi
  rw [List.mem_append, List.mem_cons, List.mem_singleton] at hi
  rcases hi with (rfl | hi) | rfl
  · exact sound_copyRow (by simp)
  · exact sound_compileMamba2Layer h hw i hi
  · exact sound_copyRow (by simp)

lemma sound_fusedFfn {w : FfnWeights V} {rnf4 : Bool} {rows batch : ℕ}
    {ffnAct hidden residual : FPtr} (hrows : batchOf batch = rows)
    (hha : hidden.block ≠ ffnAct.block) (hhr : hidden.block ≠ residual.block) :
    ∀ i ∈ fusedFfn cfg w rnf4 rows batch ffnAct hidden residual, i.Sound gridDim := by
  rw [fusedFfn]
  simp only [List.forall_mem_cons, List.not_mem_nil, false_imp_iff, implies_true, and_true]
  refine ⟨⟨?_, hha⟩, ⟨le_divCeil _, .inl hhr⟩, ?_, hha.symm, hhr.symm⟩
  · exact (Nat.mul_comm _ _).trans (by rw [hrows])
  · exact (Nat.mul_comm _ _).trans (by rw [hrows])

lemma sound_unfusedFfn {w : FfnWeights V} (hw : w.OnBf16)
    {hidden residual normed gate up ffnAct down : FPtr}
    (hblocks : [hidden.block, residual.block, normed.block, gate.block, up.block, ffnAct.block,
      down.block].Nodup) :
    ∀ i ∈ unfusedFfn cfg w hidden residual normed gate up ffnAct down, i.Sound gridDim := by
  simp only [List.nodup_cons, List.mem_cons, List.not_mem_nil, or_false, not_or, not_false_iff,
    List.nodup_nil, and_true] at hblocks
  obtain ⟨⟨hhr, hhn, -, -, -, hhd⟩, ⟨-, -, -, -, hrd⟩, ⟨hng, hnu, -, -⟩, ⟨-, hga, -⟩, ⟨hua, -⟩,
    had⟩ := hblocks
  rw [unfusedFfn]
  simp only [List.forall_mem_cons, List.not_mem_nil, false_imp_iff, implies_true, and_true]
  exact ⟨sound_copyRow hhr, hhn, sound_linearProj hw.1 hng, sound_linearProj hw.2.1 hnu,
    ⟨le_divCeil _, .inl hga, .inl hua⟩, sound_linearProj hw.2.2 had, le_divCeil _,
    .inl (Ne.symm hhd), .inl (Ne.symm hhr)⟩

lemma sound_compileFfn {w : FfnWeights V} (hw : w.OnBf16) :
    ∀ i ∈ compileFfn cfg w, i.Sound gridDim := by
  rw [compileFfn]
  split_ifs
  · exact sound_fusedFfn rfl (by simp) (by simp)
  · exact sound_fusedFfn rfl (by simp) (by simp)
  · exact sound_unfusedFfn hw (by simp)

lemma batchOf_pos (hn : 0 < n) : batchOf n = n := by
  rw [batchOf]
  split_ifs <;> omega

lemma sound_compileFfnBatched {w : FfnWeights V} (hw : w.OnBf16) (hn : 0 < n) :
    ∀ i ∈ compileFfnBatched cfg w n, i.Sound gridDim := by
  rw [compileFfnBatched]
  split_ifs
  · exact sound_fusedFfn (batchOf_pos hn) (by simp) (by simp)
  · exact sound_fusedFfn (batchOf_pos hn) (by simp) (by simp)
  · intro i hi
    obtain ⟨t, -, hi⟩ := List.mem_flatMap.mp hi
    exact sound_unfusedFfn hw (by simp) i hi

variable {model : Model V} {blocks : List MixedPrefill.Block}

/-- **Every instruction of a decode program is sound.** -/
theorem sound_decodeInsts (h : ∀ b ∈ blocks, BlockValid model gridDim numBlocks b) :
    ∀ i ∈ decodeInsts model numBlocks blocks, i.Sound gridDim := by
  intro i hi
  obtain ⟨b, hb, hi⟩ := List.mem_flatMap.mp hi
  have hvalid := h b hb
  cases b with
  | gdn layer idx => exact sound_compileGdnLayer hvalid.1 hvalid.2 i hi
  | mamba2 layer idx => exact sound_compileMamba2Layer hvalid.1 hvalid.2 i hi
  | denseFfn layer => exact sound_compileFfn hvalid i hi
  | _ => exact absurd hi List.not_mem_nil

/-- **Every instruction of a prefill program is sound.** -/
theorem sound_prefillInsts (hn : 0 < n)
    (h : ∀ b ∈ blocks, BlockValid model gridDim numBlocks b) :
    ∀ i ∈ prefillInsts model numBlocks n blocks, i.Sound gridDim := by
  intro i hi
  obtain ⟨b, hb, hi⟩ := List.mem_flatMap.mp hi
  have hvalid := h b hb
  cases b with
  | gdn layer idx => exact sound_prefillGdnLayer hvalid.1 hvalid.2 i hi
  | mamba2 layer idx => exact sound_prefillMamba2Layer hvalid.1 hvalid.2 i hi
  | denseFfn layer => exact sound_compileFfnBatched hvalid hn i hi
  | _ => exact absurd hi List.not_mem_nil

/-- A model whose hidden state has room in the head. -/
def Model.HeadFits {V : Type*} (model : Model V) : Prop :=
  model.config.hiddenSize ≤ lmHeadInputFloats

lemma sound_finalInsts (hgrid : 0 < gridDim) (hhead : model.HeadFits) :
    ∀ i ∈ finalInsts model, i.Sound gridDim := by
  rw [finalInsts]
  simp only [List.forall_mem_cons, List.not_mem_nil, false_imp_iff, implies_true, and_true]
  refine ⟨sound_copyRow (by simp), ?_, ?_, le_rfl, .inr ⟨rfl, hgrid, fun _ => hhead⟩⟩
  · simp [normRows, Inst.Sound]
  · simp

end Sound

end Braidinfer.Recurrent
