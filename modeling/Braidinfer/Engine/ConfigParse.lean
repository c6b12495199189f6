/-
Reading a configuration (`from_config_value` in `config.rs`), and what the compilers need of it.

Every value has several keys, looked up in `text_config` first, each with a fallback of its own.
The layer pattern comes from one of five places (`MixedPrefill.RawConfig.layers`), the number of
layers from another.

* `fromConfigValue`: the whole function, with its errors and its panics;
* `WellFormed`: the layers are as many as `num_layers` says, and have the recurrent kind and the
  experts they need; `Safe`: the compilers index the layers and divide by what is there;
* `Consistent`, `GroupsNonzero`: what a configuration has to say for this;
* `wellFormed_iff`: **a configuration is read without a panic and is well formed exactly when it
  is consistent**.
-/
import Braidinfer.Bqnt.Metadata
import Braidinfer.Engine.MixedPrefill

namespace Braidinfer.Engine.ConfigParse

open Bqnt (Json)
open MixedPrefill (LayerType MoeConfig FfnType LayerConfig RawConfig)

/-! ### Values -/

/-- `serde_json::Number` -/
inductive Number
  | posInt (n : UInt64)
  | negInt (i : Int64)
  | float (f : Float)

/-- `serde_json::Value` -/
abbrev Value := Json Number

/-- `Value::as_u64`, as a `usize`. -/
def asU64 : Value → Option ℕ
  | .number (.posInt n) => some n.toNat
  | _ => none

/-- `Value::as_f64` -/
def asF64 : Value → Option Float
  | .number (.posInt n) => some n.toFloat
  | .number (.negInt i) => some i.toFloat
  | .number (.float f) => some f
  | _ => none

/-- `Value::as_bool` -/
def asBool : Value → Option Bool
  | .bool b => some b
  | _ => none

/-- `Value::as_array` -/
def asArray : Value → Option (List Value)
  | .array values => some values
  | _ => none

variable (v : Value)

/-- The closure `get`: the fields of `text_config` override the top level. -/
def get (key : String) : Option Value := ((v.get "text_config").bind (Json.get key)).or (v.get key)

/-- The closure `get_usize`. -/
def getUsize (key : String) : Option ℕ := (get v key).bind asU64

/-- The closure `get_f64`. -/
def getF64 (key : String) : Option Float := (get v key).bind asF64

/-- The closure `get_bool`. -/
def getBool (key : String) : Option Bool := (get v key).bind asBool

/-- The closure `get_str`. -/
def getStr (key : String) : Option String := (get v key).bind Json.asStr

/-- The first entry of an array, as a `usize`. -/
def getFirst (key : String) : Option ℕ :=
  (((get v key).bind asArray).bind List.head?).bind asU64

/-- The strings of an array; an entry that is no string reads as the empty one. -/
def getStrings (key : String) : Option (List String) :=
  ((get v key).bind asArray).map fun values => values.map fun t => t.asStr.getD ""

/-! ### Sizes -/

/-- `model_type` -/
def modelType : String := (getStr v "model_type").getD ""

/-- `hidden_size` -/
def hiddenSize : Option ℕ :=
  (getUsize v "hidden_size").or <| (getUsize v "n_embd").or <| (getUsize v "n_embed").or <|
    (getUsize v "d_model").or (getUsize v "model_dim")

/-- `num_layers`; `p.len()` counts bytes. -/
def numLayers : Option ℕ :=
  (getUsize v "num_hidden_layers").or <| (getUsize v "n_layer").or <|
    (getUsize v "num_transformer_layers").or <|
      (((get v "layers_block_type").bind asArray).map List.length).or <|
        (getStr v "hybrid_override_pattern").map String.utf8ByteSize

/-- `vocab_size` -/
def vocabSize : Option ℕ := (getUsize v "vocab_size").or (getUsize v "n_vocab")

/-- `num_q_heads` -/
def numQHeads : ℕ :=
  ((getUsize v "num_attention_heads").or <| (getUsize v "n_head").or <|
    getFirst v "num_query_heads").getD 1

/-- `num_kv_heads` -/
def numKvHeads : ℕ :=
  ((getUsize v "num_key_value_heads").or <| (getUsize v "num_kv_heads").or <|
    getFirst v "num_kv_heads").getD (numQHeads v)

/-- `head_dim`; the argument of `unwrap_or` is evaluated first, and panics without heads. -/
def headDim (hiddenSize : ℕ) : Option ℕ :=
  if numQHeads v = 0 then none
  else some ((getUsize v "head_dim").getD (hiddenSize / numQHeads v))

/-- `intermediate_size`, as first read. -/
def intermediateSize : ℕ := (getUsize v "intermediate_size").getD 0

/-- `rms_norm_eps` -/
def rmsNormEps : Float32 :=
  (((getF64 v "rms_norm_eps").or <| (getF64 v "norm_eps").or <|
    getF64 v "layer_norm_epsilon").getD 1e-5).toFloat32

/-- A number under `rope_parameters`. -/
def ropeParameter (key : String) : Option Float :=
  ((get v "rope_parameters").bind (Json.get key)).bind asF64

/-- `rope_theta` -/
def ropeTheta : Float32 :=
  (((getF64 v "rope_theta").or <| (getF64 v "rope_freq_constant").or <|
    ropeParameter v "rope_theta").getD 10000.0).toFloat32

/-- `partial_rotary_factor` -/
def partialRotaryFactor : Float :=
  ((getF64 v "partial_rotary_factor").or <| ropeParameter v "partial_rotary_factor").getD 1.0

/-- `rope_dim` -/
def ropeDim (headDim : ℕ) : ℕ := (Float.ofNat headDim * partialRotaryFactor v).toUInt64.toNat

/-- `max_seq_len` -/
def maxSeqLen : ℕ :=
  ((getUsize v "max_position_embeddings").or <| (getUsize v "max_context_length").or <|
    getUsize v "rope_max_length").getD 2048

/-- `tie_word_embeddings` -/
def tieWordEmbeddings : Bool :=
  ((getBool v "tie_word_embeddings").or <| getBool v "share_input_output_layers").getD true

/-- `mrope_section` -/
def mropeSection : ℕ × ℕ × ℕ :=
  ((((get v "rope_parameters").bind (Json.get "mrope_section")).bind asArray).bind fun a =>
    match a with
    | [a₀, a₁, a₂] => do return (← asU64 a₀, ← asU64 a₁, ← asU64 a₂)
    | _ => none).getD (0, 0, 0)

/-- `RopeType` -/
inductive RopeType
  | standard (rotaryDim : ℕ)
  | mRope (sections : ℕ × ℕ × ℕ)
deriving DecidableEq, Repr

/-- `rope_type` -/
def ropeType (headDim : ℕ) : RopeType :=
  if mropeSection v ≠ (0, 0, 0) then .mRope (mropeSection v) else .standard (ropeDim v headDim)

/-! ### Recurrent layers and experts -/

/-- `linear_num_heads` -/
def linearNumHeads : ℕ := (getUsize v "linear_num_key_heads").getD 0

/-- `linear_num_value_heads` -/
def linearNumValueHeads : ℕ := (getUsize v "linear_num_value_heads").getD (linearNumHeads v)

/-- `linear_key_head_dim` -/
def linearKeyHeadDim : ℕ := (getUsize v "linear_key_head_dim").getD 128

/-- `linear_value_head_dim` -/
def linearValueHeadDim : ℕ := (getUsize v "linear_value_head_dim").getD 128

/-- `linear_conv_kernel_dim` -/
def linearConvKernelDim : ℕ :=
  ((getUsize v "linear_conv_kernel_dim").or <| getUsize v "conv_kernel").getD 4

/-- `n_groups` -/
def nGroups : ℕ := (getUsize v "n_groups").getD 1

/-- `RecurrentLayerKind` -/
inductive RecurrentLayerKind
  | gdn (numHeads numValueHeads keyDim valueDim convDim kernelSize : ℕ)
  | mamba2 (stateDim numHeads headDim convKernel nGroups convDim : ℕ)
      (dtMin dtMax dtFloor : Float32)
  | none

/-- The state size, the heads and the head dimension of a Mamba2 model. -/
def mamba2Sizes : Option (ℕ × ℕ × ℕ) := do
  return (← getUsize v "ssm_state_size", ← getUsize v "mamba_num_heads",
    ← getUsize v "mamba_head_dim")

/-- `recurrent_kind`; products of sizes wrap. -/
def recurrentKind : RecurrentLayerKind :=
  if 0 < linearNumHeads v then
    .gdn (linearNumHeads v) (linearNumValueHeads v) (linearKeyHeadDim v) (linearValueHeadDim v)
      ((2 * linearNumHeads v * linearKeyHeadDim v +
        linearNumValueHeads v * linearValueHeadDim v) % 2 ^ 64)
      (linearConvKernelDim v)
  else
    match mamba2Sizes v with
    | some (sd, nh, hd) =>
        .mamba2 sd nh hd (linearConvKernelDim v) (nGroups v)
          ((nh * hd + 2 * nGroups v * sd) % 2 ^ 64)
          ((getF64 v "time_step_min").getD 0.001).toFloat32
          ((getF64 v "time_step_max").getD 0.1).toFloat32
          ((getF64 v "time_step_floor").getD 0.0001).toFloat32
    | none => .none

/-- `gate_type` -/
def gateType : Moe.GateType :=
  let rsf := ((getF64 v "routed_scaling_factor").getD 1.0).toFloat32.toBits.toNat
  if modelType v = "nemotron_h" then .sigmoid rsf
  else if (getBool v "norm_topk_prob").getD false || (modelType v).startsWith "qwen3_5" then
    .normTopK rsf
  else .softmax

/-- `num_experts` -/
def numExperts : ℕ :=
  ((getUsize v "num_experts").or <| (getUsize v "n_routed_experts").or <|
    getUsize v "num_local_experts").getD 0

/-- `num_active_experts` -/
def numActiveExperts : ℕ :=
  ((getUsize v "num_experts_per_tok").or <| getUsize v "num_selected_experts").getD 0

/-- `num_shared_experts` -/
def numSharedExperts : ℕ :=
  ((getUsize v "n_shared_experts").or <|
    if 0 < (getUsize v "shared_expert_intermediate_size").getD 0 then some 1 else none).getD 0

/-- `expert_intermediate_size` -/
def expertIntermediateSize : ℕ :=
  (getUsize v "moe_intermediate_size").getD (intermediateSize v)

/-- `shared_expert_intermediate_size` -/
def sharedExpertIntermediateSize : ℕ :=
  ((getUsize v "moe_shared_expert_intermediate_size").or <|
    getUsize v "shared_expert_intermediate_size").getD 0

/-! ### Layers -/

/-- What the layer pattern is read from. -/
def rawConfig (numLayers : ℕ) : RawConfig where
  numLayers := numLayers
  moe :=
    { numExperts := numExperts v
      numActive := numActiveExperts v
      numShared := numSharedExperts v
      expertIntermediateSize := expertIntermediateSize v
      sharedIntermediateSize := sharedExpertIntermediateSize v
      gateType := gateType v }
  layerTypes := getStrings v "layer_types"
  hybridOverridePattern := getStr v "hybrid_override_pattern"
  layersBlockType := getStrings v "layers_block_type"
  fullAttentionInterval := getUsize v "full_attention_interval"

/-- The last two patterns are as long as `num_layers` says. -/
def counted (r : RawConfig) : Bool :=
  r.layerTypes.isNone && r.hybridOverridePattern.isNone && r.layersBlockType.isNone

/-- `layers`: `collect` over `0..num_layers` panics on more layers than a `Vec` can hold. -/
def layers (maxLayers : ℕ) (r : RawConfig) : Option (List LayerConfig) :=
  if counted r ∧ maxLayers < r.numLayers then none else r.layers

/-- `attention_layer_indices` -/
def attentionLayerIndices (layers : List LayerConfig) : List ℕ :=
  (layers.zipIdx.filter fun p => p.1.layerType = .attention).map Prod.snd

/-- `WeightQuantMode` -/
inductive WeightQuantMode
  | bf16 | rnf4 | mixed
deriving DecidableEq, Repr

/-- `ModelConfig` -/
structure ModelConfig where
  hiddenSize : ℕ
  numLayers : ℕ
  intermediateSize : ℕ
  vocabSize : ℕ
  numQHeads : ℕ
  numKvHeads : ℕ
  headDim : ℕ
  ropeDim : ℕ
  ropeTheta : Float32
  rmsNormEps : Float32
  linearNumHeads : ℕ
  linearNumValueHeads : ℕ
  linearKeyHeadDim : ℕ
  linearValueHeadDim : ℕ
  linearConvKernelDim : ℕ
  layers : List LayerConfig
  maxSeqLen : ℕ
  numExperts : ℕ
  numActiveExperts : ℕ
  numSharedExperts : ℕ
  expertIntermediateSize : ℕ
  sharedExpertIntermediateSize : ℕ
  recurrentKind : RecurrentLayerKind
  ropeType : RopeType
  hasQkNorm : Bool
  hasOutputGate : Bool
  useRope : Bool
  rmsNormOnePlusW : Bool
  attentionLayerIndices : List ℕ
  modelType : String
  tieWordEmbeddings : Bool
  weightQuant : WeightQuantMode
  moeLatentSize : Option ℕ

/-- How the call ends without a configuration. -/
inductive Failure
  | err (text : String)
  | panic
deriving DecidableEq, Repr

/-- `Option::ok_or` -/
def okOr {α : Type} (text : String) : Option α → Except Failure α
  | some a => .ok a
  | none => .error (.err text)

/-- A value whose computation may panic. -/
def orPanic {α : Type} : Option α → Except Failure α
  | some a => .ok a
  | none => .error .panic

/-- `from_config_value`, where a `Vec` holds `maxLayers` layers. -/
def fromConfigValue (maxLayers : ℕ) : Except Failure ModelConfig := do
  let hiddenSize ← okOr "missing hidden_size" (hiddenSize v)
  let numLayers ← okOr "missing num_hidden_layers" (numLayers v)
  let vocabSize ← okOr "missing vocab_size" (vocabSize v)
  let headDim ← orPanic (headDim v hiddenSize)
  let layers ← orPanic (layers maxLayers (rawConfig v numLayers))
  return {
    hiddenSize := hiddenSize
    numLayers := numLayers
    intermediateSize :=
      if intermediateSize v = 0 then expertIntermediateSize v else intermediateSize v
    vocabSize := vocabSize
    numQHeads := numQHeads v
    numKvHeads := numKvHeads v
    headDim := headDim
    ropeDim := ropeDim v headDim
    ropeTheta := ropeTheta v
    rmsNormEps := rmsNormEps v
    linearNumHeads := linearNumHeads v
    linearNumValueHeads := linearNumValueHeads v
    linearKeyHeadDim := linearKeyHeadDim v
    linearValueHeadDim := linearValueHeadDim v
    linearConvKernelDim := linearConvKernelDim v
    layers := layers
    maxSeqLen := maxSeqLen v
    numExperts := numExperts v
    numActiveExperts := numActiveExperts v
    numSharedExperts := numSharedExperts v
    expertIntermediateSize := expertIntermediateSize v
    sharedExpertIntermediateSize := sharedExpertIntermediateSize v
    recurrentKind := recurrentKind v
    ropeType := ropeType v headDim
    hasQkNorm := false
    hasOutputGate := false
    useRope := modelType v ≠ "nemotron_h"
    rmsNormOnePlusW := (modelType v).startsWith "qwen3_5"
    attentionLayerIndices := attentionLayerIndices layers
    modelType := modelType v
    tieWordEmbeddings := tieWordEmbeddings v
    weightQuant := .bf16
    moeLatentSize := getUsize v "moe_latent_size" }

/-- A product or sum of sizes on the way to `conv_dim` does not fit a `usize`. -/
def sizesOverflow : Bool :=
  let sizes :=
    if 0 < linearNumHeads v then
      let qk := 2 * linearNumHeads v * linearKeyHeadDim v
      let vals := linearNumValueHeads v * linearValueHeadDim v
      [2 * linearNumHeads v, qk, vals, qk + vals]
    else
      match mamba2Sizes v with
      | some (sd, nh, hd) => [nh * hd, 2 * nGroups v, 2 * nGroups v * sd,
          nh * hd + 2 * nGroups v * sd]
      | none => []
  sizes.any (2 ^ 64 ≤ ·)

/-- `from_config_value` in a build with or without overflow checks. -/
def fromConfigValueIn (checked : Bool) (maxLayers : ℕ) : Except Failure ModelConfig :=
  match fromConfigValue v maxLayers with
  | .ok cfg => if checked && sizesOverflow v then .error .panic else .ok cfg
  | .error e => .error e

/-! ### What the compilers need -/

/-- The kind has GDN heads. -/
def RecurrentLayerKind.IsGdn : RecurrentLayerKind → Prop
  | .gdn .. => True
  | _ => False

/-- The kind has Mamba2 sizes. -/
def RecurrentLayerKind.IsMamba2 : RecurrentLayerKind → Prop
  | .mamba2 .. => True
  | _ => False

/-- A layer of experts, behind a mixer or on its own. -/
def IsMoe (l : LayerConfig) : Prop := l.layerType = .moeFfn ∨ ∃ m, l.ffnType = .moe m

/-- A well-formed configuration. -/
structure WellFormed (cfg : ModelConfig) : Prop where
  layers_length : cfg.layers.length = cfg.numLayers
  attention_sorted : cfg.attentionLayerIndices.Pairwise (· < ·)
  mem_attention : ∀ i, i ∈ cfg.attentionLayerIndices ↔
    ∃ l, cfg.layers[i]? = some l ∧ l.layerType = .attention
  gdn : ∀ l ∈ cfg.layers, l.layerType = .gdn → cfg.recurrentKind.IsGdn ∧ 0 < cfg.linearNumHeads
  mamba2 : ∀ l ∈ cfg.layers, l.layerType = .mamba2 → cfg.recurrentKind.IsMamba2
  moe : ∀ l ∈ cfg.layers, IsMoe l →
    ∃ m, l.ffnType = .moe m ∧ 1 ≤ m.numActive ∧ m.numActive ≤ m.numExperts

/-- What the compilers divide by in a layer: `compile_gdn_layer` divides `nvh / nh` and
`num_blocks / nvh as u32`, `compile_mamba2_layer` divides `intermediate / ng`. -/
def divisors (cfg : ModelConfig) (l : LayerConfig) : List ℕ :=
  match l.layerType, cfg.recurrentKind with
  | .gdn, _ => [cfg.linearNumHeads, cfg.linearNumValueHeads % 2 ^ 32]
  | .mamba2, .mamba2 _ _ _ _ nGroups .. => [nGroups]
  | _, _ => []

/-- Walking the layers `0..num_layers` meets a layer each time, and no division by zero. -/
def Safe (cfg : ModelConfig) : Prop :=
  ∀ i < cfg.numLayers, ∃ l, cfg.layers[i]? = some l ∧ ∀ d ∈ divisors cfg l, d ≠ 0

/-! ### Consistent configurations -/

/-- How many layers the pattern has. -/
def patternLength (r : RawConfig) : ℕ :=
  match r.layerTypes, r.hybridOverridePattern, r.layersBlockType with
  | some lt, _, _ => lt.length
  | none, some pattern, _ => pattern.toList.length
  | none, none, some lbt => lbt.length
  | none, none, none => r.numLayers

/-- The pattern has a GDN layer. -/
def NamesGdn (r : RawConfig) : Prop :=
  match r.layerTypes with
  | some lt => "linear_attention" ∈ lt
  | none => counted r ∧ 0 < r.numLayers ∧ ∃ interval, r.fullAttentionInterval = some interval ∧
      interval ≠ 1

/-- The pattern has a Mamba2 layer. -/
def NamesMamba2 (r : RawConfig) : Prop :=
  match r.layerTypes, r.hybridOverridePattern, r.layersBlockType with
  | none, some pattern, _ => 'M' ∈ pattern.toList
  | none, none, some lbt => "mamba" ∈ lbt
  | _, _, _ => False

/-- The pattern has a layer for the experts. -/
def NamesExperts (r : RawConfig) : Prop :=
  match r.layerTypes, r.hybridOverridePattern, r.layersBlockType with
  | some lt, _, _ => lt ≠ []
  | none, some pattern, _ => 'E' ∈ pattern.toList
  | none, none, some lbt => "moe" ∈ lbt
  | none, none, none => 0 < r.numLayers

/-- The pattern has a layer that is nothing but experts. -/
def NamesMoeFfn (r : RawConfig) : Prop := r.layerTypes = none ∧
  match r.hybridOverridePattern, r.layersBlockType with
  | some pattern, _ => 'E' ∈ pattern.toList
  | none, some lbt => "moe" ∈ lbt
  | none, none => False

/-- `num_layers` layers can be had from the pattern, and the keys agree on them. -/
structure Consistent (maxLayers n : ℕ) : Prop where
  heads : numQHeads v ≠ 0
  count : patternLength (rawConfig v n) = n
  capacity : counted (rawConfig v n) → n ≤ maxLayers
  interval : counted (rawConfig v n) → 0 < n → getUsize v "full_attention_interval" ≠ some 0
  gdn : NamesGdn (rawConfig v n) → 0 < linearNumHeads v
  mamba2 : NamesMamba2 (rawConfig v n) → linearNumHeads v = 0 ∧ (mamba2Sizes v).isSome
  experts : NamesExperts (rawConfig v n) → NamesMoeFfn (rawConfig v n) ∨ 0 < numExperts v →
    1 ≤ numActiveExperts v ∧ numActiveExperts v ≤ numExperts v

/-- The groups that the recurrent layers divide by. -/
structure GroupsNonzero (n : ℕ) : Prop where
  gdn : NamesGdn (rawConfig v n) → linearNumValueHeads v % 2 ^ 32 ≠ 0
  mamba2 : NamesMamba2 (rawConfig v n) → nGroups v ≠ 0

/-- The keys without a default are there, with `n` layers. -/
def Required (n : ℕ) : Prop :=
  (hiddenSize v).isSome ∧ numLayers v = some n ∧ (vocabSize v).isSome

/-! ### The layer pattern -/

section Pattern

variable {maxLayers : ℕ} {r : RawConfig} {ls : List LayerConfig}

/-- The five patterns. -/
lemma layers_cases (h : layers maxLayers r = some ls) :
    (∃ lt, r.layerTypes = some lt ∧ ls = lt.map r.layerOfType) ∨
    (∃ pattern, r.layerTypes = none ∧ r.hybridOverridePattern = some pattern ∧
      ls = pattern.toList.map r.layerOfChar) ∨
    (∃ lbt, r.layerTypes = none ∧ r.hybridOverridePattern = none ∧ r.layersBlockType = some lbt ∧
      ls = lbt.map r.layerOfBlock) ∨
    (∃ interval, r.layerTypes = none ∧ r.hybridOverridePattern = none ∧
      r.layersBlockType = none ∧ r.fullAttentionInterval = some interval ∧
      (0 < r.numLayers → interval ≠ 0) ∧
      ls = (List.range r.numLayers).map (r.layerOfInterval interval)) ∨
    (r.layerTypes = none ∧ r.hybridOverridePattern = none ∧ r.layersBlockType = none ∧
      r.fullAttentionInterval = none ∧
      ls = (List.range r.numLayers).map fun _ =>
        ⟨.attention, if 0 < r.moe.numExperts then r.moeFfn else .dense⟩) := by
  rw [layers] at h
  split_ifs at h
  rw [RawConfig.layers] at h
  split at h
  · rename_i lt hlt
    exact .inl ⟨lt, hlt, (Option.some.inj h).symm⟩
  · rename_i pattern hlt hpattern
    exact .inr (.inl ⟨pattern, hlt, hpattern, (Option.some.inj h).symm⟩)
  · rename_i lbt hlt hpattern hlbt
    exact .inr (.inr (.inl ⟨lbt, hlt, hpattern, hlbt, (Option.some.inj h).symm⟩))
  · rename_i interval hlt hpattern hlbt hinterval
    split_ifs at h with hzero
    exact .inr (.inr (.inr (.inl ⟨interval, hlt, hpattern, hlbt, hinterval,
      fun hn h0 => hzero ⟨h0, hn⟩, (Option.some.inj h).symm⟩)))
  · rename_i hlt hpattern hlbt hinterval
    exact .inr (.inr (.inr (.inr ⟨hlt, hpattern, hlbt, hinterval, (Option.some.inj h).symm⟩)))

/-- When the layers are had without a panic. -/
lemma layers_isSome_iff :
    (layers maxLayers r).isSome ↔ (counted r → r.numLayers ≤ maxLayers) ∧
      (counted r → 0 < r.numLayers → r.fullAttentionInterval ≠ some 0) := by
  rw [layers]
  by_cases hcap : counted r ∧ maxLayers < r.numLayers
  · rw [if_pos hcap]
    simp only [Option.isSome_none, Bool.false_eq_true, false_iff]
    intro hle
    exact absurd (hle.1 hcap.1) (by omega)
  · rw [if_neg hcap, and_iff_right fun hc => Nat.le_of_not_lt fun hlt => hcap ⟨hc, hlt⟩,
      RawConfig.layers]
    split
    · rename_i lt hlt
      simp [counted, hlt]
    · rename_i pattern hlt hpattern
      simp [counted, hpattern]
    · rename_i lbt hlt hpattern hlbt
      simp [counted, hlbt]
    · rename_i interval hlt hpattern hlbt hinterval
      have hcounted : counted r = true := by simp [counted, hlt, hpattern, hlbt]
      split_ifs with hzero
      · simp [hcounted, hinterval, hzero.1, hzero.2]
      · simp only [Option.isSome_some, true_iff, hinterval]
        intro _ hn h0
        exact hzero ⟨Option.some.inj h0, hn⟩
    · rename_i hlt hpattern hlbt hinterval
      simp [hinterval]

lemma length_layers (h : layers maxLayers r = some ls) : ls.length = patternLength r := by
  rcases layers_cases h with ⟨lt, hlt, rfl⟩ | ⟨pattern, hlt, hpattern, rfl⟩ |
    ⟨lbt, hlt, hpattern, hlbt, rfl⟩ | ⟨interval, hlt, hpattern, hlbt, -, -, rfl⟩ |
    ⟨hlt, hpattern, hlbt, -, rfl⟩ <;>
  simp [patternLength, *]

lemma layerOfType_eq_gdn {ts : String} :
    (r.layerOfType ts).layerType = .gdn ↔ ts = "linear_attention" := by
  unfold RawConfig.layerOfType
  dsimp only
  split <;> simp_all

lemma layerOfType_ne_mamba2 {ts : String} : (r.layerOfType ts).layerType ≠ .mamba2 := by
  unfold RawConfig.layerOfType
  dsimp only
  split <;> simp

lemma layerOfChar_ne_gdn {c : Char} : (r.layerOfChar c).layerType ≠ .gdn := by
  unfold RawConfig.layerOfChar
  split <;> simp

lemma layerOfChar_eq_mamba2 {c : Char} : (r.layerOfChar c).layerType = .mamba2 ↔ c = 'M' := by
  unfold RawConfig.layerOfChar
  split <;> simp_all

lemma layerOfBlock_ne_gdn {ts : String} : (r.layerOfBlock ts).layerType ≠ .gdn := by
  unfold RawConfig.layerOfBlock
  split <;> simp

lemma layerOfBlock_eq_mamba2 {ts : String} :
    (r.layerOfBlock ts).layerType = .mamba2 ↔ ts = "mamba" := by
  unfold RawConfig.layerOfBlock
  split <;> simp_all

lemma layerOfInterval_eq_gdn {interval i : ℕ} :
    (r.layerOfInterval interval i).layerType = .gdn ↔ (i + 1) % interval ≠ 0 := by
  rw [RawConfig.layerOfInterval]
  dsimp only
  split_ifs <;> simp_all

lemma layerOfInterval_ne_mamba2 {interval i : ℕ} :
    (r.layerOfInterval interval i).layerType ≠ .mamba2 := by
  rw [RawConfig.layerOfInterval]
  dsimp only
  split_ifs <;> simp

/-- Some layer before the interval is over is no attention layer. -/
lemma exists_mod_ne_zero {n interval : ℕ} (h0 : 0 < n → interval ≠ 0) :
    (∃ i < n, (i + 1) % interval ≠ 0) ↔ 0 < n ∧ interval ≠ 1 := by
  constructor
  · rintro ⟨i, hi, hmod⟩
    refine ⟨by omega, ?_⟩
    rintro rfl
    exact hmod (Nat.mod_one _)
  · rintro ⟨hn, h1⟩
    have := h0 hn
    refine ⟨0, hn, ?_⟩
    rw [Nat.mod_eq_of_lt (by omega)]
    exact one_ne_zero

/-- The GDN layers of a pattern. -/
lemma exists_gdn_iff (h : layers maxLayers r = some ls) :
    (∃ l ∈ ls, l.layerType = .gdn) ↔ NamesGdn r := by
  rcases layers_cases h with ⟨lt, hlt, rfl⟩ | ⟨pattern, hlt, hpattern, rfl⟩ |
    ⟨lbt, hlt, hpattern, hlbt, rfl⟩ | ⟨interval, hlt, hpattern, hlbt, hinterval, h0, rfl⟩ |
    ⟨hlt, hpattern, hlbt, hinterval, rfl⟩
  · simp [NamesGdn, hlt, layerOfType_eq_gdn]
  · simp [NamesGdn, hlt, hpattern, counted, layerOfChar_ne_gdn]
  · simp [NamesGdn, hlt, hlbt, counted, layerOfBlock_ne_gdn]
  · have := exists_mod_ne_zero h0
    simpa [NamesGdn, hlt, hpattern, hlbt, hinterval, counted, layerOfInterval_eq_gdn] using this
  · simp [NamesGdn, hlt, hinterval]

/-- The Mamba2 layers of a pattern. -/
lemma exists_mamba2_iff (h : layers maxLayers r = some ls) :
    (∃ l ∈ ls, l.layerType = .mamba2) ↔ NamesMamba2 r := by
  rcases layers_cases h with ⟨lt, hlt, rfl⟩ | ⟨pattern, hlt, hpattern, rfl⟩ |
    ⟨lbt, hlt, hpattern, hlbt, rfl⟩ | ⟨interval, hlt, hpattern, hlbt, -, -, rfl⟩ |
    ⟨hlt, hpattern, hlbt, -, rfl⟩
  · simp [NamesMamba2, hlt, layerOfType_ne_mamba2]
  · simp [NamesMamba2, hlt, hpattern, layerOfChar_eq_mamba2]
  · simp [NamesMamba2, hlt, hpattern, hlbt, layerOfBlock_eq_mamba2]
  · simp [NamesMamba2, hlt, hpattern, hlbt, layerOfInterval_ne_mamba2]
  · simp [NamesMamba2, hlt, hpattern, hlbt]

lemma moeFfn_eq_moe {m : MoeConfig} :
    r.moeFfn = .moe m ↔ 0 < r.moe.numExperts ∧ m = r.moe := by
  rw [RawConfig.moeFfn]
  split_ifs with hpos
  · simp [hpos, eq_comm]
  · simp [hpos]

lemma ite_moeFfn : (if 0 < r.moe.numExperts then r.moeFfn else .dense) = r.moeFfn := by
  rw [RawConfig.moeFfn]
  split_ifs <;> rfl

lemma layerOfType_ffnType {ts : String} : (r.layerOfType ts).ffnType = r.moeFfn := ite_moeFfn

lemma layerOfInterval_ffnType {interval i : ℕ} :
    (r.layerOfInterval interval i).ffnType = r.moeFfn := ite_moeFfn

lemma layerOfChar_eq_moe {c : Char} {m : MoeConfig} :
    (r.layerOfChar c).ffnType = .moe m ↔ c = 'E' ∧ 0 < r.moe.numExperts ∧ m = r.moe := by
  rw [← moeFfn_eq_moe]
  unfold RawConfig.layerOfChar
  split <;> simp_all

lemma layerOfBlock_eq_moe {ts : String} {m : MoeConfig} :
    (r.layerOfBlock ts).ffnType = .moe m ↔ ts = "moe" ∧ 0 < r.moe.numExperts ∧ m = r.moe := by
  rw [← moeFfn_eq_moe]
  unfold RawConfig.layerOfBlock
  split <;> simp_all

/-- The layers with experts: they have those of the configuration. -/
lemma exists_moe_iff (h : layers maxLayers r = some ls) {m : MoeConfig} :
    (∃ l ∈ ls, l.ffnType = .moe m) ↔ NamesExperts r ∧ 0 < r.moe.numExperts ∧ m = r.moe := by
  have hrange : (∃ i, i < r.numLayers) ↔ 0 < r.numLayers :=
    ⟨fun ⟨_, hi⟩ => Nat.zero_lt_of_lt hi, fun hpos => ⟨0, hpos⟩⟩
  rcases layers_cases h with ⟨lt, hlt, rfl⟩ | ⟨pattern, hlt, hpattern, rfl⟩ |
    ⟨lbt, hlt, hpattern, hlbt, rfl⟩ | ⟨interval, hlt, hpattern, hlbt, -, -, rfl⟩ |
    ⟨hlt, hpattern, hlbt, -, rfl⟩
  · simp [NamesExperts, hlt, layerOfType_ffnType, moeFfn_eq_moe, List.eq_nil_iff_forall_not_mem]
  · simp [NamesExperts, hlt, hpattern, layerOfChar_eq_moe]
  · simp [NamesExperts, hlt, hpattern, hlbt, layerOfBlock_eq_moe]
  · simp [NamesExperts, hlt, hpattern, hlbt, layerOfInterval_ffnType, moeFfn_eq_moe, hrange]
  · simp only [ite_moeFfn]
    simp [NamesExperts, hlt, hpattern, hlbt, moeFfn_eq_moe, Nat.pos_iff_ne_zero]

lemma layerOfType_ne_moeFfn {ts : String} : (r.layerOfType ts).layerType ≠ .moeFfn := by
  unfold RawConfig.layerOfType
  dsimp only
  split <;> simp

lemma layerOfChar_eq_moeFfn {c : Char} : (r.layerOfChar c).layerType = .moeFfn ↔ c = 'E' := by
  unfold RawConfig.layerOfChar
  split <;> simp_all

lemma layerOfBlock_eq_moeFfn {ts : String} :
    (r.layerOfBlock ts).layerType = .moeFfn ↔ ts = "moe" := by
  unfold RawConfig.layerOfBlock
  split <;> simp_all

lemma layerOfInterval_ne_moeFfn {interval i : ℕ} :
    (r.layerOfInterval interval i).layerType ≠ .moeFfn := by
  rw [RawConfig.layerOfInterval]
  dsimp only
  split_ifs <;> simp

/-- The layers that are nothing but experts. -/
lemma exists_moeFfn_iff (h : layers maxLayers r = some ls) :
    (∃ l ∈ ls, l.layerType = .moeFfn) ↔ NamesMoeFfn r := by
  rcases layers_cases h with ⟨lt, hlt, rfl⟩ | ⟨pattern, hlt, hpattern, rfl⟩ |
    ⟨lbt, hlt, hpattern, hlbt, rfl⟩ | ⟨interval, hlt, hpattern, hlbt, -, -, rfl⟩ |
    ⟨hlt, hpattern, hlbt, -, rfl⟩
  · simp [NamesMoeFfn, hlt, layerOfType_ne_moeFfn]
  · simp [NamesMoeFfn, hlt, hpattern, layerOfChar_eq_moeFfn]
  · simp [NamesMoeFfn, hlt, hpattern, hlbt, layerOfBlock_eq_moeFfn]
  · simp [NamesMoeFfn, hlt, hpattern, hlbt, layerOfInterval_ne_moeFfn]
  · simp [NamesMoeFfn, hlt, hpattern, hlbt]

/-- They have the experts of the configuration, if there are any. -/
lemma moeFfn_of_moeFfn {l : LayerConfig} (h : layers maxLayers r = some ls) (hl : l ∈ ls)
    (htype : l.layerType = .moeFfn) : l.ffnType = r.moeFfn := by
  rcases layers_cases h with ⟨lt, hlt, rfl⟩ | ⟨pattern, hlt, hpattern, rfl⟩ |
    ⟨lbt, hlt, hpattern, hlbt, rfl⟩ | ⟨interval, hlt, hpattern, hlbt, -, -, rfl⟩ |
    ⟨hlt, hpattern, hlbt, -, rfl⟩
  all_goals obtain ⟨x, -, rfl⟩ := List.mem_map.mp hl
  · exact layerOfType_ffnType
  · rw [layerOfChar_eq_moeFfn.mp htype]
    rfl
  · rw [layerOfBlock_eq_moeFfn.mp htype]
    rfl
  · exact layerOfInterval_ffnType
  · cases htype

lemma NamesMoeFfn.names (h : NamesMoeFfn r) : NamesExperts r := by
  obtain ⟨hlt, h⟩ := h
  rw [NamesExperts, hlt]
  split at h
  · rename_i pattern hpattern
    rw [hpattern]
    exact h
  · rename_i lbt hpattern hlbt
    rw [hpattern, hlbt]
    exact h
  · cases h

end Pattern

/-! ### Reading the configuration -/

lemma mem_attentionLayerIndices {ls : List LayerConfig} {i : ℕ} :
    i ∈ attentionLayerIndices ls ↔ ∃ l, ls[i]? = some l ∧ l.layerType = .attention := by
  simp [attentionLayerIndices, List.mem_zipIdx_iff_getElem?]

/-- The indices of the attention layers increase. -/
lemma attentionLayerIndices_pairwise (ls : List LayerConfig) :
    (attentionLayerIndices ls).Pairwise (· < ·) := by
  have hzip : ls.zipIdx.Pairwise fun p q => p.2 < q.2 := by
    rw [← List.pairwise_map (f := Prod.snd), List.zipIdx_map_snd]
    exact List.pairwise_lt_range'
  rw [attentionLayerIndices, List.pairwise_map]
  exact hzip.filter _

variable {v} {maxLayers n : ℕ} {cfg : ModelConfig} {ls : List LayerConfig}

/-- The configuration that is read from the layers `ls`, as far as the compilers rely on it. -/
structure ReadAs (v : Value) (n : ℕ) (ls : List LayerConfig) (cfg : ModelConfig) : Prop where
  numLayers : cfg.numLayers = n
  layers : cfg.layers = ls
  attention : cfg.attentionLayerIndices = attentionLayerIndices ls
  recurrentKind : cfg.recurrentKind = recurrentKind v
  linearNumHeads : cfg.linearNumHeads = linearNumHeads v
  linearNumValueHeads : cfg.linearNumValueHeads = linearNumValueHeads v

/-- Reading a configuration whose required keys are there. -/
lemma fromConfigValue_ok (hreq : Required v n) (hheads : numQHeads v ≠ 0)
    (hls : layers maxLayers (rawConfig v n) = some ls) :
    ∃ cfg, fromConfigValue v maxLayers = .ok cfg ∧ ReadAs v n ls cfg := by
  obtain ⟨hh, hn, hs⟩ := hreq
  obtain ⟨h, hh⟩ := Option.isSome_iff_exists.mp hh
  obtain ⟨s, hs⟩ := Option.isSome_iff_exists.mp hs
  have hdim : headDim v h = some ((getUsize v "head_dim").getD (h / numQHeads v)) :=
    if_neg hheads
  simp only [fromConfigValue, hh, hn, hs, hdim, hls, okOr, orPanic, bind, Except.bind, pure,
    Except.pure]
  exact ⟨_, rfl, rfl, rfl, rfl, rfl, rfl, rfl⟩

variable (v maxLayers) in
/-- It ends in an error, a panic or this configuration. -/
lemma fromConfigValue_cases :
    ((∀ n, ¬ Required v n) ∧ ∃ text, fromConfigValue v maxLayers = .error (.err text)) ∨
    ∃ n, Required v n ∧
      (((numQHeads v = 0 ∨ layers maxLayers (rawConfig v n) = none) ∧
          fromConfigValue v maxLayers = .error .panic) ∨
        ∃ ls cfg, numQHeads v ≠ 0 ∧ layers maxLayers (rawConfig v n) = some ls ∧
          fromConfigValue v maxLayers = .ok cfg ∧ ReadAs v n ls cfg) := by
  cases hh : hiddenSize v with
  | none => exact .inl ⟨fun n hreq => by simp [Required, hh] at hreq, _, by
      rw [fromConfigValue, hh]; rfl⟩
  | some h =>
    cases hn : numLayers v with
    | none => exact .inl ⟨fun n hreq => by simp [Required, hn] at hreq, _, by
        rw [fromConfigValue, hh, hn]; rfl⟩
    | some n =>
      cases hs : vocabSize v with
      | none => exact .inl ⟨fun n hreq => by simp [Required, hs] at hreq, _, by
          rw [fromConfigValue, hh, hn, hs]; rfl⟩
      | some s =>
        have hreq : Required v n := ⟨by simp [hh], hn, by simp [hs]⟩
        refine .inr ⟨n, hreq, ?_⟩
        by_cases hheads : numQHeads v = 0
        · refine .inl ⟨.inl hheads, ?_⟩
          have hdim : headDim v h = none := if_pos hheads
          simp only [fromConfigValue, hh, hn, hs, hdim, okOr, orPanic, bind, Except.bind]
        · cases hls : layers maxLayers (rawConfig v n) with
          | none =>
              refine .inl ⟨.inr rfl, ?_⟩
              have hdim : headDim v h = some ((getUsize v "head_dim").getD (h / numQHeads v)) :=
                if_neg hheads
              simp only [fromConfigValue, hh, hn, hs, hdim, hls, okOr, orPanic, bind, Except.bind]
          | some ls =>
              obtain ⟨cfg, hcfg, hread⟩ := fromConfigValue_ok hreq hheads hls
              exact .inr ⟨ls, cfg, hheads, rfl, hcfg, hread⟩

lemma recurrentKind_isGdn : (recurrentKind v).IsGdn ↔ 0 < linearNumHeads v := by
  rw [recurrentKind]
  split_ifs with hpos
  · exact iff_of_true trivial hpos
  · refine iff_of_false ?_ hpos
    cases mamba2Sizes v <;> exact id

lemma recurrentKind_isMamba2 :
    (recurrentKind v).IsMamba2 ↔ linearNumHeads v = 0 ∧ (mamba2Sizes v).isSome := by
  rw [recurrentKind]
  split_ifs with hpos
  · exact iff_of_false id fun h => by omega
  · rw [and_iff_right (by omega)]
    cases mamba2Sizes v with
    | none => exact iff_of_false id Bool.false_ne_true
    | some sizes => exact iff_of_true trivial rfl

section Read

variable (hread : ReadAs v n ls cfg) (hls : layers maxLayers (rawConfig v n) = some ls)

include hread hls

/-- What is read is well formed exactly when the keys agree. -/
lemma readAs_wellFormed_iff (hheads : numQHeads v ≠ 0) :
    WellFormed cfg ↔ Consistent v maxLayers n := by
  have hsome := layers_isSome_iff.mp (Option.isSome_iff_exists.mpr ⟨ls, hls⟩)
  constructor
  · intro hwf
    refine ⟨hheads, ?_, hsome.1, hsome.2, ?_, ?_, ?_⟩
    · rw [← length_layers hls, ← hread.layers, hwf.layers_length, hread.numLayers]
    · intro hnames
      obtain ⟨l, hl, hgdn⟩ := (exists_gdn_iff hls).mpr hnames
      exact hread.linearNumHeads ▸ (hwf.gdn l (hread.layers ▸ hl) hgdn).2
    · intro hnames
      obtain ⟨l, hl, hmamba2⟩ := (exists_mamba2_iff hls).mpr hnames
      exact recurrentKind_isMamba2.mp
        (hread.recurrentKind ▸ hwf.mamba2 l (hread.layers ▸ hl) hmamba2)
    · intro hnames hor
      have hmoe : ∃ l ∈ ls, IsMoe l := by
        rcases hor with hmoeFfn | hpos
        · obtain ⟨l, hl, htype⟩ := (exists_moeFfn_iff hls).mpr hmoeFfn
          exact ⟨l, hl, .inl htype⟩
        · obtain ⟨l, hl, hffn⟩ := (exists_moe_iff hls).mpr ⟨hnames, hpos, rfl⟩
          exact ⟨l, hl, .inr ⟨_, hffn⟩⟩
      obtain ⟨l, hl, hmoe⟩ := hmoe
      obtain ⟨m, hm, hactive⟩ := hwf.moe l (hread.layers ▸ hl) hmoe
      obtain ⟨-, -, rfl⟩ := (exists_moe_iff hls).mp ⟨l, hl, hm⟩
      exact hactive
  · intro hc
    refine ⟨?_, ?_, ?_, ?_, ?_, ?_⟩
    · rw [hread.layers, length_layers hls, hc.count, hread.numLayers]
    · rw [hread.attention]
      exact attentionLayerIndices_pairwise ls
    · intro i
      rw [hread.attention, hread.layers]
      exact mem_attentionLayerIndices
    · intro l hl hgdn
      rw [hread.layers] at hl
      have hpos := hc.gdn ((exists_gdn_iff hls).mp ⟨l, hl, hgdn⟩)
      rw [hread.recurrentKind, hread.linearNumHeads]
      exact ⟨recurrentKind_isGdn.mpr hpos, hpos⟩
    · intro l hl hmamba2
      rw [hread.layers] at hl
      rw [hread.recurrentKind]
      exact recurrentKind_isMamba2.mpr (hc.mamba2 ((exists_mamba2_iff hls).mp ⟨l, hl, hmamba2⟩))
    · intro l hl hmoe
      rw [hread.layers] at hl
      rcases hmoe with htype | ⟨m, hffn⟩
      · have hnames := (exists_moeFfn_iff hls).mp ⟨l, hl, htype⟩
        have hactive := hc.experts hnames.names (.inl hnames)
        have hpos : 0 < (rawConfig v n).moe.numExperts := hactive.1.trans hactive.2
        exact ⟨_, (moeFfn_of_moeFfn hls hl htype).trans (moeFfn_eq_moe.mpr ⟨hpos, rfl⟩), hactive⟩
      · obtain ⟨hnames, hpos, rfl⟩ := (exists_moe_iff hls).mp ⟨l, hl, hffn⟩
        exact ⟨_, hffn, hc.experts hnames (.inr hpos)⟩

/-- The divisors of a well-formed configuration. -/
lemma readAs_safe_iff (hwf : WellFormed cfg) : Safe cfg ↔ GroupsNonzero v n := by
  have hdivisors : Safe cfg ↔ ∀ l ∈ ls, ∀ d ∈ divisors cfg l, d ≠ 0 := by
    have hlength : cfg.numLayers = ls.length := hread.layers ▸ hwf.layers_length.symm
    rw [Safe, hread.layers, hlength]
    constructor
    · intro hsafe l hl
      obtain ⟨i, hi⟩ := List.mem_iff_getElem?.mp hl
      obtain ⟨l', hl', hd⟩ := hsafe i (List.getElem?_eq_some_iff.mp hi).1
      rwa [Option.some.inj (hi.symm.trans hl')]
    · intro hall i hi
      exact ⟨ls[i], List.getElem?_eq_getElem hi, hall _ (List.getElem_mem hi)⟩
  have hgdn : ∀ l ∈ ls, l.layerType = .gdn →
      divisors cfg l = [linearNumHeads v, linearNumValueHeads v % 2 ^ 32] := by
    intro l _ htype
    rw [divisors, htype, hread.linearNumHeads, hread.linearNumValueHeads]
  have hmamba2 : ∀ l ∈ ls, l.layerType = .mamba2 → divisors cfg l = [nGroups v] := by
    intro l hl htype
    have hkind := hwf.mamba2 l (hread.layers ▸ hl) htype
    rw [hread.recurrentKind] at hkind
    obtain ⟨hzero, hsizes⟩ := recurrentKind_isMamba2.mp hkind
    obtain ⟨⟨sd, nh, hd⟩, hsizes⟩ := Option.isSome_iff_exists.mp hsizes
    rw [divisors, htype, hread.recurrentKind, recurrentKind, if_neg (by omega), hsizes]
  have hother : ∀ l ∈ ls, l.layerType ≠ .gdn → l.layerType ≠ .mamba2 → divisors cfg l = [] := by
    intro l _ h₁ h₂
    rw [divisors.eq_def]
    split <;> simp_all
  rw [hdivisors]
  constructor
  · intro hall
    constructor
    · intro hnames
      obtain ⟨l, hl, htype⟩ := (exists_gdn_iff hls).mpr hnames
      exact hall l hl _ (by rw [hgdn l hl htype]; simp)
    · intro hnames
      obtain ⟨l, hl, htype⟩ := (exists_mamba2_iff hls).mpr hnames
      exact hall l hl _ (by rw [hmamba2 l hl htype]; simp)
  · intro hgroups l hl d hd
    by_cases h₁ : l.layerType = .gdn
    · rw [hgdn l hl h₁, List.mem_pair] at hd
      rcases hd with rfl | rfl
      · exact hread.linearNumHeads ▸ (hwf.gdn l (hread.layers ▸ hl) h₁).2.ne'
      · exact hgroups.gdn ((exists_gdn_iff hls).mp ⟨l, hl, h₁⟩)
    · by_cases h₂ : l.layerType = .mamba2
      · rw [hmamba2 l hl h₂, List.mem_singleton] at hd
        exact hd ▸ hgroups.mamba2 ((exists_mamba2_iff hls).mp ⟨l, hl, h₂⟩)
      · rw [hother l hl h₁ h₂] at hd
        cases hd

end Read

/-- The value is read without a panic, and a configuration that comes of it has the property. -/
def Accepts (checked : Bool) (P : ModelConfig → Prop) (v : Value) (maxLayers : ℕ) : Prop :=
  fromConfigValueIn v checked maxLayers ≠ .error .panic ∧
    ∀ cfg, fromConfigValueIn v checked maxLayers = .ok cfg → P cfg

/-- A property of what is read, as a condition on the number of layers. -/
lemma accepts_iff {checked : Bool} {P : ModelConfig → Prop} {C : ℕ → Prop}
    (hiff : ∀ {n ls cfg}, ReadAs v n ls cfg → layers maxLayers (rawConfig v n) = some ls →
      numQHeads v ≠ 0 → (P cfg ↔ C n))
    (hC : ∀ n, C n → Consistent v maxLayers n) :
    Accepts checked P v maxLayers ↔
      ∀ n, Required v n → C n ∧ (checked = true → sizesOverflow v = false) := by
  have hnumber : ∀ {n n'}, Required v n → Required v n' → n = n' :=
    fun h h' => Option.some.inj (h.2.1.symm.trans h'.2.1)
  rcases fromConfigValue_cases v maxLayers with
    ⟨hnone, text, herr⟩ | ⟨n, hreq, ⟨hpanic, herr⟩ | ⟨ls, cfg, hheads, hls, hok, hread⟩⟩
  · have herr' : fromConfigValueIn v checked maxLayers = .error (.err text) := by
      rw [fromConfigValueIn, herr]
    refine iff_of_true ⟨?_, ?_⟩ fun n hreq => absurd hreq (hnone n)
    · rw [herr']
      simp
    · intro cfg hcfg
      rw [herr'] at hcfg
      cases hcfg
  · have herr' : fromConfigValueIn v checked maxLayers = .error .panic := by
      rw [fromConfigValueIn, herr]
    refine iff_of_false (fun hacc => hacc.1 herr') fun hall => ?_
    have hc := hC n (hall n hreq).1
    have hsome : (layers maxLayers (rawConfig v n)).isSome :=
      layers_isSome_iff.mpr ⟨hc.capacity, hc.interval⟩
    rcases hpanic with hheads | hls
    · exact hc.heads hheads
    · rw [hls] at hsome
      cases hsome
  · by_cases hover : (checked && sizesOverflow v) = true
    · have herr' : fromConfigValueIn v checked maxLayers = .error .panic := by
        simp only [fromConfigValueIn, hok, hover, if_true]
      obtain ⟨hchecked, hsizes⟩ := Bool.and_eq_true_iff.mp hover
      refine iff_of_false (fun hacc => hacc.1 herr') fun hall => ?_
      rw [(hall n hreq).2 hchecked] at hsizes
      cases hsizes
    · have hok' : fromConfigValueIn v checked maxLayers = .ok cfg := by
        simp only [fromConfigValueIn, hok, if_neg hover]
      have hfits : checked = true → sizesOverflow v = false := fun hchecked => by
        simpa [hchecked] using hover
      constructor
      · intro hacc n' hreq'
        exact ⟨hnumber hreq hreq' ▸ (hiff hread hls hheads).mp (hacc.2 cfg hok'), hfits⟩
      · intro hall
        refine ⟨by rw [hok']; simp, fun cfg' hcfg' => ?_⟩
        obtain rfl : cfg = cfg' := Except.ok.inj (hok'.symm.trans hcfg')
        exact (hiff hread hls hheads).mpr (hall n hreq).1

/-- **A configuration is read without a panic, and is well formed, exactly when its keys agree**
and, in a build with overflow checks, no size overflows.  The divisions of the compilers are safe
exactly when the groups of its recurrent layers are nonzero as well. -/
theorem wellFormed_iff (checked : Bool) (v : Value) (maxLayers : ℕ) :
    (Accepts checked WellFormed v maxLayers ↔ ∀ n, Required v n →
      Consistent v maxLayers n ∧ (checked = true → sizesOverflow v = false)) ∧
      (Accepts checked (fun cfg => WellFormed cfg ∧ Safe cfg) v maxLayers ↔
        ∀ n, Required v n → (Consistent v maxLayers n ∧ GroupsNonzero v n) ∧
          (checked = true → sizesOverflow v = false)) := by
  constructor
  · refine accepts_iff (fun hread hls hheads => ?_) fun n hc => hc
    exact readAs_wellFormed_iff hread hls hheads
  · refine accepts_iff (fun hread hls hheads => ?_) fun n hc => hc.1
    rw [readAs_wellFormed_iff hread hls hheads]
    refine and_congr_right fun hc => readAs_safe_iff hread hls ?_
    exact (readAs_wellFormed_iff hread hls hheads).mpr hc

/-- A configuration without attention heads that gives the head dimension. -/
def noHeads : Value := .object
  [("hidden_size", .number (.posInt 64)), ("num_hidden_layers", .number (.posInt 2)),
    ("vocab_size", .number (.posInt 16)), ("num_attention_heads", .number (.posInt 0)),
    ("head_dim", .number (.posInt 8))]

/-- A configuration whose layer pattern is shorter than it says. -/
def shortPattern : Value := .object
  [("hidden_size", .number (.posInt 64)), ("num_hidden_layers", .number (.posInt 2)),
    ("vocab_size", .number (.posInt 16)),
    ("layer_types", .array [.string "full_attention"])]

/-- The first panics; the second is accepted, with one layer where the compilers walk two. -/
theorem not_wellFormed : fromConfigValue noHeads (2 ^ 57) = .error .panic ∧
    ∃ cfg, fromConfigValue shortPattern (2 ^ 57) = .ok cfg ∧ cfg.layers.length = 1 ∧
      cfg.numLayers = 2 ∧ ¬ WellFormed cfg := by
  have hreq : Required shortPattern 2 := ⟨rfl, rfl, rfl⟩
  have hheads : numQHeads shortPattern ≠ 0 := by decide +kernel
  have hls : layers (2 ^ 57) (rawConfig shortPattern 2) = some [⟨.attention, .dense⟩] := rfl
  obtain ⟨cfg, hok, hread⟩ := fromConfigValue_ok hreq hheads hls
  refine ⟨rfl, cfg, hok, by rw [hread.layers]; rfl, hread.numLayers, fun hwf => ?_⟩
  have hlength := hwf.layers_length
  rw [hread.layers, hread.numLayers] at hlength
  exact absurd hlength (by decide)

end Braidinfer.Engine.ConfigParse
