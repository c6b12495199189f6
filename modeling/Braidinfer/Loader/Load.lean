/-
Loading a model (`Model::load_with_max_seq_len` in `model_load.rs`), as far as its weights go.

The configuration and the names come from the BQNT file if there is one, and each tensor is looked
for there first.  A load that quantizes without a file writes one as it goes.

* `discoverPrefix`, `embedName`, `normName`: what is found among the names;
* `loadGdn`, `loadAttention`, `loadMamba2`, `loadMoeFfn`, `loadLayer`: a layer;
* `loadWeights`: all of the weights;
* `load`: with the configuration, the file and its writer.
-/
import Braidinfer.Loader.Moe

namespace Braidinfer.Loader

open Braidinfer.Lib
open Braidinfer.Bqnt
open Moe (WeightFormat LinearWeight ModelError)
open Engine (ConfigParse.Number)
open Engine.ConfigParse (WeightQuantMode ModelConfig RecurrentLayerKind fromConfigValue)
open Engine.MixedPrefill (LayerType FfnType LayerConfig)

/-! ### Discovery -/

/-- `prefix`: prefixes that contain "model" are preferred. -/
def discoverPrefix (names : List String) : Except ModelError String :=
  let candidates :=
    (names.filter fun n => Text.contains n "layers.0.").map fun n => Text.before n "layers.0."
  match (candidates.find? fun p => Text.contains p "model").or <|
    (candidates.find? fun p => !Text.contains p "mtp").or candidates.head? with
  | some pfx => .ok pfx
  | none => missing "no layers.0. tensor found"

/-- `has_qk_norm` -/
def discoverQkNorm (names : List String) : Bool :=
  names.any fun n => Text.contains n "q_norm.weight"

/-- A name of the embedding. -/
def isEmbedding (n : String) : Bool :=
  Text.contains n "embed_tokens.weight" || Text.contains n "tok_embeddings.weight" ||
    Text.endsWith n "wte.weight" || Text.contains n "embeddings.weight"

/-- `embed_name` -/
def embedName (pfx : String) (names : List String) : Except ModelError String :=
  match (names.find? fun n => Text.startsWith n pfx && isEmbedding n).or <|
    names.find? isEmbedding with
  | some n => .ok n
  | none => missing "embedding tensor not found"

/-- `norm_name` -/
def normName (pfx : String) (names : List String) : Except ModelError String :=
  match (names.find? fun n => Text.startsWith n pfx &&
      (Text.endsWith n "norm.weight" || Text.endsWith n "ln_f.weight" ||
        Text.endsWith n "norm_f.weight") && !Text.contains n "layers.").or <|
    names.find? fun n =>
      (Text.contains n "norm.weight" || Text.contains n "ln_f.weight" ||
        Text.contains n "norm_f.weight") && !Text.contains n "layers." &&
        !Text.contains n "visual" && !Text.contains n "mtp" with
  | some n => .ok n
  | none => missing "final norm tensor not found"

/-- `lm_head_name` -/
def lmHeadName (names : List String) : Except ModelError String :=
  match names.find? fun n => Text.contains n "lm_head.weight" with
  | some n => .ok n
  | none => missing "lm_head.weight not found"

/-- `has_output_gate`: the first attention layer has a query projection of twice the size. -/
def discoverOutputGate (st : SafeTensorSet) (bqnt : Option MmapBqnt) (pfx : String)
    (config : ModelConfig) : Bool :=
  match config.layers.findIdx? fun l => l.layerType = .attention with
  | none => false
  | some ai =>
      let qName := s!"{pfx}layers.{ai}.self_attn.q_proj.weight"
      let gatedOut := config.numQHeads * config.headDim * 2
      match bqnt.bind fun b => b.entry qName with
      | some e => e.outFeatures.toNat = gatedOut
      | none =>
          match st.tensorData qName with
          | some raw => raw.length = gatedOut * config.hiddenSize * 2
          | none => false

/-! ### Layer weights -/

/-- `GdnLayerWeights` -/
structure GdnLayerWeights where
  inputNorm : List UInt8
  wQkv : LinearWeight
  wA : LinearWeight
  wB : LinearWeight
  wZ : LinearWeight
  conv1dWeightQ : List UInt8
  conv1dWeightK : List UInt8
  conv1dWeightV : List UInt8
  aLog : List UInt8
  dtBias : List UInt8
  outputNorm : List UInt8
  wOut : LinearWeight
  postNorm : List UInt8
  wGate : LinearWeight
  wUp : LinearWeight
  wDown : LinearWeight

/-- `AttentionLayerWeights` -/
structure AttentionLayerWeights where
  inputNorm : List UInt8
  wQGate : LinearWeight
  wK : LinearWeight
  wV : LinearWeight
  wO : LinearWeight
  qNorm : List UInt8
  kNorm : List UInt8
  postNorm : List UInt8
  wGate : LinearWeight
  wUp : LinearWeight
  wDown : LinearWeight

/-- `Mamba2LayerWeights` -/
structure Mamba2LayerWeights where
  inputNorm : List UInt8
  inProj : LinearWeight
  conv1dWeight : List UInt8
  conv1dBias : List UInt8
  dtBias : List UInt8
  aLog : List UInt8
  d : List UInt8
  normWeight : List UInt8
  outProj : LinearWeight

/-- `LayerWeights` -/
inductive LayerWeights
  | gdn (w : GdnLayerWeights)
  | attention (w : AttentionLayerWeights)
  | mamba2 (w : Mamba2LayerWeights)
  | moeFfn (inputNorm : List UInt8)

/-! ### Loading a layer -/

section

variable (pk : Packing) (st : SafeTensorSet) (bqnt : Option MmapBqnt) (multiGpu : Bool)
  (config : ModelConfig) (useQuant : Bool)

/-- The end of the closure `load_lw`: safetensors, or else what the file has. -/
def loadLwPlain (name : String) (outDim inDim : ℕ) : Except ModelError LinearWeight :=
  match loadLinearWeight pk st name outDim inDim config.weightQuant with
  | .ok lw => .ok lw
  | .error .panicked => .error .panicked
  | .error e =>
      match bqnt.map fun b => loadLinearWeightBqnt b name with
      | some (.ok lw) => .ok lw
      | _ => .error e

/-- The closure `load_lw`. -/
def loadLw (name : String) (outDim inDim : ℕ) : LoadM LinearWeight := do
  if useQuant then
    match bqnt.map fun b => loadLinearWeightBqnt b name with
    | some (.ok lw) => return lw
    | _ =>
        if (← get).isSome then
          loadLinearWeightCached pk st name outDim inDim config.weightQuant
        else loadLwPlain pk st bqnt config name outDim inDim
  else loadLwPlain pk st bqnt config name outDim inDim

/-- A linear weight that a layer of this kind need not have. -/
def loadLwIf (cond : Bool) (name : String) (outDim inDim : ℕ) : LoadM LinearWeight := do
  if cond then loadLw pk st bqnt config useQuant name outDim inDim else return .bf16 []

/-- The experts of a layer; with several GPUs they are loaded later. -/
def loadMoe (pfx : String) (ffnType : FfnType) : LoadM MoeWeights :=
  loadMoeWeightsInner pk st bqnt config.weightQuant pfx config ffnType multiGpu

/-- The layer is a MoE layer. -/
def isMoe : FfnType → Bool
  | .moe _ => true
  | _ => false

/-- `moe_weights_vec[i]` of an attention or GDN layer. -/
def loadMoeIf (p : String) (ffnType : FfnType) : LoadM (Option MoeWeights) := do
  if isMoe ffnType then return some (← loadMoe pk st bqnt multiGpu config p ffnType)
  else return none

/-- A layer with a Mamba2 mixer. -/
def loadMamba2 (p : String) : LoadM Mamba2LayerWeights := do
  let hs := config.hiddenSize
  match config.recurrentKind with
  | .mamba2 _ nh hd ck _ cd _ _ _ =>
      let intermediate := nh * hd
      let inProjSize := intermediate + cd + nh
      let normName ← findWeightName st bqnt [s!"{p}norm.weight", s!"{p}input_layernorm.weight"]
      let inputNorm ← loadBf16First st bqnt normName hs
      let inProj ← loadLw pk st bqnt config useQuant s!"{p}mixer.in_proj.weight" inProjSize hs
      let conv1dWeight ← loadBf16First st bqnt s!"{p}mixer.conv1d.weight" (cd * ck)
      let conv1dBias ← loadF32First st bqnt s!"{p}mixer.conv1d.bias" cd
      let dtBias ← loadF32First st bqnt s!"{p}mixer.dt_bias" nh
      let aLog ← loadF32First st bqnt s!"{p}mixer.A_log" nh
      let d ← loadF32First st bqnt s!"{p}mixer.D" nh
      let normWeight ← loadF32First st bqnt s!"{p}mixer.norm.weight" intermediate
      let outProj ← loadLw pk st bqnt config useQuant s!"{p}mixer.out_proj.weight" hs intermediate
      return { inputNorm, inProj, conv1dWeight, conv1dBias, dtBias, aLog, d, normWeight, outProj }
  | _ => throw .panicked

/-- The norm of a standalone MoE layer. -/
def loadMoeFfnNorm (p : String) : Except ModelError (List UInt8) := do
  let normName ← findWeightName st bqnt [s!"{p}norm.weight", s!"{p}input_layernorm.weight"]
  loadBf16First st bqnt normName config.hiddenSize

/-- `moe_prefix` -/
def moePrefix (p : String) : String :=
  if has st bqnt s!"{p}mixer.gate.weight" then s!"{p}mixer." else s!"{p}mlp."

/-- A query or key norm: as many elements as the entry has, or half as many as bytes. -/
def loadHeadNorm (hasQkNorm : Bool) (name : String) : Except ModelError (List UInt8) :=
  if hasQkNorm then
    match ((bqnt.bind fun b => b.entry name).map fun e =>
        e.outFeatures.toNat * e.inFeatures.toNat).or
        ((st.tensorData name).map fun r => r.length / 2) with
    | some len => loadBf16First st bqnt name len
    | none => missing name
  else .ok []

/-- The norm behind the attention; Nemotron layers have none. -/
def loadPostNorm (p : String) : Except ModelError (List UInt8) :=
  match findWeightName st bqnt [s!"{p}post_attention_layernorm.weight"] with
  | .ok name => loadBf16First st bqnt name config.hiddenSize
  | .error _ => .ok []

/-- A projection of an attention layer, under the first of its two names. -/
def loadAttnProj (p proj : String) (outDim inDim : ℕ) : LoadM LinearWeight := do
  let name ← findWeightName st bqnt [s!"{p}self_attn.{proj}.weight", s!"{p}mixer.{proj}.weight"]
  loadLw pk st bqnt config useQuant name outDim inDim

/-- A layer with attention. -/
def loadAttention (hasQkNorm hasOutputGate : Bool) (p : String) (ffnType : FfnType) :
    LoadM AttentionLayerWeights := do
  let hs := config.hiddenSize
  let qMult := if hasOutputGate then 2 else 1
  let dense := !isMoe ffnType && ffnType ≠ .none
  let qDim := config.numQHeads * config.headDim
  let kvDim := config.numKvHeads * config.headDim
  let normName ← findWeightName st bqnt [s!"{p}input_layernorm.weight", s!"{p}norm.weight"]
  let inputNorm ← loadBf16First st bqnt normName hs
  let wQGate ← loadAttnProj pk st bqnt config useQuant p "q_proj" (qDim * qMult) hs
  let wK ← loadAttnProj pk st bqnt config useQuant p "k_proj" kvDim hs
  let wV ← loadAttnProj pk st bqnt config useQuant p "v_proj" kvDim hs
  let wO ← loadAttnProj pk st bqnt config useQuant p "o_proj" hs qDim
  let qNorm ← loadHeadNorm st bqnt hasQkNorm s!"{p}self_attn.q_norm.weight"
  let kNorm ← loadHeadNorm st bqnt hasQkNorm s!"{p}self_attn.k_norm.weight"
  let postNorm ← loadPostNorm st bqnt config p
  let wGate ← loadLwIf pk st bqnt config useQuant dense s!"{p}mlp.gate_proj.weight"
    config.intermediateSize hs
  let wUp ← loadLwIf pk st bqnt config useQuant dense s!"{p}mlp.up_proj.weight"
    config.intermediateSize hs
  let wDown ← loadLwIf pk st bqnt config useQuant dense s!"{p}mlp.down_proj.weight" hs
    config.intermediateSize
  return { inputNorm, wQGate, wK, wV, wO, qNorm, kNorm, postNorm, wGate, wUp, wDown }

/-- `conv_raw_bytes`: from the file only at the expected size. -/
def convRawBytes (name : String) (convTotal : ℕ) : Except ModelError (List UInt8) :=
  match (bqnt.bind fun b => b.tensorData name).filter fun d => d.length = convTotal * 2 with
  | some d => .ok d
  | none => requireData st name

/-- `conv_raw` -/
def loadConvRaw (name : String) (convTotal : ℕ) : Except ModelError (List UInt8) := do
  let raw ← convRawBytes st bqnt name convTotal
  assertEq raw.length (convTotal * 2)
  return raw

/-- A layer with a gated delta net. -/
def loadGdn (p : String) (ffnType : FfnType) : LoadM GdnLayerWeights := do
  let nh := config.linearNumHeads
  let nvh := config.linearNumValueHeads
  let kd := config.linearKeyHeadDim
  let vd := config.linearValueHeadDim
  let qkvOut := nh * kd + nh * kd + nvh * vd
  let zOut := nvh * vd
  let ck := config.linearConvKernelDim
  let qDim := nh * kd
  let convRaw ← loadConvRaw st bqnt s!"{p}linear_attn.conv1d.weight" (qkvOut * ck)
  let hs := config.hiddenSize
  let dense := !isMoe ffnType
  let inputNorm ← loadBf16First st bqnt s!"{p}input_layernorm.weight" hs
  let wQkv ← loadLw pk st bqnt config useQuant s!"{p}linear_attn.in_proj_qkv.weight" qkvOut hs
  let wA ← loadLw pk st bqnt config useQuant s!"{p}linear_attn.in_proj_a.weight" nvh hs
  let wB ← loadLw pk st bqnt config useQuant s!"{p}linear_attn.in_proj_b.weight" nvh hs
  let wZ ← loadLw pk st bqnt config useQuant s!"{p}linear_attn.in_proj_z.weight" zOut hs
  let aLog ← loadF32First st bqnt s!"{p}linear_attn.A_log" nvh
  let dtBias ← loadBf16First st bqnt s!"{p}linear_attn.dt_bias" nvh
  let outputNorm ← loadF32First st bqnt s!"{p}linear_attn.norm.weight" vd
  let wOut ← loadLw pk st bqnt config useQuant s!"{p}linear_attn.out_proj.weight" hs zOut
  let postNorm ← loadBf16First st bqnt s!"{p}post_attention_layernorm.weight" hs
  let wGate ← loadLwIf pk st bqnt config useQuant dense s!"{p}mlp.gate_proj.weight"
    config.intermediateSize hs
  let wUp ← loadLwIf pk st bqnt config useQuant dense s!"{p}mlp.up_proj.weight"
    config.intermediateSize hs
  let wDown ← loadLwIf pk st bqnt config useQuant dense s!"{p}mlp.down_proj.weight" hs
    config.intermediateSize
  return {
    inputNorm, wQkv, wA, wB, wZ
    conv1dWeightQ := slice convRaw 0 (qDim * ck * 2)
    conv1dWeightK := slice convRaw (qDim * ck * 2) (qDim * ck * 2)
    conv1dWeightV := convRaw.drop (2 * qDim * ck * 2)
    aLog, dtBias, outputNorm, wOut, postNorm, wGate, wUp, wDown }

/-- `use_quant` -/
def usesQuant (quantLayers : Option (List ℕ)) (i : ℕ) : Bool :=
  (quantLayers.map fun s => decide (i ∈ s)).getD true

/-- Layer `i`: an element of `layers`, and one of `moe_weights_vec`. -/
def loadLayer (quantLayers : Option (List ℕ)) (pfx : String) (i : ℕ) :
    LoadM (LayerWeights × Option MoeWeights) := do
  let p := s!"{pfx}layers.{i}."
  let useQuant := usesQuant quantLayers i
  match config.layers[i]? with
  | none => throw .panicked
  | some layer =>
      match layer.layerType with
      | .mamba2 => return (.mamba2 (← loadMamba2 pk st bqnt config useQuant p), none)
      | .moeFfn =>
          let inputNorm ← loadMoeFfnNorm st bqnt config p
          let moe ← loadMoe pk st bqnt multiGpu config (moePrefix st bqnt p) layer.ffnType
          return (.moeFfn inputNorm, some moe)
      | .attention =>
          let w ← loadAttention pk st bqnt config useQuant config.hasQkNorm config.hasOutputGate p
            layer.ffnType
          return (.attention w, ← loadMoeIf pk st bqnt multiGpu config p layer.ffnType)
      | _ =>
          let w ← loadGdn pk st bqnt config useQuant p layer.ffnType
          return (.gdn w, ← loadMoeIf pk st bqnt multiGpu config p layer.ffnType)

end

/-! ### Loading a model -/

/-- What `Model` has from its files. -/
structure LoadedModel where
  config : ModelConfig
  weightPrefix : String
  embedWeight : List UInt8
  lmHeadWeight : List UInt8
  finalNormWeight : List UInt8
  layers : List LayerWeights
  moeWeights : List (Option MoeWeights)

/-- The environment of a load: `serde_json`, the arithmetic of packing, the orders in which the
maps of names are iterated, the capacity of a `Vec`, the environment variables, whether the cache
file can be created, and `config.json`. -/
structure Env where
  json : SerdeJson ConfigParse.Number
  packing : Packing
  listed : MmapBqnt → List String
  listedSt : SafeTensorSet → List String
  iter : HashMap UInt64 String → List (Sigma fun _ : UInt64 => String)
  maxLayers : ℕ
  kvQuant : Bool
  multiGpu : Bool
  weightQuant : WeightQuantMode
  quantLayers : Option (List ℕ)
  bqntPathSet : Bool
  dirHasName : Bool
  creates : Bool
  configJson : Option String
  maxSeqLen : Option ℕ

namespace Env

variable (env : Env)

/-- `names`: those of the file, if it has any. -/
def names (st : SafeTensorSet) (bqnt : Option MmapBqnt) : List String :=
  ((bqnt.map env.listed).filter fun n => !n.isEmpty).getD (env.listedSt st)

/-- The configuration with what the names tell. -/
def discover (st : SafeTensorSet) (bqnt : Option MmapBqnt) (config : ModelConfig) (pfx : String) :
    ModelConfig :=
  { config with
    hasQkNorm := discoverQkNorm (env.names st bqnt)
    hasOutputGate := discoverOutputGate st bqnt pfx config }

/-- `lm_head_weight`; a tied one is a placeholder. -/
def loadLmHead (st : SafeTensorSet) (bqnt : Option MmapBqnt) (config : ModelConfig) :
    Except ModelError (List UInt8) :=
  if config.tieWordEmbeddings then .ok []
  else do
    let name ← lmHeadName (env.names st bqnt)
    loadBf16First st bqnt name (config.vocabSize * config.hiddenSize)

/-- The weights, from the discovery of the prefix on. -/
def loadWeights (st : SafeTensorSet) (bqnt : Option MmapBqnt) (config : ModelConfig) :
    LoadM LoadedModel := do
  let names := env.names st bqnt
  let pfx ← discoverPrefix names
  let config := env.discover st bqnt config pfx
  let embedName ← embedName pfx names
  let normName ← normName pfx names
  let embedWeight ← loadBf16First st bqnt embedName (config.vocabSize * config.hiddenSize)
  let lmHeadWeight ← env.loadLmHead st bqnt config
  let finalNormWeight ← loadBf16First st bqnt normName config.hiddenSize
  let layers ← (List.range config.numLayers).mapM
    (loadLayer env.packing st bqnt env.multiGpu config env.quantLayers pfx)
  return {
    config, embedWeight, lmHeadWeight, finalNormWeight
    weightPrefix := pfx
    layers := layers.map Prod.fst
    moeWeights := layers.map Prod.snd }

/-- `qwen35_0_8b` -/
def qwen35 : ModelConfig where
  hiddenSize := 1024
  numLayers := 24
  intermediateSize := 3584
  vocabSize := 248320
  numQHeads := 8
  numKvHeads := 2
  headDim := 256
  ropeDim := 64
  ropeTheta := 10000000.0
  rmsNormEps := 1e-6
  linearNumHeads := 16
  linearNumValueHeads := 16
  linearKeyHeadDim := 128
  linearValueHeadDim := 128
  linearConvKernelDim := 4
  layers := (List.range 24).map fun i =>
    { layerType := if i ∈ [3, 7, 11, 15, 19, 23] then .attention else .gdn, ffnType := .dense }
  maxSeqLen := 2048
  numExperts := 0
  numActiveExperts := 0
  numSharedExperts := 0
  expertIntermediateSize := 0
  sharedExpertIntermediateSize := 0
  recurrentKind := .gdn 16 16 128 128 6144 4
  ropeType := .mRope (11, 11, 10)
  hasQkNorm := false
  hasOutputGate := false
  useRope := true
  rmsNormOnePlusW := true
  attentionLayerIndices := [3, 7, 11, 15, 19, 23]
  modelType := "qwen3_5"
  tieWordEmbeddings := true
  weightQuant := .bf16
  moeLatentSize := none

/-- `from_config_value`, with the name of the source in front of the error. -/
def configFrom (source : String) (v : Json ConfigParse.Number) : Except ModelError ModelConfig :=
  match fromConfigValue v env.maxLayers with
  | .ok config => .ok config
  | .error (.err text) => missing s!"{source}: {text}"
  | .error .panic => .error .panicked

/-- `bqnt_model_config` -/
def bqntModelConfig (bqnt : Option MmapBqnt) : Option (Json ConfigParse.Number) := do
  let b ← bqnt
  let text ← b.metadata.toOption
  let v ← env.json.fromStr text
  (v.get "model_config").filter fun v => match v with
    | .null => false
    | _ => true

/-- `config`, as first read: from the file, from `config.json`, or for want of both that of one
model. -/
def readConfig (bqnt : Option MmapBqnt) : Except ModelError ModelConfig :=
  match env.bqntModelConfig bqnt, env.configJson with
  | some v, _ => env.configFrom "bqnt model_config" v
  | none, some text =>
      match env.json.fromStr text with
      | some v => env.configFrom "config.json" v
      | none => missing "config.json: "
  | none, none => .ok qwen35

/-- `config` -/
def loadConfig (bqnt : Option MmapBqnt) : Except ModelError ModelConfig := do
  let config ← env.readConfig bqnt
  return { config with
    maxSeqLen := env.maxSeqLen.getD (min config.maxSeqLen 8192)
    weightQuant := env.weightQuant }

/-- `bqnt`: the file at the resolved path, unless it is refused. -/
def openBqnt (file : Option (List UInt8)) : Option MmapBqnt :=
  file.bind fun bytes => (MmapBqnt.openMmap env.json bytes).toOption

/-- `bqnt_writer` -/
def bqntWriter (bqnt : Option MmapBqnt) : Option CacheWriter :=
  if bqnt.isNone ∧ ¬ env.bqntPathSet ∧ env.weightQuant ≠ .bf16 ∧ env.dirHasName ∧ env.creates then
    some .create
  else none

/-- `finish` with empty metadata: the bytes of the cache file. -/
def cacheFile (c : CacheWriter) : List UInt8 := c.writer.finish env.json env.iter "\x7b\x7d"

/-- `load_with_max_seq_len`: the model, and the writer of the cache file as it was before
`finish`. -/
def load (file : Option (List UInt8)) (st : SafeTensorSet) :
    Except ModelError (LoadedModel × Option CacheWriter) :=
  if env.kvQuant ∧ env.multiGpu then
    .error (.invalidConfig ("KV_QUANT=1 is not supported with MULTI_GPU " ++
      "(multi-GPU paged KV dispatch not yet implemented). " ++
      "Either unset KV_QUANT, or unset MULTI_GPU."))
  else do
    let bqnt := env.openBqnt file
    let config ← env.loadConfig bqnt
    env.loadWeights st bqnt config (env.bqntWriter bqnt)

end Env

end Braidinfer.Loader
