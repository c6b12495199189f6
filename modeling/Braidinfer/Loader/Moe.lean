/-
Loading the experts of a layer (`moe_weights.rs`).

The experts are one fused tensor, or one tensor an expert that is fused on the host; the router,
the shared expert, the router bias and the latent projections each have names of their own.

* `loadLatentProj`, `concatPerExpertBqnt`: the two helpers;
* `loadGateUp`, `loadDown`: the experts;
* `loadMoeWeightsInner`: all of a layer.
-/
import Braidinfer.Loader.Weights

namespace Braidinfer.Loader

open Braidinfer.Lib
open Braidinfer.Bqnt
open Moe (WeightFormat LinearWeight ModelError toWeightFormat)
open Engine.ConfigParse (WeightQuantMode ModelConfig)
open Engine.MixedPrefill (FfnType MoeConfig)

/-- `DenseFfnWeights` -/
structure DenseFfnWeights where
  gateProj : LinearWeight
  upProj : LinearWeight
  downProj : LinearWeight

/-- `MoeWeights`; the bias on the GPU is a copy of `scoreCorrectionBias`. -/
structure MoeWeights extends Moe.MoeWeights where
  gate : List UInt8
  sharedExpert : Option DenseFfnWeights
  sharedExpertGate : Option (List UInt8)
  scoreCorrectionBias : Option (List UInt8)
  gateUpInDim : ℕ
  fc1LatentProj : Option LinearWeight
  fc2LatentProj : Option LinearWeight

section

variable (pk : Packing) (st : SafeTensorSet) (bqnt : Option MmapBqnt) (wq : WeightQuantMode)
  (pfx : String)

/-- The safetensors path of `load_latent_proj`. -/
def loadLatentProjSt (tensorName : String) : Except ModelError (Option LinearWeight) :=
  match st.tensorData tensorName with
  | none => .ok none
  | some raw => do
      let shape := ((st.tensorInfo tensorName).map (·.shape)).getD []
      let outDim := shape[0]?.getD 0
      let inDim := shape[1]?.getD 0
      let slice := st.rawParts tensorName raw (outDim * inDim * 2)
      return some (← hostBf16ToLinearWeight pk slice outDim inDim (weightFormatFor tensorName wq))

/-- `load_latent_proj` -/
def loadLatentProj (projName : String) : Except ModelError (Option LinearWeight) :=
  let tensorName := s!"{pfx}{projName}.weight"
  match bqnt.bind fun b => (b.entry tensorName).map fun entry => (b, entry) with
  | none => loadLatentProjSt pk st wq tensorName
  | some (b, entry) =>
      match (codeToFormat entry.format).bind toWeightFormat with
      | none => .error (.invalidConfig s!"{tensorName}: not a linear bqnt format")
      | some fmt =>
          match b.tensorData tensorName with
          | some data =>
              .ok (some (.packed data fmt entry.outFeatures.toNat entry.inFeatures.toNat))
          | none => loadLatentProjSt pk st wq tensorName

/-- The loop of `concat_per_expert_bqnt` over a buffer of `len` bytes: slicing the buffer panics
behind its end, `copy_from_slice` on another length. -/
def concatExperts (b : MmapBqnt) (firstName : String) (perExpertBytes len : ℕ) :
    List ℕ → Except ModelError (Option (List UInt8))
  | [] => .ok (some [])
  | e :: es =>
      match b.tensorData (Text.replace firstName ".0." s!".{e}.") with
      | none => .ok none
      | some data =>
          if len < (e + 1) * perExpertBytes ∨ data.length ≠ perExpertBytes then .error .panicked
          else do return (← concatExperts b firstName perExpertBytes len es).map (data ++ ·)

/-- `concat_per_expert_bqnt`: expert `e` is looked up under the name of expert 0 with every
`.0.` replaced.  The size of the buffer wraps, and no `Vec` has more than `isize::MAX` bytes. -/
def concatPerExpertBqnt (b : MmapBqnt) (firstName : String) (ne : ℕ) :
    Except ModelError (Option LinearWeight) :=
  match b.entry firstName with
  | none => .ok none
  | some entry =>
      let len := ne * entry.dataBytes.toNat % 2 ^ 64
      if 2 ^ 63 ≤ len then .error .panicked
      else do
        let packed ← concatExperts b firstName entry.dataBytes.toNat len (List.range ne)
        return do
          let packed ← packed
          let fmt ← (codeToFormat entry.format).bind toWeightFormat
          some (.packed packed fmt (ne * entry.outFeatures.toNat) entry.inFeatures.toNat)

/-- The closure `load_lw` of `load_moe_weights_inner`. -/
def loadLwMoe (name : String) (outDim inDim : ℕ) : LoadM LinearWeight := do
  match bqnt.map fun b => loadLinearWeightBqnt b name with
  | some (.ok lw) => return lw
  | _ =>
      if (← get).isSome then loadLinearWeightCached pk st name outDim inDim wq
      else loadLinearWeight pk st name outDim inDim wq

/-! ### Experts -/

/-- `fused_name` -/
def fusedName : String := s!"{pfx}mlp.experts.gate_up_proj"

/-- `down_name` -/
def downName : String := s!"{pfx}mlp.experts.down_proj"

/-- `has_gate_proj` -/
def hasGateProj : Bool :=
  has st bqnt (fusedName pfx) ||
    [s!"{pfx}mlp.experts.0.gate_proj.weight", s!"{pfx}experts.0.gate_proj.weight",
      s!"{pfx}block_sparse_moe.experts.0.w1.weight"].any (has st bqnt)

/-- `expert_fmt` -/
def expertFmt (hasGateProj : Bool) : WeightFormat :=
  if hasGateProj then weightFormatFor s!"{pfx}mlp.experts.0.gate_proj.weight" wq
  else weightFormatFor s!"{pfx}experts.0.up_proj.weight" wq

/-- The gate and up projections of an expert, one behind the other. -/
def hostGateUp (eis hs e : ℕ) : Except ModelError (List UInt8) :=
  match [(s!"{pfx}mlp.experts.{e}.gate_proj.weight", s!"{pfx}mlp.experts.{e}.up_proj.weight"),
      (s!"{pfx}block_sparse_moe.experts.{e}.w1.weight",
        s!"{pfx}block_sparse_moe.experts.{e}.w3.weight")].find?
      fun p => (st.tensorData p.1).isSome with
  | none => missing s!"{pfx}experts.{e}.gate_proj.weight (or variants)"
  | some (gp, up) => do
      let g ← requireData st gp
      let u ← requireData st up
      return st.rawParts gp g (eis * hs * 2) ++ st.rawParts up u (eis * hs * 2)

/-- A projection of an expert, under the first of its names. -/
def hostProj (elems : ℕ) (names : List String) (missingName : String) :
    Except ModelError (List UInt8) :=
  match names.find? fun n => (st.tensorData n).isSome with
  | none => missing missingName
  | some name => do
      let raw ← requireData st name
      return st.rawParts name raw (elems * 2)

/-- The up projection of an expert. -/
def hostUp (eis hs e : ℕ) : Except ModelError (List UInt8) :=
  hostProj st (eis * hs)
    [s!"{pfx}experts.{e}.up_proj.weight", s!"{pfx}mlp.experts.{e}.up_proj.weight"]
    s!"{pfx}experts.{e}.up_proj.weight"

/-- The down projection of an expert. -/
def hostDown (eis hs e : ℕ) : Except ModelError (List UInt8) :=
  hostProj st (hs * eis)
    [s!"{pfx}mlp.experts.{e}.down_proj.weight", s!"{pfx}experts.{e}.down_proj.weight",
      s!"{pfx}block_sparse_moe.experts.{e}.w2.weight"]
    s!"{pfx}experts.{e}.down_proj (or variants)"

/-- The experts fused on the host. -/
def hostFuse (ne : ℕ) (expert : ℕ → Except ModelError (List UInt8)) :
    Except ModelError (List UInt8) := do
  return (← (List.range ne).mapM expert).flatten

/-- The experts of a file that has one tensor an expert, under the first of `names` for expert 0. -/
def concatFirst (names : List String) (ne : ℕ) : Except ModelError (Option LinearWeight) :=
  match bqnt with
  | none => .ok none
  | some b =>
      match names.find? fun n => (b.entry n).isSome with
      | none => .ok none
      | some firstName => concatPerExpertBqnt b firstName ne

/-- A fused tensor of the safetensors files. -/
def loadFusedSt (name : String) (outDim inDim : ℕ) : LoadM LinearWeight := do
  if (← get).isSome then loadLinearWeightCached pk st name outDim inDim wq
  else loadLinearWeight pk st name outDim inDim wq

/-- `expert_gate_up` -/
def loadGateUp (ne eis hs : ℕ) (hasGateProj : Bool) : LoadM LinearWeight := do
  match bqnt.map fun b => loadLinearWeightBqnt b (fusedName pfx) with
  | some (.ok lw) => return lw
  | _ =>
      if (st.tensorData (fusedName pfx)).isSome then
        loadFusedSt pk st wq (fusedName pfx) (ne * 2 * eis) hs
      else if hasGateProj then
        let hostBuf ← hostFuse ne (hostGateUp st pfx eis hs)
        hostBf16QuantizeUploadCache pk hostBuf (ne * 2 * eis) hs (expertFmt wq pfx hasGateProj)
          (fusedName pfx)
      else
        match ← concatFirst bqnt
            [s!"{pfx}experts.0.up_proj.weight", s!"{pfx}mlp.experts.0.up_proj.weight"] ne with
        | some lw => return lw
        | none =>
            let hostBuf ← hostFuse ne (hostUp st pfx eis hs)
            hostBf16QuantizeUploadCache pk hostBuf (ne * eis) hs (expertFmt wq pfx hasGateProj)
              (fusedName pfx)

/-- `expert_down` -/
def loadDown (ne eis hs : ℕ) (hasGateProj : Bool) : LoadM LinearWeight := do
  match bqnt.map fun b => loadLinearWeightBqnt b (downName pfx) with
  | some (.ok lw) => return lw
  | _ =>
      if (st.tensorData (downName pfx)).isSome then
        loadFusedSt pk st wq (downName pfx) (ne * hs) eis
      else
        match ← concatFirst bqnt
            [s!"{pfx}mlp.experts.0.down_proj.weight", s!"{pfx}experts.0.down_proj.weight"] ne with
        | some lw => return lw
        | none =>
            let hostBuf ← hostFuse ne (hostDown st pfx eis hs)
            hostBf16QuantizeUploadCache pk hostBuf (ne * hs) eis (expertFmt wq pfx hasGateProj)
              (downName pfx)

/-- The placeholder of experts that are not loaded. -/
def emptyExperts : LinearWeight := .packed [] .pcG32Q4 0 0

/-- `expert_gate_up` and `expert_down` -/
def loadExperts (skipExperts : Bool) (ne eis hs : ℕ) (hasGateProj : Bool) :
    LoadM (LinearWeight × LinearWeight) := do
  if skipExperts then return (emptyExperts, emptyExperts)
  else
    let gateUp ← loadGateUp pk st bqnt wq pfx ne eis hs hasGateProj
    let down ← loadDown pk st bqnt wq pfx ne eis hs hasGateProj
    return (gateUp, down)

/-! ### The rest of a layer -/

/-- `gate` -/
def loadGate (ne hs : ℕ) : Except ModelError (List UInt8) :=
  match [s!"{pfx}mlp.gate.weight", s!"{pfx}gate.weight", s!"{pfx}block_sparse_moe.gate.weight",
      s!"{pfx}mlp.router.weight"].find? (has st bqnt) with
  | none => missing s!"{pfx}mlp.gate.weight (or variants)"
  | some gateName => loadBf16First st bqnt gateName (ne * hs)

/-- The gate projection of the shared expert; relu² models have none. -/
def loadSharedGateProj (sis hs : ℕ) : LoadM LinearWeight :=
  match findWeightName st bqnt
      [s!"{pfx}mlp.shared_expert.gate_proj.weight", s!"{pfx}shared_experts.gate_proj.weight"] with
  | .ok name => loadLwMoe pk st bqnt wq name sis hs
  | .error _ => return .bf16 []

/-- `shared_expert` -/
def loadSharedExpert (m : MoeConfig) (hs : ℕ) : LoadM (Option DenseFfnWeights) := do
  if m.numShared = 0 then return none
  else
    let sis := if m.sharedIntermediateSize = 0 then m.expertIntermediateSize
      else m.sharedIntermediateSize
    let upName ← findWeightName st bqnt
      [s!"{pfx}mlp.shared_expert.up_proj.weight", s!"{pfx}shared_experts.up_proj.weight"]
    let downName ← findWeightName st bqnt
      [s!"{pfx}mlp.shared_expert.down_proj.weight", s!"{pfx}shared_experts.down_proj.weight"]
    let gateProj ← loadSharedGateProj pk st bqnt wq pfx sis hs
    let upProj ← loadLwMoe pk st bqnt wq upName sis hs
    let downProj ← loadLwMoe pk st bqnt wq downName hs sis
    return some { gateProj, upProj, downProj }

/-- `shared_expert_gate` -/
def loadSharedExpertGate (hs : ℕ) : Except ModelError (Option (List UInt8)) := do
  let name := s!"{pfx}mlp.shared_expert_gate.weight"
  if has st bqnt name then return some (← loadBf16First st bqnt name hs) else return none

/-- `score_correction_bias` -/
def loadScoreCorrectionBias (ne : ℕ) : Except ModelError (Option (List UInt8)) :=
  match findWeightName st bqnt
      [s!"{pfx}gate.e_score_correction_bias", s!"{pfx}mlp.gate.e_score_correction_bias"] with
  | .error _ => .ok none
  | .ok name =>
      match (bqnt.bind fun b => b.tensorData name).filter fun d => d.length = ne * 4 with
      | some d => .ok (some d)
      | none => do
          let raw ← requireData st name
          return some (st.rawParts name raw (ne * 4))

/-- `load_moe_weights_inner` -/
def loadMoeWeightsInner (config : ModelConfig) (ffnType : FfnType) (skipExperts : Bool) :
    LoadM MoeWeights :=
  match ffnType with
  | .moe m => do
      let ne := m.numExperts
      let eis := m.expertIntermediateSize
      let hs := config.hiddenSize
      let gate ← loadGate st bqnt pfx ne hs
      let gated := hasGateProj st bqnt pfx
      let (expertGateUp, expertDown) ← loadExperts pk st bqnt wq pfx skipExperts ne eis hs gated
      let sharedExpert ← loadSharedExpert pk st bqnt wq pfx m hs
      let sharedExpertGate ← loadSharedExpertGate st bqnt pfx hs
      let scoreCorrectionBias ← loadScoreCorrectionBias st bqnt pfx ne
      let fc1LatentProj ← loadLatentProj pk st bqnt wq pfx "fc1_latent_proj"
      let fc2LatentProj ← loadLatentProj pk st bqnt wq pfx "fc2_latent_proj"
      return {
        expertGateUp, expertDown
        numExperts := ne
        expertIntermediateSize := eis
        hasGateProj := gated
        gate, sharedExpert, sharedExpertGate, scoreCorrectionBias
        gateUpInDim := (expertGateUp.inDim.filter (0 < ·)).getD (config.moeLatentSize.getD hs)
        fc1LatentProj, fc2LatentProj }
  | _ => throw .panicked

end

end Braidinfer.Loader
