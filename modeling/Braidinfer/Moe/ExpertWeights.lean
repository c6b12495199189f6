/-
Distributing the expert weights of a layer over the GPUs (`moe_weights.rs`).

The experts go round robin over the GPUs from `start_gpu` on.  Every GPU gets a buffer with one
slot for each of its experts and a map from experts to slots; GPU 0 may go on using the packed
buffer the layer was loaded into.

* `roundRobin`, `slotMap`: the two loops both paths share;
* `distributeMoeWeightsFromRef`: from the packed buffer on GPU 0;
* `distributeMoeWeightsFromBqnt`: from the tensors of a BQNT file, fused or one an expert.
-/
import Mathlib.Data.List.Basic
import Braidinfer.Lib.Slots
import Braidinfer.Bqnt.Reader

namespace Braidinfer.Moe

open Braidinfer.Lib
open Braidinfer.Bqnt

/-! ### Weights -/

/-- `WeightFormat` -/
inductive WeightFormat
  | bf16 | rnf4G128 | pcG32Q4
deriving DecidableEq, Repr

/-- The bytes of `rows` rows of length `inDim`. -/
def WeightFormat.rowBytes (format : WeightFormat) (rows inDim : ℕ) : ℕ :=
  match format with
  | .bf16 => rows * inDim * 2
  | .rnf4G128 => rows * ((inDim + 127) / 128) * 132
  | .pcG32Q4 => rows * ((inDim + 31) / 32) * 20

/-- `StorageDtype::to_weight_format` -/
def toWeightFormat : StorageDtype → Option WeightFormat
  | .bf16 => some .bf16
  | .pcG32Q4 => some .pcG32Q4
  | .rnf4G128 => some .rnf4G128
  | .f32 => none

/-- `LinearWeight`, with the bytes of its device buffer. -/
inductive LinearWeight
  | bf16 (data : List UInt8)
  | packed (data : List UInt8) (format : WeightFormat) (outDim inDim : ℕ)
deriving DecidableEq, Repr

namespace LinearWeight

/-- The bytes at `raw_data_ptr`. -/
def rawData : LinearWeight → List UInt8
  | bf16 data => data
  | packed data _ _ _ => data

/-- `weight_format` -/
def weightFormat : LinearWeight → WeightFormat
  | bf16 _ => .bf16
  | packed _ format _ _ => format

/-- `in_dim` -/
def inDim : LinearWeight → Option ℕ
  | bf16 _ => none
  | packed _ _ _ inDim => some inDim

/-- `row_byte_offset_dim` -/
def rowByteOffsetDim (w : LinearWeight) (rowStart inDim : ℕ) : ℕ :=
  w.weightFormat.rowBytes rowStart inDim

end LinearWeight

/-- The fields of `MoeWeights` that the distribution reads. -/
structure MoeWeights where
  expertGateUp : LinearWeight
  expertDown : LinearWeight
  numExperts : ℕ
  expertIntermediateSize : ℕ
  hasGateProj : Bool

/-- The device buffers that hold expert weights: the layer's packed tensors and the buffers of
every GPU. -/
inductive ExpertBuf
  | packedGateUp | packedDown
  | gateUp (gpu : ℕ) | down (gpu : ℕ)
deriving DecidableEq, Repr

/-- `GpuExpertBuffer` -/
structure GpuExpertBuffer where
  gateUp : List UInt8
  down : List UInt8
  localExpertCount : ℕ
  slotMap : List (Option ℕ)
deriving DecidableEq, Repr

/-- `DistributedMoeWeights` -/
structure DistributedMoeWeights where
  expertBuffers : List GpuExpertBuffer
  expertDevice : List ℕ
  hasGateProj : Bool
  numExperts : ℕ
  expertIntermediateSize : ℕ
  gateUpInDim : ℕ
  gateUpExpertStride : ℕ
  downExpertStride : ℕ
  gateUpRowStride : ℕ
  weightFormat : WeightFormat
  gpu0GateUpBase : ExpertBuf
  gpu0DownBase : ExpertBuf
deriving DecidableEq, Repr

/-- The errors of the two paths; `panicked` is a failed `unwrap`, index or division. -/
inductive ModelError
  | invalidConfig (msg : String)
  | missingWeight (name : String)
  | panicked
deriving DecidableEq, Repr

/-! ### Ownership and slots -/

/-- `if start_gpu >= num_devices` -/
def checkStartGpu (numDevices startGpu : ℕ) : Except ModelError Unit :=
  if startGpu ≥ numDevices then
    .error (.invalidConfig
      s!"start_gpu {startGpu} must be less than num_devices {numDevices}")
  else .ok ()

/-- `start_gpu` of `enable_distributed_moe`. -/
def startGpuFor (numDevices : ℕ) : ℕ := if numDevices > 1 then 1 else 0

/-- `expert_device` and `counts`. -/
def roundRobin (ne numDevices startGpu : ℕ) : List ℕ × List ℕ :=
  let workerCount := numDevices - startGpu
  (List.range ne).foldl (fun (expertDevice, counts) e =>
    let gpu := startGpu + e % workerCount
    (expertDevice.set e gpu, counts.modify gpu (· + 1)))
    (List.replicate ne 0, List.replicate numDevices 0)

/-- `slot_map` of a GPU: its experts in order. -/
def slotMap (expertDevice : List ℕ) (ne gpu : ℕ) : List (Option ℕ) :=
  ((List.range ne).foldl (fun (slotMap, slot) e =>
    if expertDevice[e]? = some gpu then (slotMap.set e (some slot), slot + 1)
    else (slotMap, slot)) (List.replicate ne none, 0)).1

/-- `slot_map_identity` -/
def slotMapIdentity (expertDevice : List ℕ) (ne : ℕ) : List (Option ℕ) :=
  (List.range ne).foldl (fun slotMap e =>
    if expertDevice[e]? = some 0 then slotMap.set e (some e) else slotMap)
    (List.replicate ne none)

/-- `DeviceBuffer::<u8>::alloc`: the contents are arbitrary. -/
def allocBytes (junk : ℕ → UInt8) (n : ℕ) : List UInt8 := (List.range n).map junk

/-- The empty buffer of a GPU with one slot for each of its experts. -/
def allocExpertBuffer (junk : ExpertBuf → ℕ → UInt8) (expertDevice counts : List ℕ)
    (ne gateUpStride downStride gpu : ℕ) : GpuExpertBuffer :=
  let n := counts[gpu]?.getD 0
  { gateUp := allocBytes (junk (.gateUp gpu)) (n * gateUpStride)
    down := allocBytes (junk (.down gpu)) (n * downStride)
    localExpertCount := n
    slotMap := slotMap expertDevice ne gpu }

/-- `expert_device[e]` and `expert_buffers[gpu].slot_map[e].unwrap()` -/
def expertPlace (expertDevice : List ℕ) (buffers : List GpuExpertBuffer) (e : ℕ) :
    Except ModelError (ℕ × ℕ) :=
  match expertDevice[e]? with
  | none => .error .panicked
  | some gpu =>
      match (buffers[gpu]?.bind fun b => b.slotMap[e]?).join with
      | none => .error .panicked
      | some slot => .ok (gpu, slot)

/-- The two copies of an expert into its slot. -/
def storeExpert (gateUpStride downStride slot : ℕ) (gateUp down : List UInt8)
    (b : GpuExpertBuffer) : GpuExpertBuffer :=
  { b with
    gateUp := overwriteAt b.gateUp (slot * gateUpStride) gateUp
    down := overwriteAt b.down (slot * downStride) down }

/-! ### The reference path -/

/-- The copies of `distribute_moe_weights_from_ref` for one expert; GPU 0 uses the packed buffer. -/
def copyExpertFromRef (moe : MoeWeights) (expertDevice : List ℕ) (gateUpStride downStride : ℕ)
    (buffers : List GpuExpertBuffer) (e : ℕ) : Except ModelError (List GpuExpertBuffer) :=
  if expertDevice[e]? = some 0 then .ok buffers
  else
    match expertPlace expertDevice buffers e with
    | .error err => .error err
    | .ok (gpu, slot) =>
        .ok (buffers.modify gpu (storeExpert gateUpStride downStride slot
          (slice moe.expertGateUp.rawData (e * gateUpStride) gateUpStride)
          (slice moe.expertDown.rawData (e * downStride) downStride)))

/-- `distribute_moe_weights_from_ref` -/
def distributeMoeWeightsFromRef (junk : ExpertBuf → ℕ → UInt8) (moe : MoeWeights)
    (numDevices hs startGpu : ℕ) : Except ModelError DistributedMoeWeights := do
  checkStartGpu numDevices startGpu
  let ne := moe.numExperts
  let eis := moe.expertIntermediateSize
  let gateUpInDim := moe.expertGateUp.inDim.getD hs
  let gateUpRows := if moe.hasGateProj then 2 * eis else eis
  let gateUpStride := moe.expertGateUp.rowByteOffsetDim gateUpRows gateUpInDim
  let downStride := moe.expertDown.rowByteOffsetDim gateUpInDim eis
  let (expertDevice, counts) := roundRobin ne numDevices startGpu
  let buffers := (List.range numDevices).map fun gpu =>
    if gpu = 0 then
      { gateUp := [], down := [], localExpertCount := counts[gpu]?.getD 0,
        slotMap := slotMapIdentity expertDevice ne }
    else allocExpertBuffer junk expertDevice counts ne gateUpStride downStride gpu
  let buffers ← (List.range ne).foldlM
    (copyExpertFromRef moe expertDevice gateUpStride downStride) buffers
  return {
    expertBuffers := buffers
    expertDevice := expertDevice
    hasGateProj := moe.hasGateProj
    numExperts := ne
    expertIntermediateSize := eis
    gateUpInDim := gateUpInDim
    gateUpExpertStride := gateUpStride
    downExpertStride := downStride
    gateUpRowStride := moe.expertGateUp.rowByteOffsetDim 1 gateUpInDim
    weightFormat := moe.expertGateUp.weightFormat
    gpu0GateUpBase := .packedGateUp
    gpu0DownBase := .packedDown }

/-! ### The BQNT path -/

section Bqnt

variable (bqnt : MmapBqnt) (pfx : String) (layerIdx : ℕ)

/-- The names of a layer's expert tensors. -/
def expertsName (ffnKey rest : String) : String :=
  s!"{pfx}layers.{layerIdx}.{ffnKey}.experts.{rest}"

/-- The name of one expert's tensor. -/
def expertName (ffnKey : String) (e : ℕ) (proj : String) : String :=
  expertsName pfx layerIdx ffnKey s!"{e}.{proj}.weight"

/-- `ffn_key` -/
def bqntFfnKey : String :=
  if (bqnt.entry (expertsName pfx layerIdx "mixer" "gate_up_proj")).isSome ∨
      (bqnt.entry (expertName pfx layerIdx "mixer" 0 "up_proj")).isSome ∨
      (bqnt.entry (expertName pfx layerIdx "mixer" 0 "gate_proj")).isSome then "mixer"
  else "mlp"

/-- `ok_or_else(|| ModelError::MissingWeight(name))` -/
def okOrMissing {α : Type} (x : Option α) (name : String) : Except ModelError α :=
  match x with
  | some a => .ok a
  | none => .error (.missingWeight name)

/-- `has_fused` -/
def bqntHasFused (key : String) : Bool :=
  (bqnt.entry (expertsName pfx layerIdx key "gate_up_proj")).isSome

/-- `weight_format` -/
def bqntWeightFormat (key : String) : Except ModelError WeightFormat := do
  let firstGate := expertName pfx layerIdx key 0 "gate_proj"
  let probeName :=
    if bqntHasFused bqnt pfx layerIdx key then expertsName pfx layerIdx key "gate_up_proj"
    else if (bqnt.entry firstGate).isSome then firstGate
    else expertName pfx layerIdx key 0 "up_proj"
  let entry ← okOrMissing (bqnt.entry probeName) probeName
  let code := entry.format.toNat
  okOrMissing ((codeToFormat entry.format).bind toWeightFormat)
    s!"{probeName}: not a linear bqnt format code {code}"

/-- `(gu_bytes_per_expert, down_bytes_per_expert, gate_up_in_dim)` -/
def bqntExpertSizes (moe : MoeWeights) (key : String) : Except ModelError (ℕ × ℕ × ℕ) :=
  if bqntHasFused bqnt pfx layerIdx key then do
    let fusedName := expertsName pfx layerIdx key "gate_up_proj"
    let entry ← okOrMissing (bqnt.entry fusedName) fusedName
    let downName := expertsName pfx layerIdx key "down_proj"
    let downEntry ← okOrMissing (bqnt.entry downName) downName
    if moe.numExperts = 0 then throw .panicked
    return (entry.dataBytes.toNat / moe.numExperts, downEntry.dataBytes.toNat / moe.numExperts,
      entry.inFeatures.toNat)
  else do
    let firstUp := expertName pfx layerIdx key 0 "up_proj"
    let entry ← okOrMissing (bqnt.entry firstUp) firstUp
    let upBytes := entry.dataBytes.toNat
    let firstDown := expertName pfx layerIdx key 0 "down_proj"
    let downEntry ← okOrMissing (bqnt.entry firstDown) firstDown
    return (if moe.hasGateProj then upBytes * 2 else upBytes, downEntry.dataBytes.toNat,
      entry.inFeatures.toNat)

/-- The copies of one expert out of the fused tensors. -/
def loadExpertFused (expertDevice : List ℕ) (guBytes downBytes : ℕ) (guData downData : List UInt8)
    (buffers : List GpuExpertBuffer) (e : ℕ) : Except ModelError (List GpuExpertBuffer) := do
  let (gpu, slot) ← expertPlace expertDevice buffers e
  return buffers.modify gpu (storeExpert guBytes downBytes slot
    (slice guData (e * guBytes) guBytes) (slice downData (e * downBytes) downBytes))

/-- The copies of one expert out of its own tensors, with `gate_proj` in front of `up_proj`. -/
def loadExpertSingle (moe : MoeWeights) (key : String) (expertDevice : List ℕ)
    (guBytes downBytes : ℕ) (buffers : List GpuExpertBuffer) (e : ℕ) :
    Except ModelError (List GpuExpertBuffer) := do
  let (gpu, slot) ← expertPlace expertDevice buffers e
  let gateName := expertName pfx layerIdx key e "gate_proj"
  let upName := expertName pfx layerIdx key e "up_proj"
  let buffers ←
    if moe.hasGateProj then do
      let g ← okOrMissing (bqnt.tensorData gateName) gateName
      let u ← okOrMissing (bqnt.tensorData upName) upName
      pure (buffers.modify gpu fun b => { b with
        gateUp := overwriteAt (overwriteAt b.gateUp (slot * guBytes) g)
          (slot * guBytes + g.length) u })
    else do
      let u ← okOrMissing (bqnt.tensorData upName) upName
      pure (buffers.modify gpu fun b => { b with
        gateUp := overwriteAt b.gateUp (slot * guBytes) u })
  let downName := expertName pfx layerIdx key e "down_proj"
  let d ← okOrMissing (bqnt.tensorData downName) downName
  return buffers.modify gpu fun b => { b with
    down := overwriteAt b.down (slot * downBytes) d }

/-- `distribute_moe_weights_from_bqnt` -/
def distributeMoeWeightsFromBqnt (junk : ExpertBuf → ℕ → UInt8) (moe : MoeWeights)
    (numDevices startGpu : ℕ) : Except ModelError DistributedMoeWeights := do
  checkStartGpu numDevices startGpu
  let ne := moe.numExperts
  let key := bqntFfnKey bqnt pfx layerIdx
  let weightFormat ← bqntWeightFormat bqnt pfx layerIdx key
  let (guBytes, downBytes, gateUpInDim) ← bqntExpertSizes bqnt pfx layerIdx moe key
  let (expertDevice, counts) := roundRobin ne numDevices startGpu
  let buffers := (List.range numDevices).map
    (allocExpertBuffer junk expertDevice counts ne guBytes downBytes)
  let buffers ←
    if bqntHasFused bqnt pfx layerIdx key then do
      let fusedName := expertsName pfx layerIdx key "gate_up_proj"
      let guData ← okOrMissing (bqnt.tensorData fusedName) fusedName
      let downName := expertsName pfx layerIdx key "down_proj"
      let downData ← okOrMissing (bqnt.tensorData downName) downName
      (List.range ne).foldlM (loadExpertFused expertDevice guBytes downBytes guData downData)
        buffers
    else
      (List.range ne).foldlM
        (loadExpertSingle bqnt pfx layerIdx moe key expertDevice guBytes downBytes) buffers
  return {
    expertBuffers := buffers
    expertDevice := expertDevice
    hasGateProj := moe.hasGateProj
    numExperts := ne
    expertIntermediateSize := moe.expertIntermediateSize
    gateUpInDim := gateUpInDim
    gateUpExpertStride := guBytes
    downExpertStride := downBytes
    gateUpRowStride := weightFormat.rowBytes 1 gateUpInDim
    weightFormat := weightFormat
    gpu0GateUpBase := .gateUp 0
    gpu0DownBase := .down 0 }

end Bqnt

end Braidinfer.Moe
