/-
Reading one tensor (`weights.rs`), from the safetensors files of a model or from a BQNT file.

A buffer on the device is the list of its bytes, so that a bf16 tensor is copied as it is and a
bf16 tensor read as f32 gets two zero bytes in front of every value.

* `SafeTensorSet`: the shards of a model and the index that says where a tensor is;
* `quantizeAs`: packing the rows of a matrix, with the arithmetic inside a group as a parameter;
* `CacheWriter`, `LoadM`: loading, with the writer of the cache file as state;
* `loadWeightBf16`, `loadWeightF32`, `loadLinearWeight`, `loadLinearWeightCached`: from
  safetensors;
* `loadWeightBf16Bqnt`, `loadWeightF32Bqnt`, `loadLinearWeightBqnt`: from a BQNT file.
-/
import Braidinfer.Lib.Text
import Braidinfer.Bqnt.Reader
import Braidinfer.Moe.ExpertWeights
import Braidinfer.Engine.ConfigParse

namespace Braidinfer.Loader

open Braidinfer.Lib
open Braidinfer.Bqnt
open Moe (WeightFormat LinearWeight ModelError toWeightFormat)
open Engine.ConfigParse (WeightQuantMode)

/-! ### Safetensors -/

/-- `safetensors::Dtype` -/
inductive Dtype
  | bool | f4 | f6E2M3 | f6E3M2 | u8 | i8 | f8E5M2 | f8E4M3 | f8E8M0 | i16 | u16 | f16 | bf16
  | i32 | u32 | f32 | c64 | f64 | i64 | u64
deriving DecidableEq, Repr

/-- `Dtype::bitsize` -/
def Dtype.bitsize : Dtype → ℕ
  | .f4 => 4
  | .f6E2M3 | .f6E3M2 => 6
  | .bool | .u8 | .i8 | .f8E5M2 | .f8E4M3 | .f8E8M0 => 8
  | .i16 | .u16 | .f16 | .bf16 => 16
  | .i32 | .u32 | .f32 => 32
  | .c64 | .f64 | .i64 | .u64 => 64

/-- A tensor of a shard: its `TensorInfo` and its bytes, which are as many as the shape says. -/
structure StTensor where
  dtype : Dtype
  shape : List ℕ
  data : List UInt8
  size : data.length * 8 = shape.prod * dtype.bitsize

/-- The tensors of one file, in the order in which their map lists them. -/
abbrev Shard := HashMap String StTensor

/-- `SafeTensorSet`.  `past` are the bytes in memory behind the data of a tensor. -/
structure SafeTensorSet where
  shards : List Shard
  index : HashMap String ℕ
  past : String → ℕ → UInt8

namespace SafeTensorSet

/-- `SafeTensorSet::empty` -/
def empty : SafeTensorSet := ⟨[], ∅, fun _ _ => 0⟩

variable (st : SafeTensorSet)

/-- `tensor_names` -/
def tensorNames : List String := st.index.keys

/-- `tensor_info` -/
def tensorInfo (name : String) : Option StTensor :=
  (st.index.lookup name).bind fun i => st.shards[i]?.bind fun shard => shard.lookup name

/-- `tensor_data` -/
def tensorData (name : String) : Option (List UInt8) := (st.tensorInfo name).map (·.data)

/-- `from_raw_parts`: the `n` bytes from the start of a tensor, however many it has. -/
def rawParts (name : String) (raw : List UInt8) (n : ℕ) : List UInt8 :=
  raw.take n ++ (List.range (n - raw.length)).map (st.past name)

@[simp]
lemma tensorData_empty (name : String) : empty.tensorData name = none := rfl

@[simp]
lemma tensorInfo_empty (name : String) : empty.tensorInfo name = none := rfl

end SafeTensorSet

/-! ### Packing -/

/-- The floating-point work on one group: from its bf16 bytes to its packed bytes. -/
structure Packing where
  rnf4Group : List UInt8 → List UInt8
  pcGroup : List UInt8 → List UInt8

/-- What is written to a zeroed buffer of `n` bytes. -/
def fit (n : ℕ) (bytes : List UInt8) : List UInt8 := (bytes ++ List.replicate n 0).take n

/-- The rows of a bf16 matrix, group by group; `par_chunks_mut` panics on empty rows. -/
def packRows (groupSize groupBytes : ℕ) (group : List UInt8 → List UInt8) (bf16 : List UInt8)
    (outDim inDim : ℕ) : Except ModelError (List UInt8) :=
  if inDim = 0 then .error .panicked
  else .ok ((List.range outDim).flatMap fun row =>
    (List.range ((inDim + groupSize - 1) / groupSize)).flatMap fun g =>
      let base := row * inDim + g * groupSize
      let count := min groupSize (inDim - g * groupSize)
      fit groupBytes (group (slice bf16 (base * 2) (count * 2))))

variable (pk : Packing)

/-- `quantize_rnf4_g128` -/
def quantizeRnf4G128 : List UInt8 → ℕ → ℕ → Except ModelError (List UInt8) :=
  packRows 128 132 pk.rnf4Group

/-- `quantize_pc_g32_q4` -/
def quantizePcG32Q4 : List UInt8 → ℕ → ℕ → Except ModelError (List UInt8) :=
  packRows 32 20 pk.pcGroup

/-- The bytes of a bf16 matrix in a format. -/
def quantizeAs (fmt : WeightFormat) (bf16 : List UInt8) (outDim inDim : ℕ) :
    Except ModelError (List UInt8) :=
  match fmt with
  | .rnf4G128 => quantizeRnf4G128 pk bf16 outDim inDim
  | .pcG32Q4 => quantizePcG32Q4 pk bf16 outDim inDim
  | .bf16 => .ok bf16

/-- `StorageDtype::from_weight_format` -/
def fromWeightFormat : WeightFormat → StorageDtype
  | .bf16 => .bf16
  | .pcG32Q4 => .pcG32Q4
  | .rnf4G128 => .rnf4G128

/-- `weight_format_for` -/
def weightFormatFor (name : String) (mode : WeightQuantMode) : WeightFormat :=
  match mode with
  | .bf16 => .bf16
  | .rnf4 => .rnf4G128
  | .mixed =>
      if Text.contains name "mlp." || Text.contains name "gate_proj" ||
          Text.contains name "up_proj" || Text.contains name "down_proj" then
        if Text.contains name "mlp.gate.weight" || Text.contains name "block_sparse_moe.gate" ||
            Text.contains name "mlp.router" then .bf16
        else .pcG32Q4
      else .rnf4G128

/-! ### From safetensors -/

/-- `ModelError::MissingWeight` -/
def missing {α : Type} (name : String) : Except ModelError α := .error (.missingWeight name)

/-- `assert_eq!` -/
def assertEq (a b : ℕ) : Except ModelError Unit := if a = b then .ok () else .error .panicked

/-- The data of a tensor, which has to be there. -/
def requireData (st : SafeTensorSet) (name : String) : Except ModelError (List UInt8) :=
  match st.tensorData name with
  | some raw => .ok raw
  | none => missing name

/-- `format!("{names:?}")` -/
def debugList (names : List String) : String :=
  "[" ++ ", ".intercalate (names.map String.quote) ++ "]"

/-- The name has an entry or is a tensor. -/
def has (st : SafeTensorSet) (bqnt : Option MmapBqnt) (name : String) : Bool :=
  (bqnt.map fun b => (b.entry name).isSome).getD false || (st.tensorData name).isSome

/-- `find_weight_name` -/
def findWeightName (st : SafeTensorSet) (bqnt : Option MmapBqnt) (candidates : List String) :
    Except ModelError String :=
  match candidates.find? (has st bqnt) with
  | some name => .ok name
  | none => missing s!"none of {debugList candidates} found"

/-- `load_weight_bf16` -/
def loadWeightBf16 (st : SafeTensorSet) (name : String) (expectedLen : ℕ) :
    Except ModelError (List UInt8) := do
  let raw ← requireData st name
  assertEq raw.length (expectedLen * 2)
  return raw

/-- bf16 values as f32. -/
def widen : List UInt8 → List UInt8
  | lo :: hi :: rest => 0 :: 0 :: lo :: hi :: widen rest
  | _ => []

/-- `load_weight_f32` -/
def loadWeightF32 (st : SafeTensorSet) (name : String) (expectedLen : ℕ) :
    Except ModelError (List UInt8) :=
  match st.tensorInfo name with
  | none => missing name
  | some info =>
      match info.dtype with
      | .f32 => do
          assertEq info.data.length (expectedLen * 4)
          return info.data
      | .bf16 => do
          assertEq info.data.length (expectedLen * 2)
          return widen info.data
      | _ => .error .panicked

/-- `load_weight_quantized` -/
def loadWeightQuantized (st : SafeTensorSet) (name : String) (outDim inDim : ℕ)
    (format : WeightFormat) : Except ModelError LinearWeight := do
  let raw ← requireData st name
  assertEq raw.length (outDim * inDim * 2)
  let packed ← quantizeAs pk format raw outDim inDim
  return .packed packed format outDim inDim

/-- `load_linear_weight` -/
def loadLinearWeight (st : SafeTensorSet) (name : String) (outDim inDim : ℕ)
    (mode : WeightQuantMode) : Except ModelError LinearWeight :=
  match weightFormatFor name mode with
  | .bf16 => do return .bf16 (← loadWeightBf16 st name (outDim * inDim))
  | format => loadWeightQuantized pk st name outDim inDim format

/-- `host_bf16_to_linear_weight` -/
def hostBf16ToLinearWeight (hostBuf : List UInt8) (outDim inDim : ℕ) (fmt : WeightFormat) :
    Except ModelError LinearWeight :=
  match fmt with
  | .bf16 => .ok (.bf16 hostBuf)
  | fmt => do return .packed (← quantizeAs pk fmt hostBuf outDim inDim) fmt outDim inDim

/-! ### With the writer of the cache -/

/-- The writer of the cache file, with the tensors it was given. -/
structure CacheWriter where
  writer : BqntWriter
  written : List Tensor
  wrote : (BqntWriter.create 65536).writeTensors written = .ok writer

/-- `BqntWriter::create(p, 65536)` -/
def CacheWriter.create : CacheWriter := ⟨BqntWriter.create 65536, [], rfl⟩

/-- Loading a model; the state is the writer of the cache file, if there is one. -/
abbrev LoadM := StateT (Option CacheWriter) (Except ModelError)

/-- `write_tensor` on the writer, if there is one; two names with one hash are a panic. -/
def cacheTensor (name : String) (fmt : WeightFormat) (outDim inDim : ℕ) (packed : List UInt8) :
    LoadM Unit := fun cache =>
  match cache with
  | none => .ok ((), none)
  | some c =>
      let t : Tensor := { name, format := fromWeightFormat fmt, outFeatures := .ofNat outDim,
                          inFeatures := .ofNat inDim, ndim := 2, data := packed }
      match h : c.writer.writeTensor t with
      | .ok w =>
          .ok ((), some ⟨w, c.written ++ [t], by
            rw [BqntWriter.writeTensors_append c.wrote, BqntWriter.writeTensors, h]
            rfl⟩)
      | .error _ => .error .panicked

/-- `host_bf16_quantize_upload_cache` -/
def hostBf16QuantizeUploadCache (hostBuf : List UInt8) (outDim inDim : ℕ) (fmt : WeightFormat)
    (cacheName : String) : LoadM LinearWeight := do
  let packed ← quantizeAs pk fmt hostBuf outDim inDim
  cacheTensor cacheName fmt outDim inDim packed
  return .packed packed fmt outDim inDim

/-- `load_linear_weight_cached` -/
def loadLinearWeightCached (st : SafeTensorSet) (name : String) (outDim inDim : ℕ)
    (mode : WeightQuantMode) : LoadM LinearWeight :=
  match weightFormatFor name mode with
  | .bf16 => do return .bf16 (← loadWeightBf16 st name (outDim * inDim))
  | format => do
      let raw ← requireData st name
      let packed ← quantizeAs pk format (st.rawParts name raw (outDim * inDim * 2)) outDim inDim
      cacheTensor name format outDim inDim packed
      return .packed packed format outDim inDim

/-! ### From a BQNT file -/

/-- `load_linear_weight_bqnt` -/
def loadLinearWeightBqnt (bqnt : MmapBqnt) (name : String) : Except ModelError LinearWeight :=
  match bqnt.entry name with
  | none => missing name
  | some entry =>
      match (codeToFormat entry.format).bind toWeightFormat with
      | none => missing (s!"{name}: not a linear-weight format code {entry.format} " ++
          "(bd 4ayf: F32/non-linear tensors load via load_weight_f32_bqnt, not the linear path)")
      | some format =>
          match bqnt.tensorData name with
          | none => missing s!"{name}: data out of bounds"
          | some data =>
              match format with
              | .bf16 =>
                  .ok (.bf16 (data.take (entry.outFeatures.toNat * entry.inFeatures.toNat * 2)))
              | format =>
                  .ok (.packed data format entry.outFeatures.toNat entry.inFeatures.toNat)

/-- `load_weight_bf16_bqnt` -/
def loadWeightBf16Bqnt (bqnt : MmapBqnt) (name : String) (expectedLen : ℕ) :
    Except ModelError (List UInt8) :=
  match bqnt.entry name with
  | none => missing name
  | some entry =>
      if codeToFormat entry.format ≠ some .bf16 then missing name
      else
        match bqnt.tensorData name with
        | some data => if data.length = expectedLen * 2 then .ok data else missing name
        | none => missing name

/-- `load_weight_f32_bqnt` -/
def loadWeightF32Bqnt (bqnt : MmapBqnt) (name : String) (expectedLen : ℕ) :
    Except ModelError (List UInt8) :=
  match bqnt.entry name with
  | none => missing name
  | some entry =>
      match codeToFormat entry.format with
      | none => missing s!"{name}: unknown bqnt storage code {entry.format}"
      | some sdt =>
          match bqnt.tensorData name with
          | none => missing name
          | some data =>
              match sdt with
              | .f32 => if data.length = expectedLen * 4 then .ok data else missing name
              | .bf16 => if data.length = expectedLen * 2 then .ok (widen data) else missing name
              | .pcG32Q4 => missing s!"{name}: bqnt storage PcG32Q4 is not f32-loadable"
              | .rnf4G128 => missing s!"{name}: bqnt storage Rnf4G128 is not f32-loadable"

/-! ### From the file first -/

/-- Reading bf16 from the file, if there is one, or else from safetensors. -/
def loadBf16First (st : SafeTensorSet) (bqnt : Option MmapBqnt) (name : String) (len : ℕ) :
    Except ModelError (List UInt8) :=
  match bqnt.map fun b => loadWeightBf16Bqnt b name len with
  | some (.ok w) => .ok w
  | _ => loadWeightBf16 st name len

/-- Reading f32 from the file, if there is one, or else from safetensors. -/
def loadF32First (st : SafeTensorSet) (bqnt : Option MmapBqnt) (name : String) (len : ℕ) :
    Except ModelError (List UInt8) :=
  match bqnt.map fun b => loadWeightF32Bqnt b name len with
  | some (.ok w) => .ok w
  | _ => loadWeightF32 st name len

end Braidinfer.Loader
