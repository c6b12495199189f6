/-
The sizes of packed weights (`bqnt.rs`, `quant.rs`) and slices of their rows (`multi_gpu.rs`).

The size of a matrix is computed by the file format, exactly and in checked arithmetic, by the
offset of a row, and by the quantizers, which allocate what they fill.  A group never straddles two
rows, so the bytes of a matrix are those of its rows in order, and rows can be cut out of them.

* `packedSize64`, `rowByteOffsetDim64`: the sizes as the 64-bit code computes them;
* `GroupArith`: what the float arithmetic makes of a group, over which all results hold;
* `quantize`: the quantizer of a format; `quantize_eq`: its bytes, row by row;
* `copyWeightSlice`: rows of a weight;
* `packedSizes_agree`: **the sizes are equal, and a slice is the quantization of its rows**.
-/
import Braidinfer.Bqnt.Checks
import Braidinfer.Loader.Weights
import Braidinfer.Quant.Quantizer

namespace Braidinfer.Quant

open Braidinfer.Lib
open Braidinfer.Bqnt (StorageDtype packedSize checkedPackedSize checkedPackedSize_eq
  checkedPackedSize_ok)
open Braidinfer.Loader (fromWeightFormat)
open Braidinfer.Moe (WeightFormat LinearWeight)

/-! ### Sizes in 64 bits -/

/-- `packed_size`, whose products and sums wrap. -/
def packedSize64 (format : StorageDtype) (outDim inDim : UInt64) : UInt64 :=
  match format with
  | .bf16 => outDim * inDim * 2
  | .f32 => outDim * inDim * 4
  | .pcG32Q4 => outDim * ((inDim + 31) / 32) * 20
  | .rnf4G128 => outDim * ((inDim + 127) / 128) * 132

/-- `row_byte_offset_dim`, whose products and sums wrap. -/
def rowByteOffsetDim64 (format : WeightFormat) (rowStart inDim : UInt64) : UInt64 :=
  match format with
  | .bf16 => rowStart * inDim * 2
  | .rnf4G128 => rowStart * ((inDim + 127) / 128) * 132
  | .pcG32Q4 => rowStart * ((inDim + 31) / 32) * 20

/-- What the size formulas add to the length of a row. -/
def pad : WeightFormat → ℕ
  | .bf16 => 0
  | .rnf4G128 => 127
  | .pcG32Q4 => 31

lemma toNat_mul_mul {a b c : UInt64} (h : a.toNat * b.toNat * c.toNat < 2 ^ 64) :
    (a * b * c).toNat = a.toNat * b.toNat * c.toNat := by
  rw [UInt64.toNat_mul, UInt64.toNat_mul, Nat.mod_mul_mod, Nat.mod_eq_of_lt h]

lemma toNat_add_div {a b c : UInt64} (h : a.toNat + b.toNat < 2 ^ 64) :
    ((a + b) / c).toNat = (a.toNat + b.toNat) / c.toNat := by
  rw [UInt64.toNat_div, UInt64.toNat_add, Nat.mod_eq_of_lt h]

/-- The 64-bit sizes are the exact ones if the padded row and the matrix fit. -/
lemma sizes64_eq (w : WeightFormat) {outDim inDim : UInt64} (hrow : inDim.toNat + pad w < 2 ^ 64)
    (h : packedSize (fromWeightFormat w) outDim.toNat inDim.toNat < 2 ^ 64) :
    (packedSize64 (fromWeightFormat w) outDim inDim).toNat =
        packedSize (fromWeightFormat w) outDim.toNat inDim.toNat ∧
      (rowByteOffsetDim64 w outDim inDim).toNat =
        packedSize (fromWeightFormat w) outDim.toNat inDim.toNat := by
  cases w with
  | bf16 => exact ⟨toNat_mul_mul h, toNat_mul_mul h⟩
  | rnf4G128 =>
      have hgroups : ((inDim + 127) / 128).toNat = (inDim.toNat + 127) / 128 :=
        toNat_add_div hrow
      have hsize : (outDim * ((inDim + 127) / 128) * 132).toNat =
          outDim.toNat * ((inDim.toNat + 127) / 128) * 132 := by
        rw [← hgroups]
        exact toNat_mul_mul (by rw [hgroups]; exact h)
      exact ⟨hsize, hsize⟩
  | pcG32Q4 =>
      have hgroups : ((inDim + 31) / 32).toNat = (inDim.toNat + 31) / 32 := toNat_add_div hrow
      have hsize : (outDim * ((inDim + 31) / 32) * 20).toNat =
          outDim.toNat * ((inDim.toNat + 31) / 32) * 20 := by
        rw [← hgroups]
        exact toNat_mul_mul (by rw [hgroups]; exact h)
      exact ⟨hsize, hsize⟩

/-- A size is a number of rows of one size. -/
lemma packedSize_eq_mul (format : StorageDtype) (outDim inDim : ℕ) :
    packedSize format outDim inDim = outDim * packedSize format 1 inDim := by
  cases format <;> simp only [packedSize, Nat.one_mul, Nat.mul_assoc]

lemma rowByteOffsetDim_eq (src : LinearWeight) (rowStart inDim : ℕ) :
    src.rowByteOffsetDim rowStart inDim =
      packedSize (fromWeightFormat src.weightFormat) rowStart inDim := by
  rw [LinearWeight.rowByteOffsetDim]
  cases src.weightFormat <;> rfl

/-! ### Quantizers over any arithmetic -/

/-- What the float arithmetic makes of the patterns of a group: the stored patterns and the
indices. -/
structure GroupArith where
  mn : List ℕ → ℕ
  scale : List ℕ → ℕ
  index : List ℕ → ℕ → ℕ
  absmax1 : List ℕ → ℕ
  absmax2 : List ℕ → ℕ
  idx1 : List ℕ → ℕ → ℕ
  idx2 : List ℕ → ℕ → ℕ

namespace Group

/-- `bf16_data[base..base + count]` -/
def toList (grp : Group) : List ℕ := (List.range grp.count).map grp.patterns

/-- The group of the given patterns. -/
def ofList (l : List ℕ) : Group := ⟨(l.getD · 0), l.length⟩

lemma vals_ofList_toList (grp : Group) : (ofList grp.toList).vals = grp.vals := by
  funext i
  have hlen : grp.toList.length = grp.count := by rw [toList, List.length_map, List.length_range]
  rw [vals, vals, ofList, hlen]
  refine if_ctx_congr Iff.rfl (fun hi => ?_) fun _ => rfl
  show Bf16.value (grp.toList.getD i 0) = Bf16.value (grp.patterns i)
  rw [toList, getD_map_range hi]

end Group

namespace GroupArith

/-- Exact arithmetic. -/
def exact : GroupArith where
  mn l := Bf16.ofRat (Group.ofList l).mn
  scale l := Bf16.ofRat (Group.ofList l).scale
  index l := (Group.ofList l).index
  absmax1 l := Bf16.ofRat (Group.ofList l).absmax1
  absmax2 l := Bf16.ofRat (Group.ofList l).absmax2
  idx1 l := (Group.ofList l).idx1
  idx2 l := (Group.ofList l).idx2

variable (arith : GroupArith)

/-- The 20 bytes of a group of `PcG32Q4`. -/
def pcGroup (grp : Group) : List UInt8 :=
  nibbleBytes 32 (arith.index grp.toList) ++ u16Bytes (arith.mn grp.toList) ++
    u16Bytes (arith.scale grp.toList)

/-- `quantize_rnf4_group` -/
def rnf4Group (grp : Group) : List UInt8 :=
  nibbleBytes 128 (arith.idx1 grp.toList) ++ u16Bytes (arith.absmax1 grp.toList) ++
    nibbleBytes 128 (arith.idx2 grp.toList) ++ u16Bytes (arith.absmax2 grp.toList)

/-- Over exact arithmetic these are the groups of the exact quantizers. -/
lemma exact_groups (grp : Group) :
    exact.pcGroup grp = quantizePcGroup grp ∧ exact.rnf4Group grp = quantizeRnf4Group grp := by
  have hvals := grp.vals_ofList_toList
  have hcount : (Group.ofList grp.toList).count = grp.count := by
    rw [Group.ofList, Group.toList, List.length_map, List.length_range]
  have hmn : (Group.ofList grp.toList).mn = grp.mn := by rw [Group.mn, hvals, hcount, Group.mn]
  have hmx : (Group.ofList grp.toList).mx = grp.mx := by rw [Group.mx, hvals, hcount, Group.mx]
  have hscale : (Group.ofList grp.toList).scale = grp.scale := by
    rw [Group.scale, hmn, hmx, Group.scale]
  have hindex : (Group.ofList grp.toList).index = grp.index := by
    funext i
    rw [Group.index, hvals, hcount, hmn, hscale, Group.index]
  have habsmax1 : (Group.ofList grp.toList).absmax1 = grp.absmax1 := by
    rw [Group.absmax1, hvals, hcount, Group.absmax1]
  have hidx1 : (Group.ofList grp.toList).idx1 = grp.idx1 := by
    funext i
    rw [Group.idx1, hvals, hcount, habsmax1, Group.idx1]
  have hresidual : (Group.ofList grp.toList).residual = grp.residual := by
    funext i
    rw [Group.residual, hvals, hidx1, habsmax1, Group.residual]
  have habsmax2 : (Group.ofList grp.toList).absmax2 = grp.absmax2 := by
    rw [Group.absmax2, hresidual, hcount, Group.absmax2]
  have hidx2 : (Group.ofList grp.toList).idx2 = grp.idx2 := by
    funext i
    rw [Group.idx2, hresidual, hcount, habsmax2, Group.idx2]
  constructor
  · simp only [pcGroup, exact, quantizePcGroup, hmn, hscale, hindex]
  · simp only [rnf4Group, exact, quantizeRnf4Group, habsmax1, hidx1, habsmax2, hidx2]

lemma length_pcGroup (grp : Group) : (arith.pcGroup grp).length = 20 := by
  simp [pcGroup, length_nibbleBytes, u16Bytes]

lemma length_rnf4Group (grp : Group) : (arith.rnf4Group grp).length = 132 := by
  simp [rnf4Group, length_nibbleBytes, u16Bytes]

end GroupArith

/-- The bytes that stand for a matrix in a format: the patterns themselves, or what
`quantize_pc_g32_q4` or `quantize_rnf4_g128` returns. -/
def quantize (arith : GroupArith) (w : WeightFormat) (bf16Data : ℕ → ℕ) (outDim inDim : ℕ) :
    Option (List UInt8) :=
  match w with
  | .bf16 => some ((List.range (outDim * inDim)).flatMap fun i => u16Bytes (bf16Data i))
  | .pcG32Q4 => quantizeRows pcg32Rat arith.pcGroup bf16Data outDim inDim
  | .rnf4G128 => quantizeRows rnf4Rat arith.rnf4Group bf16Data outDim inDim

/-- Over exact arithmetic these are the exact quantizers. -/
lemma quantize_exact (bf16Data : ℕ → ℕ) (outDim inDim : ℕ) :
    quantize .exact .pcG32Q4 bf16Data outDim inDim = quantizePcG32Q4 bf16Data outDim inDim ∧
      quantize .exact .rnf4G128 bf16Data outDim inDim =
        quantizeRnf4G128 bf16Data outDim inDim := by
  have hpc : GroupArith.exact.pcGroup = quantizePcGroup :=
    funext fun grp => (GroupArith.exact_groups grp).1
  have hrnf4 : GroupArith.exact.rnf4Group = quantizeRnf4Group :=
    funext fun grp => (GroupArith.exact_groups grp).2
  exact ⟨by rw [quantize, hpc, quantizePcG32Q4], by rw [quantize, hrnf4, quantizeRnf4G128]⟩

/-! ### Rows -/

/-- The bytes of one row. -/
def rowBytes (arith : GroupArith) (w : WeightFormat) (bf16Data : ℕ → ℕ) (inDim row : ℕ) :
    List UInt8 :=
  match w with
  | .bf16 => (List.range inDim).flatMap fun e => u16Bytes (bf16Data (row * inDim + e))
  | .pcG32Q4 => (List.range (pcg32Rat.numGroups inDim)).flatMap fun g =>
      arith.pcGroup (groupOf pcg32Rat bf16Data inDim row g)
  | .rnf4G128 => (List.range (rnf4Rat.numGroups inDim)).flatMap fun g =>
      arith.rnf4Group (groupOf rnf4Rat bf16Data inDim row g)

section Rows

variable (arith : GroupArith) (w : WeightFormat) (bf16Data : ℕ → ℕ)

lemma length_rowBytes (inDim row : ℕ) :
    (rowBytes arith w bf16Data inDim row).length = packedSize (fromWeightFormat w) 1 inDim := by
  cases w with
  | bf16 =>
      have hlen : ∀ e < inDim, (u16Bytes (bf16Data (row * inDim + e))).length = 2 :=
        fun _ _ => rfl
      rw [rowBytes, length_flatMap_range hlen]
      show inDim * 2 = 1 * inDim * 2
      rw [Nat.one_mul]
  | pcG32Q4 =>
      rw [rowBytes, length_flatMap_range fun _ _ => arith.length_pcGroup _]
      show (inDim + 32 - 1) / 32 * 20 = 1 * ((inDim + 31) / 32) * 20
      rw [Nat.one_mul, Nat.add_sub_assoc (by decide)]
  | rnf4G128 =>
      rw [rowBytes, length_flatMap_range fun _ _ => arith.length_rnf4Group _]
      show (inDim + 128 - 1) / 128 * 132 = 1 * ((inDim + 127) / 128) * 132
      rw [Nat.one_mul, Nat.add_sub_assoc (by decide)]

variable {inDim row : ℕ}

/-- **The bytes of a matrix** are those of its rows. -/
theorem quantize_eq (outDim : ℕ) (hin : 1 ≤ inDim) : quantize arith w bf16Data outDim inDim =
    some ((List.range outDim).flatMap (rowBytes arith w bf16Data inDim)) := by
  cases w with
  | bf16 => rw [quantize, flatMap_range_mul]; rfl
  | pcG32Q4 =>
      have hgroups : 0 < pcg32Rat.numGroups inDim :=
        Nat.div_pos (show 32 ≤ inDim + 32 - 1 by omega) (show 0 < 32 by decide)
      exact if_neg (Nat.mul_pos hgroups (show 0 < 20 by decide)).ne'
  | rnf4G128 =>
      have hgroups : 0 < rnf4Rat.numGroups inDim :=
        Nat.div_pos (show 128 ≤ inDim + 128 - 1 by omega) (show 0 < 128 by decide)
      exact if_neg (Nat.mul_pos hgroups (show 0 < 132 by decide)).ne'

/-- A group of a row reads that row alone. -/
lemma groupOf_toList {K : Type*} (f : Format K) {rows : ℕ → ℕ} {r g : ℕ}
    (h : ∀ e < inDim, rows (r * inDim + e) = bf16Data (row * inDim + e)) :
    (groupOf f rows inDim r g).toList = (groupOf f bf16Data inDim row g).toList := by
  refine List.map_congr_left fun i hi => ?_
  have hi : i < min f.groupSize (inDim - g * f.groupSize) := List.mem_range.mp hi
  show rows (r * inDim + g * f.groupSize + i) = bf16Data (row * inDim + g * f.groupSize + i)
  rw [Nat.add_assoc, h _ (by omega), Nat.add_assoc]

/-- The bytes of a row depend on that row alone. -/
lemma rowBytes_congr {rows : ℕ → ℕ} {r : ℕ}
    (h : ∀ e < inDim, rows (r * inDim + e) = bf16Data (row * inDim + e)) :
    rowBytes arith w rows inDim r = rowBytes arith w bf16Data inDim row := by
  cases w with
  | bf16 =>
      refine List.flatMap_congr fun e he => ?_
      rw [h e (List.mem_range.mp he)]
  | pcG32Q4 =>
      refine List.flatMap_congr fun g _ => ?_
      simp only [GroupArith.pcGroup, groupOf_toList bf16Data pcg32Rat h]
  | rnf4G128 =>
      refine List.flatMap_congr fun g _ => ?_
      simp only [GroupArith.rnf4Group, groupOf_toList bf16Data rnf4Rat h]

end Rows

/-! ### Slices -/

/-- `copy_weight_slice` -/
def copyWeightSlice (src : LinearWeight) (rowStart numRows inDim : ℕ) : LinearWeight :=
  let byteOffset := src.rowByteOffsetDim rowStart inDim
  let byteLen := src.rowByteOffsetDim numRows inDim
  .packed (slice src.rawData byteOffset byteLen) src.weightFormat numRows inDim

section Slices

variable {arith : GroupArith} {w : WeightFormat} {bf16Data rows : ℕ → ℕ}
  {outDim inDim rowStart numRows : ℕ}

/-- **A slice of the bytes** is the quantization of the rows it names. -/
theorem quantize_copyWeightSlice (hin : 1 ≤ inDim) {src : LinearWeight}
    (hraw : quantize arith w bf16Data outDim inDim = some src.rawData)
    (hformat : src.weightFormat = w) (hle : rowStart + numRows ≤ outDim)
    (hrows : ∀ i < numRows * inDim, rows i = bf16Data (rowStart * inDim + i)) :
    quantize arith w rows numRows inDim =
      some (copyWeightSlice src rowStart numRows inDim).rawData := by
  rw [quantize_eq arith w bf16Data outDim hin] at hraw
  have hlen : ∀ r < outDim, (rowBytes arith w bf16Data inDim r).length =
      packedSize (fromWeightFormat w) 1 inDim := fun r _ => length_rowBytes arith w bf16Data inDim r
  have hslice := slice_flatMap_range_rows hlen hle
  rw [Option.some.inj hraw, ← packedSize_eq_mul, ← packedSize_eq_mul] at hslice
  rw [quantize_eq arith w rows numRows hin, copyWeightSlice, LinearWeight.rawData,
    rowByteOffsetDim_eq, rowByteOffsetDim_eq, hformat, hslice]
  refine congrArg some (List.flatMap_congr fun r hr => rowBytes_congr arith w bf16Data ?_)
  intro e he
  have hrow : r * inDim + inDim ≤ numRows * inDim := by
    rw [← Nat.succ_mul]
    exact Nat.mul_le_mul_right inDim (List.mem_range.mp hr)
  rw [hrows _ (by omega), Nat.add_mul, Nat.add_assoc]

end Slices

/-! ### Agreement -/

/-- What the sizes of a matrix and its bytes have to do with each other. -/
structure SizesAgree (arith : GroupArith) (w : WeightFormat) (bf16Data : ℕ → ℕ)
    (outDim inDim : ℕ) (bytes : List UInt8) : Prop where
  quantized : quantize arith w bf16Data outDim inDim = some bytes
  length : bytes.length = packedSize (fromWeightFormat w) outDim inDim
  offset : ∀ src : LinearWeight, src.weightFormat = w →
    src.rowByteOffsetDim outDim inDim = packedSize (fromWeightFormat w) outDim inDim
  words : ∀ out inp : UInt64, out.toNat = outDim → inp.toNat = inDim → inDim + pad w < 2 ^ 64 →
    packedSize (fromWeightFormat w) outDim inDim < 2 ^ 64 →
      (packedSize64 (fromWeightFormat w) out inp).toNat =
          packedSize (fromWeightFormat w) outDim inDim ∧
        (rowByteOffsetDim64 w out inp).toNat = packedSize (fromWeightFormat w) outDim inDim
  checked : ∀ out inp : UInt32, out.toNat = outDim → inp.toNat = inDim →
    ∀ c, checkedPackedSize (fromWeightFormat w) out inp = .ok c →
      c.toNat = packedSize (fromWeightFormat w) outDim inDim
  byRows : ∃ row : ℕ → List UInt8,
    (∀ r < outDim, quantize arith w (fun e => bf16Data (r * inDim + e)) 1 inDim = some (row r)) ∧
      bytes = (List.range outDim).flatMap row
  slices : ∀ (src : LinearWeight) (rowStart numRows : ℕ) (rows : ℕ → ℕ), src.rawData = bytes →
    src.weightFormat = w → rowStart + numRows ≤ outDim →
    (∀ i < numRows * inDim, rows i = bf16Data (rowStart * inDim + i)) →
      quantize arith w rows numRows inDim =
        some (copyWeightSlice src rowStart numRows inDim).rawData

/-- **Packed sizes and row slices agree**, for every format of a linear weight, whatever the
arithmetic of a group; and a size that fits in 64 bits is never refused. -/
theorem packedSizes_agree (arith : GroupArith) (w : WeightFormat) (bf16Data : ℕ → ℕ)
    (outDim inDim : ℕ) (hin : 1 ≤ inDim) :
    (∃ bytes, SizesAgree arith w bf16Data outDim inDim bytes) ∧
      ∀ (format : StorageDtype) (out inp : UInt32),
        packedSize format out.toNat inp.toNat < 2 ^ 64 →
          ∃ c, checkedPackedSize format out inp = .ok c := by
  refine ⟨⟨_, quantize_eq arith w bf16Data outDim hin, ?_, ?_, ?_, ?_, ?_, ?_⟩, ?_⟩
  · rw [packedSize_eq_mul]
    exact length_flatMap_range fun r _ => length_rowBytes arith w bf16Data inDim r
  · rintro src rfl
    exact rowByteOffsetDim_eq src outDim inDim
  · rintro out inp rfl rfl hrow hfit
    exact sizes64_eq w hrow hfit
  · rintro out inp rfl rfl c hc
    exact checkedPackedSize_ok hc
  · refine ⟨rowBytes arith w bf16Data inDim, fun r _ => ?_, rfl⟩
    rw [quantize_eq arith w _ 1 hin, List.range_one, List.flatMap_singleton]
    refine congrArg some (rowBytes_congr arith w bf16Data fun e _ => ?_)
    rw [Nat.zero_mul, Nat.zero_add]
  · intro src rowStart numRows rows hraw hformat hle hrows
    refine quantize_copyWeightSlice hin ?_ hformat hle hrows
    rw [hraw, quantize_eq arith w bf16Data outDim hin]
  · intro format out inp hfit
    obtain ⟨c, hc, -⟩ := checkedPackedSize_eq format out inp hfit
    exact ⟨c, hc⟩

/-- The last group of a row may be partial. -/
theorem packedSizes_agree_partialGroup : 1 ≤ 33 ∧
    ∃ bytes, SizesAgree .exact .pcG32Q4 (fun i => 0x3F80 + i) 3 33 bytes :=
  ⟨by decide, (packedSizes_agree .exact .pcG32Q4 (fun i => 0x3F80 + i) 3 33 (by decide)).1⟩

end Braidinfer.Quant
