/-
The BQNT file format (`bqnt.rs`): constants, storage dtypes, sizes and hashes.

* `fnv1a64`: the hash under which a tensor is stored;
* `packedSize`, `checkedPackedSize`: the bytes of a packed tensor, exactly and in checked
  64-bit arithmetic (`checkedPackedSize_eq`);
* `alignUp`: rounding up by masking (`toNat_alignUp`).
-/
import Mathlib.Data.Nat.Bitwise
import Braidinfer.Lib.ByteFile

namespace Braidinfer.Bqnt

open Braidinfer.Lib

/-! ### Constants and dtypes -/

/-- `StorageDtype`. -/
inductive StorageDtype
  | bf16
  | pcG32Q4
  | rnf4G128
  | f32
deriving DecidableEq, Repr

/-- `MAGIC`: "BQNT" in little-endian order. -/
def magic : UInt32 := 0x544E5142

/-- `VERSION`. -/
def version : UInt32 := 1

/-- `HEADER_SIZE`. -/
def headerSize : UInt64 := 32

/-- `ENTRY_SIZE`. -/
def entrySize : UInt64 := 48

/-- `ALIGNMENT`: 64 KB. -/
def alignment : UInt64 := 65536

/-- The bytes of a string, as `str::bytes` lists them. -/
def utf8 (s : String) : List UInt8 := s.toByteArray.data.toList

/-- `fnv1a_64`. -/
def fnv1a64 (s : String) : UInt64 :=
  (utf8 s).foldl (fun hash byte => (hash ^^^ byte.toUInt64) * 0x100000001b3) 0xcbf29ce484222325

/-- `format_to_code`. -/
def formatToCode : StorageDtype → UInt8
  | .bf16 => 0
  | .pcG32Q4 => 1
  | .rnf4G128 => 2
  | .f32 => 3

/-- `code_to_format`. -/
def codeToFormat (code : UInt8) : Option StorageDtype :=
  if code = 0 then some .bf16
  else if code = 1 then some .pcG32Q4
  else if code = 2 then some .rnf4G128
  else if code = 3 then some .f32
  else none

lemma codeToFormat_formatToCode (f : StorageDtype) : codeToFormat (formatToCode f) = some f := by
  cases f <;> rfl

/-- `TensorEntry`: one entry of the tensor table. -/
structure TensorEntry where
  nameHash : UInt64
  format : UInt8
  outFeatures : UInt32
  inFeatures : UInt32
  originalNdim : UInt32
  dataOffset : UInt64
  dataBytes : UInt64
deriving DecidableEq, Repr

/-! ### Errors -/

/-- The `io::Error` values of the reader: `InvalidData` with a message or from a failed UTF-8
conversion, and `UnexpectedEof`. -/
inductive IoError
  | invalidData (msg : String)
  | invalidUtf8
  | unexpectedEof (msg : String)
deriving DecidableEq, Repr

/-- `format!("{x:#x}")`. -/
def hexLower (x : UInt64) : String := "0x" ++ String.ofList (Nat.toDigits 16 x.toNat)

/-! ### Sizes -/

/-- `packed_size`: the bytes of a packed tensor.  No product that fits in memory wraps. -/
def packedSize (format : StorageDtype) (outDim inDim : ℕ) : ℕ :=
  match format with
  | .bf16 => outDim * inDim * 2
  | .f32 => outDim * inDim * 4
  | .pcG32Q4 => outDim * ((inDim + 31) / 32) * 20
  | .rnf4G128 => outDim * ((inDim + 127) / 128) * 132

/-- `u64::checked_mul`. -/
def checkedMul (a b : UInt64) : Option UInt64 :=
  if a.toNat * b.toNat < 2 ^ 64 then some (a * b) else none

/-- `u64::checked_add`. -/
def checkedAdd (a b : UInt64) : Option UInt64 :=
  if a.toNat + b.toNat < 2 ^ 64 then some (a + b) else none

/-- `ok_or_else(|| invalid_data(msg))`. -/
def okOr (x : Option UInt64) (msg : String) : Except IoError UInt64 :=
  match x with
  | some v => .ok v
  | none => .error (.invalidData msg)

/-- Rows times row size, with the message of an overflow. -/
def checkedRows (out rows unit : UInt64) (msg : String) : Except IoError UInt64 :=
  okOr ((checkedMul out rows).bind fun x => checkedMul x unit) msg

/-- `checked_packed_size`. -/
def checkedPackedSize (format : StorageDtype) (outDim inDim : UInt32) :
    Except IoError UInt64 :=
  let out := outDim.toUInt64
  let inp := inDim.toUInt64
  match format with
  | .bf16 => checkedRows out inp 2 "bf16 packed size overflows"
  | .f32 => checkedRows out inp 4 "f32 packed size overflows"
  | .pcG32Q4 => do
      let groups ← okOr ((checkedAdd inp 31).map (· / 32)) "pcg32 packed group count overflows"
      checkedRows out groups 20 "pcg32 packed size overflows"
  | .rnf4G128 => do
      let groups ← okOr ((checkedAdd inp 127).map (· / 128)) "rnf4 packed group count overflows"
      checkedRows out groups 132 "rnf4 packed size overflows"

lemma checkedMul_eq {a b : UInt64} (h : a.toNat * b.toNat < 2 ^ 64) :
    ∃ c, checkedMul a b = some c ∧ c.toNat = a.toNat * b.toNat := by
  refine ⟨a * b, if_pos h, ?_⟩
  rw [UInt64.toNat_mul, Nat.mod_eq_of_lt h]

lemma checkedAdd_eq {a b : UInt64} (h : a.toNat + b.toNat < 2 ^ 64) :
    ∃ c, checkedAdd a b = some c ∧ c.toNat = a.toNat + b.toNat := by
  refine ⟨a + b, if_pos h, ?_⟩
  rw [UInt64.toNat_add, Nat.mod_eq_of_lt h]

lemma checkedRows_eq (out rows unit : UInt64) (msg : String) (hunit : 0 < unit.toNat)
    (h : out.toNat * rows.toNat * unit.toNat < 2 ^ 64) :
    ∃ c, checkedRows out rows unit msg = .ok c ∧
      c.toNat = out.toNat * rows.toNat * unit.toNat := by
  have hfirst : out.toNat * rows.toNat < 2 ^ 64 :=
    lt_of_le_of_lt (Nat.le_mul_of_pos_right _ hunit) h
  obtain ⟨x, hx, hxn⟩ := checkedMul_eq hfirst
  obtain ⟨c, hc, hcn⟩ := checkedMul_eq (a := x) (b := unit) (by rw [hxn]; exact h)
  refine ⟨c, ?_, by rw [hcn, hxn]⟩
  rw [checkedRows, hx, Option.bind_some, hc]
  rfl

/-- A group count does not overflow. -/
lemma checkedGroups_eq (inDim : UInt32) (k d : UInt64) (msg : String)
    (hk : k.toNat < 2 ^ 32) :
    ∃ g, okOr ((checkedAdd inDim.toUInt64 k).map (· / d)) msg = .ok g ∧
      g.toNat = (inDim.toNat + k.toNat) / d.toNat := by
  have hin : inDim.toUInt64.toNat = inDim.toNat := UInt32.toNat_toUInt64 inDim
  have hlt := inDim.toNat_lt
  obtain ⟨x, hx, hxn⟩ := checkedAdd_eq (a := inDim.toUInt64) (b := k) (by rw [hin]; omega)
  refine ⟨x / d, by rw [hx]; rfl, ?_⟩
  rw [UInt64.toNat_div, hxn, hin]

/-- **The checked size is the exact one** if that fits in 64 bits. -/
lemma checkedPackedSize_eq (format : StorageDtype) (outDim inDim : UInt32)
    (h : packedSize format outDim.toNat inDim.toNat < 2 ^ 64) :
    ∃ n, checkedPackedSize format outDim inDim = .ok n ∧
      n.toNat = packedSize format outDim.toNat inDim.toNat := by
  have hout : outDim.toUInt64.toNat = outDim.toNat := UInt32.toNat_toUInt64 outDim
  have hin : inDim.toUInt64.toNat = inDim.toNat := UInt32.toNat_toUInt64 inDim
  cases format with
  | bf16 =>
      obtain ⟨c, hc, hcn⟩ := checkedRows_eq outDim.toUInt64 inDim.toUInt64 2
        "bf16 packed size overflows" (by decide) (by rw [hout, hin]; exact h)
      exact ⟨c, hc, by rw [hcn, hout, hin]; rfl⟩
  | f32 =>
      obtain ⟨c, hc, hcn⟩ := checkedRows_eq outDim.toUInt64 inDim.toUInt64 4
        "f32 packed size overflows" (by decide) (by rw [hout, hin]; exact h)
      exact ⟨c, hc, by rw [hcn, hout, hin]; rfl⟩
  | pcG32Q4 =>
      obtain ⟨g, hg, hgn⟩ := checkedGroups_eq inDim 31 32 "pcg32 packed group count overflows"
        (by decide)
      obtain ⟨c, hc, hcn⟩ := checkedRows_eq outDim.toUInt64 g 20
        "pcg32 packed size overflows" (by decide) (by rw [hout, hgn]; exact h)
      refine ⟨c, ?_, by rw [hcn, hout, hgn]; rfl⟩
      simp only [checkedPackedSize, hg]
      exact hc
  | rnf4G128 =>
      obtain ⟨g, hg, hgn⟩ := checkedGroups_eq inDim 127 128 "rnf4 packed group count overflows"
        (by decide)
      obtain ⟨c, hc, hcn⟩ := checkedRows_eq outDim.toUInt64 g 132
        "rnf4 packed size overflows" (by decide) (by rw [hout, hgn]; exact h)
      refine ⟨c, ?_, by rw [hcn, hout, hgn]; rfl⟩
      simp only [checkedPackedSize, hg]
      exact hc

/-! ### Alignment -/

/-- `align_up`. -/
def alignUp (offset alignment : UInt64) : UInt64 := (offset + alignment - 1) &&& ~~~(alignment - 1)

/-- The least multiple of `a` that is at least `n`. -/
def ceilTo (a n : ℕ) : ℕ := (n + a - 1) / a * a

lemma le_ceilTo {a : ℕ} (ha : 0 < a) (n : ℕ) : n ≤ ceilTo a n := by
  have hdiv := Nat.div_add_mod (n + a - 1) a
  have hmod := Nat.mod_lt (n + a - 1) ha
  rw [ceilTo, Nat.mul_comm]
  omega

/-- Clearing the low `k` bits of a 64-bit number. -/
lemma and_mask (x : ℕ) {k : ℕ} (hx : x < 2 ^ 64) (hk : k ≤ 64) :
    x &&& (2 ^ 64 - 1 - (2 ^ k - 1)) = x / 2 ^ k * 2 ^ k := by
  have hpow : 2 ^ k ≤ 2 ^ 64 := Nat.pow_le_pow_right (by decide) hk
  have hlow : 2 ^ k - 1 < 2 ^ 64 := by
    have := Nat.two_pow_pos k
    omega
  apply Nat.eq_of_testBit_eq
  intro i
  rw [Nat.sub_sub, Nat.add_comm 1, Nat.testBit_and, Nat.testBit_two_pow_sub_succ hlow,
    Nat.testBit_two_pow_sub_one, Nat.testBit_mul_two_pow, Nat.testBit_div_two_pow]
  by_cases hi : k ≤ i
  · rw [Nat.sub_add_cancel hi]
    by_cases h64 : i < 64
    · simp [hi, h64, Nat.not_lt.mpr hi]
    · have : x.testBit i = false :=
        Nat.testBit_lt_two_pow (lt_of_lt_of_le hx (Nat.pow_le_pow_right (by decide) (by omega)))
      simp [this]
  · simp [hi, Nat.lt_of_not_le hi]

/-- **Rounding up by masking**, where nothing overflows. -/
lemma toNat_alignUp {offset a : UInt64} {k : ℕ} (ha : a.toNat = 2 ^ k) (hk : k < 64)
    (h : offset.toNat + a.toNat - 1 < 2 ^ 64) :
    (alignUp offset a).toNat = ceilTo a.toNat offset.toNat := by
  have hpos : 0 < a.toNat := by rw [ha]; exact Nat.two_pow_pos k
  have hone : (a - 1).toNat = 2 ^ k - 1 := by
    have hle : 1 ≤ a := UInt64.le_iff_toNat_le.mpr hpos
    rw [UInt64.toNat_sub_of_le _ _ hle, ha]
    rfl
  have hsum : (offset + a - 1).toNat = offset.toNat + a.toNat - 1 := by
    have hassoc : offset + a - 1 = offset + (a - 1) := by
      rw [UInt64.sub_eq_add_neg, UInt64.sub_eq_add_neg, UInt64.add_assoc]
    rw [hassoc, UInt64.toNat_add, hone, ← ha, Nat.mod_eq_of_lt (by omega)]
    omega
  rw [alignUp, UInt64.toNat_and, UInt64.toNat_not, hone, hsum]
  change (offset.toNat + a.toNat - 1) &&& (2 ^ 64 - 1 - (2 ^ k - 1)) = _
  rw [and_mask _ h hk.le, ceilTo, ha]

/-- If the rounded value fits in 64 bits, nothing overflows on the way. -/
lemma add_lt_of_ceilTo_lt {k n : ℕ} (hk : k ≤ 64) (h : ceilTo (2 ^ k) n < 2 ^ 64) :
    n + 2 ^ k - 1 < 2 ^ 64 := by
  have hpos := Nat.two_pow_pos k
  have hpow : 2 ^ (64 - k) * 2 ^ k = 2 ^ 64 := by rw [← pow_add, Nat.sub_add_cancel hk]
  have hq : (n + 2 ^ k - 1) / 2 ^ k < 2 ^ (64 - k) := by
    refine lt_of_mul_lt_mul_right ?_ hpos.le
    rwa [hpow]
  calc n + 2 ^ k - 1 < ((n + 2 ^ k - 1) / 2 ^ k + 1) * 2 ^ k :=
        Nat.lt_mul_of_div_lt (Nat.lt_succ_self _) hpos
    _ ≤ 2 ^ (64 - k) * 2 ^ k := Nat.mul_le_mul_right _ hq
    _ = 2 ^ 64 := hpow

/-- Rounding up where the result fits in 64 bits. -/
lemma toNat_alignUp_of_lt {offset a : UInt64} {k : ℕ} (ha : a.toNat = 2 ^ k) (hk : k < 64)
    (h : ceilTo a.toNat offset.toNat < 2 ^ 64) :
    (alignUp offset a).toNat = ceilTo a.toNat offset.toNat := by
  refine toNat_alignUp ha hk ?_
  rw [ha] at h ⊢
  exact add_lt_of_ceilTo_lt hk.le h

end Braidinfer.Bqnt
