/-
The two packed weight formats, as the kernels read them (`kernels/quant_consts.h`,
`kernels/bf16_utils.h`, and the loops of `kernels/moe_expert_ops.h`).

A row is a sequence of groups of `groupSize` elements in `groupBytes` bytes.  A byte of nibbles
holds an even element in its low half and the next element in its high half.

* `Format`: a format, by the two values that a byte of a group stands for;
* `pcg32`, `rnf4`: the two formats, over any reading of a bf16 pattern and any codebook;
* `Format.decode`: the element of a row; `Format.product`: **the matrix-vector product** that every
  kernel is to compute.
-/
import Braidinfer.Lib.RowMajor
import Braidinfer.Lib.ThreadSum
import Mathlib.Algebra.Ring.Defs

namespace Braidinfer.Quant

open Braidinfer.Lib

/-! ### Bytes -/

/-- `byte & 0xF` -/
def lowNibble (byte : UInt8) : ℕ := byte.toNat &&& 0xF

/-- `(byte >> 4) & 0xF` -/
def highNibble (byte : UInt8) : ℕ := (byte.toNat >>> 4) &&& 0xF

/-- `*(const unsigned short*)p`, little-endian. -/
def u16At (p : ℕ → UInt8) (off : ℕ) : ℕ := (p off).toNat + 256 * (p (off + 1)).toNat

/-- `(lo & 0xF) | ((hi & 0xF) << 4)` -/
def packNibbles (lo hi : ℕ) : UInt8 := .ofNat ((lo &&& 0xF) ||| ((hi &&& 0xF) <<< 4))

lemma nibbles_pack {lo hi : ℕ} (hlo : lo < 16) (hhi : hi < 16) :
    lowNibble (packNibbles lo hi) = lo ∧ highNibble (packNibbles lo hi) = hi := by
  have hall : ∀ lo hi : Fin 16, lowNibble (packNibbles lo hi) = lo ∧
      highNibble (packNibbles lo hi) = hi := by decide
  exact hall ⟨lo, hlo⟩ ⟨hi, hhi⟩

/-- The bytes `(x & 0xFF) as u8` and `(x >> 8) as u8`. -/
def u16Bytes (x : ℕ) : List UInt8 := [.ofNat (x &&& 0xFF), .ofNat (x >>> 8)]

/-- A pattern that was stored as its two bytes. -/
lemma u16At_u16Bytes {p : ℕ → UInt8} {off x : ℕ} (hx : x < 2 ^ 16)
    (hlow : p off = (u16Bytes x).getD 0 0) (hhigh : p (off + 1) = (u16Bytes x).getD 1 0) :
    u16At p off = x := by
  have hand : x &&& 0xFF = x % 256 := Nat.and_two_pow_sub_one_eq_mod x 8
  have hshift : x >>> 8 = x / 256 := Nat.shiftRight_eq_div_pow x 8
  rw [u16At, hlow, hhigh, u16Bytes, List.getD_cons_zero, List.getD_cons_succ,
    List.getD_cons_zero, hand, hshift, UInt8.toNat_ofNat', UInt8.toNat_ofNat']
  omega

/-! ### Formats -/

/-- A packed format: the group, the most threads that share one (`raw_tpg` is capped at it), and
the values of byte `b` of a group of bytes. -/
structure Format (K : Type*) where
  groupSize : ℕ
  groupBytes : ℕ
  maxTpg : ℕ
  values : (ℕ → UInt8) → ℕ → K × K

section Formats

variable {K : Type*} [CommRing K] (bf16ToF32 : ℕ → K)

/-- `PcG32Q4`: 16 bytes of nibbles, the minimum, the scale. -/
def pcg32 : Format K where
  groupSize := 32
  groupBytes := 20
  maxTpg := 16
  values gp b :=
    let mn := bf16ToF32 (u16At gp 16)
    let sc := bf16ToF32 (u16At gp 18)
    (lowNibble (gp b) * sc + mn, highNibble (gp b) * sc + mn)

/-- `Rnf4G128`: 64 bytes of indices, their scale, 64 bytes of indices of the residual, their
scale. -/
def rnf4 (nf4Table : ℕ → K) : Format K where
  groupSize := 128
  groupBytes := 132
  maxTpg := 8
  values gp b :=
    let absmax1 := bf16ToF32 (u16At gp 64)
    let absmax2 := bf16ToF32 (u16At gp 130)
    (nf4Table (lowNibble (gp b)) * absmax1 + nf4Table (lowNibble (gp (66 + b))) * absmax2,
      nf4Table (highNibble (gp b)) * absmax1 + nf4Table (highNibble (gp (66 + b))) * absmax2)

end Formats

namespace Format

variable {K : Type*} (f : Format K)

/-- `num_groups` of a row. -/
def numGroups (inDim : ℕ) : ℕ := (inDim + f.groupSize - 1) / f.groupSize

/-- `weight + row * num_groups * group_bytes` -/
def rowData (weight : ℕ → UInt8) (inDim row : ℕ) : ℕ → UInt8 :=
  fun a => weight (row * f.numGroups inDim * f.groupBytes + a)

/-- `row_data + g * group_bytes` -/
def groupData (rowData : ℕ → UInt8) (g : ℕ) : ℕ → UInt8 := fun a => rowData (g * f.groupBytes + a)

/-- Element `e` of a row. -/
def decode (rowData : ℕ → UInt8) (e : ℕ) : K :=
  let v := f.values (f.groupData rowData (e / f.groupSize)) (e % f.groupSize / 2)
  if e % 2 = 0 then v.1 else v.2

/-- What the kernels are to leave in `output[row]`. -/
def product [CommRing K] (weight : ℕ → UInt8) (input : ℕ → K) (inDim row : ℕ) : K :=
  ∑ e ∈ Finset.range inDim, f.decode (f.rowData weight inDim row) e * input e

/-- Groups are of an even, positive size. -/
structure Even : Prop where
  pos : 0 < f.groupSize
  even : f.groupSize % 2 = 0

variable {f}

lemma le_numGroups_mul (hf : f.Even) (inDim : ℕ) : inDim ≤ f.numGroups inDim * f.groupSize := by
  have hdiv := Nat.div_add_mod (inDim + f.groupSize - 1) f.groupSize
  have hmod := Nat.mod_lt (inDim + f.groupSize - 1) hf.pos
  have hpos := hf.pos
  rw [numGroups, Nat.mul_comm]
  omega

lemma numGroups_mul_lt (hf : f.Even) (inDim : ℕ) :
    f.numGroups inDim * f.groupSize < inDim + f.groupSize := by
  have hle := Nat.div_mul_le_self (inDim + f.groupSize - 1) f.groupSize
  have hpos := hf.pos
  rw [numGroups]
  omega

/-- The two elements of a byte. -/
lemma decode_pair (hf : f.Even) (rowData : ℕ → UInt8) {g b : ℕ} (hb : 2 * b < f.groupSize) :
    f.decode rowData (g * f.groupSize + 2 * b) = (f.values (f.groupData rowData g) b).1 ∧
      f.decode rowData (g * f.groupSize + 2 * b + 1) =
        (f.values (f.groupData rowData g) b).2 := by
  obtain ⟨hpos, heven⟩ := hf
  have hb1 : 2 * b + 1 < f.groupSize := by omega
  have hpar : g * f.groupSize % 2 = 0 := by rw [Nat.mul_mod, heven, Nat.mul_zero, Nat.zero_mod]
  constructor
  · rw [decode, rowMajor_div hb, rowMajor_mod hb, if_pos (by omega),
      Nat.mul_div_cancel_left _ (by omega)]
  · rw [Nat.add_assoc, decode, rowMajor_div hb1, rowMajor_mod hb1, if_neg (by omega)]
    congr 2
    omega

end Format

section Instances

variable {K : Type*} [CommRing K] {bf16ToF32 nf4Table : ℕ → K}

lemma pcg32_even : (pcg32 bf16ToF32).Even := ⟨Nat.succ_pos 31, show 32 % 2 = 0 from rfl⟩

lemma rnf4_even : (rnf4 bf16ToF32 nf4Table).Even :=
  ⟨Nat.succ_pos 127, show 128 % 2 = 0 from rfl⟩

end Instances

end Braidinfer.Quant
