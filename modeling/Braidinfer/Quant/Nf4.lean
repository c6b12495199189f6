/-
The search of `nf4_quantize` in `quant.rs` among the boundaries of its codebook.

`NF4_TABLE` and `NF4_BOUNDARIES` are constants of `f32`: the codewords are rounded, and so are the
midpoints between them.

* `nf4Search`: the search, with what it reads; `nf4Search_eq`: **it reads none but the 15 boundaries
  and ends in the cell of the value**;
* `nf4TableF32`, `nf4BoundaryF32`: the constants; `nf4_separates`: each boundary is between two
  codewords, and within `2 ^ (-25)` of their midpoint;
* `FindsNearest`, `nf4Search_spec`: **it finds the nearest codeword in exact arithmetic, and with
  the constants where no boundary was rounded past the value**.
-/
import Braidinfer.Lib.BinaryFormat
import Braidinfer.Lib.Codebook
import Braidinfer.Quant.Quantizer

namespace Braidinfer.Quant

open Braidinfer.Lib
open BinaryFormat (binary32)

/-! ### The search -/

/-- `nf4_quantize` with the boundaries `b`; there is no result where it reads past them. -/
def nf4Search (b : List ℚ) (x : ℚ) : Option ℕ := do
  let i := if (← b[7]?) ≤ x then 8 else 0
  let i := i + if (← b[i + 3]?) ≤ x then 4 else 0
  let i := i + if (← b[i + 1]?) ≤ x then 2 else 0
  return i + if (← b[i]?) ≤ x then 1 else 0

/-- The 15 boundaries, in order. -/
def boundaries (b : ℕ → ℚ) : List ℚ := (List.range 15).map b

variable {t b : ℕ → ℚ} {i j : ℕ} {x y δ : ℚ}

/-- A probe of one of the boundaries. -/
lemma boundaries_bind {α : Type} (hi : i < 15) (k : ℚ → Option α) :
    ((boundaries b)[i]? >>= k) = k (b i) := by
  rw [boundaries, getElem?_map_range hi]
  rfl

/-- Every probe is of one of the boundaries. -/
lemma nf4Search_eq_nf4Index (b : ℕ → ℚ) (x : ℚ) :
    nf4Search (boundaries b) x = some (nf4Index b x) := by
  rw [nf4Search, boundaries_bind (by decide), boundaries_bind (by split_ifs <;> decide),
    boundaries_bind (by split_ifs <;> decide), boundaries_bind (by split_ifs <;> decide)]
  rfl

/-- The quantizers run this search, with the midpoints. -/
lemma nf4Search_eq_nf4Quantize (x : ℚ) :
    nf4Search (boundaries nf4Boundary) x = some (nf4Quantize x) :=
  nf4Search_eq_nf4Index nf4Boundary x

/-- **The search ends in the cell of the value.** -/
lemma nf4Search_eq (h : Separates t b 15 δ) (x : ℚ) :
    nf4Search (boundaries b) x = some (cell b 15 x) := by
  obtain ⟨hlt, hbracket⟩ := nf4Index_bracket b x
  rw [nf4Search_eq_nf4Index, hbracket.cell_eq h.boundary_le (Nat.lt_succ_iff.mp hlt)]

/-- `nf4_quantize` does right by the codebook `t` with the boundaries `b`, whatever is near: it
reads no other boundaries and counts those up to the value, it is monotone, and it finds what is a
codeword. -/
structure Searches (t b : ℕ → ℚ) : Prop where
  count : ∀ x, nf4Search (boundaries b) x = some (cell b 15 x)
  mono : ∀ x y i j, x ≤ y → nf4Search (boundaries b) x = some i →
    nf4Search (boundaries b) y = some j → i ≤ j
  codeword : ∀ i < 16, nf4Search (boundaries b) (t i) = some i

/-- And it finds a codeword at minimal distance, the larger one on a tie. -/
structure FindsNearest (t b : ℕ → ℚ) : Prop extends Searches t b where
  nearest : ∀ x, ∃ i, nf4Search (boundaries b) x = some i ∧ NearestCodeword t 15 x i

lemma searches_of_separates (h : Separates t b 15 δ) : Searches t b where
  count := nf4Search_eq h
  mono x y i j hxy hi hj := by
    rw [nf4Search_eq h, Option.some.injEq] at hi hj
    rw [← hi, ← hj]
    exact cell_mono hxy
  codeword i hi := by rw [nf4Search_eq h, h.cell_codeword (Nat.lt_succ_iff.mp hi)]

/-! ### The constants -/

/-- A literal, as a pattern of `f32`. -/
def f32Literal (x : ℚ) : ℕ := binary32.round (decide (x < 0)) |x|

/-- Arithmetic on constants, none of which is a NaN. -/
def constNan (_ _ : ℕ) : ℕ := 0

/-- The patterns of `NF4_TABLE`. -/
def nf4TableBits (i : ℕ) : ℕ := f32Literal (nf4Table i)

/-- The patterns of `NF4_BOUNDARIES`. -/
def nf4BoundaryBits (i : ℕ) : ℕ :=
  binary32.div constNan (binary32.add constNan (nf4TableBits i) (nf4TableBits (i + 1)))
    (f32Literal 2.0)

/-- `NF4_TABLE` -/
def nf4TableF32 (i : ℕ) : ℚ := binary32.value (nf4TableBits i)

/-- `NF4_BOUNDARIES` -/
def nf4BoundaryF32 (i : ℕ) : ℚ := binary32.value (nf4BoundaryBits i)

/-- The constants are numbers, so that `value` is what they stand for. -/
lemma nf4_finite : (∀ i < 16, binary32.low (nf4TableBits i) < binary32.inf) ∧
    ∀ i < 15, binary32.low (nf4BoundaryBits i) < binary32.inf := by
  decide +kernel

/-- **A boundary is between two codewords, and close to their midpoint.** -/
lemma nf4_separates : Separates nf4TableF32 nf4BoundaryF32 15 (2 ^ (-25 : ℤ)) where
  lower := by decide +kernel
  upper := by decide +kernel
  near := by decide +kernel

lemma nf4Table_lt {i : ℕ} (hi : i < 15) : nf4Table i < nf4Table (i + 1) := by
  interval_cases i <;> norm_num [nf4Table]

/-- **In exact arithmetic the search finds the nearest codeword; with the constants of `f32` it does
so where no boundary has been rounded past the value, and what it finds is never farther than the
nearest one by more than `2 ^ (-24)`.** -/
theorem nf4Search_spec :
    FindsNearest nf4Table nf4Boundary ∧ Searches nf4TableF32 nf4BoundaryF32 ∧
      ∀ x, ∃ i, nf4Search (boundaries nf4BoundaryF32) x = some i ∧
        (NearestCodeword nf4TableF32 15 x i ↔
          ∀ j < 15, (nf4BoundaryF32 j ≤ x ↔ midpoint nf4TableF32 j ≤ x)) ∧
        ∀ j < 16, |x - nf4TableF32 i| ≤ |x - nf4TableF32 j| + 2 ^ (-24 : ℤ) := by
  have hexact : Separates nf4Table nf4Boundary 15 0 := separates_midpoint fun j => nf4Table_lt
  refine ⟨⟨searches_of_separates hexact, fun x => ⟨_, nf4Search_eq hexact x, ?_⟩⟩,
    searches_of_separates nf4_separates, fun x => ⟨_, nf4Search_eq nf4_separates x, ?_, ?_⟩⟩
  · exact nearestCodeword_cell fun j => nf4Table_lt
  · exact nf4_separates.nearest_iff
  · intro j hj
    have hle := nf4_separates.abs_sub_le (x := x) (by positivity) (Nat.lt_succ_iff.mp hj)
    rwa [show (2 : ℚ) * 2 ^ (-25 : ℤ) = 2 ^ (-24 : ℤ) by norm_num] at hle

/-- A boundary that is below the midpoint: there the search ends with the farther codeword. -/
theorem nf4Search_not_nearest :
    nf4BoundaryF32 12 = 8416515 / 2 ^ 24 ∧
      nf4Search (boundaries nf4BoundaryF32) (8416515 / 2 ^ 24) = some 13 ∧
      |8416515 / 2 ^ 24 - nf4TableF32 12| < |8416515 / 2 ^ 24 - nf4TableF32 13| ∧
      ¬ FindsNearest nf4TableF32 nf4BoundaryF32 := by
  have hsearch : nf4Search (boundaries nf4BoundaryF32) (8416515 / 2 ^ 24) = some 13 := by
    decide +kernel
  have hfar : |8416515 / 2 ^ 24 - nf4TableF32 12| < |8416515 / 2 ^ 24 - nf4TableF32 13| := by
    decide +kernel
  refine ⟨by decide +kernel, hsearch, hfar, fun hnearest => ?_⟩
  obtain ⟨i, hi, hnear⟩ := hnearest.nearest (8416515 / 2 ^ 24)
  obtain rfl : 13 = i := Option.some.inj (hsearch.symm.trans hi)
  exact absurd (hnear.nearest 12 (by decide)) (not_le.mpr hfar)

end Braidinfer.Quant
