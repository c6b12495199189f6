/-
Codebooks: values in increasing order, with boundaries between them.

* `Separates`: boundaries that lie between the codewords, within a distance of the midpoints;
  `separates_midpoint`: the midpoints do, within zero;
* `cell`: the number of boundaries up to a value; `Bracket.cell_eq`: **a search that ends in one
  cell ends there**;
* `cell_mono`, `Separates.cell_codeword`: the cells are in order, and that of a codeword is its own;
* `Separates.abs_sub_le`: **the codeword of the cell is nearest up to twice the distance**;
* `NearestCodeword`, `Separates.nearest_iff`: **it is nearest where the value is on the same side of
  the boundaries as of the midpoints**.
-/
import Braidinfer.Lib.Quantize
import Mathlib.Data.Nat.Count

namespace Braidinfer.Lib

/-! ### Cells -/

section Cell

variable {K : Type*} [LinearOrder K] {b : ℕ → K} {n i j k : ℕ} {x y : K}

/-- The number of the `n` boundaries that are at most `x`. -/
def cell (b : ℕ → K) (n : ℕ) (x : K) : ℕ := Nat.count (fun j => b j ≤ x) n

lemma cell_le : cell b n x ≤ n := Nat.count_le _

lemma cell_mono (hxy : x ≤ y) : cell b n x ≤ cell b n y :=
  Nat.count_mono_left fun _ _ hle => hle.trans hxy

/-- The boundaries up to a value are the first ones. -/
lemma le_iff_lt_cell (hb : ∀ {j k}, j ≤ k → k < n → b j ≤ b k) (hj : j < n) :
    b j ≤ x ↔ j < cell b n x := by
  constructor
  · intro hle
    have hall : Nat.count (fun k => b k ≤ x) (j + 1) = j + 1 :=
      Nat.count_iff_forall.mpr fun k hk => (hb (Nat.lt_succ_iff.mp hk) hj).trans hle
    calc j < j + 1 := Nat.lt_succ_self j
      _ = Nat.count (fun k => b k ≤ x) (j + 1) := hall.symm
      _ ≤ cell b n x := Nat.count_monotone _ hj
  · intro hlt
    by_contra hgt
    -- none is counted from this one on
    have hnone : Nat.count (fun k => b (j + k) ≤ x) (n - j) = 0 :=
      Nat.count_iff_forall_not.mpr fun k hk hle =>
        hgt ((hb (Nat.le_add_right j k) (by omega)).trans hle)
    have hsplit : cell b n x = Nat.count (fun k => b k ≤ x) j := by
      rw [cell, show n = j + (n - j) by omega, Nat.count_add, hnone, Nat.add_zero]
    have hfew : Nat.count (fun k => b k ≤ x) j ≤ j := Nat.count_le _
    omega

/-- The boundary below the cell of a value, and the one above. -/
lemma boundary_le_self (hb : ∀ {j k}, j ≤ k → k < n → b j ≤ b k) (hpos : 0 < cell b n x) :
    b (cell b n x - 1) ≤ x :=
  (le_iff_lt_cell hb ((Nat.sub_lt hpos one_pos).trans_le cell_le)).mpr (Nat.sub_lt hpos one_pos)

lemma self_lt_boundary (hb : ∀ {j k}, j ≤ k → k < n → b j ≤ b k) (hlt : cell b n x < n) :
    x < b (cell b n x) :=
  not_le.mp fun hle => lt_irrefl _ ((le_iff_lt_cell hb hlt).mp hle)

/-- The cell by the boundaries below it. -/
lemma cell_eq (hb : ∀ {j k}, j ≤ k → k < n → b j ≤ b k) (hi : i ≤ n)
    (h : ∀ j < n, b j ≤ x ↔ j < i) : cell b n x = i := by
  have hle : cell b n x ≤ n := cell_le
  rcases Nat.lt_trichotomy (cell b n x) i with hlt | heq | hgt
  · have hmem := (h _ (by omega)).mpr hlt
    exact absurd ((le_iff_lt_cell hb (by omega)).mp hmem) (lt_irrefl _)
  · exact heq
  · have hmem := (le_iff_lt_cell hb (by omega)).mpr hgt
    exact absurd ((h i (by omega)).mp hmem) (lt_irrefl _)

/-- **A search that ends in one cell ends in that of the value.** -/
theorem Bracket.cell_eq (hb : ∀ {j k}, j ≤ k → k < n → b j ≤ b k)
    (hx : Bracket b (n + 1) x i 1) (hi : i ≤ n) : cell b n x = i := by
  refine Lib.cell_eq hb hi fun j hj => ⟨fun hle => ?_, fun hlt => ?_⟩
  · by_contra hge
    have hupper := hx.upper.resolve_left (by omega)
    rw [Nat.add_sub_cancel] at hupper
    exact absurd ((hb (not_lt.mp hge) hj).trans hle) (not_le.mpr hupper)
  · have hlower := hx.lower.resolve_left (by omega)
    exact (hb (by omega) (by omega)).trans hlower

end Cell

/-! ### Boundaries -/

section Codebook

variable {K : Type*} [Field K] [LinearOrder K] {t b : ℕ → K} {n i j k : ℕ} {x δ : K}

/-- The `n` boundaries `b` lie between the codewords `t` up to `n`, within `δ` of the
midpoints. -/
structure Separates (t b : ℕ → K) (n : ℕ) (δ : K) : Prop where
  lower : ∀ j < n, t j < b j
  upper : ∀ j < n, b j ≤ t (j + 1)
  near : ∀ j < n, |b j - midpoint t j| ≤ δ

/-- The codeword `i` is at minimal distance, the largest one where there are several. -/
structure NearestCodeword (t : ℕ → K) (n : ℕ) (x : K) (i : ℕ) : Prop where
  le : i ≤ n
  nearest : ∀ j ≤ n, |x - t i| ≤ |x - t j|
  largest : ∀ j ≤ n, |x - t j| = |x - t i| → t j ≤ t i

namespace Separates

variable (h : Separates t b n δ)

include h

lemma codeword_le (hjk : j ≤ k) (hk : k ≤ n) : t j ≤ t k := by
  induction k, hjk using Nat.le_induction with
  | base => exact le_rfl
  | succ k hjk ih => exact (ih (by omega)).trans ((h.lower k hk).le.trans (h.upper k hk))

lemma codeword_lt (hjk : j < k) (hk : k ≤ n) : t j < t k :=
  (h.lower j (by omega)).trans_le ((h.upper j (by omega)).trans (h.codeword_le hjk hk))

lemma boundary_le (hjk : j ≤ k) (hk : k < n) : b j ≤ b k := by
  rcases Nat.lt_or_eq_of_le hjk with hlt | rfl
  · calc b j ≤ t (j + 1) := h.upper j (by omega)
      _ ≤ t k := h.codeword_le hlt hk.le
      _ ≤ b k := (h.lower k hk).le
  · exact le_rfl

/-- **The cell of a codeword is its own.** -/
theorem cell_codeword (hi : i ≤ n) : cell b n (t i) = i := by
  refine cell_eq h.boundary_le hi fun j hj => ⟨fun hle => ?_, fun hlt => ?_⟩
  · by_contra hge
    have hbelow := (h.codeword_le (not_lt.mp hge) hj.le).trans_lt (h.lower j hj)
    exact absurd hle (not_le.mpr hbelow)
  · exact (h.upper j hj).trans (h.codeword_le hlt hi)

end Separates

section Distance

variable [IsStrictOrderedRing K]

/-- **The codeword of the cell is nearest up to twice the distance from the midpoints.** -/
theorem Separates.abs_sub_le (h : Separates t b n δ) (hδ : 0 ≤ δ) (hj : j ≤ n) :
    |x - t (cell b n x)| ≤ |x - t j| + 2 * δ := by
  have hcell : cell b n x ≤ n := cell_le
  rcases Nat.lt_trichotomy j (cell b n x) with hlt | heq | hgt
  · -- the value is past the boundary below its cell
    have hpast := boundary_le_self h.boundary_le (show 0 < cell b n x by omega)
    have hnear := (abs_le.mp (h.near (cell b n x - 1) (by omega))).1
    have hmono := h.codeword_le (show j ≤ cell b n x - 1 by omega) (by omega)
    have hmono' := h.codeword_le hlt.le hcell
    rw [midpoint, Nat.sub_add_cancel (by omega)] at hnear
    have hself := le_abs_self (x - t j)
    exact abs_le.mpr ⟨by linarith, by linarith⟩
  · rw [← heq]
    linarith
  · -- and it is not past the boundary above it
    have hbelow := self_lt_boundary h.boundary_le (show cell b n x < n by omega)
    have hnear := (abs_le.mp (h.near (cell b n x) (by omega))).2
    have hmono := h.codeword_le (show cell b n x + 1 ≤ j from hgt) hj
    have hmono' := h.codeword_le hgt.le hj
    rw [midpoint] at hnear
    have hself := neg_le_abs (x - t j)
    exact abs_le.mpr ⟨by linarith, by linarith⟩

/-- The midpoints are boundaries. -/
lemma separates_midpoint (ht : ∀ j < n, t j < t (j + 1)) : Separates t (midpoint t) n 0 where
  lower j hj := left_lt_add_div_two.mpr (ht j hj)
  upper j hj := (add_div_two_lt_right.mpr (ht j hj)).le
  near j _ := by rw [sub_self, abs_zero]

/-- **The cell between the midpoints is that of the nearest codeword.** -/
theorem nearestCodeword_cell (ht : ∀ j < n, t j < t (j + 1)) :
    NearestCodeword t n x (cell (midpoint t) n x) := by
  have h := separates_midpoint ht
  have hcell : cell (midpoint t) n x ≤ n := cell_le
  refine ⟨hcell, fun j hj => ?_, fun j hj heq => ?_⟩
  · have hle := h.abs_sub_le le_rfl hj (x := x)
    rwa [mul_zero, add_zero] at hle
  · by_contra hgt
    have hlt : cell (midpoint t) n x < j := by
      by_contra hge
      exact hgt (h.codeword_le (not_lt.mp hge) hcell)
    -- the value is below the midpoint above its cell
    have hbelow := self_lt_boundary h.boundary_le (show cell (midpoint t) n x < n by omega)
    have hmono := h.codeword_le (show cell (midpoint t) n x + 1 ≤ j from hlt) hj
    rw [midpoint] at hbelow
    rcases abs_eq_abs.mp heq with hsame | hopp
    · exact hgt (by linarith)
    · linarith

/-- There is one nearest codeword. -/
lemma NearestCodeword.unique (ht : ∀ j < n, t j < t (j + 1)) (hi : NearestCodeword t n x i)
    (hk : NearestCodeword t n x k) : i = k := by
  have h := separates_midpoint ht
  have hdist := le_antisymm (hi.nearest k hk.le) (hk.nearest i hi.le)
  have heq := le_antisymm (hk.largest i hi.le hdist) (hi.largest k hk.le hdist.symm)
  rcases Nat.lt_trichotomy i k with hlt | hik | hgt
  · exact absurd heq (h.codeword_lt hlt hk.le).ne
  · exact hik
  · exact absurd heq (h.codeword_lt hgt hi.le).ne'

/-- **The codeword of the cell is nearest where the value is on the same side of the boundaries as
of the midpoints.** -/
theorem Separates.nearest_iff (h : Separates t b n δ) :
    NearestCodeword t n x (cell b n x) ↔ ∀ j < n, (b j ≤ x ↔ midpoint t j ≤ x) := by
  have ht : ∀ j < n, t j < t (j + 1) := fun j hj => (h.lower j hj).trans_le (h.upper j hj)
  have hmid := separates_midpoint ht
  constructor
  · intro hnear j hj
    have hcell := hnear.unique ht (nearestCodeword_cell ht)
    rw [le_iff_lt_cell h.boundary_le hj, le_iff_lt_cell hmid.boundary_le hj, hcell]
  · intro hsame
    have hcell : cell b n x = cell (midpoint t) n x :=
      cell_eq h.boundary_le cell_le fun j hj =>
        (hsame j hj).trans (le_iff_lt_cell hmid.boundary_le hj)
    rw [hcell]
    exact nearestCodeword_cell ht

end Distance

end Codebook

end Braidinfer.Lib
