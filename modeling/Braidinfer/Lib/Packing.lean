/-
Items packed into pieces of a fixed size, one after another.

* `pieces c n`: the sizes of the pieces that `n` items fill, pieces of `c` first and what is
  left last;
* `pieces_succ_of_dvd`, `pieces_succ_of_not_dvd`: one item more opens a piece or goes to the
  last one;
* `length_pieces`, `sum_pieces`, `getElem?_pieces_of_lt`, `getLast?_pieces`: the shape;
* `places`: the places of the items, in order; `places_pieces`: item `i` has place
  `(i / c, i % c)`.
-/
import Mathlib.Algebra.Order.Floor.Div
import Mathlib.Algebra.Order.BigOperators.Group.List
import Mathlib.Data.List.Range
import Mathlib.Tactic.Ring

namespace Braidinfer.Lib

/-- The sizes of the pieces that `n` items fill, `c` to a piece. -/
def pieces (c n : ℕ) : List ℕ :=
  List.replicate (n / c) c ++ if n % c = 0 then [] else [n % c]

/-- The places, as piece and offset, of the items in pieces of the sizes `sizes`, from the
piece number `k` on. -/
def placesFrom : ℕ → List ℕ → List (ℕ × ℕ)
  | _, [] => []
  | k, size :: sizes => (List.range size).map (k, ·) ++ placesFrom (k + 1) sizes

/-- The places of the items in pieces of the sizes `sizes`. -/
def places (sizes : List ℕ) : List (ℕ × ℕ) := placesFrom 0 sizes

variable {c n : ℕ}

@[simp] lemma pieces_zero : pieces c 0 = [] := by simp [pieces]

/-- The first item of a piece opens it. -/
lemma pieces_succ_of_dvd (hdvd : c ∣ n) : pieces c (n + 1) = pieces c n ++ [1] := by
  have hzero : n % c = 0 := Nat.mod_eq_zero_of_dvd hdvd
  rcases Nat.eq_zero_or_pos c with rfl | hc
  · obtain rfl : n = 0 := Nat.zero_dvd.mp hdvd
    simp [pieces]
  rcases Nat.eq_or_lt_of_le (show 1 ≤ c from hc) with rfl | hone
  · simp [pieces, Nat.mod_one, List.replicate_succ']
  · have hdiv : (n + 1) / c = n / c := by
      rw [Nat.succ_div, if_neg, Nat.add_zero]
      intro hsucc
      exact absurd (Nat.dvd_one.mp ((Nat.dvd_add_right hdvd).mp hsucc)) (by omega)
    have hmod : (n + 1) % c = 1 := by rw [Nat.add_mod, hzero, Nat.zero_add, Nat.mod_mod,
      Nat.mod_eq_of_lt hone]
    simp [pieces, hdiv, hmod, hzero]

/-- Where the last piece is not full, the items are full pieces and the rest. -/
lemma pieces_of_not_dvd (hdvd : ¬ c ∣ n) :
    pieces c n = List.replicate (n / c) c ++ [n % c] := by
  rw [pieces, if_neg fun hzero => hdvd (Nat.dvd_of_mod_eq_zero hzero)]

/-- An item that does not open a piece goes to the last one. -/
lemma pieces_succ_of_not_dvd (hdvd : ¬ c ∣ n) :
    pieces c (n + 1) = List.replicate (n / c) c ++ [n % c + 1] := by
  rcases Nat.eq_zero_or_pos c with rfl | hc
  · simp [pieces]
  have hlt : n % c < c := Nat.mod_lt _ hc
  have hn : n + 1 = c * (n / c) + (n % c + 1) := by rw [← Nat.add_assoc, Nat.div_add_mod]
  rcases Nat.eq_or_lt_of_le (show n % c + 1 ≤ c from hlt) with hfull | hroom
  · -- the item fills the piece
    have hsucc : n + 1 = c * (n / c + 1) := by rw [hn, hfull, Nat.mul_succ]
    rw [pieces, hsucc, Nat.mul_div_cancel_left _ hc, Nat.mul_mod_right, if_pos rfl,
      List.append_nil, List.replicate_succ', hfull]
  · have hdiv : (n + 1) / c = n / c := by
      rw [hn, Nat.mul_add_div hc, Nat.div_eq_of_lt hroom, Nat.add_zero]
    have hmod : (n + 1) % c = n % c + 1 := by
      rw [hn, Nat.mul_add_mod, Nat.mod_eq_of_lt hroom]
    rw [pieces, hdiv, hmod, if_neg (Nat.succ_ne_zero _)]

/-! ### Shape -/

/-- There are as many pieces as it takes. -/
lemma length_pieces (hc : 0 < c) : (pieces c n).length = n ⌈/⌉ c := by
  rw [pieces, List.length_append, List.length_replicate, Nat.ceilDiv_eq_add_pred_div]
  have hlt : n % c < c := Nat.mod_lt _ hc
  conv_rhs => rw [← Nat.div_add_mod n c]
  split_ifs with hzero
  · rw [hzero, Nat.add_zero, Nat.add_sub_assoc hc, Nat.mul_add_div hc,
      Nat.div_eq_of_lt (by omega : c - 1 < c), List.length_nil]
  · have hrest : c * (n / c) + n % c + c - 1 = c * (n / c + 1) + (n % c - 1) := by
      rw [Nat.mul_succ]
      omega
    rw [hrest, Nat.mul_add_div hc, Nat.div_eq_of_lt (by omega : n % c - 1 < c),
      List.length_singleton, Nat.add_zero]

lemma length_pieces_of_dvd (hdvd : c ∣ n) : (pieces c n).length = n / c := by
  rw [pieces, Nat.mod_eq_zero_of_dvd hdvd, if_pos rfl, List.append_nil, List.length_replicate]

/-- The pieces hold the items. -/
lemma sum_pieces : (pieces c n).sum = n := by
  rw [pieces, List.sum_append, List.sum_replicate, smul_eq_mul, Nat.mul_comm]
  have hn := Nat.div_add_mod n c
  split_ifs with hzero
  · rw [List.sum_nil]
    omega
  · rw [List.sum_singleton]
    exact hn

/-- All pieces but the last are full. -/
lemma getElem?_pieces_of_lt {i : ℕ} (hi : i + 1 < (pieces c n).length) :
    (pieces c n)[i]? = some c := by
  have hlt : i < (List.replicate (n / c) c).length := by
    rw [pieces, List.length_append] at hi
    split_ifs at hi <;> simp only [List.length_nil, List.length_singleton] at hi <;> omega
  rw [pieces, List.getElem?_append_left hlt, List.getElem?_eq_getElem hlt,
    List.getElem_replicate]

/-- The last piece. -/
lemma getLast?_pieces (hc : 0 < c) (hn : 0 < n) :
    (pieces c n).getLast? = some (if c ∣ n then c else n % c) := by
  split_ifs with hdvd
  · obtain ⟨k, rfl⟩ := hdvd
    have hk : k ≠ 0 := by
      rintro rfl
      exact Nat.lt_irrefl _ hn
    rw [pieces, Nat.mul_mod_right, if_pos rfl, List.append_nil, Nat.mul_div_cancel_left _ hc,
      List.getLast?_replicate, if_neg hk]
  · rw [pieces_of_not_dvd hdvd, List.getLast?_append]
    rfl

/-- No piece is empty, and none holds more than `c` items. -/
lemma mem_pieces (hc : 0 < c) {size : ℕ} (hmem : size ∈ pieces c n) : 1 ≤ size ∧ size ≤ c := by
  rw [pieces, List.mem_append] at hmem
  rcases hmem with hfull | hlast
  · rw [List.eq_of_mem_replicate hfull]
    exact ⟨hc, Nat.le_refl c⟩
  · have hlt : n % c < c := Nat.mod_lt _ hc
    split_ifs at hlast with hzero
    · cases hlast
    · rw [List.mem_singleton.mp hlast]
      omega

/-! ### Places -/

lemma placesFrom_append (xs ys : List ℕ) (k : ℕ) :
    placesFrom k (xs ++ ys) = placesFrom k xs ++ placesFrom (k + xs.length) ys := by
  induction xs generalizing k with
  | nil => rfl
  | cons x xs ih =>
      rw [List.cons_append, placesFrom, placesFrom, ih, List.append_assoc, List.length_cons,
        Nat.add_right_comm, Nat.add_assoc]

lemma placesFrom_singleton (k size : ℕ) :
    placesFrom k [size] = (List.range size).map (k, ·) := by
  rw [placesFrom, placesFrom, List.append_nil]

/-- A place is in a piece. -/
lemma exists_of_mem_placesFrom {sizes : List ℕ} {k i o : ℕ} (hmem : (i, o) ∈ placesFrom k sizes) :
    ∃ size, k ≤ i ∧ sizes[i - k]? = some size ∧ o < size := by
  induction sizes generalizing k with
  | nil => cases hmem
  | cons size sizes ih =>
      rcases List.mem_append.mp hmem with hhead | htail
      · obtain ⟨o', ho', heq⟩ := List.mem_map.mp hhead
        obtain ⟨rfl, rfl⟩ : k = i ∧ o' = o := Prod.mk.inj heq
        exact ⟨size, Nat.le_refl k, by rw [Nat.sub_self]; rfl, List.mem_range.mp ho'⟩
      · obtain ⟨size', hle, hget, hlt⟩ := ih htail
        refine ⟨size', by omega, ?_, hlt⟩
        rw [show i - k = i - (k + 1) + 1 by omega, List.getElem?_cons_succ]
        exact hget

/-- One item more at the end of the last piece. -/
lemma places_append_succ (xs : List ℕ) (size : ℕ) :
    places (xs ++ [size + 1]) = places (xs ++ [size]) ++ [(xs.length, size)] := by
  rw [places, places, placesFrom_append, placesFrom_append, placesFrom_singleton,
    placesFrom_singleton, List.range_succ, List.map_append, Nat.zero_add, List.append_assoc]
  rfl

/-- A new piece of one item. -/
lemma places_append_one (xs : List ℕ) :
    places (xs ++ [1]) = places xs ++ [(xs.length, 0)] := by
  rw [places, places, placesFrom_append, placesFrom_singleton, Nat.zero_add]
  rfl

/-- **Item `i` is in piece `i / c` at offset `i % c`.** -/
theorem places_pieces :
    places (pieces c n) = (List.range n).map fun i => (i / c, i % c) := by
  induction n with
  | zero => rw [pieces_zero]; rfl
  | succ n ih =>
      rw [List.range_succ, List.map_append, ← ih]
      by_cases hdvd : c ∣ n
      · rw [pieces_succ_of_dvd hdvd, places_append_one, length_pieces_of_dvd hdvd,
          List.map_singleton, Nat.mod_eq_zero_of_dvd hdvd]
      · rw [pieces_succ_of_not_dvd hdvd, places_append_succ, ← pieces_of_not_dvd hdvd,
          List.length_replicate, List.map_singleton]

end Braidinfer.Lib
