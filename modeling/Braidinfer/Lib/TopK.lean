/-
Selection of the largest values by masking.

Each round scans an array for its largest value, takes the first index that holds it, and puts a
sentinel there that no later scan can take.

* `scan`: the index a scan ends with; `scan_spec`: **it comes before every other index**;
* `rounds`: the indices taken so far and the masked array;
* `Selected`: the invariant of the rounds, `Selected.round`: that one round keeps it;
* `selected_rounds`: **the indices are the first ones in order**, and nothing else is masked.
-/
import Mathlib.Data.Finset.Card
import Mathlib.Data.List.Range
import Mathlib.Logic.Function.Basic
import Mathlib.Order.Defs.LinearOrder

namespace Braidinfer.Lib.TopK

variable {K : Type*} [LinearOrder K]

/-! ### One scan -/

/-- A strictly larger value becomes the best one. -/
def scanStep (sel : ℕ → K) (best : K × ℕ) (i : ℕ) : K × ℕ :=
  if best.1 < sel i then (sel i, i) else best

/-- The index with the best value above `low`, or zero. -/
def scan (low : K) (sel : ℕ → K) (n : ℕ) : ℕ :=
  ((List.range n).foldl (scanStep sel) (low, 0)).2

/-- `a` comes before `b`: its value is larger, or equal with `a` the lower index. -/
def Before (sel : ℕ → K) (a b : ℕ) : Prop := sel b < sel a ∨ sel b = sel a ∧ a < b

variable {low : K} {sel sel' : ℕ → K} {n a b : ℕ}

lemma Before.le (h : Before sel a b) : sel b ≤ sel a := h.elim le_of_lt fun h => h.1.le

lemma Before.ne (h : Before sel a b) : a ≠ b := by
  rintro rfl
  rcases h with h | h
  · exact lt_irrefl _ h
  · exact Nat.lt_irrefl _ h.2

lemma Before.congr (h : Before sel a b) (ha : sel a = sel' a) (hb : sel b = sel' b) :
    Before sel' a b := by
  rwa [Before, ← ha, ← hb]

/-- What a scan has found among the indices below `n`. -/
def Found (low : K) (sel : ℕ → K) (n : ℕ) (best : K × ℕ) : Prop :=
  (best = (low, 0) ∧ ∀ i < n, sel i ≤ low) ∨
    (best.1 = sel best.2 ∧ best.2 < n ∧ low < sel best.2 ∧
      ∀ i < n, i ≠ best.2 → Before sel best.2 i)

/-- One step of a scan: the new index comes before all others, or after the best one. -/
lemma Found.step {best : K × ℕ} (h : Found low sel n best) :
    Found low sel (n + 1) (scanStep sel best n) := by
  rw [scanStep]
  by_cases hlt : best.1 < sel n
  · rw [if_pos hlt]
    right
    rcases h with ⟨rfl, hall⟩ | ⟨hval, hin, hlow, hall⟩
    · exact ⟨rfl, Nat.lt_succ_self n, hlt, fun i hi hne =>
        .inl ((hall i (by omega)).trans_lt hlt)⟩
    · rw [hval] at hlt
      refine ⟨rfl, Nat.lt_succ_self n, hlow.trans hlt, fun i hi hne => .inl ?_⟩
      by_cases hbest : i = best.2
      · rwa [hbest]
      · exact (hall i (by omega) hbest).le.trans_lt hlt
  · rw [if_neg hlt]
    have hle := not_lt.mp hlt
    rcases h with ⟨rfl, hall⟩ | ⟨hval, hin, hlow, hall⟩
    · refine .inl ⟨rfl, fun i hi => ?_⟩
      rcases Nat.lt_succ_iff_lt_or_eq.mp hi with hi | rfl
      · exact hall i hi
      · exact hle
    · refine .inr ⟨hval, by omega, hlow, fun i hi hne => ?_⟩
      rcases Nat.lt_succ_iff_lt_or_eq.mp hi with hi | rfl
      · exact hall i hi hne
      · rw [hval] at hle
        exact hle.lt_or_eq.imp id fun h => ⟨h, hin⟩

lemma found_foldl (low : K) (sel : ℕ → K) (n : ℕ) :
    Found low sel n ((List.range n).foldl (scanStep sel) (low, 0)) := by
  induction n with
  | zero => exact .inl ⟨rfl, fun i hi => absurd hi (Nat.not_lt_zero i)⟩
  | succ n ih =>
      rw [List.range_succ, List.foldl_append]
      exact ih.step

/-- **A scan** ends with the index that comes before every other, if any value is above `low`. -/
theorem scan_spec (h : ∃ i < n, low < sel i) : scan low sel n < n ∧ low < sel (scan low sel n) ∧
    ∀ i < n, i ≠ scan low sel n → Before sel (scan low sel n) i := by
  rcases found_foldl low sel n with ⟨-, hall⟩ | ⟨-, hin, hlow, hall⟩
  · obtain ⟨i, hi, hlt⟩ := h
    exact absurd hlt (not_lt.mpr (hall i hi))
  · exact ⟨hin, hlow, hall⟩

/-! ### Rounds -/

/-- The masked array and the indices taken, in order. -/
structure Rounds (K : Type*) where
  sel : ℕ → K
  ids : List ℕ

/-- One round. -/
def round (low : K) (n : ℕ) (st : Rounds K) : Rounds K where
  sel := Function.update st.sel (scan low st.sel n) low
  ids := st.ids ++ [scan low st.sel n]

/-- The first `k` rounds. -/
def rounds (low : K) (sel : ℕ → K) (n : ℕ) : ℕ → Rounds K
  | 0 => ⟨sel, []⟩
  | k + 1 => round low n (rounds low sel n k)

/-- The indices taken are the first ones in order, and they alone are masked. -/
structure Selected (low : K) (sel : ℕ → K) (n : ℕ) (st : Rounds K) : Prop where
  masked : ∀ i, st.sel i = if i ∈ st.ids then low else sel i
  lt : ∀ i ∈ st.ids, i < n
  ordered : st.ids.Pairwise (Before sel)
  ahead : ∀ a ∈ st.ids, ∀ b < n, b ∉ st.ids → Before sel a b

namespace Selected

variable {st : Rounds K}

lemma nodup (h : Selected low sel n st) : st.ids.Nodup := h.ordered.imp fun hab => hab.ne

/-- As long as there were fewer rounds than indices, one is left. -/
lemma exists_left (h : Selected low sel n st) (hlen : st.ids.length < n) :
    ∃ i < n, i ∉ st.ids := by
  have hcard : st.ids.toFinset.card < (Finset.range n).card := by
    rwa [List.toFinset_card_of_nodup h.nodup, Finset.card_range]
  obtain ⟨i, hi, hnot⟩ := Finset.exists_mem_notMem_of_card_lt_card hcard
  exact ⟨i, Finset.mem_range.mp hi, fun hmem => hnot (List.mem_toFinset.mpr hmem)⟩

/-- **One round** takes the first index that is left. -/
lemma round (h : Selected low sel n st) (hlow : ∀ i < n, low < sel i)
    (hlen : st.ids.length < n) : Selected low sel n (round low n st) := by
  have hexists : ∃ i < n, low < st.sel i := by
    obtain ⟨i, hi, hnot⟩ := h.exists_left hlen
    refine ⟨i, hi, ?_⟩
    rw [h.masked, if_neg hnot]
    exact hlow i hi
  obtain ⟨hin, hval, hbest⟩ := scan_spec hexists
  set best := scan low st.sel n with hdef
  -- a masked index does not lie above the sentinel
  have hfresh : best ∉ st.ids := fun hmem => by
    rw [h.masked, if_pos hmem] at hval
    exact lt_irrefl _ hval
  have hkept : ∀ i, i ∉ st.ids → st.sel i = sel i := fun i hnot => by
    rw [h.masked, if_neg hnot]
  refine ⟨fun i => ?_, ?_, ?_, ?_⟩
  · show Function.update st.sel best low i = if i ∈ st.ids ++ [best] then low else sel i
    by_cases hi : i = best
    · rw [hi, Function.update_self, if_pos (by simp)]
    · rw [Function.update_of_ne hi, h.masked]
      exact if_congr (by simp [hi]) rfl rfl
  · intro i hi
    rcases List.mem_append.mp hi with hi | hi
    · exact h.lt i hi
    · exact (List.mem_singleton.mp hi) ▸ hin
  · refine List.pairwise_append.mpr ⟨h.ordered, List.pairwise_singleton _ _, fun a ha b hb => ?_⟩
    obtain rfl := List.mem_singleton.mp hb
    exact h.ahead a ha _ hin hfresh
  · intro a ha b hb hnot
    have hnot : b ∉ st.ids ++ [best] := hnot
    rw [List.mem_append, List.mem_singleton, not_or] at hnot
    obtain ⟨hnot, hne⟩ := hnot
    rcases List.mem_append.mp ha with ha | ha
    · exact h.ahead a ha b hb hnot
    · obtain rfl := List.mem_singleton.mp ha
      exact (hbest b hb hne).congr (hkept _ hfresh) (hkept b hnot)

end Selected

lemma length_rounds (low : K) (sel : ℕ → K) (n k : ℕ) :
    (rounds low sel n k).ids.length = k := by
  induction k with
  | zero => rfl
  | succ k ih =>
      show ((rounds low sel n k).ids ++ [_]).length = k + 1
      rw [List.length_append, ih]
      rfl

/-- **The rounds** take the first indices in order. -/
theorem selected_rounds (hlow : ∀ i < n, low < sel i) {k : ℕ} (hk : k ≤ n) :
    Selected low sel n (rounds low sel n k) := by
  induction k with
  | zero =>
      exact ⟨fun i => (if_neg List.not_mem_nil).symm, fun i hi => absurd hi List.not_mem_nil,
        List.Pairwise.nil, fun a ha => absurd ha List.not_mem_nil⟩
  | succ k ih => exact (ih (by omega)).round hlow (by rw [length_rounds]; omega)

end Braidinfer.Lib.TopK
