/-
Rebuilding a list with insertions around its elements.

A pass that copies a program and inserts code before and after some instructions walks the old
list once and asks for every old index what to insert there.  Old indices that the program has
recorded are shifted by the number of instructions inserted before them.

* `splice pre post i l`: the rebuilt list, for a list whose first element has index `i`;
* `splicedAt pre post i l n`: the number of new elements before the copy of the old element `n`;
* `splice_append`, `splicedAt_append`: **the pass works piece by piece**;
* `getElem?_splice`, `getElem?_splice_succ`: what stands at that place and right behind it.
-/
import Mathlib.Data.List.Basic
import Mathlib.Tactic.Common

namespace Braidinfer.Lib

variable {α : Type*}

/-- Insert `pre i` before and `post i` after the element with index `i`. -/
def splice (pre post : ℕ → List α) : ℕ → List α → List α
  | _, [] => []
  | i, a :: l => pre i ++ a :: (post i ++ splice pre post (i + 1) l)

/-- The place of the copy of the `n`-th element of `l` in the rebuilt list. -/
def splicedAt (pre post : ℕ → List α) : ℕ → List α → ℕ → ℕ
  | _, [], n => n
  | i, _ :: _, 0 => (pre i).length
  | i, _ :: l, n + 1 =>
      (pre i).length + 1 + (post i).length + splicedAt pre post (i + 1) l n

variable {pre post : ℕ → List α} {l l' : List α} {i n : ℕ}

lemma splice_append : splice pre post i (l ++ l') =
    splice pre post i l ++ splice pre post (i + l.length) l' := by
  induction l generalizing i with
  | nil => rfl
  | cons a l ih =>
      have harith : i + 1 + l.length = i + (a :: l).length := by
        rw [List.length_cons]
        omega
      simp [splice, ih, harith]

/-- The place of an element of the second piece. -/
lemma splicedAt_append : splicedAt pre post i (l ++ l') (l.length + n) =
    (splice pre post i l).length + splicedAt pre post (i + l.length) l' n := by
  induction l generalizing i with
  | nil => simp [splice]
  | cons a l ih =>
      have harith : i + 1 + l.length = i + (a :: l).length := by
        rw [List.length_cons]
        omega
      rw [List.cons_append, show (a :: l).length + n = l.length + n + 1 by
        rw [List.length_cons]; omega, splicedAt, ih, harith]
      simp only [splice, List.length_append, List.length_cons]
      omega

/-- The place of an element of the first piece. -/
lemma splicedAt_append_left (h : n < l.length) :
    splicedAt pre post i (l ++ l') n = splicedAt pre post i l n := by
  induction l generalizing i n with
  | nil => cases h
  | cons a l ih =>
      cases n with
      | zero => rfl
      | succ n =>
          rw [List.cons_append, splicedAt, splicedAt, ih (by simpa using h)]

/-- A piece around which nothing is inserted. -/
lemma splice_of_nil (hpre : ∀ n < l.length, pre (i + n) = [])
    (hpost : ∀ n < l.length, post (i + n) = []) : splice pre post i l = l := by
  induction l generalizing i with
  | nil => rfl
  | cons a l ih =>
      have hl : splice pre post (i + 1) l = l := by
        refine ih (fun n hn => ?_) fun n hn => ?_
        · rw [show i + 1 + n = i + (n + 1) by omega]
          exact hpre (n + 1) (by simpa using hn)
        · rw [show i + 1 + n = i + (n + 1) by omega]
          exact hpost (n + 1) (by simpa using hn)
      have h0 := hpre 0 (by simp)
      have h1 := hpost 0 (by simp)
      rw [Nat.add_zero] at h0 h1
      rw [splice, h0, h1, hl, List.nil_append, List.nil_append]

/-- In a piece around which nothing is inserted, indices stay. -/
lemma splicedAt_of_nil (hpre : ∀ n < l.length, pre (i + n) = [])
    (hpost : ∀ n < l.length, post (i + n) = []) (hn : n < l.length) :
    splicedAt pre post i l n = n := by
  induction l generalizing i n with
  | nil => cases hn
  | cons a l ih =>
      have h0 := hpre 0 (by simp)
      have h1 := hpost 0 (by simp)
      rw [Nat.add_zero] at h0 h1
      cases n with
      | zero => rw [splicedAt, h0, List.length_nil]
      | succ n =>
          rw [splicedAt, h0, h1, ih (fun n hn => ?_) (fun n hn => ?_) (by simpa using hn)]
          · simp only [List.length_nil]
            omega
          · rw [show i + 1 + n = i + (n + 1) by omega]
            exact hpre (n + 1) (by simpa using hn)
          · rw [show i + 1 + n = i + (n + 1) by omega]
            exact hpost (n + 1) (by simpa using hn)

/-! ### The copies and the insertions in the rebuilt list -/

variable (pre post i) in
/-- Behind the copy of an element come the insertions after it. -/
lemma splice_eq_at (hn : n < l.length) : ∃ before behind, splice pre post i l =
    before ++ l[n] :: (post (i + n) ++ behind) ∧ before.length = splicedAt pre post i l n := by
  induction l generalizing i n with
  | nil => cases hn
  | cons a l ih =>
      cases n with
      | zero => exact ⟨pre i, splice pre post (i + 1) l, rfl, rfl⟩
      | succ n =>
          obtain ⟨before, behind, heq, hlen⟩ := ih (i + 1) (Nat.lt_of_succ_lt_succ hn)
          have hi : i + 1 + n = i + (n + 1) := by omega
          refine ⟨pre i ++ a :: (post i ++ before), behind, ?_, ?_⟩
          · rw [splice, heq, hi]
            simp
          · rw [splicedAt, ← hlen]
            simp only [List.length_append, List.length_cons]
            omega

/-- **The place of a copy holds the copy.** -/
lemma getElem?_splice (hn : n < l.length) :
    (splice pre post i l)[splicedAt pre post i l n]? = l[n]? := by
  obtain ⟨before, behind, heq, hlen⟩ := splice_eq_at pre post i hn
  rw [heq, ← hlen, List.getElem?_append_right Nat.le.refl, Nat.sub_self, List.getElem?_cons_zero,
    List.getElem?_eq_getElem hn]

/-- The first insertion after an element stands right behind its copy. -/
lemma getElem?_splice_succ (hn : n < l.length) {b : α} {bs : List α}
    (hpost : post (i + n) = b :: bs) :
    (splice pre post i l)[splicedAt pre post i l n + 1]? = some b := by
  obtain ⟨before, behind, heq, hlen⟩ := splice_eq_at pre post i hn
  rw [heq, ← hlen, List.getElem?_append_right (Nat.le_add_right _ _), Nat.add_sub_cancel_left,
    List.getElem?_cons_succ, hpost, List.cons_append, List.getElem?_cons_zero]

variable (pre post l i n) in
lemma le_splicedAt : n ≤ splicedAt pre post i l n := by
  induction l generalizing i n with
  | nil => simp [splicedAt]
  | cons a l ih =>
      cases n with
      | zero => exact Nat.zero_le _
      | succ n =>
          have := ih (i + 1) n
          rw [splicedAt]
          omega

/-- Behind an element after which something is inserted, copies move. -/
lemma lt_splicedAt {k : ℕ} (hk : k < n) (hn : n ≤ l.length) (hpost : post (i + k) ≠ []) :
    n < splicedAt pre post i l n := by
  induction l generalizing i k n with
  | nil => exact absurd hn (by rw [List.length_nil]; omega)
  | cons a l ih =>
      cases n with
      | zero => cases hk
      | succ n =>
          rw [splicedAt]
          cases k with
          | zero =>
              have hpos : 0 < (post i).length := List.length_pos_iff.mpr hpost
              have hle := le_splicedAt pre post l (i + 1) n
              omega
          | succ k =>
              have hi : i + (k + 1) = i + 1 + k := by omega
              rw [hi] at hpost
              have := ih (Nat.lt_of_succ_lt_succ hk) (Nat.le_of_succ_le_succ hn) hpost
              omega

end Braidinfer.Lib
