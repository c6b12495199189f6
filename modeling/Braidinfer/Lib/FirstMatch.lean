/-
Choosing from a list by preference: the first value of the best class that has any.

What a list offers in its best class does not depend on its order, but which of these values comes
first does: each of them is chosen in some order.

* `firstMatch`, `bestClass`: the choice, and what it chooses from (`firstMatch_eq_head?`);
* `bestClass_perm`, `head?_perm`: **with one value to choose from the order does not matter**;
* `head?_bestClass_cons`: a value of the best class that comes first is chosen.
-/
import Mathlib.Data.List.Perm.Basic
import Mathlib.Data.Set.Subsingleton

namespace Braidinfer.Lib

section

variable {α : Type*} {ps : List (α → Bool)} {l l' : List α} {a : α}

/-- The first value in the first of the classes `ps` that has any. -/
def firstMatch : List (α → Bool) → List α → Option α
  | [], _ => none
  | p :: ps, l => (l.find? p).or (firstMatch ps l)

/-- The values in the first of the classes `ps` that has any. -/
def bestClass : List (α → Bool) → List α → List α
  | [], _ => []
  | p :: ps, l => if l.any p then l.filter p else bestClass ps l

/-- The choice is the first value of the best class. -/
lemma firstMatch_eq_head? (ps : List (α → Bool)) (l : List α) :
    firstMatch ps l = (bestClass ps l).head? := by
  induction ps with
  | nil => rfl
  | cons p ps ih =>
      rw [firstMatch, bestClass]
      by_cases hany : l.any p = true
      · rw [if_pos hany, List.head?_filter]
        obtain ⟨a, ha⟩ :=
          Option.isSome_iff_exists.mp (List.find?_isSome.mpr (List.any_eq_true.mp hany))
        rw [ha, Option.some_or]
      · have hnone : l.find? p = none :=
          List.find?_eq_none.mpr fun x hx hp => hany (List.any_eq_true.mpr ⟨x, hx, hp⟩)
        rw [if_neg hany, hnone, Option.none_or, ih]

lemma bestClass_subset (ps : List (α → Bool)) (l : List α) : bestClass ps l ⊆ l := by
  induction ps with
  | nil => exact List.nil_subset l
  | cons p ps ih =>
      rw [bestClass]
      split
      · exact List.filter_subset_self l
      · exact ih

/-- The best class of a list in another order. -/
lemma bestClass_perm (h : l.Perm l') (ps : List (α → Bool)) :
    (bestClass ps l).Perm (bestClass ps l') := by
  induction ps with
  | nil => exact .refl _
  | cons p ps ih =>
      rw [bestClass, bestClass, show l.any p = l'.any p from h.any_eq]
      split
      · exact h.filter p
      · exact ih

/-- **With one value to choose from the order does not matter.** -/
lemma head?_perm (h : l.Perm l') (hone : {a | a ∈ l}.Subsingleton) : l.head? = l'.head? := by
  cases l with
  | nil => rw [List.nil_perm.mp h]
  | cons a l =>
      cases l' with
      | nil => cases List.perm_nil.mp h
      | cons b l' =>
          exact congrArg some (hone List.mem_cons_self (h.mem_iff.mpr List.mem_cons_self))

/-- **A value of the best class that comes first is chosen.** -/
lemma head?_bestClass_cons (ha : a ∈ bestClass ps (a :: l)) :
    (bestClass ps (a :: l)).head? = some a := by
  rw [← firstMatch_eq_head?]
  induction ps with
  | nil => cases ha
  | cons p ps ih =>
      rw [bestClass] at ha
      rw [firstMatch]
      split at ha
      · rw [List.find?_cons_of_pos (List.mem_filter.mp ha).2, Option.some_or]
      · rename_i hany
        have hnone : (a :: l).find? p = none :=
          List.find?_eq_none.mpr fun x hx hp => hany (List.any_eq_true.mpr ⟨x, hx, hp⟩)
        rw [hnone, Option.none_or, ih ha]

end

end Braidinfer.Lib
