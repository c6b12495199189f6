/-
Substrings: searching, cutting and replacing in a text, over the list of its characters.

* `Text.contains`, `Text.startsWith`, `Text.endsWith`: whether a text has a part;
* `Text.before`: the text in front of the first occurrence of a part;
* `Text.replace`: every occurrence replaced, from left to right and without overlaps
  (`replace_append`, `replace_of_not_contains`).
-/
import Mathlib.Data.List.Infix
import Mathlib.Data.String.Basic

namespace Braidinfer.Lib

namespace Text

/-- The text `s` has the part `pat`. -/
def contains (s pat : String) : Bool := pat.toList <:+: s.toList

/-- The text `s` starts with `pat`. -/
def startsWith (s pat : String) : Bool := pat.toList <+: s.toList

/-- The text `s` ends with `pat`. -/
def endsWith (s pat : String) : Bool := pat.toList <:+ s.toList

/-- What stands in front of the first occurrence of `pat`; all of the list if there is none. -/
def beforeList (pat : List Char) : List Char → List Char
  | [] => []
  | c :: cs => if pat <+: c :: cs then [] else c :: beforeList pat cs

/-- The text in front of the first occurrence of `pat`. -/
def before (s pat : String) : String := String.ofList (beforeList pat.toList s.toList)

/-- The list with every `pat` replaced by `new`; the next `skip` characters are part of the
occurrence that was replaced last. -/
def replaceList (pat new : List Char) : ℕ → List Char → List Char
  | _, [] => []
  | skip + 1, _ :: cs => replaceList pat new skip cs
  | 0, c :: cs =>
      if pat <+: c :: cs then new ++ replaceList pat new (pat.length - 1) cs
      else c :: replaceList pat new 0 cs

/-- The text with every `pat` replaced by `new`; `pat` is not empty. -/
def replace (s pat new : String) : String :=
  String.ofList (replaceList pat.toList new.toList 0 s.toList)

variable {s t pat : String}

lemma contains_iff : contains s pat = true ↔ pat.toList <:+: s.toList := decide_eq_true_iff

/-- A part of the first half is a part of the whole. -/
lemma contains_append_left (t : String) (h : contains s pat = true) :
    contains (s ++ t) pat = true := by
  rw [contains_iff, String.toList_append]
  exact (contains_iff.mp h).trans (List.prefix_append _ _).isInfix

/-- A part of the second half is a part of the whole. -/
lemma contains_append_right (s : String) (h : contains t pat = true) :
    contains (s ++ t) pat = true := by
  rw [contains_iff, String.toList_append]
  exact (contains_iff.mp h).trans (List.suffix_append _ _).isInfix

/-! ### Replacing -/

section

variable {pat new : List Char}

/-- A part that does not reach behind a character it lacks. -/
lemma prefix_of_prefix_append {a b : List Char} {c : Char} (hc : c ∉ pat)
    (h : pat <+: a ++ c :: b) : pat <+: a := by
  obtain ⟨rest, hrest⟩ := h
  rcases List.append_eq_append_iff.mp hrest with ⟨t, ha, -⟩ | ⟨t, hpat, ht⟩
  · exact ⟨t, ha.symm⟩
  · cases t with
    | nil => exact ⟨[], by rw [hpat]; simp⟩
    | cons d ds =>
        rw [List.cons_append] at ht
        obtain ⟨rfl, -⟩ := List.cons.inj ht
        exact absurd (by rw [hpat]; simp) hc

/-- Replacing before and behind a character that the part lacks. -/
lemma replaceList_append {c : Char} (hc : c ∉ pat) (b : List Char) :
    ∀ (skip : ℕ) (a : List Char), skip ≤ a.length →
      replaceList pat new skip (a ++ c :: b) =
        replaceList pat new skip a ++ replaceList pat new 0 (c :: b)
  | 0, [], _ => rfl
  | skip + 1, x :: a, h => replaceList_append hc b skip a (by simpa using h)
  | 0, x :: a, _ => by
      have hiff : pat <+: x :: (a ++ c :: b) ↔ pat <+: x :: a :=
        ⟨fun h => prefix_of_prefix_append hc (a := x :: a) h,
          fun h => h.trans (List.prefix_append (x :: a) (c :: b))⟩
      rw [List.cons_append, replaceList, replaceList]
      by_cases h : pat <+: x :: a
      · have hlen := h.length_le
        rw [List.length_cons] at hlen
        rw [if_pos (hiff.mpr h), if_pos h, replaceList_append hc b _ a (by omega),
          List.append_assoc]
      · rw [if_neg (mt hiff.mp h), if_neg h, replaceList_append hc b 0 a (Nat.zero_le _)]
        rfl

/-- A text without the part stays as it is. -/
lemma replaceList_of_not_infix :
    ∀ {cs : List Char}, ¬ pat <:+: cs → replaceList pat new 0 cs = cs
  | [], _ => rfl
  | c :: cs, h => by
      rw [replaceList, if_neg fun hpre => h hpre.isInfix,
        replaceList_of_not_infix fun hin => h (hin.trans (List.suffix_cons c cs).isInfix)]

/-- Replacing a part by itself changes nothing. -/
lemma replaceList_self (hne : pat ≠ []) :
    ∀ (skip : ℕ) (cs : List Char), replaceList pat pat skip cs = cs.drop skip
  | 0, [] => rfl
  | skip + 1, [] => rfl
  | skip + 1, _ :: cs => replaceList_self hne skip cs
  | 0, c :: cs => by
      rw [replaceList]
      by_cases h : pat <+: c :: cs
      · have hlen := List.length_pos_iff.mpr hne
        obtain ⟨rest, hrest⟩ := h
        have hdrop : cs.drop (pat.length - 1) = rest := by
          rw [← List.drop_succ_cons (a := c), ← hrest, Nat.sub_add_cancel hlen, List.drop_left]
        rw [if_pos ⟨rest, hrest⟩, replaceList_self hne _ _, hdrop, List.drop_zero, hrest]
      · rw [if_neg h, replaceList_self hne 0 cs]
        rfl

end

lemma replace_self (s : String) (h : pat.toList ≠ []) : replace s pat pat = s := by
  rw [replace, replaceList_self h, List.drop_zero, String.ofList_toList]

/-- A text without the part stays as it is. -/
lemma replace_of_not_contains {new : String} (h : contains s pat = false) :
    replace s pat new = s := by
  have hnot : ¬ pat.toList <:+: s.toList := by
    rw [← contains_iff, h]
    exact Bool.false_ne_true
  rw [replace, replaceList_of_not_infix hnot, String.ofList_toList]

/-- Replacing before and behind a character that the part lacks. -/
lemma replace_append {new : String} {c : Char} {cs : List Char} (ht : t.toList = c :: cs)
    (hc : c ∉ pat.toList) : replace (s ++ t) pat new = replace s pat new ++ replace t pat new := by
  rw [replace, replace, replace, ← String.ofList_append, String.toList_append, ht,
    replaceList_append hc cs 0 s.toList (Nat.zero_le _)]

end Text

end Braidinfer.Lib
