/-
Floating-point code in exact arithmetic.

Code is written once over `FloatOps`, the operations of a type of floats.  Their exact version
computes in an ordered field and keeps the infinities and NaN, so that what the code does with them
is what it does on the machine; only rounding and the sign of zero are left out.

* `FloatOps`: the operations, with the comparisons that come from `partial_cmp`;
* `Exact`: a number, an infinity or NaN;
* `Exact.ops`: the operations on them, over any exponential function;
* `UnstableSort`: a sort that keeps no order among equals.
-/
import Mathlib.Algebra.Order.Field.Basic
import Mathlib.Data.List.Sort

namespace Braidinfer.Lib

/-! ### Operations -/

/-- The operations of a type of floats. -/
structure FloatOps (α : Type) where
  zero : α
  one : α
  negInf : α
  add : α → α → α
  sub : α → α → α
  mul : α → α → α
  div : α → α → α
  max : α → α → α
  exp : α → α
  partialCmp : α → α → Option Ordering

namespace FloatOps

variable {α : Type} (ops : FloatOps α)

/-- `==` -/
def eq (a b : α) : Bool := ops.partialCmp a b = some .eq

/-- `<` -/
def lt (a b : α) : Bool := ops.partialCmp a b = some .lt

/-- `<=` -/
def le (a b : α) : Bool := ops.lt a b || ops.eq a b

/-- `iter().sum()` -/
def sum (l : List α) : α := l.foldl ops.add ops.zero

/-- `fold(f32::NEG_INFINITY, f32::max)` -/
def maximum (l : List α) : α := l.foldl ops.max ops.negInf

end FloatOps

/-! ### Exact numbers -/

/-- A number, an infinity or NaN. -/
inductive Exact (K : Type)
  | nan
  | negInf
  | fin (x : K)
  | posInf

namespace Exact

variable {K : Type} [Field K] [LinearOrder K]

/-- The sum. -/
def add : Exact K → Exact K → Exact K
  | fin a, fin b => fin (a + b)
  | nan, _ | _, nan | posInf, negInf | negInf, posInf => nan
  | posInf, _ | _, posInf => posInf
  | negInf, _ | _, negInf => negInf

/-- The negative. -/
def neg : Exact K → Exact K
  | fin a => fin (-a)
  | nan => nan
  | posInf => negInf
  | negInf => posInf

/-- An infinity times a number. -/
def infMul (inf negated : Exact K) (a : K) : Exact K :=
  if a = 0 then nan else if 0 < a then inf else negated

/-- The product. -/
def mul : Exact K → Exact K → Exact K
  | fin a, fin b => fin (a * b)
  | nan, _ | _, nan => nan
  | posInf, fin a | fin a, posInf => infMul posInf negInf a
  | negInf, fin a | fin a, negInf => infMul negInf posInf a
  | posInf, posInf | negInf, negInf => posInf
  | posInf, negInf | negInf, posInf => negInf

/-- The quotient. -/
def div : Exact K → Exact K → Exact K
  | fin a, fin b => if b = 0 then infMul posInf negInf a else fin (a / b)
  | posInf, fin b => if b < 0 then negInf else posInf
  | negInf, fin b => if b < 0 then posInf else negInf
  | fin _, posInf | fin _, negInf => fin 0
  | _, _ => nan

/-- `partial_cmp` -/
def partialCmp : Exact K → Exact K → Option Ordering
  | nan, _ | _, nan => none
  | fin a, fin b => some (compare a b)
  | negInf, negInf | posInf, posInf => some .eq
  | negInf, _ | _, posInf => some .lt
  | posInf, _ | _, negInf => some .gt

/-- `f32::max`: NaN is ignored. -/
def max : Exact K → Exact K → Exact K
  | nan, b => b
  | a, nan => a
  | fin a, fin b => fin (Max.max a b)
  | posInf, _ | _, posInf => posInf
  | negInf, b => b
  | a, negInf => a

/-- The operations over an exponential function. -/
def ops (exp : K → K) : FloatOps (Exact K) where
  zero := fin 0
  one := fin 1
  negInf := negInf
  add := add
  sub a b := add a (neg b)
  mul := mul
  div := div
  max := max
  exp
    | fin a => fin (exp a)
    | nan => nan
    | posInf => posInf
    | negInf => fin 0
  partialCmp := partialCmp

variable (exp : K → K)

@[simp]
lemma ops_zero : (ops exp).zero = fin 0 := rfl

@[simp]
lemma ops_one : (ops exp).one = fin 1 := rfl

@[simp]
lemma ops_negInf : (ops exp).negInf = negInf := rfl

@[simp]
lemma add_fin (a b : K) : (ops exp).add (fin a) (fin b) = fin (a + b) := rfl

@[simp]
lemma add_negInf (b : K) : (ops exp).add negInf (fin b) = negInf := rfl

@[simp]
lemma sub_fin (a b : K) : (ops exp).sub (fin a) (fin b) = fin (a - b) := by
  rw [sub_eq_add_neg]
  rfl

@[simp]
lemma sub_negInf (b : K) : (ops exp).sub negInf (fin b) = negInf := rfl

@[simp]
lemma mul_fin (a b : K) : (ops exp).mul (fin a) (fin b) = fin (a * b) := rfl

@[simp]
lemma mul_negInf {b : K} (hb : 0 < b) : (ops exp).mul negInf (fin b) = negInf := by
  change infMul negInf posInf b = negInf
  rw [infMul, if_neg hb.ne', if_pos hb]

@[simp]
lemma div_fin (a : K) {b : K} (hb : 0 < b) : (ops exp).div (fin a) (fin b) = fin (a / b) := by
  change (if b = 0 then infMul posInf negInf a else fin (a / b)) = _
  rw [if_neg hb.ne']

@[simp]
lemma div_negInf {b : K} (hb : 0 < b) : (ops exp).div negInf (fin b) = negInf := by
  change (if b < 0 then posInf else negInf) = _
  rw [if_neg hb.not_gt]

@[simp]
lemma exp_fin (a : K) : (ops exp).exp (fin a) = fin (exp a) := rfl

@[simp]
lemma exp_negInf : (ops exp).exp negInf = fin 0 := rfl

@[simp]
lemma max_fin (a b : K) : (ops exp).max (fin a) (fin b) = fin (Max.max a b) := rfl

@[simp]
lemma lt_fin (a b : K) : (ops exp).lt (fin a) (fin b) = decide (a < b) := by
  change decide (some (compare a b) = some .lt) = decide (a < b)
  rw [decide_eq_decide, Option.some_inj, compare_lt_iff_lt]

@[simp]
lemma lt_negInf_fin (a : K) : (ops exp).lt negInf (fin a) = true := rfl

@[simp]
lemma lt_fin_negInf (a : K) : (ops exp).lt (fin a) negInf = false := rfl

@[simp]
lemma lt_negInf : (ops exp).lt negInf (negInf : Exact K) = false := rfl

@[simp]
lemma eq_fin (a b : K) : (ops exp).eq (fin a) (fin b) = decide (a = b) := by
  change decide (some (compare a b) = some .eq) = decide (a = b)
  rw [decide_eq_decide, Option.some_inj, compare_eq_iff_eq]

@[simp]
lemma le_fin (a b : K) : (ops exp).le (fin a) (fin b) = decide (a ≤ b) := by
  rw [FloatOps.le, lt_fin, eq_fin, ← Bool.decide_or, decide_eq_decide, le_iff_lt_or_eq]

/-- A sum of numbers. -/
lemma sum_fin (l : List K) : (ops exp).sum (l.map fin) = fin l.sum := by
  have hfold : ∀ (l : List K) (c : K), (l.map fin).foldl (ops exp).add (fin c) =
      fin (c + l.sum) := by
    intro l
    induction l with
    | nil => exact fun c => by rw [List.sum_nil, add_zero]; rfl
    | cons a l ih =>
        intro c
        rw [List.map_cons, List.foldl_cons, add_fin, ih, List.sum_cons, add_assoc]
  rw [FloatOps.sum, ops_zero, hfold, zero_add]

end Exact

/-! ### Sorting -/

/-- `sort_unstable_by`: it sorts what the comparison orders, and it may panic on anything else. -/
structure UnstableSort where
  run : {α : Type} → (α → α → Ordering) → List α → Option (List α)
  perm : ∀ {α : Type} {cmp : α → α → Ordering} {l l' : List α}, run cmp l = some l' → l'.Perm l
  sorts : ∀ {α : Type} {cmp : α → α → Ordering} (l : List α),
    (∀ a ∈ l, ∀ b ∈ l, cmp a b ≠ .gt ∨ cmp b a ≠ .gt) →
    (∀ a ∈ l, ∀ b ∈ l, ∀ c ∈ l, cmp a b ≠ .gt → cmp b c ≠ .gt → cmp a c ≠ .gt) →
      ∃ l', run cmp l = some l' ∧ l'.Pairwise fun a b => cmp a b ≠ .gt

/-- Merge sort is such a sort. -/
def UnstableSort.merge : UnstableSort where
  run cmp l := some ((l.attach.mergeSort fun a b => cmp a.1 b.1 ≠ .gt).map Subtype.val)
  perm h := by
    obtain rfl := Option.some.inj h
    exact ((List.mergeSort_perm _ _).map Subtype.val).trans (.of_eq (List.attach_map_subtype_val _))
  sorts := by
    intro α cmp l htotal htrans
    have hsorted : (l.attach.mergeSort fun a b => decide (cmp a.1 b.1 ≠ .gt)).Pairwise
        fun a b => decide (cmp a.1 b.1 ≠ .gt) = true := by
      refine List.pairwise_mergeSort (fun a b c hab hbc => ?_) (fun a b => ?_) l.attach
      · exact decide_eq_true (htrans a.1 a.2 b.1 b.2 c.1 c.2 (of_decide_eq_true hab)
          (of_decide_eq_true hbc))
      · rw [Bool.or_eq_true, decide_eq_true_eq, decide_eq_true_eq]
        exact htotal a.1 a.2 b.1 b.2
    exact ⟨_, rfl, List.pairwise_map.mpr (hsorted.imp of_decide_eq_true)⟩

end Braidinfer.Lib
