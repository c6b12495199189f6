/-
Softmax-weighted sums computed in one pass.

The state of a pass is a running maximum `m`, the sum `d` of the weights `exp (s - m)` of the
items seen so far, and the weighted sum `acc` of their values, channel by channel; an item
with a new maximum rescales both sums.  Nothing of `exp` is used but that it is positive and
turns sums into products.

* `SoftmaxState.absorb`: one item;
* `Summarizes`: the state holds the two sums over a list of items;
* `Summarizes.foldl`: it still does after more items, so a pass can be cut anywhere;
* `Summarizes.ratio`: **the quotient is the softmax-weighted mean**, whatever the order.
-/
import Mathlib.Algebra.BigOperators.Group.List.Basic
import Mathlib.Algebra.BigOperators.Ring.List
import Mathlib.Algebra.Field.Basic
import Mathlib.Algebra.Order.BigOperators.Group.List
import Mathlib.Algebra.Order.Field.Basic
import Mathlib.Tactic.Ring

namespace Braidinfer.Lib

/-- What a pass needs of its exponential. -/
structure ExpLaws {K : Type*} [Field K] [LinearOrder K] (exp : K → K) : Prop where
  pos : ∀ x, 0 < exp x
  add : ∀ x y, exp (x + y) = exp x * exp y

lemma ExpLaws.zero {K : Type*} [Field K] [LinearOrder K] {exp : K → K} (h : ExpLaws exp) :
    exp 0 = 1 := by
  have hadd := h.add 0 0
  rw [add_zero] at hadd
  exact (mul_eq_left₀ (h.pos 0).ne').mp hadd.symm

/-- The state of a pass: the running maximum, the sum of the weights, and the weighted sum of
the values in each channel. -/
structure SoftmaxState (K ι : Type*) where
  m : K
  d : K
  acc : ι → K

section

variable {K ι τ : Type*} [Field K] [LinearOrder K] (exp : K → K)

/-- One item of score `s` and values `v`. -/
def SoftmaxState.absorb (st : SoftmaxState K ι) (s : K) (v : ι → K) : SoftmaxState K ι :=
  let mNew := max st.m s
  let correction := exp (st.m - mNew)
  let w := exp (s - mNew)
  { m := mNew, d := st.d * correction + w, acc := fun j => st.acc j * correction + w * v j }

/-- The state before the first item, with running maximum `m`. -/
def SoftmaxState.init (m : K) : SoftmaxState K ι := ⟨m, 0, fun _ => 0⟩

/-- The state holds the sums over the items of `l`, of scores `s` and values `v`. -/
structure Summarizes (s : τ → K) (v : τ → ι → K) (l : List τ) (st : SoftmaxState K ι) : Prop where
  d : st.d = (l.map fun i => exp (s i - st.m)).sum
  acc : ∀ j, st.acc j = (l.map fun i => exp (s i - st.m) * v i j).sum

namespace Summarizes

variable {exp} {s : τ → K} {v : τ → ι → K} {l : List τ} {st : SoftmaxState K ι}

omit [LinearOrder K] in
lemma init (m : K) : Summarizes exp s v [] (.init m) := ⟨rfl, fun _ => rfl⟩

/-- Rescaling a weight moves it to another maximum. -/
lemma exp_rescale (hexp : ExpLaws exp) (x m m' : K) :
    exp (x - m) * exp (m - m') = exp (x - m') := by
  rw [← hexp.add, sub_add_sub_cancel]

/-- An item more. -/
lemma absorb (hexp : ExpLaws exp) (h : Summarizes exp s v l st) (i : τ) :
    Summarizes exp s v (l ++ [i]) (st.absorb exp (s i) (v i)) := by
  set m' := max st.m (s i) with hm'
  refine ⟨?_, fun j => ?_⟩
  · calc st.d * exp (st.m - m') + exp (s i - m')
        = (l.map fun k => exp (s k - st.m) * exp (st.m - m')).sum + exp (s i - m') := by
          rw [h.d, List.sum_map_mul_right]
      _ = ((l ++ [i]).map fun k => exp (s k - m')).sum := by
          simp only [exp_rescale hexp, List.map_append, List.sum_append, List.map_singleton,
            List.sum_singleton]
  · calc st.acc j * exp (st.m - m') + exp (s i - m') * v i j
        = (l.map fun k => exp (s k - st.m) * v k j * exp (st.m - m')).sum +
            exp (s i - m') * v i j := by
          rw [h.acc j, List.sum_map_mul_right]
      _ = ((l ++ [i]).map fun k => exp (s k - m') * v k j).sum := by
          simp only [mul_right_comm _ (v _ j), exp_rescale hexp, List.map_append,
            List.sum_append, List.map_singleton, List.sum_singleton]

/-- **A pass can be cut anywhere**: it goes on from the state that holds the items before. -/
theorem foldl (hexp : ExpLaws exp) (h : Summarizes exp s v l st) (l' : List τ) :
    Summarizes exp s v (l ++ l') (l'.foldl (fun st i => st.absorb exp (s i) (v i)) st) := by
  induction l' generalizing l st with
  | nil => simpa using h
  | cons i l' ih =>
      have hrest := ih (h.absorb hexp i)
      rwa [List.append_assoc] at hrest

omit [LinearOrder K] in
/-- The order of the items does not matter. -/
lemma perm {l' : List τ} (h : Summarizes exp s v l st) (hp : l.Perm l') :
    Summarizes exp s v l' st :=
  ⟨h.d.trans (hp.map _).sum_eq, fun j => (h.acc j).trans (hp.map _).sum_eq⟩

/-- The sum of the weights of some items is positive. -/
lemma d_pos [IsStrictOrderedRing K] (hexp : ExpLaws exp) (h : Summarizes exp s v l st)
    (hl : l ≠ []) : 0 < st.d := by
  rw [h.d]
  refine List.sum_pos _ (fun x hx => ?_) (by simpa using hl)
  obtain ⟨i, -, rfl⟩ := List.mem_map.mp hx
  exact hexp.pos _

/-- **The quotient is the softmax-weighted mean** of the values. -/
theorem ratio [IsStrictOrderedRing K] (hexp : ExpLaws exp) (h : Summarizes exp s v l st) (j : ι) :
    st.acc j / st.d = (l.map fun i => exp (s i) * v i j).sum / (l.map fun i => exp (s i)).sum := by
  have hshift : ∀ i, exp (s i - st.m) = exp (-st.m) * exp (s i) := fun i => by
    rw [← hexp.add, neg_add_eq_sub]
  have hne : exp (-st.m) ≠ 0 := (hexp.pos _).ne'
  rw [h.acc j, h.d]
  simp only [hshift, mul_assoc, List.sum_map_mul_left]
  exact mul_div_mul_left _ _ hne

end Summarizes

end

end Braidinfer.Lib
