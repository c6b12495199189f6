/-
Sums that the threads of a block take part in.

A loop `for (i = start; i < n; i += stride)` of each thread covers the indices below `n` once when
the threads start at `0, …, stride - 1`; a row of `a * b` elements is cut into `a` pieces of `b`;
lanes of a group exchange their values by the exclusive or of their indices.

* `strided`: the indices of such a loop (`mem_strided`); `sum_strided`: **the loops of all threads
  cover the range once**;
* `perm_strided`: **the loops of all threads, together**; `lt_length_strided`: the rounds of one;
* `sum_range_mul`: the sum by pieces; `sum_pairs`: by pairs;
* `butterfly`: the exchange with the masks `2 ^ (k - 1), …, 2, 1`; `butterfly_mul`: **the first lane
  of a group of `2 ^ k` ends up with the sum of the group**.
-/
import Mathlib.Algebra.BigOperators.Group.Finset.Basic
import Mathlib.Algebra.BigOperators.Intervals
import Mathlib.Algebra.Order.Group.Nat
import Mathlib.Algebra.Ring.Parity
import Mathlib.Data.List.Range
import Mathlib.Data.List.TakeWhile

namespace Braidinfer.Lib

variable {M : Type*} [AddCommMonoid M] {f : ℕ → M}

/-! ### Sums over loops -/

lemma sum_map_range (f : ℕ → M) (n : ℕ) :
    ((List.range n).map f).sum = ∑ i ∈ Finset.range n, f i := rfl

/-- A loop within a loop. -/
lemma sum_map_flatMap {α β : Type*} (l : List α) (g : α → List β) (h : β → M) :
    ((l.flatMap g).map h).sum = (l.map fun a => ((g a).map h).sum).sum := by
  induction l with
  | nil => rfl
  | cons a l ih => rw [List.flatMap_cons, List.map_append, List.sum_append, ih, List.map_cons,
      List.sum_cons]

/-- Loops of several threads over the same list, one after the other at each entry. -/
lemma sum_map_sum {α ι : Type*} (s : Finset ι) (l : List α) (h : ι → α → M) :
    (l.map fun a => ∑ i ∈ s, h i a).sum = ∑ i ∈ s, (l.map (h i)).sum := by
  induction l with
  | nil => simp
  | cons a l ih => simp only [List.map_cons, List.sum_cons, ih, Finset.sum_add_distrib]

/-! ### Loops with a stride -/

/-- The indices of `for (i = start; i < n; i += stride)`, in order. -/
def strided (start stride n : ℕ) : List ℕ :=
  (List.range n).filter fun i => start ≤ i ∧ (i - start) % stride = 0

lemma mem_strided {start stride n i : ℕ} :
    i ∈ strided start stride n ↔ i < n ∧ start ≤ i ∧ (i - start) % stride = 0 := by
  rw [strided, List.mem_filter, List.mem_range, decide_eq_true_iff]

lemma nodup_strided {start stride n : ℕ} : (strided start stride n).Nodup :=
  List.nodup_range.filter _

/-- Below the stride, an index belongs to the loop that starts at its remainder. -/
lemma mem_strided_of_lt {start stride n i : ℕ} (hs : start < stride) :
    i ∈ strided start stride n ↔ i < n ∧ i % stride = start := by
  rw [mem_strided]
  refine and_congr_right fun _ => ⟨?_, ?_⟩
  · rintro ⟨hle, hmod⟩
    obtain ⟨q, hq⟩ := Nat.dvd_of_mod_eq_zero hmod
    rw [show i = start + stride * q by omega, Nat.add_mul_mod_self_left, Nat.mod_eq_of_lt hs]
  · rintro rfl
    refine ⟨Nat.mod_le _ _, ?_⟩
    rw [Nat.sub_mod_eq_zero_of_mod_eq (Nat.mod_mod _ _).symm]

lemma sum_map_strided {start stride n : ℕ} (hs : start < stride) :
    ((strided start stride n).map f).sum =
      ∑ i ∈ (Finset.range n).filter (fun i => i % stride = start), f i := by
  have hset : (strided start stride n).toFinset =
      (Finset.range n).filter fun i => i % stride = start := by
    ext i
    rw [List.mem_toFinset, mem_strided_of_lt hs, Finset.mem_filter, Finset.mem_range]
  rw [← hset, List.sum_toFinset _ nodup_strided]

/-- **The loops of all threads cover the range once.** -/
theorem sum_strided {stride : ℕ} (hstride : 0 < stride) (n : ℕ) :
    ∑ start ∈ Finset.range stride, ((strided start stride n).map f).sum =
      ∑ i ∈ Finset.range n, f i := by
  calc ∑ start ∈ Finset.range stride, ((strided start stride n).map f).sum
      = ∑ start ∈ Finset.range stride,
          ∑ i ∈ (Finset.range n).filter (fun i => i % stride = start), f i :=
        Finset.sum_congr rfl fun start hs => sum_map_strided (Finset.mem_range.mp hs)
    _ = ∑ i ∈ Finset.range n, f i :=
        Finset.sum_fiberwise_of_maps_to
          (fun i _ => Finset.mem_range.mpr (Nat.mod_lt _ hstride)) _

/-! ### Pieces -/

/-- A sum over `a` pieces of `b` elements. -/
theorem sum_range_mul (a b : ℕ) :
    ∑ i ∈ Finset.range (a * b), f i =
      ∑ q ∈ Finset.range a, ∑ r ∈ Finset.range b, f (q * b + r) := by
  induction a with
  | zero => simp
  | succ a ih =>
      rw [Nat.succ_mul, Finset.sum_range_add, ih, Finset.sum_range_succ]

/-- A sum to whose range indices are added where nothing is counted. -/
lemma sum_range_of_le {n m : ℕ} (h : n ≤ m) (f : ℕ → M) :
    ∑ i ∈ Finset.range m, (if i < n then f i else 0) = ∑ i ∈ Finset.range n, f i := by
  rw [← Finset.sum_filter]
  congr 1
  ext i
  rw [Finset.mem_filter, Finset.mem_range, Finset.mem_range]
  omega

/-- A loop that stops at the first index past a bound. -/
lemma takeWhile_range {p : ℕ → Bool} {m : ℕ} (hp : ∀ i, p i = true ↔ i < m) (n : ℕ) :
    (List.range n).takeWhile p = List.range (min n m) := by
  rcases Nat.le_total n m with hle | hle
  · rw [Nat.min_eq_left hle, List.takeWhile_eq_self_iff]
    exact fun i hi => (hp i).mpr ((List.mem_range.mp hi).trans_le hle)
  · obtain ⟨d, rfl⟩ := Nat.exists_eq_add_of_le hle
    rw [Nat.min_eq_right hle, List.range_add,
      List.takeWhile_append_of_pos fun i hi => (hp i).mpr (List.mem_range.mp hi)]
    refine List.append_right_eq_self.mpr ?_
    cases d with
    | zero => rfl
    | succ d =>
        rw [List.range_succ_eq_map, List.map_cons, List.takeWhile_cons_of_neg]
        rw [hp]
        omega

/-- Elements taken two at a time, the last one alone if their number is odd. -/
lemma sum_pairs (f : ℕ → M) (n : ℕ) :
    ∑ b ∈ Finset.range ((n + 1) / 2), (f (b * 2) + if b * 2 + 1 < n then f (b * 2 + 1) else 0) =
      ∑ i ∈ Finset.range n, f i := by
  have hwhole : ∀ m, m * 2 ≤ n →
      ∑ b ∈ Finset.range m, (f (b * 2) + if b * 2 + 1 < n then f (b * 2 + 1) else 0) =
        ∑ i ∈ Finset.range (m * 2), f i := fun m hm => by
    rw [sum_range_mul]
    refine Finset.sum_congr rfl fun b hb => ?_
    have hb' := Finset.mem_range.mp hb
    rw [if_pos (by omega), Finset.sum_range_succ, Finset.sum_range_one, Nat.add_zero (b * 2)]
  rcases Nat.even_or_odd' n with ⟨m, rfl | rfl⟩
  · rw [show (2 * m + 1) / 2 = m by omega, hwhole m (by omega), Nat.mul_comm]
  · rw [show (2 * m + 1 + 1) / 2 = m + 1 by omega, Finset.sum_range_succ, hwhole m (by omega),
      if_neg (by omega), add_zero, Nat.mul_comm m, Finset.sum_range_succ]

/-! ### Loops, as lists -/

/-- The loop as the multiples of its stride. -/
lemma strided_perm_map {start stride n : ℕ} (hstride : 0 < stride) :
    (strided start stride n).Perm
      ((List.range ((n - start + (stride - 1)) / stride)).map fun k => start + k * stride) := by
  have hinj : Function.Injective fun k => start + k * stride := fun a b h =>
    Nat.eq_of_mul_eq_mul_right hstride (Nat.add_left_cancel h)
  refine (List.perm_ext_iff_of_nodup nodup_strided (List.nodup_range.map hinj)).mpr fun i => ?_
  have hlt : ∀ k, k < (n - start + (stride - 1)) / stride ↔ start + k * stride < n := fun k => by
    rw [← Nat.succ_le_iff, Nat.le_div_iff_mul_le hstride, Nat.succ_mul]
    omega
  rw [mem_strided, List.mem_map]
  constructor
  · rintro ⟨hi, hle, hmod⟩
    obtain ⟨k, hk⟩ := Nat.dvd_of_mod_eq_zero hmod
    rw [Nat.mul_comm] at hk
    have heq : start + k * stride = i := by omega
    exact ⟨k, List.mem_range.mpr ((hlt k).mpr (heq ▸ hi)), heq⟩
  · rintro ⟨k, hk, rfl⟩
    refine ⟨(hlt k).mp (List.mem_range.mp hk), Nat.le_add_right _ _, ?_⟩
    rw [Nat.add_sub_cancel_left, Nat.mul_mod_left]

/-- The number of rounds of a loop. -/
lemma lt_length_strided {start stride n k : ℕ} (hstride : 0 < stride) :
    k < (strided start stride n).length ↔ start + k * stride < n := by
  rw [(strided_perm_map hstride).length_eq, List.length_map, List.length_range,
    ← Nat.succ_le_iff, Nat.le_div_iff_mul_le hstride, Nat.succ_mul]
  omega

/-- **The loops of all threads from `a` on**, together. -/
theorem perm_strided {stride : ℕ} (hstride : 0 < stride) (a n : ℕ) :
    ((List.range stride).flatMap fun start => strided (a + start) stride n).Perm
      (List.range' a (n - a)) := by
  have hmem : ∀ start < stride, ∀ i, i ∈ strided (a + start) stride n ↔
      i < n ∧ a ≤ i ∧ (i - a) % stride = start := fun start hs i => by
    have hfrom := mem_strided_of_lt (n := n - a) (i := i - a) hs
    rw [mem_strided] at hfrom ⊢
    rw [Nat.sub_sub] at hfrom
    omega
  refine (List.perm_ext_iff_of_nodup ?_ List.nodup_range').mpr fun i => ?_
  · refine List.nodup_flatMap.mpr ⟨fun _ _ => nodup_strided, ?_⟩
    refine List.nodup_range.pairwise_of_forall_ne fun s hs s' hs' hne => ?_
    rw [Function.onFun, List.disjoint_left]
    intro i hi hi'
    have h := ((hmem s (List.mem_range.mp hs) i).mp hi).2.2
    have h' := ((hmem s' (List.mem_range.mp hs') i).mp hi').2.2
    exact hne (h.symm.trans h')
  · rw [List.mem_flatMap, List.mem_range'_1]
    constructor
    · rintro ⟨start, hs, hi⟩
      have := (hmem start (List.mem_range.mp hs) i).mp hi
      omega
    · intro hi
      have hlt := Nat.mod_lt (i - a) hstride
      exact ⟨(i - a) % stride, List.mem_range.mpr hlt,
        (hmem _ hlt i).mpr ⟨by omega, hi.1, rfl⟩⟩

/-- Pieces of `u` elements, one after the other. -/
lemma flatMap_range' (u a m : ℕ) :
    (List.range' a m).flatMap (fun p => List.range' (p * u) u) = List.range' (a * u) (m * u) := by
  induction m generalizing a with
  | zero => rw [Nat.zero_mul]; rfl
  | succ m ih =>
      rw [List.range'_succ, List.flatMap_cons, ih, Nat.succ_mul, List.range'_append_1,
        Nat.succ_mul, Nat.add_comm u]

/-- Pieces of `u` elements, of which the last may be cut short. -/
lemma flatMap_range_min {u m n : ℕ} (h : n ≤ m * u) :
    (List.range m).flatMap (fun p => List.range' (p * u) (min u (n - p * u))) = List.range n := by
  induction m generalizing n with
  | zero =>
      rw [Nat.zero_mul, Nat.le_zero] at h
      subst h
      rfl
  | succ m ih =>
      rw [Nat.succ_mul] at h
      rw [List.range_succ, List.flatMap_append, List.flatMap_singleton]
      rcases Nat.le_total n (m * u) with hle | hle
      · have hlast : min u (n - m * u) = 0 := by omega
        rw [ih hle, hlast, List.range'_zero, List.append_nil]
      · have hwhole : ∀ p ∈ List.range m, List.range' (p * u) (min u (n - p * u)) =
            List.range' (p * u) (min u (m * u - p * u)) := fun p hp => by
          have hstep := Nat.mul_le_mul_right u (Nat.succ_le_of_lt (List.mem_range.mp hp))
          rw [Nat.succ_mul] at hstep
          congr 1
          omega
        have hlast : min u (n - m * u) = n - m * u := by omega
        rw [List.flatMap_congr hwhole, ih le_rfl, hlast, List.range_eq_range',
          List.range_eq_range']
        have happ := List.range'_append_1 (s := 0) (m := m * u) (n := n - m * u)
        rw [Nat.zero_add] at happ
        rw [happ, Nat.add_sub_cancel' hle]

/-! ### Exchange between lanes -/

/-- Each lane adds the value of the lane whose index differs by the mask. -/
def xmaskAdd (mask : ℕ) (v : ℕ → M) : ℕ → M := fun lane => v lane + v (lane ^^^ mask)

/-- The exchanges with the masks `2 ^ (k - 1), …, 2, 1`. -/
def butterfly : ℕ → (ℕ → M) → ℕ → M
  | 0, v => v
  | k + 1, v => butterfly k (xmaskAdd (2 ^ k) v)

/-- The exclusive or with a number below a power of two, from a multiple of it. -/
lemma mul_xor_of_lt {k q j : ℕ} (hj : j < 2 ^ k) : (2 ^ k * q) ^^^ j = 2 ^ k * q + j := by
  have hdiv : ((2 ^ k * q) ^^^ j) / 2 ^ k = q := by
    rw [Nat.xor_div_two_pow, Nat.mul_div_cancel_left _ (Nat.two_pow_pos k),
      Nat.div_eq_of_lt hj, Nat.xor_zero]
  have hmod : ((2 ^ k * q) ^^^ j) % 2 ^ k = j := by
    rw [Nat.xor_mod_two_pow, Nat.mul_mod_right, Nat.zero_xor, Nat.mod_eq_of_lt hj]
  rw [← Nat.div_add_mod ((2 ^ k * q) ^^^ j) (2 ^ k), hdiv, hmod]

lemma butterfly_apply (k : ℕ) (v : ℕ → M) (lane : ℕ) :
    butterfly k v lane = ∑ j ∈ Finset.range (2 ^ k), v (lane ^^^ j) := by
  induction k generalizing v with
  | zero => simp [butterfly]
  | succ k ih =>
      have hflip : ∀ j ∈ Finset.range (2 ^ k), v (lane ^^^ j ^^^ 2 ^ k) =
          v (lane ^^^ (2 ^ k + j)) := fun j hj => by
        have hadd := mul_xor_of_lt (q := 1) (Finset.mem_range.mp hj)
        rw [Nat.mul_one] at hadd
        rw [← hadd, Nat.xor_assoc, Nat.xor_comm j]
      calc butterfly k (xmaskAdd (2 ^ k) v) lane
          = ∑ j ∈ Finset.range (2 ^ k), (v (lane ^^^ j) + v (lane ^^^ j ^^^ 2 ^ k)) := ih _
        _ = ∑ j ∈ Finset.range (2 ^ k), v (lane ^^^ j) +
              ∑ j ∈ Finset.range (2 ^ k), v (lane ^^^ (2 ^ k + j)) := by
            rw [Finset.sum_add_distrib, Finset.sum_congr rfl hflip]
        _ = ∑ j ∈ Finset.range (2 ^ (k + 1)), v (lane ^^^ j) := by
            rw [Nat.pow_succ, Nat.mul_two, Finset.sum_range_add]

/-- **The first lane of a group** ends up with the sum of the group. -/
theorem butterfly_mul (k : ℕ) (v : ℕ → M) (q : ℕ) :
    butterfly k v (2 ^ k * q) = ∑ j ∈ Finset.range (2 ^ k), v (2 ^ k * q + j) := by
  rw [butterfly_apply]
  exact Finset.sum_congr rfl fun j hj => by rw [mul_xor_of_lt (Finset.mem_range.mp hj)]

end Braidinfer.Lib
