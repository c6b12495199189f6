/-
The token that `sample` draws (`sampling.rs`), in exact arithmetic.

The sum of the probabilities is walked until it reaches the random number `u`; tokens that were
filtered out take part with probability 0, so at `u = 0` the walk ends at token 0, kept or not.

* `probs`, `cdf`, `InverseCdf`: the softmax over the kept tokens and its quantiles;
* `normalize_eq`, `walk_eq_some`: what the code computes;
* `inverseCdf_iff_share`: the random numbers of a token are an interval;
* `sample_iff`: **exactly when `sample` draws the quantile of `u`**.
-/
import Braidinfer.Generate.Filters
import Mathlib.Analysis.SpecialFunctions.Exp
import Mathlib.Algebra.Order.BigOperators.Group.List

namespace Braidinfer.Generate

open Braidinfer.Lib

/-! ### The softmax over the kept tokens -/

section

variable {K : Type} [Field K] [LinearOrder K] (exp : K → K) (l : List (Exact K)) (u : K)

/-- The token has not been filtered out. -/
def Kept {K : Type} (l : List (Exact K)) (i : ℕ) : Prop := ∃ x, l[i]? = some (.fin x)

/-- The unnormalized probability. -/
def mass : Exact K → K
  | .fin x => exp x
  | _ => 0

/-- The probabilities. -/
def probs : List K := l.map fun v => mass exp v / (l.map (mass exp)).sum

/-- The probability of a token. -/
def prob (i : ℕ) : K := (probs exp l).getD i 0

/-- The probability of the tokens in front of `i`. -/
def below (i : ℕ) : K := ((probs exp l).take i).sum

/-- The probability of the tokens up to `i`. -/
def cdf (i : ℕ) : K := below exp l (i + 1)

/-- The first kept token at which the distribution function reaches `u`. -/
structure InverseCdf (i : ℕ) : Prop where
  kept : Kept l i
  reached : u ≤ cdf exp l i
  first : ∀ j < i, Kept l j → cdf exp l j < u

/-- The random numbers of a token: an interval of the length of its probability. -/
def Share (i : ℕ) : Prop :=
  u ≤ cdf exp l i ∧ (cdf exp l i - prob exp l i < u ∨ u = 0 ∧ ∀ j < i, ¬ Kept l j)

end

section

variable {K : Type} [Field K] [LinearOrder K] [IsStrictOrderedRing K] {exp : K → K}
  {l : List (Exact K)} {u : K} {i j : ℕ}

omit [LinearOrder K] [IsStrictOrderedRing K] in
lemma length_probs : (probs exp l).length = l.length := List.length_map _

omit [IsStrictOrderedRing K] in
lemma mass_nonneg (hexp : ExpLaws exp) (v : Exact K) : 0 ≤ mass exp v := by
  cases v with
  | fin x => exact (hexp.pos x).le
  | nan => exact le_rfl
  | negInf => exact le_rfl
  | posInf => exact le_rfl

/-- Sane logits have a positive mass. -/
lemma total_pos (hexp : ExpLaws exp) (h : Sane l) : 0 < (l.map (mass exp)).sum := by
  obtain ⟨x, hx⟩ := h.finite
  have hnonneg : ∀ m ∈ l.map (mass exp), 0 ≤ m := by
    intro m hm
    obtain ⟨v, -, rfl⟩ := List.mem_map.mp hm
    exact mass_nonneg hexp v
  calc 0 < exp x := hexp.pos x
    _ ≤ (l.map (mass exp)).sum :=
      List.single_le_sum hnonneg _ (List.mem_map.mpr ⟨.fin x, hx, rfl⟩)

lemma prob_nonneg (hexp : ExpLaws exp) : ∀ p ∈ probs exp l, 0 ≤ p := by
  intro p hp
  obtain ⟨v, -, rfl⟩ := List.mem_map.mp hp
  refine div_nonneg (mass_nonneg hexp v) (List.sum_nonneg fun m hm => ?_)
  obtain ⟨w, -, rfl⟩ := List.mem_map.mp hm
  exact mass_nonneg hexp w

lemma sum_probs (hexp : ExpLaws exp) (h : Sane l) : (probs exp l).sum = 1 := by
  have hdiv : (probs exp l).sum = (l.map (mass exp)).sum / (l.map (mass exp)).sum := by
    rw [probs, div_eq_mul_inv, ← List.sum_map_mul_right]
    simp only [div_eq_mul_inv]
  rw [hdiv, div_self (total_pos hexp h).ne']

omit [LinearOrder K] [IsStrictOrderedRing K] in
lemma below_succ (i : ℕ) : below exp l (i + 1) = below exp l i + prob exp l i := by
  rw [below, below, prob, List.getD_eq_getElem?_getD]
  cases hi : (probs exp l)[i]? with
  | none =>
      have hlen := List.getElem?_eq_none_iff.mp hi
      rw [List.take_of_length_le (by omega), List.take_of_length_le hlen, Option.getD_none,
        add_zero]
  | some p => rw [List.take_add_one, hi, List.sum_append]; simp

omit [LinearOrder K] [IsStrictOrderedRing K] in
lemma getElem?_probs (i : ℕ) :
    (probs exp l)[i]? = l[i]?.map fun v => mass exp v / (l.map (mass exp)).sum :=
  List.getElem?_map

/-- **The kept tokens are those with a positive probability.** -/
lemma prob_pos_iff (hexp : ExpLaws exp) (h : Sane l) (i : ℕ) :
    0 < prob exp l i ↔ Kept l i := by
  rw [prob, List.getD_eq_getElem?_getD, getElem?_probs, Kept]
  cases hi : l[i]? with
  | none => simp
  | some v =>
      rw [Option.map_some, Option.getD_some]
      rcases h.ranged v (List.mem_of_getElem? hi) with rfl | ⟨x, rfl⟩
      · simp [mass]
      · exact ⟨fun _ => ⟨x, rfl⟩, fun _ => div_pos (hexp.pos x) (total_pos hexp h)⟩

lemma prob_eq_zero (hexp : ExpLaws exp) (h : Sane l) {i : ℕ} (hi : ¬ Kept l i) :
    prob exp l i = 0 := by
  have hnonneg : 0 ≤ prob exp l i := by
    rw [prob, List.getD_eq_getElem?_getD]
    cases hp : (probs exp l)[i]? with
    | none => exact le_rfl
    | some p => exact prob_nonneg hexp p (List.mem_of_getElem? hp)
  exact le_antisymm (not_lt.mp fun hpos => hi ((prob_pos_iff hexp h i).mp hpos)) hnonneg

lemma below_mono (hexp : ExpLaws exp) (h : Sane l) : Monotone (below exp l) := by
  refine monotone_nat_of_le_succ fun i => ?_
  rw [below_succ]
  by_cases hi : Kept l i
  · exact le_add_of_nonneg_right ((prob_pos_iff hexp h i).mpr hi).le
  · rw [prob_eq_zero hexp h hi, add_zero]

omit [LinearOrder K] [IsStrictOrderedRing K] in
lemma below_zero : below exp l 0 = 0 := List.sum_nil

/-- In front of a token there is a last kept one, or nothing. -/
lemma below_cases (hexp : ExpLaws exp) (h : Sane l) (i : ℕ) :
    (∃ j < i, Kept l j ∧ below exp l i = cdf exp l j) ∨
      ((∀ j < i, ¬ Kept l j) ∧ below exp l i = 0) := by
  induction i with
  | zero => exact .inr ⟨fun j hj => by omega, below_zero⟩
  | succ i ih =>
      by_cases hi : Kept l i
      · exact .inl ⟨i, Nat.lt_succ_self i, hi, rfl⟩
      · rw [below_succ, prob_eq_zero hexp h hi, add_zero]
        rcases ih with ⟨j, hj, hkept, heq⟩ | ⟨hnone, heq⟩
        · exact .inl ⟨j, by omega, hkept, heq⟩
        · refine .inr ⟨fun j hj => ?_, heq⟩
          rcases Nat.lt_succ_iff_lt_or_eq.mp hj with hlt | rfl
          · exact hnone j hlt
          · exact hi

omit [IsStrictOrderedRing K] in
/-- There is only one quantile. -/
lemma InverseCdf.unique (h : InverseCdf exp l u i) (h' : InverseCdf exp l u j) : i = j := by
  rcases lt_trichotomy i j with hlt | heq | hgt
  · exact absurd h.reached (h'.first i hlt h.kept).not_ge
  · exact heq
  · exact absurd h'.reached (h.first j hgt h'.kept).not_ge

/-- **The random numbers of a token are an interval** of the length of its probability. -/
lemma inverseCdf_iff_share (hexp : ExpLaws exp) (h : Sane l) (hu : 0 ≤ u) (hkept : Kept l i) :
    InverseCdf exp l u i ↔ Share exp l u i := by
  have hbelow : cdf exp l i - prob exp l i = below exp l i := by
    rw [cdf, below_succ, add_sub_cancel_right]
  rw [Share, hbelow]
  constructor
  · intro hinv
    refine ⟨hinv.reached, ?_⟩
    rcases below_cases hexp h i with ⟨j, hj, hj', heq⟩ | ⟨hnone, heq⟩
    · exact .inl (heq ▸ hinv.first j hj hj')
    · rcases hu.eq_or_lt with rfl | hpos
      · exact .inr ⟨rfl, hnone⟩
      · exact .inl (heq ▸ hpos)
  · rintro ⟨hreached, hfirst⟩
    refine ⟨hkept, hreached, fun j hj hj' => ?_⟩
    rcases hfirst with hlt | ⟨-, hnone⟩
    · exact (below_mono hexp h hj).trans_lt hlt
    · exact absurd hj' (hnone j hj)

/-! ### What the code computes -/

/-- The weights divided by their sum are the probabilities, whatever the reference. -/
lemma normalize_eq (hexp : ExpLaws exp) (h : Sane l) (m : K) :
    normalize (Exact.ops exp) (.fin m) l = (probs exp l).map .fin := by
  have hweight : ∀ v ∈ l, (Exact.ops exp).exp ((Exact.ops exp).sub v (.fin m)) =
      .fin (mass exp v * exp (-m)) := by
    intro v hv
    rcases h.ranged v hv with rfl | ⟨x, rfl⟩
    · have hmass : mass exp Exact.negInf = 0 := rfl
      rw [Exact.sub_negInf, Exact.exp_negInf, hmass, zero_mul]
    · rw [Exact.sub_fin, Exact.exp_fin, sub_eq_add_neg, hexp.add]
      rfl
  have hweights : (l.map fun v => (Exact.ops exp).exp ((Exact.ops exp).sub v (.fin m))) =
      (l.map fun v => mass exp v * exp (-m)).map .fin := by
    rw [List.map_map]
    exact List.map_congr_left hweight
  have hsum : (l.map fun v => mass exp v * exp (-m)).sum =
      (l.map (mass exp)).sum * exp (-m) := List.sum_map_mul_right _ _ _
  have hpos : 0 < (l.map (mass exp)).sum * exp (-m) :=
    mul_pos (total_pos hexp h) (hexp.pos (-m))
  rw [normalize]
  simp only [hweights]
  rw [Exact.sum_fin, hsum, probs]
  simp only [List.map_map]
  refine List.map_congr_left fun v _ => ?_
  simp only [Function.comp_apply]
  rw [Exact.div_fin exp _ hpos, mul_div_mul_right _ _ (hexp.pos (-m)).ne']

omit [IsStrictOrderedRing K] in
/-- **Where the walk ends**: at the first token at which the sum reaches `u`. -/
lemma walk_eq_some {k : ℕ} (ps : List K) : ∀ (c : K) (i : ℕ),
    walk (Exact.ops exp) (.fin u) (.fin c) i (ps.map .fin) = some k ↔
      ∃ n, k = i + n ∧ n < ps.length ∧ u ≤ c + (ps.take (n + 1)).sum ∧
        ∀ m < n, c + (ps.take (m + 1)).sum < u := by
  induction ps with
  | nil =>
      refine fun c i => ⟨fun h => (nomatch h), fun ⟨n, _, hn, _⟩ => ?_⟩
      exact absurd hn (Nat.not_lt_zero n)
  | cons p ps ih =>
      intro c i
      rw [List.map_cons, walk, Exact.add_fin, Exact.le_fin]
      by_cases hle : u ≤ c + p
      · rw [if_pos (decide_eq_true hle), Option.some_inj]
        constructor
        · rintro rfl
          exact ⟨0, rfl, by simp, by simpa using hle, fun m hm => by omega⟩
        · rintro ⟨n, rfl, -, -, hfirst⟩
          cases n with
          | zero => rfl
          | succ n =>
              have hlt := hfirst 0 (Nat.succ_pos n)
              simp only [Nat.zero_add, List.take_succ_cons, List.take_zero, List.sum_cons,
                List.sum_nil, add_zero] at hlt
              exact absurd hle hlt.not_ge
      · rw [if_neg (by simpa using hle), ih]
        constructor
        · rintro ⟨n, rfl, hn, hreached, hfirst⟩
          refine ⟨n + 1, by omega, by simpa using hn, ?_, fun m hm => ?_⟩
          · rw [List.take_succ_cons, List.sum_cons, ← add_assoc]
            exact hreached
          · rw [List.take_succ_cons, List.sum_cons, ← add_assoc]
            cases m with
            | zero => simpa using not_le.mp hle
            | succ m => exact hfirst m (by omega)
        · rintro ⟨n, rfl, hn, hreached, hfirst⟩
          cases n with
          | zero => exact absurd (by simpa using hreached) hle
          | succ n =>
              refine ⟨n, by omega, by simpa using hn, ?_, fun m hm => ?_⟩
              · rw [List.take_succ_cons, List.sum_cons, ← add_assoc] at hreached
                exact hreached
              · have hlt := hfirst (m + 1) (by omega)
                rw [List.take_succ_cons, List.sum_cons, ← add_assoc] at hlt
                exact hlt

/-- **The walk over the probabilities** ends at the first token whose distribution function
reaches `u`. -/
lemma walk_probs (hexp : ExpLaws exp) (h : Sane l) (hu : u < 1) :
    ∃ k, walk (Exact.ops exp) (.fin u) (Exact.ops exp).zero 0
        (normalize (Exact.ops exp) ((Exact.ops exp).maximum l) l) = some k ∧
      k < l.length ∧ u ≤ cdf exp l k ∧ ∀ j < k, cdf exp l j < u := by
  obtain ⟨m, hm, -, -⟩ := maximum_eq exp h
  rw [hm, normalize_eq hexp h]
  have hlast : ∃ n, u ≤ cdf exp l n := by
    refine ⟨l.length, ?_⟩
    rw [cdf, below, List.take_of_length_le (by rw [length_probs]; omega), sum_probs hexp h]
    exact hu.le
  classical
  have hfirst : ∀ j < Nat.find hlast, cdf exp l j < u := fun j hj =>
    not_le.mp (Nat.find_min hlast hj)
  have hlt : Nat.find hlast < l.length := by
    by_contra hnot
    have hpos : 0 < l.length := List.length_pos_iff.mpr (List.ne_nil_of_mem h.finite.choose_spec)
    have hwhole := hfirst (l.length - 1) (by omega)
    rw [cdf, below, Nat.sub_add_cancel hpos, List.take_of_length_le length_probs.le,
      sum_probs hexp h] at hwhole
    exact absurd hu hwhole.not_gt
  refine ⟨Nat.find hlast, ?_, hlt, Nat.find_spec hlast, hfirst⟩
  rw [Exact.ops_zero, walk_eq_some]
  refine ⟨Nat.find hlast, (Nat.zero_add _).symm, by rwa [length_probs], ?_, fun j hj => ?_⟩
  · rw [zero_add]
    exact Nat.find_spec hlast
  · rw [zero_add]
    exact hfirst j hj

/-- Where the walk ends is kept, unless `u` is 0 and token 0 is not kept. -/
lemma inverseCdf_of_walk (hexp : ExpLaws exp) (h : Sane l) (hu : 0 ≤ u) {k : ℕ}
    (hreached : u ≤ cdf exp l k) (hfirst : ∀ j < k, cdf exp l j < u)
    (hzero : u ≠ 0 ∨ Kept l 0) : InverseCdf exp l u k := by
  refine ⟨?_, hreached, fun j hj _ => hfirst j hj⟩
  by_cases hk : k = 0 ∧ u = 0
  · obtain ⟨rfl, rfl⟩ := hk
    exact hzero.resolve_left (fun hne => hne rfl)
  · have hbelow : below exp l k < u := by
      cases k with
      | zero =>
          rw [below_zero]
          exact lt_of_le_of_ne hu fun h0 => hk ⟨rfl, h0.symm⟩
      | succ k => exact hfirst k (Nat.lt_succ_self k)
    refine (prob_pos_iff hexp h k).mp ?_
    rw [cdf, below_succ] at hreached
    exact pos_of_lt_add_right (hbelow.trans_le hreached)

/-- For `u = 0` the walk ends at token 0. -/
lemma first_of_zero (hexp : ExpLaws exp) (h : Sane l) {k : ℕ} (hfirst : ∀ j < k, cdf exp l j < 0) :
    k = 0 := by
  by_contra hne
  have hmono := below_mono hexp h (Nat.zero_le 1)
  rw [below_zero] at hmono
  exact absurd hmono (hfirst 0 (Nat.pos_of_ne_zero hne)).not_ge

end

/-! ### `sample` -/

/-- What a draw has to be: a token that is left by the filters, and the quantile of `u`, so that
the random numbers of each token that is left are its share. -/
def Draws (sort : UnstableSort) (params : SamplingParams ℝ) (history : List UInt32)
    (logits : List (Exact ℝ)) (u : ℝ) : Prop :=
  ∃ (filtered : List (Exact ℝ)) (i : UInt32),
    filters (Exact.ops Real.exp) sort params.exact
        (adjust (Exact.ops Real.exp) params.exact history logits) = some filtered ∧
      sample (Exact.ops Real.exp) sort params.exact history logits
        (fun u : ℝ => (Exact.fin u, u)) u = some (i, u) ∧
      i.toNat < logits.length ∧ Kept filtered i.toNat ∧ InverseCdf Real.exp filtered u i.toNat ∧
      ∀ k, Kept filtered k → (i.toNat = k ↔ Share Real.exp filtered u k)

/-- `Real.exp` is positive and turns sums into products. -/
lemma realExp : ExpLaws Real.exp := ⟨Real.exp_pos, Real.exp_add⟩

section

variable {sort : UnstableSort} {params : SamplingParams ℝ} {history : List UInt32}
  {logits filtered : List (Exact ℝ)} {u : ℝ}

/-- With a positive temperature, `sample` is the categorical sample of the filtered logits. -/
lemma sample_eq (ht : 0 < params.temperature)
    (hfilters : filters (Exact.ops Real.exp) sort params.exact
      (adjust (Exact.ops Real.exp) params.exact history logits) = some filtered) :
    sample (Exact.ops Real.exp) sort params.exact history logits (fun u : ℝ => (Exact.fin u, u)) u =
      some (categorical (Exact.ops Real.exp) (.fin u) filtered, u) := by
  have htemp : (Exact.ops Real.exp).eq params.exact.temperature (Exact.ops Real.exp).zero =
      false := by
    rw [SamplingParams.exact, Exact.ops_zero, Exact.eq_fin]
    exact decide_eq_false ht.ne'
  rw [sample]
  simp only [htemp, Bool.false_eq_true, if_false]
  change (filters (Exact.ops Real.exp) sort params.exact
    (adjust (Exact.ops Real.exp) params.exact history logits)).bind _ = _
  rw [hfilters]
  rfl

/-- What is drawn if the filters return. -/
lemma draws_iff_categorical (ht : 0 < params.temperature)
    (hfilters : filters (Exact.ops Real.exp) sort params.exact
      (adjust (Exact.ops Real.exp) params.exact history logits) = some filtered) :
    Draws sort params history logits u ↔
      (categorical (Exact.ops Real.exp) (.fin u) filtered).toNat < logits.length ∧
      Kept filtered (categorical (Exact.ops Real.exp) (.fin u) filtered).toNat ∧
      InverseCdf Real.exp filtered u
        (categorical (Exact.ops Real.exp) (.fin u) filtered).toNat ∧
      ∀ k, Kept filtered k →
        ((categorical (Exact.ops Real.exp) (.fin u) filtered).toNat = k ↔
          Share Real.exp filtered u k) := by
  constructor
  · rintro ⟨filtered', i, hfilters', hsample, hall⟩
    obtain rfl := Option.some.inj (hfilters.symm.trans hfilters')
    rw [sample_eq ht hfilters] at hsample
    obtain rfl := congrArg Prod.fst (Option.some.inj hsample)
    exact hall
  · exact fun hall => ⟨filtered, _, hfilters, sample_eq ht hfilters, hall⟩

/-- **What `sample` draws.**  For all logits without NaN and +∞ of which one is a number, every
history, all parameters and every random number `u` in [0, 1), `sample` draws the quantile of `u`
for the softmax over the tokens that its filters keep if and only if `u` is not 0 or token 0 is
kept, and the quantile is a token of 32 bits. -/
theorem sample_iff (sort : UnstableSort) (params : SamplingParams ℝ) (history : List UInt32)
    (logits : List (Exact ℝ)) (u : ℝ) (hparams : params.Legal) (hlogits : Sane logits)
    (hu : 0 ≤ u) (hu1 : u < 1) :
    Draws sort params history logits u ↔
      ∃ filtered, filters (Exact.ops Real.exp) sort params.exact
          (adjust (Exact.ops Real.exp) params.exact history logits) = some filtered ∧
        (u ≠ 0 ∨ Kept filtered 0) ∧ ∀ k, InverseCdf Real.exp filtered u k → k < 2 ^ 32 := by
  obtain ⟨filtered, hfilters, hsane⟩ := filters_sane realExp sort hparams
    (adjust_sane Real.exp hparams history hlogits)
  have hlen : filtered.length = logits.length := by
    rw [← (filters_thinned hfilters).length_eq,
      (adjust_kinds hparams history hlogits.ranged).length_eq]
  obtain ⟨k, hwalk, hk, hreached, hfirst⟩ := walk_probs realExp hsane hu1
  have hcategorical : categorical (Exact.ops Real.exp) (.fin u) filtered = UInt32.ofNat k := by
    rw [categorical]
    simp only [hwalk, Option.map_some, Option.getD_some]
  rw [draws_iff_categorical hparams.temperature hfilters, hcategorical]
  constructor
  · rintro ⟨-, hkept, hinv, -⟩
    refine ⟨filtered, hfilters, ?_, fun k' hk' => ?_⟩
    · by_cases hzero : u = 0
      · -- the walk ends at token 0
        right
        obtain rfl := first_of_zero realExp hsane (hzero ▸ hfirst)
        exact hkept
      · exact .inl hzero
    · rw [hk'.unique hinv]
      exact UInt32.toNat_lt _
  · rintro ⟨filtered', hfilters', hzero, hsmall⟩
    obtain rfl := Option.some.inj (hfilters.symm.trans hfilters')
    have hinv := inverseCdf_of_walk realExp hsane hu hreached hfirst hzero
    have htoNat : (UInt32.ofNat k).toNat = k := UInt32.toNat_ofNat_of_lt' (hsmall k hinv)
    rw [htoNat]
    refine ⟨hlen ▸ hk, hinv.kept, hinv, fun k' hk' => ?_⟩
    rw [← inverseCdf_iff_share realExp hsane hu hk']
    exact ⟨fun heq => heq ▸ hinv, fun hinv' => hinv.unique hinv'⟩

end

/-! ### A vocabulary of two tokens -/

/-- Parameters that only take the `k` largest logits. -/
def takeTop (k : ℕ) : SamplingParams ℝ where
  temperature := 1
  topK := k
  topP := 1
  repetitionPenalty := 1
  minP := 0
  logitBias := none

lemma takeTop_legal (k : ℕ) : (takeTop k).Legal :=
  ⟨one_pos, one_pos, le_rfl, zero_le_one, one_pos, le_rfl⟩

/-- Two logits, the second one larger. -/
def twoLogits : List (Exact ℝ) := [.fin 0, .fin 1]

lemma twoLogits_sane : Sane twoLogits := by
  refine ⟨fun v hv => ?_, 0, List.mem_cons_self⟩
  simp only [twoLogits, List.mem_cons, List.not_mem_nil, or_false] at hv
  rcases hv with rfl | rfl
  · exact .inr ⟨0, rfl⟩
  · exact .inr ⟨1, rfl⟩

lemma twoLogits_adjust (k : ℕ) :
    adjust (Exact.ops Real.exp) (takeTop k).exact [] twoLogits = twoLogits := by
  have hdiv : ∀ x : ℝ, (Exact.ops Real.exp).div (.fin x) (.fin 1) = .fin x := fun x => by
    rw [Exact.div_fin _ _ one_pos, div_one]
  simp [adjust, scale, penalize, addBias, takeTop, SamplingParams.exact, twoLogits, hdiv]

/-- Without a filter, both tokens are left. -/
lemma twoLogits_filters :
    filters (Exact.ops Real.exp) .merge (takeTop 0).exact twoLogits = some twoLogits := by
  simp [filters, topK, minP, topP, takeTop, SamplingParams.exact]

/-- With `u = 1/2` and both tokens left, `sample` draws the quantile. -/
theorem draws_twoLogits : Draws .merge (takeTop 0) [] twoLogits (1 / 2) := by
  refine (sample_iff .merge (takeTop 0) [] twoLogits (1 / 2) (takeTop_legal 0) twoLogits_sane
    (by norm_num) (by norm_num)).mpr ⟨twoLogits, ?_, .inl (by norm_num), fun k hk => ?_⟩
  · rw [twoLogits_adjust]
    exact twoLogits_filters
  · obtain ⟨x, hx⟩ := hk.kept
    have hlt : k < 2 := (List.getElem?_eq_some_iff.mp hx).1
    omega

/-- The largest logit is left alone, whatever the sort. -/
lemma twoLogits_topOne (sort : UnstableSort) :
    filters (Exact.ops Real.exp) sort (takeTop 1).exact twoLogits =
      some [.negInf, .fin 1] := by
  obtain ⟨indices, hrun, hsorted⟩ := sorts_falling Real.exp
    (fun i => twoLogits.getD i (Exact.ops Real.exp).negInf) sort (List.range 2)
    fun i _ => getD_ranged twoLogits_sane.ranged i
  have hperm := sort.perm hrun
  have hindices : indices = [1, 0] := by
    rcases List.perm_pair.mp hperm with rfl | rfl
    · -- the first logit is not the larger one
      have hfall : falling (Exact.ops Real.exp) (.fin 0) (.fin 1) ≠ .gt :=
        (List.pairwise_cons.mp hsorted).1 1 List.mem_cons_self
      rcases (falling_ne_gt (.inr ⟨0, rfl⟩) (.inr ⟨1, rfl⟩)).mp hfall with
        hneg | ⟨x, y, hx, hy, hyx⟩
      · cases hneg
      · cases hx
        cases hy
        exact absurd hyx (not_le.mpr one_pos)
    · rfl
  have htopK : topK (Exact.ops Real.exp) sort 1 twoLogits = some [.negInf, .fin 1] := by
    rw [topK, if_pos (by decide)]
    change (sort.run _ (List.range 2)).bind _ = _
    rw [hrun, hindices]
    rfl
  rw [filters]
  change (topK (Exact.ops Real.exp) sort 1 twoLogits).bind _ = _
  rw [htopK]
  simp [minP, topP, takeTop, SamplingParams.exact]

/-- At `u = 0`, token 0 is drawn although only token 1 is left. -/
theorem not_draws_twoLogits : ¬ Draws .merge (takeTop 1) [] twoLogits 0 ∧
    (takeTop 1).Legal ∧ Sane twoLogits := by
  refine ⟨fun h => ?_, takeTop_legal 1, twoLogits_sane⟩
  rw [draws_iff_categorical one_pos (by rw [twoLogits_adjust]; exact twoLogits_topOne _)] at h
  have hsane : Sane [.negInf, .fin (1 : ℝ)] := by
    refine ⟨fun v hv => ?_, 1, by simp⟩
    simp only [List.mem_cons, List.not_mem_nil, or_false] at hv
    exact hv.imp_right fun hv => ⟨1, hv⟩
  have hdrawn : categorical (Exact.ops Real.exp) (.fin 0) [.negInf, .fin (1 : ℝ)] = 0 := by
    obtain ⟨k, hwalk, -, -, hfirst⟩ := walk_probs realExp hsane one_pos
    obtain rfl := first_of_zero realExp hsane hfirst
    rw [categorical]
    simp only [hwalk, Option.map_some, Option.getD_some]
    rfl
  rw [hdrawn] at h
  obtain ⟨x, hx⟩ := h.2.1
  cases hx

end Braidinfer.Generate
