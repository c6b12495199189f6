/-
The router of a mixture of experts (`op_moe_gate` in `kernels/megakernel_moe.hip`).

The threads of one block put the unbiased and the biased scores side by side in shared memory; one
thread then takes the best expert `k` times, masking what it took, and computes the weights from the
unbiased scores.  Arithmetic is exact, and `expf` is any positive function.

* `opMoeGate`: the kernel;
* `load_eq`: what the threads leave in shared memory;
* `selectLoop_eq`: the loop of selection does the rounds of `Lib.TopK`;
* `opMoeGate_selects`: **the experts are the first `k` in order, and the weights are their shares**.
-/
import Mathlib.Algebra.BigOperators.Field
import Mathlib.Algebra.Order.BigOperators.Group.Finset
import Mathlib.Analysis.SpecialFunctions.Exp
import Braidinfer.Lib.ThreadSum
import Braidinfer.Lib.TopK

namespace Braidinfer.Moe

open Braidinfer.Lib

/-! ### Loops -/

section Loops

variable {K : Type*} [Field K]

/-- `for (int j = 0; j < k; j++) sum += f(j)` -/
def sumLoop (k : ℕ) (f : ℕ → K) : K := (List.range k).foldl (fun sum j => sum + f j) 0

/-- `for (int j = 0; j < k; j++) out[j] = f(j)` -/
def storeLoop {K : Type*} (k : ℕ) (f out : ℕ → K) : ℕ → K :=
  (List.range k).foldl (fun out j => Function.update out j (f j)) out

lemma sumLoop_eq (k : ℕ) (f : ℕ → K) : sumLoop k f = ∑ j ∈ Finset.range k, f j := by
  induction k with
  | zero => rfl
  | succ k ih => rw [sumLoop, List.range_succ, List.foldl_append, ← sumLoop, ih,
      Finset.sum_range_succ, List.foldl_cons, List.foldl_nil]

lemma storeLoop_apply {K : Type*} (k : ℕ) (f out : ℕ → K) (i : ℕ) :
    storeLoop k f out i = if i < k then f i else out i := by
  induction k with
  | zero => rfl
  | succ k ih =>
      rw [storeLoop, List.range_succ, List.foldl_append, ← storeLoop, List.foldl_cons,
        List.foldl_nil]
      by_cases hi : i = k
      · rw [hi, Function.update_self, if_pos (Nat.lt_succ_self k)]
      · rw [Function.update_of_ne hi, ih]
        exact if_congr (by omega) rfl rfl

end Loops

section Gate

variable {K : Type*} [Field K] [LinearOrder K]

/-! ### The kernel -/

-- the literal of `sentinel`
local instance ten_atLeastTwo : Nat.AtLeastTwo 10 := ⟨by decide⟩

/-- `-1e30f` -/
def sentinel : K := -(10 ^ 30)

/-- The fields of `MoeGateInst` that the kernel reads; `correctionBias` is `none` for a null
pointer. -/
structure GateArgs (K : Type*) where
  scores : ℕ → K
  numExperts : ℕ
  k : ℕ
  gateMode : ℕ
  scaling : K
  correctionBias : Option (ℕ → K)

/-- `expert_ids` and `expert_weights` -/
structure GateOut (K : Type*) where
  expertIds : ℕ → ℕ
  expertWeights : ℕ → K

/-- `correction_bias ? s + correction_bias[i] : s` -/
def GateArgs.addBias (a : GateArgs K) (s : K) (i : ℕ) : K :=
  match a.correctionBias with
  | some bias => s + bias i
  | none => s

variable (exp : K → K) (a : GateArgs K)

/-- One round of the loading loop; `sh_sel` is `shmem`, `sh_raw` is `shmem + 512`. -/
def loadStep (shmem : ℕ → K) (i : ℕ) : ℕ → K :=
  let s := a.scores i
  if a.gateMode = 2 then
    let sig := 1 / (1 + exp (-s))
    Function.update (Function.update shmem (512 + i) sig) i (a.addBias sig i)
  else
    Function.update (Function.update shmem (512 + i) s) i (a.addBias s i)

/-- The loading loops of all threads, up to the barrier. -/
def load (stride : ℕ) (shmem : ℕ → K) : ℕ → K :=
  (List.range stride).foldl
    (fun shmem tid => (strided tid stride a.numExperts).foldl (loadStep exp a) shmem) shmem

/-- What the loop of selection reads and writes. -/
structure SelectState (K : Type*) where
  shmem : ℕ → K
  ids : ℕ → ℕ
  expertIds : ℕ → ℕ

/-- One round of selection: the scan, then the mask. -/
def selectStep (numExperts : ℕ) (st : SelectState K) (j : ℕ) : SelectState K :=
  let bestIdx := TopK.scan sentinel st.shmem numExperts
  { ids := Function.update st.ids j bestIdx
    expertIds := Function.update st.expertIds j bestIdx
    shmem := Function.update st.shmem bestIdx sentinel }

/-- The loop of selection. -/
def selectLoop (numExperts k : ℕ) (st : SelectState K) : SelectState K :=
  (List.range k).foldl (selectStep numExperts) st

/-- `max_s` -/
def maxLoop (k : ℕ) (f : ℕ → K) : K :=
  (List.range k).foldl (fun maxS j => if maxS < f j then f j else maxS) sentinel

/-- The weights; `shRaw` is `sh_raw`. -/
def gateWeights (shRaw : ℕ → K) (ids : ℕ → ℕ) (expertWeights : ℕ → K) : ℕ → K :=
  if a.gateMode = 2 then
    let sum := sumLoop a.k fun j => shRaw (ids j)
    storeLoop a.k (fun j => shRaw (ids j) / sum * a.scaling) expertWeights
  else
    let maxS := maxLoop a.k fun j => shRaw (ids j)
    let selected := fun j => exp (shRaw (ids j) - maxS)
    let sum := sumLoop a.k selected
    let scale := if a.gateMode = 1 then a.scaling else 1
    storeLoop a.k (fun j => selected j / sum * scale) expertWeights

/-- `op_moe_gate`, on a block of `stride` threads; `shmem` and `ids` are what shared memory and the
local array held before. -/
def opMoeGate (stride vblock : ℕ) (shmem : ℕ → K) (ids : ℕ → ℕ) (out : GateOut K) : GateOut K :=
  if 0 < vblock then out
  else
    let shmem := load exp a stride shmem
    let st := selectLoop a.numExperts a.k { shmem, ids, expertIds := out.expertIds }
    { expertIds := st.expertIds
      expertWeights :=
        gateWeights exp a (fun i => st.shmem (512 + i)) st.ids out.expertWeights }

/-! ### What the router is for -/

/-- The score without the bias: the sigmoid in mode 2. -/
def GateArgs.unbiased (i : ℕ) : K :=
  if a.gateMode = 2 then 1 / (1 + exp (-a.scores i)) else a.scores i

/-- The score that selection goes by. -/
def GateArgs.biased (i : ℕ) : K := a.addBias (a.unbiased exp i) i

/-- What the weights add up to: the scaling factor, or 1 in the mode without scaling. -/
def GateArgs.total : K := if a.gateMode = 2 ∨ a.gateMode = 1 then a.scaling else 1

/-- The largest unbiased score of the first `k` of `ids`, or the sentinel. -/
def GateArgs.maxScore (ids : ℕ → ℕ) : K := maxLoop a.k fun j => a.unbiased exp (ids j)

/-- The share of expert `i` before normalization, from its unbiased score: the score itself in mode
2, else its exponential relative to `maxS`. -/
def GateArgs.share (maxS : K) (i : ℕ) : K :=
  if a.gateMode = 2 then a.unbiased exp i else exp (a.unbiased exp i - maxS)

/-- The outputs are the first `k` experts in the order of the biased scores, with their shares of
the total. -/
structure Selects (out out' : GateOut K) : Prop where
  lt : ∀ j < a.k, out'.expertIds j < a.numExperts
  distinct : ∀ i < a.k, ∀ j < a.k, out'.expertIds i = out'.expertIds j → i = j
  ordered : ∀ i j, i < j → j < a.k →
    TopK.Before (a.biased exp) (out'.expertIds i) (out'.expertIds j)
  maximal : ∀ j < a.k, ∀ e < a.numExperts, (∀ i < a.k, out'.expertIds i ≠ e) →
    TopK.Before (a.biased exp) (out'.expertIds j) e
  weights : ∀ j < a.k, out'.expertWeights j =
    a.share exp (a.maxScore exp out'.expertIds) (out'.expertIds j) /
      (∑ i ∈ Finset.range a.k, a.share exp (a.maxScore exp out'.expertIds) (out'.expertIds i)) *
        a.total
  positive : 0 < a.total → ∀ j < a.k, 0 < out'.expertWeights j
  sum : ∑ j ∈ Finset.range a.k, out'.expertWeights j = a.total
  frame : ∀ j, a.k ≤ j → out'.expertIds j = out.expertIds j ∧
    out'.expertWeights j = out.expertWeights j

end Gate

/-! ### Shared memory -/

section Shared

variable {K : Type*} [Field K] (exp : K → K) (a : GateArgs K)

lemma loadStep_eq (shmem : ℕ → K) (i : ℕ) : loadStep exp a shmem i =
    Function.update (Function.update shmem (512 + i) (a.unbiased exp i)) i (a.biased exp i) := by
  rw [loadStep, GateArgs.biased, GateArgs.unbiased]
  split_ifs <;> rfl

/-- What a round leaves in shared memory. -/
lemma loadStep_apply (shmem : ℕ → K) {i c : ℕ} (hi : i < 512) (hc : c < 512) :
    loadStep exp a shmem c i = (if i = c then a.biased exp i else shmem i) ∧
      loadStep exp a shmem c (512 + i) =
        if i = c then a.unbiased exp i else shmem (512 + i) := by
  rw [loadStep_eq]
  by_cases hic : i = c
  · subst hic
    rw [if_pos rfl, if_pos rfl, Function.update_self, Function.update_of_ne (by omega),
      Function.update_self]
    exact ⟨rfl, rfl⟩
  · rw [if_neg hic, if_neg hic, Function.update_of_ne hic, Function.update_of_ne (by omega),
      Function.update_of_ne (by omega), Function.update_of_ne (by omega)]
    exact ⟨rfl, rfl⟩

/-- What rounds in any order leave there. -/
lemma foldl_loadStep {order : List ℕ} (horder : ∀ c ∈ order, c < 512) (shmem : ℕ → K) {i : ℕ}
    (hi : i < 512) :
    order.foldl (loadStep exp a) shmem i = (if i ∈ order then a.biased exp i else shmem i) ∧
      order.foldl (loadStep exp a) shmem (512 + i) =
        if i ∈ order then a.unbiased exp i else shmem (512 + i) := by
  induction order generalizing shmem with
  | nil => exact ⟨rfl, rfl⟩
  | cons c order ih =>
      obtain ⟨hc, horder⟩ := List.forall_mem_cons.mp horder
      obtain ⟨hsel, hraw⟩ := ih horder (loadStep exp a shmem c)
      obtain ⟨hsel', hraw'⟩ := loadStep_apply exp a shmem hi hc
      rw [List.foldl_cons, hsel, hraw, hsel', hraw']
      by_cases hmem : i ∈ order
      · rw [if_pos hmem, if_pos hmem, if_pos (List.mem_cons_of_mem c hmem),
          if_pos (List.mem_cons_of_mem c hmem)]
        exact ⟨rfl, rfl⟩
      · have hiff : i ∈ c :: order ↔ i = c := by
          rw [List.mem_cons]
          exact or_iff_left hmem
        rw [if_neg hmem, if_neg hmem, if_congr hiff rfl rfl, if_congr hiff rfl rfl]
        exact ⟨rfl, rfl⟩

/-- **The threads load every score.** -/
lemma load_eq {stride : ℕ} (hstride : 0 < stride) (hne : a.numExperts ≤ 512) (shmem : ℕ → K)
    {i : ℕ} (hi : i < a.numExperts) : load exp a stride shmem i = a.biased exp i ∧
      load exp a stride shmem (512 + i) = a.unbiased exp i := by
  have hmem : ∀ c, c ∈ (List.range stride).flatMap (strided · stride a.numExperts) ↔
      c < a.numExperts := fun c => by
    rw [List.mem_flatMap]
    constructor
    · rintro ⟨tid, -, hc⟩
      exact (mem_strided.mp hc).1
    · intro hc
      have hmod := Nat.mod_lt c hstride
      exact ⟨c % stride, List.mem_range.mpr hmod, (mem_strided_of_lt hmod).mpr ⟨hc, rfl⟩⟩
  obtain ⟨hsel, hraw⟩ := foldl_loadStep exp a
    (fun c hc => ((hmem c).mp hc).trans_le hne) shmem (hi.trans_le hne)
  rw [load, ← List.foldl_flatMap, hsel, hraw, if_pos ((hmem i).mpr hi), if_pos ((hmem i).mpr hi)]
  exact ⟨rfl, rfl⟩

end Shared

/-! ### Selection -/

/-- **The loop of selection does the rounds**, and records the indices twice. -/
lemma selectLoop_eq {K : Type*} [Field K] [LinearOrder K] (n k : ℕ) (st : SelectState K) :
    (selectLoop n k st).shmem = (TopK.rounds sentinel st.shmem n k).sel ∧
      (∀ j < k, (TopK.rounds sentinel st.shmem n k).ids[j]? =
          some ((selectLoop n k st).expertIds j) ∧
        (selectLoop n k st).ids j = (selectLoop n k st).expertIds j) ∧
      ∀ j, k ≤ j → (selectLoop n k st).expertIds j = st.expertIds j := by
  induction k with
  | zero => exact ⟨rfl, fun j hj => absurd hj (Nat.not_lt_zero j), fun j _ => rfl⟩
  | succ k ih =>
      obtain ⟨hsel, hids, hframe⟩ := ih
      have hstep : selectLoop n (k + 1) st = selectStep n (selectLoop n k st) k := by
        rw [selectLoop, List.range_succ, List.foldl_append]
        rfl
      have hlen := TopK.length_rounds sentinel st.shmem n k
      rw [hstep, selectStep, hsel, TopK.rounds, TopK.round]
      refine ⟨rfl, fun j hj => ?_, fun j hj => ?_⟩
      · rcases Nat.lt_succ_iff_lt_or_eq.mp hj with hj | rfl
        · simp only [Function.update_of_ne hj.ne]
          rw [List.getElem?_append_left (by omega)]
          exact hids j hj
        · simp only [Function.update_self]
          rw [List.getElem?_append_right (by omega), hlen, Nat.sub_self]
          exact ⟨rfl, trivial⟩
      · simp only [Function.update_of_ne (show j ≠ k by omega)]
        exact hframe j (by omega)

/-! ### The weights -/

section Weights

variable {K : Type*} [Field K] [LinearOrder K] {exp : K → K} {a : GateArgs K}

lemma maxLoop_congr {k : ℕ} {f g : ℕ → K} (h : ∀ j < k, f j = g j) :
    maxLoop k f = maxLoop k g :=
  List.foldl_ext _ _ _ fun m j hj => by simp only [h j (List.mem_range.mp hj)]

/-- Shares are positive. -/
lemma share_pos [IsStrictOrderedRing K] (hexp : ∀ x, 0 < exp x) (maxS : K) (i : ℕ) :
    0 < a.share exp maxS i := by
  rw [GateArgs.share]
  split_ifs with hmode
  · rw [GateArgs.unbiased, if_pos hmode]
    exact div_pos one_pos (add_pos one_pos (hexp _))
  · exact hexp _

/-- **The weights are the shares of the total.** -/
lemma gateWeights_eq (shRaw : ℕ → K) (ids : ℕ → ℕ)
    (hraw : ∀ j < a.k, shRaw (ids j) = a.unbiased exp (ids j)) (w : ℕ → K) (j : ℕ) :
    let share i := a.share exp (a.maxScore exp ids) (ids i)
    gateWeights exp a shRaw ids w j =
      if j < a.k then share j / (∑ i ∈ Finset.range a.k, share i) * a.total else w j := by
  have hsum : ∀ f : ℕ → K, (∀ j < a.k, f j = a.unbiased exp (ids j)) → ∀ g : K → K,
      sumLoop a.k (fun j => g (f j)) = ∑ i ∈ Finset.range a.k, g (a.unbiased exp (ids i)) :=
    fun f hf g => (sumLoop_eq _ _).trans
      (Finset.sum_congr rfl fun i hi => by rw [hf i (Finset.mem_range.mp hi)])
  intro share
  by_cases hmode : a.gateMode = 2
  · rw [gateWeights, if_pos hmode, storeLoop_apply]
    refine if_ctx_congr Iff.rfl (fun hj => ?_) fun _ => rfl
    have hshare : ∀ i, share i = a.unbiased exp (ids i) := fun i => if_pos hmode
    simp only [hshare]
    rw [hsum _ hraw fun x => x, hraw j hj, GateArgs.total, if_pos (.inl hmode)]
  · have hmax : (maxLoop a.k fun j => shRaw (ids j)) = a.maxScore exp ids :=
      maxLoop_congr hraw
    rw [gateWeights, if_neg hmode, storeLoop_apply]
    refine if_ctx_congr Iff.rfl (fun hj => ?_) fun _ => rfl
    have hshare : ∀ i, share i = exp (a.unbiased exp (ids i) - a.maxScore exp ids) :=
      fun i => if_neg hmode
    simp only [hshare, hmax]
    rw [hsum _ hraw fun x => exp (x - a.maxScore exp ids), hraw j hj, GateArgs.total]
    exact congrArg _ (if_congr (or_iff_right hmode).symm rfl rfl)

end Weights

/-! ### The router -/

/-- **The router selects the top `k`**: for up to 512 experts, `k` of them at most 32, whatever the
scores and biases above the sentinel, in every mode. -/
theorem opMoeGate_selects {K : Type*} [Field K] [LinearOrder K] [IsStrictOrderedRing K]
    (exp : K → K) (hexp : ∀ x, 0 < exp x) (a : GateArgs K) (hne : a.numExperts ≤ 512)
    (hpos : 1 ≤ a.k) (hk : a.k ≤ min a.numExperts 32)
    (habove : ∀ i < a.numExperts, sentinel < a.biased exp i) {stride : ℕ} (hstride : 0 < stride)
    (shmem : ℕ → K) (ids : ℕ → ℕ) (out : GateOut K) :
    Selects exp a out (opMoeGate exp a stride 0 shmem ids out) := by
  set loaded := load exp a stride shmem with hloaded
  set st := selectLoop a.numExperts a.k { shmem := loaded, ids, expertIds := out.expertIds }
    with hst
  have hload : ∀ i < a.numExperts, loaded i = a.biased exp i ∧
      loaded (512 + i) = a.unbiased exp i := fun i hi => load_eq exp a hstride hne shmem hi
  obtain ⟨hmasked, hids, hframe⟩ :=
    selectLoop_eq a.numExperts a.k { shmem := loaded, ids, expertIds := out.expertIds }
  rw [← hst] at hmasked hids hframe
  have hsel : TopK.Selected sentinel loaded a.numExperts
      (TopK.rounds sentinel loaded a.numExperts a.k) :=
    TopK.selected_rounds (fun i hi => by rw [(hload i hi).1]; exact habove i hi) (by omega)
  set rs := TopK.rounds sentinel loaded a.numExperts a.k with hrs
  have hlen : rs.ids.length = a.k := TopK.length_rounds _ _ _ _
  have hmem : ∀ j < a.k, st.expertIds j ∈ rs.ids := fun j hj =>
    List.mem_of_getElem? (hids j hj).1
  have hlt : ∀ j < a.k, st.expertIds j < a.numExperts := fun j hj => hsel.lt _ (hmem j hj)
  have hbefore : ∀ e < a.numExperts, ∀ e' < a.numExperts, TopK.Before loaded e e' →
      TopK.Before (a.biased exp) e e' := fun e he e' he' h =>
    h.congr (hload e he).1 (hload e' he').1
  have hordered : ∀ i j, i < j → j < a.k →
      TopK.Before (a.biased exp) (st.expertIds i) (st.expertIds j) := fun i j hij hj => by
    obtain ⟨hi, hgeti⟩ := List.getElem?_eq_some_iff.mp (hids i (by omega)).1
    obtain ⟨hj', hgetj⟩ := List.getElem?_eq_some_iff.mp (hids j hj).1
    have hpair := List.pairwise_iff_getElem.mp hsel.ordered i j hi hj' hij
    rw [hgeti, hgetj] at hpair
    exact hbefore _ (hlt i (by omega)) _ (hlt j hj) hpair
  -- the mask leaves the unbiased scores alone
  have hraw : ∀ j < a.k, st.shmem (512 + st.ids j) = a.unbiased exp (st.ids j) := fun j hj => by
    have hnot : 512 + st.ids j ∉ rs.ids := fun h => by
      have := hsel.lt _ h
      omega
    rw [hmasked, hsel.masked, if_neg hnot, (hids j hj).2, (hload _ (hlt j hj)).2]
  set w := gateWeights exp a (fun i => st.shmem (512 + i)) st.ids out.expertWeights with hw
  have hres : opMoeGate exp a stride 0 shmem ids out = ⟨st.expertIds, w⟩ := rfl
  have hweights := gateWeights_eq (fun i => st.shmem (512 + i)) st.ids hraw out.expertWeights
  have hmax : a.maxScore exp st.ids = a.maxScore exp st.expertIds :=
    maxLoop_congr fun i hi => by rw [(hids i hi).2]
  set maxS := a.maxScore exp st.expertIds with hmaxS
  have hshares : ∑ i ∈ Finset.range a.k, a.share exp maxS (st.ids i) =
      ∑ i ∈ Finset.range a.k, a.share exp maxS (st.expertIds i) :=
    Finset.sum_congr rfl fun i hi => by rw [(hids i (Finset.mem_range.mp hi)).2]
  set total := ∑ i ∈ Finset.range a.k, a.share exp maxS (st.expertIds i) with htotal
  have hsum : 0 < total := Finset.sum_pos (fun i _ => share_pos hexp maxS _)
    (Finset.nonempty_range_iff.mpr (by omega))
  have hweight : ∀ j < a.k, w j = a.share exp maxS (st.expertIds j) / total * a.total :=
    fun j hj => by
      rw [hw, hweights j, if_pos hj]
      simp only [hmax]
      rw [hshares, (hids j hj).2]
  rw [hres]
  refine ⟨hlt, fun i hi j hj hij => ?_, hordered, fun j hj e he hnot => ?_, hweight,
    fun hpos j hj => ?_, ?_, fun j hj => ⟨hframe j hj, ?_⟩⟩
  · rcases Nat.lt_trichotomy i j with h | h | h
    · exact absurd hij (hordered i j h hj).ne
    · exact h
    · exact absurd hij.symm (hordered j i h hi).ne
  · refine hbefore _ (hlt j hj) e he (hsel.ahead _ (hmem j hj) e he fun hmem => ?_)
    obtain ⟨i, hi, hget⟩ := List.getElem_of_mem hmem
    have hik : i < a.k := by omega
    have hsome := (hids i hik).1
    rw [List.getElem?_eq_getElem hi, hget] at hsome
    exact hnot i hik (Option.some.inj hsome).symm
  · show 0 < w j
    rw [hweight j hj]
    exact mul_pos (div_pos (share_pos hexp maxS _) hsum) hpos
  · show ∑ j ∈ Finset.range a.k, w j = a.total
    calc ∑ j ∈ Finset.range a.k, w j
        = ∑ j ∈ Finset.range a.k, a.share exp maxS (st.expertIds j) / total * a.total :=
          Finset.sum_congr rfl fun j hj => hweight j (Finset.mem_range.mp hj)
      _ = total / total * a.total := by rw [← Finset.sum_mul, ← Finset.sum_div]
      _ = a.total := by rw [div_self hsum.ne', one_mul]
  · show w j = out.expertWeights j
    rw [hw, hweights j, if_neg (by omega)]

/-- Two of three experts, the best ones with equal scores. -/
theorem opMoeGate_selects_tie :
    Selects Real.exp ⟨fun i => if i = 0 then 5 else 7, 3, 2, 1, 2, none⟩ ⟨fun _ => 0, fun _ => 0⟩
      (opMoeGate Real.exp ⟨fun i => if i = 0 then 5 else 7, 3, 2, 1, 2, none⟩ 256 0 (fun _ => 0)
        (fun _ => 0) ⟨fun _ => 0, fun _ => 0⟩) := by
  refine opMoeGate_selects Real.exp Real.exp_pos _ (by decide) (by decide) (by decide)
    (fun i _ => ?_) (by decide) _ _ _
  show -(10 : ℝ) ^ 30 < if i = 0 then 5 else 7
  split_ifs <;> norm_num

end Braidinfer.Moe
