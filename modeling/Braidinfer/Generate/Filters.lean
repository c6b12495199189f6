/-
The filters of `sample` in exact arithmetic (`sampling.rs`).

* `Sane`: logits without NaN and +∞, at least one of them a number;
* `adjust_sane`: the adjustments keep them so;
* `topK_sane`, `minP_sane`, `topP_sane`: each filter returns and leaves a token, if it finds one;
* `filters_sane`: **the three filters return sane logits**.
-/
import Braidinfer.Generate.Sampling
import Braidinfer.Lib.OnlineSoftmax

namespace Braidinfer.Generate

open Braidinfer.Lib

/-! ### Sane logits -/

section

variable {K : Type} {l l' l'' : List (Exact K)} {u v w : Exact K}

/-- A logit that is a number or −∞. -/
def Ranged (v : Exact K) : Prop := v = .negInf ∨ ∃ x, v = .fin x

/-- Logits without NaN and +∞, one of them a number. -/
structure Sane (l : List (Exact K)) : Prop where
  ranged : ∀ v ∈ l, Ranged v
  finite : ∃ x, .fin x ∈ l

/-- Both are −∞ or both are numbers. -/
def SameKind (v w : Exact K) : Prop :=
  (v = .negInf ∧ w = .negInf) ∨ ∃ x y, v = .fin x ∧ w = .fin y

lemma SameKind.of_ranged (h : Ranged v) : SameKind v v := by
  rcases h with rfl | ⟨x, rfl⟩
  · exact .inl ⟨rfl, rfl⟩
  · exact .inr ⟨x, x, rfl, rfl⟩

lemma SameKind.trans (h : SameKind u v) (h' : SameKind v w) : SameKind u w := by
  rcases h with ⟨rfl, rfl⟩ | ⟨x, y, rfl, rfl⟩
  · rcases h' with ⟨-, rfl⟩ | ⟨a, b, hab, -⟩
    · exact .inl ⟨rfl, rfl⟩
    · cases hab
  · rcases h' with ⟨hv, -⟩ | ⟨a, b, -, rfl⟩
    · cases hv
    · exact .inr ⟨x, b, rfl, rfl⟩

/-- Lists of the same kinds. -/
abbrev SameKinds : List (Exact K) → List (Exact K) → Prop := List.Forall₂ SameKind

lemma sameKinds_refl (h : ∀ v ∈ l, Ranged v) : SameKinds l l :=
  List.forall₂_same.mpr fun v hv => .of_ranged (h v hv)

lemma sameKinds_trans (h : SameKinds l l') (h' : SameKinds l' l'') : SameKinds l l'' := by
  induction h generalizing l'' with
  | nil => exact h'
  | cons hvw _ ih =>
      cases h' with
      | cons hw hrest => exact .cons (hvw.trans hw) (ih hrest)

lemma ranged_of_sameKinds (h : SameKinds l l') : ∀ v ∈ l', Ranged v := by
  induction h with
  | nil => exact fun v hv => by cases hv
  | cons hvw _ ih =>
      rw [List.forall_mem_cons]
      refine ⟨?_, ih⟩
      rcases hvw with ⟨-, rfl⟩ | ⟨x, y, -, rfl⟩
      · exact .inl rfl
      · exact .inr ⟨y, rfl⟩

lemma finite_of_sameKinds (h : SameKinds l l') (hl : ∃ x, .fin x ∈ l) : ∃ x, .fin x ∈ l' := by
  induction h with
  | nil => exact hl
  | cons hvw _ ih =>
      obtain ⟨x, hx⟩ := hl
      rcases List.mem_cons.mp hx with rfl | hx
      · rcases hvw with ⟨hneg, -⟩ | ⟨a, b, -, rfl⟩
        · cases hneg
        · exact ⟨b, List.mem_cons_self⟩
      · obtain ⟨y, hy⟩ := ih ⟨x, hx⟩
        exact ⟨y, List.mem_cons_of_mem _ hy⟩

lemma sane_of_sameKinds (h : SameKinds l l') (hl : Sane l) : Sane l' :=
  ⟨ranged_of_sameKinds h, finite_of_sameKinds h hl.finite⟩

/-- A change of one logit that keeps its kind. -/
lemma sameKinds_modify {f : Exact K → Exact K} (hf : ∀ v, Ranged v → SameKind v (f v)) :
    ∀ {l : List (Exact K)} (i : ℕ), (∀ v ∈ l, Ranged v) → SameKinds l (l.modify i f)
  | [], 0, _ => .nil
  | [], _ + 1, _ => .nil
  | v :: l, 0, h => .cons (hf v (h v (by simp))) (sameKinds_refl fun w hw => h w (by simp [hw]))
  | v :: l, i + 1, h =>
      .cons (.of_ranged (h v (by simp))) (sameKinds_modify hf i fun w hw => h w (by simp [hw]))

/-- One change after another. -/
lemma sameKinds_foldl {β : Type} {f : β → Exact K → Exact K} {index : β → ℕ}
    (hf : ∀ b v, Ranged v → SameKind v (f b v)) (bs : List β) :
    ∀ {l : List (Exact K)}, (∀ v ∈ l, Ranged v) →
      SameKinds l (bs.foldl (fun l b => l.modify (index b) (f b)) l) := by
  induction bs with
  | nil => exact fun h => sameKinds_refl h
  | cons b bs ih =>
      intro l h
      have hfirst := sameKinds_modify (hf b) (index b) h
      exact sameKinds_trans hfirst (ih (ranged_of_sameKinds hfirst))

end

/-! ### Adjusting -/

section

variable {K : Type} [Field K] [LinearOrder K] [IsStrictOrderedRing K] (exp : K → K)
  {l : List (Exact K)}

omit [IsStrictOrderedRing K] in
lemma addBias_kinds (biases : Option (List (UInt32 × K))) (h : ∀ v ∈ l, Ranged v) :
    SameKinds l (addBias (Exact.ops exp)
      (biases.map fun bs => bs.map fun b => (b.1, .fin b.2)) l) := by
  have hbias : ((biases.map fun bs => bs.map fun b => (b.1, Exact.fin b.2)).getD []) =
      (biases.getD []).map fun b => (b.1, Exact.fin b.2) := by
    cases biases with
    | none => rfl
    | some bs => rfl
  rw [addBias, hbias, List.foldl_map]
  refine sameKinds_foldl (fun b v hv => ?_) _ h
  rcases hv with rfl | ⟨x, rfl⟩
  · exact .inl ⟨rfl, rfl⟩
  · exact .inr ⟨x, x + b.2, rfl, rfl⟩

omit [IsStrictOrderedRing K] in
lemma penalty_kind {r : K} (hr : 0 < r) {v : Exact K} (hv : Ranged v) :
    SameKind v (penalty (Exact.ops exp) (.fin r) v) := by
  rcases hv with rfl | ⟨x, rfl⟩
  · refine .inl ⟨rfl, ?_⟩
    rw [penalty, Exact.ops_zero, Exact.lt_fin_negInf, if_neg Bool.false_ne_true,
      Exact.mul_negInf exp hr]
  · rw [penalty, Exact.ops_zero, Exact.lt_fin]
    split
    · exact .inr ⟨x, x / r, rfl, Exact.div_fin exp x hr⟩
    · exact .inr ⟨x, x * r, rfl, Exact.mul_fin exp x r⟩

omit [IsStrictOrderedRing K] in
lemma penalize_kinds {r : K} (hr : 0 < r) (history : List UInt32) (h : ∀ v ∈ l, Ranged v) :
    SameKinds l (penalize (Exact.ops exp) (.fin r) history l) := by
  rw [penalize]
  split
  · exact sameKinds_refl h
  · exact sameKinds_foldl (fun _ v hv => penalty_kind exp hr hv) history h

omit [IsStrictOrderedRing K] in
lemma scale_kinds {t : K} (ht : 0 < t) (h : ∀ v ∈ l, Ranged v) :
    SameKinds l (scale (Exact.ops exp) (.fin t) l) := by
  rw [scale]
  refine List.forall₂_map_right_iff.mpr (List.forall₂_same.mpr fun v hv => ?_)
  rcases h v hv with rfl | ⟨x, rfl⟩
  · exact .inl ⟨rfl, Exact.div_negInf exp ht⟩
  · exact .inr ⟨x, x / t, rfl, Exact.div_fin exp x ht⟩

end

/-! ### Parameters -/

/-- The parameters with numbers for floats. -/
def SamplingParams.exact {K : Type} (params : SamplingParams K) : SamplingParams (Exact K) where
  temperature := .fin params.temperature
  topK := params.topK
  topP := .fin params.topP
  repetitionPenalty := .fin params.repetitionPenalty
  minP := .fin params.minP
  logitBias := params.logitBias.map fun bs => bs.map fun b => (b.1, .fin b.2)

/-- Parameters of sampling. -/
structure SamplingParams.Legal {K : Type} [Field K] [LinearOrder K] (params : SamplingParams K) :
    Prop where
  temperature : 0 < params.temperature
  repetitionPenalty : 0 < params.repetitionPenalty
  minP_nonneg : 0 ≤ params.minP
  minP_le : params.minP ≤ 1
  topP_pos : 0 < params.topP
  topP_le : params.topP ≤ 1

section

variable {K : Type} [Field K] [LinearOrder K] [IsStrictOrderedRing K] {exp : K → K}
  {params : SamplingParams K} {l : List (Exact K)}

omit [IsStrictOrderedRing K] in
/-- The adjustments keep every logit a number or −∞, as it was. -/
lemma adjust_kinds (hparams : params.Legal) (history : List UInt32) (h : ∀ v ∈ l, Ranged v) :
    SameKinds l (adjust (Exact.ops exp) params.exact history l) := by
  have hbias := addBias_kinds exp params.logitBias h
  have hpenalty := penalize_kinds exp hparams.repetitionPenalty history
    (ranged_of_sameKinds hbias)
  have hscale := scale_kinds exp hparams.temperature (ranged_of_sameKinds hpenalty)
  exact sameKinds_trans hbias (sameKinds_trans hpenalty hscale)

omit [IsStrictOrderedRing K] in
lemma adjust_sane (exp : K → K) (hparams : params.Legal) (history : List UInt32) (h : Sane l) :
    Sane (adjust (Exact.ops exp) params.exact history l) :=
  sane_of_sameKinds (adjust_kinds hparams history h.ranged) h

end

/-! ### Filtering -/

section

variable {α : Type} {ops : FloatOps α}

lemma getElem?_filterOut_of_notMem {out : List ℕ} {l : List α} {i : ℕ} (h : i ∉ out) :
    (filterOut ops out l)[i]? = l[i]? := by
  induction out generalizing l with
  | nil => rfl
  | cons j out ih =>
      rw [List.mem_cons, not_or] at h
      rw [filterOut, List.foldl_cons, ← filterOut, ih h.2, List.getElem?_set_ne (Ne.symm h.1)]

/-- The logits that a filter makes of others: some of them are −∞ now. -/
abbrev Thinned (ops : FloatOps α) : List α → List α → Prop :=
  List.Forall₂ fun v w => w = v ∨ w = ops.negInf

lemma thinned_refl (l : List α) : Thinned ops l l := List.forall₂_same.mpr fun _ _ => .inl rfl

lemma thinned_trans {l l' l'' : List α} (h : Thinned ops l l') (h' : Thinned ops l' l'') :
    Thinned ops l l'' := by
  induction h generalizing l'' with
  | nil => exact h'
  | cons hvw _ ih =>
      cases h' with
      | cons hw hrest =>
          refine .cons ?_ (ih hrest)
          rcases hw with rfl | rfl
          · exact hvw
          · exact .inr rfl

lemma thinned_set : ∀ (l : List α) (i : ℕ), Thinned ops l (l.set i ops.negInf)
  | [], _ => .nil
  | _ :: l, 0 => .cons (.inr rfl) (thinned_refl l)
  | _ :: l, i + 1 => .cons (.inl rfl) (thinned_set l i)

lemma filterOut_thinned (out : List ℕ) (l : List α) : Thinned ops l (filterOut ops out l) := by
  induction out generalizing l with
  | nil => exact thinned_refl l
  | cons i out ih => exact thinned_trans (thinned_set l i) (ih _)

/-- **A filter only takes tokens out.** -/
lemma filters_thinned {sort : UnstableSort} {params : SamplingParams α} {l l' : List α}
    (h : filters ops sort params l = some l') : Thinned ops l l' := by
  have hfirst : ∀ {k : ℕ} {l l' : List α}, topK ops sort k l = some l' → Thinned ops l l' := by
    intro k l l' h
    rw [topK] at h
    split at h
    · obtain ⟨indices, -, h⟩ := Option.bind_eq_some_iff.mp h
      obtain rfl := Option.some.inj h
      exact filterOut_thinned _ _
    · obtain rfl := Option.some.inj h
      exact thinned_refl l
  have hsecond : ∀ (p : α) (l : List α), Thinned ops l (minP ops p l) := by
    intro p l
    rw [minP]
    split
    · refine List.forall₂_map_right_iff.mpr (List.forall₂_same.mpr fun v _ => ?_)
      split
      · exact .inr rfl
      · exact .inl rfl
    · exact thinned_refl l
  have hthird : ∀ {p : α} {l l' : List α}, topP ops sort p l = some l' → Thinned ops l l' := by
    intro p l l' h
    rw [topP] at h
    split at h
    · obtain ⟨indexed, -, h⟩ := Option.bind_eq_some_iff.mp h
      obtain ⟨first, -, h⟩ := Option.bind_eq_some_iff.mp h
      obtain rfl := Option.some.inj h
      exact filterOut_thinned _ _
    · obtain rfl := Option.some.inj h
      exact thinned_refl l
  obtain ⟨byK, hbyK, h⟩ := Option.bind_eq_some_iff.mp h
  exact thinned_trans (hfirst hbyK) (thinned_trans (hsecond _ _) (hthird h))

end

section

variable {K : Type} [Field K] [LinearOrder K] {exp : K → K} {sort : UnstableSort}
  {l l' : List (Exact K)}

lemma filterOut_ranged (out : List ℕ) (h : ∀ v ∈ l, Ranged v) :
    ∀ v ∈ filterOut (Exact.ops exp) out l, Ranged v := by
  induction out generalizing l with
  | nil => exact h
  | cons i out ih =>
      refine ih fun v hv => ?_
      rcases List.mem_or_eq_of_mem_set hv with hv | rfl
      · exact h v hv
      · exact .inl rfl

/-- Filtering leaves sane logits if it leaves a number. -/
lemma filterOut_sane {out : List ℕ} {i : ℕ} {x : K} (h : ∀ v ∈ l, Ranged v)
    (hi : l[i]? = some (.fin x)) (hout : i ∉ out) : Sane (filterOut (Exact.ops exp) out l) := by
  refine ⟨filterOut_ranged out h, x, List.mem_of_getElem? (i := i) ?_⟩
  rw [getElem?_filterOut_of_notMem hout, hi]

/-- The order of two logits by size. -/
lemma falling_ne_gt {v w : Exact K} (hv : Ranged v) (hw : Ranged w) :
    falling (Exact.ops exp) v w ≠ .gt ↔
      w = .negInf ∨ ∃ x y, v = .fin x ∧ w = .fin y ∧ y ≤ x := by
  have hcompare : falling (Exact.ops exp) v w = (Exact.partialCmp w v).getD .eq := rfl
  rw [hcompare]
  rcases hv with rfl | ⟨x, rfl⟩
  · rcases hw with rfl | ⟨y, rfl⟩
    · simp [Exact.partialCmp]
    · simp [Exact.partialCmp]
  · rcases hw with rfl | ⟨y, rfl⟩
    · simp [Exact.partialCmp]
    · simp [Exact.partialCmp, compare_gt_iff_gt]

/-- Logits that are numbers or −∞ can be sorted by size. -/
lemma sorts_falling {β : Type} (exp : K → K) (key : β → Exact K) (sort : UnstableSort) (bs : List β)
    (h : ∀ b ∈ bs, Ranged (key b)) :
    ∃ bs', sort.run (fun a b => falling (Exact.ops exp) (key a) (key b)) bs = some bs' ∧
      bs'.Pairwise fun a b => falling (Exact.ops exp) (key a) (key b) ≠ .gt := by
  refine sort.sorts bs (fun a ha b hb => ?_) fun a ha b hb c hc hab hbc => ?_
  · rw [falling_ne_gt (h a ha) (h b hb), falling_ne_gt (h b hb) (h a ha)]
    rcases h a ha with hneg | ⟨x, hx⟩
    · exact .inr (.inl hneg)
    · rcases h b hb with hneg | ⟨y, hy⟩
      · exact .inl (.inl hneg)
      · rcases le_total y x with hyx | hxy
        · exact .inl (.inr ⟨x, y, hx, hy, hyx⟩)
        · exact .inr (.inr ⟨y, x, hy, hx, hxy⟩)
  · rw [falling_ne_gt (h a ha) (h b hb)] at hab
    rw [falling_ne_gt (h b hb) (h c hc)] at hbc
    rw [falling_ne_gt (h a ha) (h c hc)]
    rcases hbc with hneg | ⟨y, z, hy, hz, hzy⟩
    · exact .inl hneg
    · rcases hab with hneg | ⟨x, y', hx, hy', hyx⟩
      · rw [hneg] at hy
        cases hy
      · rw [hy'] at hy
        cases hy
        exact .inr ⟨x, z, hx, hz, hzy.trans hyx⟩

omit [Field K] [LinearOrder K] in
lemma getD_ranged (h : ∀ v ∈ l, Ranged v) (i : ℕ) : Ranged (l.getD i .negInf) := by
  rw [List.getD_eq_getElem?_getD]
  cases hi : l[i]? with
  | none => exact .inl rfl
  | some v => exact h v (List.mem_of_getElem? hi)

/-- **Top-k filtering** leaves the largest logit. -/
lemma topK_sane (exp : K → K) (sort : UnstableSort) (k : ℕ) (h : Sane l) :
    ∃ l', topK (Exact.ops exp) sort k l = some l' ∧ Sane l' := by
  rw [topK]
  split
  · rename_i hk
    obtain ⟨indices, hrun, hsorted⟩ := sorts_falling exp
      (fun i => l.getD i (Exact.ops exp).negInf) sort (List.range l.length)
      fun i _ => getD_ranged h.ranged i
    have hperm := sort.perm hrun
    refine ⟨_, by rw [hrun]; rfl, ?_⟩
    obtain ⟨first, rest, rfl⟩ : ∃ first rest, indices = first :: rest := by
      refine List.exists_cons_of_ne_nil fun hnil => ?_
      rw [hnil] at hperm
      exact absurd hperm.length_eq (by simp; omega)
    have hnodup : (first :: rest).Nodup := hperm.nodup_iff.mpr List.nodup_range
    have hfirst : ∃ y, l[first]? = some (.fin y) := by
      obtain ⟨x, hx⟩ := h.finite
      obtain ⟨j, hj⟩ := List.getElem?_of_mem hx
      have hjlt : j < l.length := (List.getElem?_eq_some_iff.mp hj).1
      rcases List.mem_cons.mp (hperm.mem_iff.mpr (List.mem_range.mpr hjlt)) with rfl | hrest
      · exact ⟨x, hj⟩
      · -- the first index is in front of `j`, whose logit is a number
        have hfall := (List.pairwise_cons.mp hsorted).1 j hrest
        rw [Exact.ops_negInf, falling_ne_gt (getD_ranged h.ranged first)
          (getD_ranged h.ranged j)] at hfall
        simp only [List.getD_eq_getElem?_getD, hj, Option.getD_some] at hfall
        rcases hfall with hneg | ⟨y, -, hy, -, -⟩
        · cases hneg
        · cases hl : l[first]? with
          | none =>
              rw [hl] at hy
              cases hy
          | some v =>
              rw [hl, Option.getD_some] at hy
              exact ⟨y, by rw [hy]⟩
    obtain ⟨y, hy⟩ := hfirst
    refine filterOut_sane h.ranged hy fun hmem => ?_
    obtain ⟨k, rfl⟩ := Nat.exists_eq_add_of_lt hk.1
    rw [Nat.zero_add, List.drop_succ_cons] at hmem
    exact (List.nodup_cons.mp hnodup).1 (List.mem_of_mem_drop hmem)
  · exact ⟨l, rfl, h⟩

lemma foldl_max (exp : K → K) (h : ∀ v ∈ l, Ranged v) (c : K) :
    ∃ m, l.foldl (Exact.ops exp).max (.fin c) = .fin m ∧ (m = c ∨ .fin m ∈ l) ∧ c ≤ m ∧
      ∀ x, .fin x ∈ l → x ≤ m := by
  induction l generalizing c with
  | nil => exact ⟨c, rfl, .inl rfl, le_rfl, fun x hx => by cases hx⟩
  | cons v l ih =>
      rw [List.forall_mem_cons] at h
      rcases h.1 with rfl | ⟨y, rfl⟩
      · obtain ⟨m, hm, hmem, hle, hall⟩ := ih h.2 c
        exact ⟨m, hm, hmem.imp_right (List.mem_cons_of_mem _), hle,
          fun x hx => hall x (by simpa using hx)⟩
      · obtain ⟨m, hm, hmem, hle, hall⟩ := ih h.2 (max c y)
        refine ⟨m, hm, ?_, (le_max_left c y).trans hle, fun x hx => ?_⟩
        · rcases hmem with rfl | hmem
          · rcases max_choice c y with hmax | hmax
            · exact .inl hmax
            · exact .inr (by rw [hmax]; exact List.mem_cons_self)
          · exact .inr (List.mem_cons_of_mem _ hmem)
        · rcases List.mem_cons.mp hx with heq | hx
          · cases heq
            exact (le_max_right c y).trans hle
          · exact hall x hx

/-- The largest of sane logits is one of them. -/
lemma maximum_eq (exp : K → K) (h : Sane l) :
    ∃ m, (Exact.ops exp).maximum l = .fin m ∧ .fin m ∈ l ∧ ∀ x, .fin x ∈ l → x ≤ m := by
  obtain ⟨hranged, hfinite⟩ := h
  induction l with
  | nil =>
      obtain ⟨x, hx⟩ := hfinite
      cases hx
  | cons v l ih =>
      rw [List.forall_mem_cons] at hranged
      rcases hranged.1 with rfl | ⟨y, rfl⟩
      · obtain ⟨m, hm, hmem, hall⟩ := ih hranged.2 (by simpa using hfinite)
        exact ⟨m, hm, List.mem_cons_of_mem _ hmem, fun x hx => hall x (by simpa using hx)⟩
      · obtain ⟨m, hm, hmem, hle, hall⟩ := foldl_max exp hranged.2 y
        refine ⟨m, hm, ?_, fun x hx => ?_⟩
        · rcases hmem with rfl | hmem
          · exact List.mem_cons_self
          · exact List.mem_cons_of_mem _ hmem
        · rcases List.mem_cons.mp hx with heq | hx
          · cases heq
            exact hle
          · exact hall x hx

/-- **Min-p filtering** leaves the largest logit. -/
lemma minP_sane (hexp : ExpLaws exp) {p : K} (hp : p ≤ 1) (h : Sane l) :
    Sane (minP (Exact.ops exp) (.fin p) l) := by
  rw [minP]
  split
  · obtain ⟨m, hm, hmem, -⟩ := maximum_eq exp h
    have hthreshold : (Exact.ops exp).mul (.fin p)
        ((Exact.ops exp).exp ((Exact.ops exp).sub (.fin m) (.fin m))) = .fin p := by
      rw [Exact.sub_fin, sub_self, Exact.exp_fin, hexp.zero, Exact.mul_fin, mul_one]
    simp only [hm, hthreshold]
    constructor
    · intro v hv
      obtain ⟨w, hw, rfl⟩ := List.mem_map.mp hv
      split
      · exact .inl rfl
      · exact h.ranged w hw
    · refine ⟨m, List.mem_map.mpr ⟨.fin m, hmem, if_neg ?_⟩⟩
      rw [Exact.sub_fin, sub_self, Exact.exp_fin, hexp.zero, Exact.lt_fin,
        decide_eq_false hp.not_gt,
        Bool.and_false]
      exact Bool.false_ne_true
  · exact h

omit [LinearOrder K] [Field K] in
lemma le_cutoff {α : Type} (ops : FloatOps α) (p : α) (probs : List α) :
    ∀ c i, i ≤ cutoff ops p c i probs := by
  induction probs with
  | nil => exact fun c i => le_rfl
  | cons prob probs ih =>
      intro c i
      rw [cutoff]
      split
      · exact Nat.le_succ i
      · exact (Nat.le_succ i).trans (ih _ _)

omit [LinearOrder K] [Field K] in
/-- At least one token is left in front of the cut. -/
lemma lt_cutoff {α : Type} (ops : FloatOps α) (p c prob : α) (probs : List α) (i : ℕ) :
    i < cutoff ops p c i (prob :: probs) := by
  rw [cutoff]
  split
  · exact Nat.lt_succ_self i
  · exact le_cutoff ops p probs _ _

/-- **Top-p filtering** leaves the first of the sorted tokens. -/
lemma topP_sane (exp : K → K) (sort : UnstableSort) (p : K) (h : Sane l) :
    ∃ l', topP (Exact.ops exp) sort (.fin p) l = some l' ∧ Sane l' := by
  rw [topP]
  split
  · set left := l.zipIdx.filter fun v => (Exact.ops exp).lt (Exact.ops exp).negInf v.1 with hleft
    have hget : ∀ v ∈ left, l[v.2]? = some v.1 ∧ ∃ x, v.1 = .fin x := by
      intro v hv
      rw [hleft, List.mem_filter] at hv
      have hidx := List.mk_mem_zipIdx_iff_getElem?.mp hv.1
      refine ⟨hidx, ?_⟩
      rcases h.ranged v.1 (List.mem_of_getElem? hidx) with hneg | hfin
      · rw [hneg, Exact.ops_negInf, Exact.lt_negInf] at hv
        exact absurd hv.2 Bool.false_ne_true
      · exact hfin
    have hnodup : (left.map Prod.snd).Nodup := by
      have hsub : (left.map Prod.snd).Sublist (l.zipIdx.map Prod.snd) :=
        List.Sublist.map _ List.filter_sublist
      refine hsub.nodup ?_
      rw [List.zipIdx_map_snd]
      exact List.nodup_range'
    have hne : left ≠ [] := by
      obtain ⟨x, hx⟩ := h.finite
      obtain ⟨j, hj⟩ := List.getElem?_of_mem hx
      have hmem : (Exact.fin x, j) ∈ left := by
        rw [hleft, List.mem_filter]
        exact ⟨List.mk_mem_zipIdx_iff_getElem?.mpr hj, rfl⟩
      exact List.ne_nil_of_mem hmem
    obtain ⟨indexed, hrun, -⟩ := sorts_falling exp Prod.fst sort left fun v hv => by
      obtain ⟨-, x, hx⟩ := hget v hv
      exact .inr ⟨x, hx⟩
    have hperm := sort.perm hrun
    obtain ⟨first, rest, rfl⟩ : ∃ first rest, indexed = first :: rest := by
      refine List.exists_cons_of_ne_nil fun hnil => hne ?_
      rw [hnil] at hperm
      exact hperm.nil_eq.symm
    refine ⟨_, by rw [hrun]; rfl, ?_⟩
    obtain ⟨hfirst, x, hx⟩ := hget first (hperm.mem_iff.mp List.mem_cons_self)
    rw [hx] at hfirst
    refine filterOut_sane h.ranged hfirst fun hmem => ?_
    -- the cut is behind the first token, and no index is there twice
    have hcut : 0 < cutoff (Exact.ops exp) (.fin p) (Exact.ops exp).zero 0
        (normalize (Exact.ops exp) first.1 ((first :: rest).map Prod.fst)) := lt_cutoff _ _ _ _ _ 0
    obtain ⟨n, hn⟩ := Nat.exists_eq_add_of_lt hcut
    rw [hn, Nat.zero_add, List.drop_succ_cons] at hmem
    have hnotmem := (hperm.map Prod.snd).nodup_iff.mpr hnodup
    rw [List.map_cons, List.nodup_cons] at hnotmem
    obtain ⟨v, hv, heq⟩ := List.mem_map.mp hmem
    exact hnotmem.1 (List.mem_map.mpr ⟨v, List.mem_of_mem_drop hv, heq⟩)
  · exact ⟨l, rfl, h⟩

/-- **The filters of `sample`** return, and leave a token. -/
lemma filters_sane (hexp : ExpLaws exp) (sort : UnstableSort) {params : SamplingParams K}
    (hparams : params.Legal) (h : Sane l) :
    ∃ filtered, filters (Exact.ops exp) sort params.exact l = some filtered ∧ Sane filtered := by
  obtain ⟨byK, hbyK, hsaneK⟩ := topK_sane exp sort params.topK h
  obtain ⟨filtered, hfiltered, hsane⟩ := topP_sane exp sort params.topP
    (minP_sane hexp hparams.minP_le hsaneK)
  refine ⟨filtered, ?_, hsane⟩
  rw [filters]
  change (topK (Exact.ops exp) sort params.topK l).bind _ = _
  rw [hbyK]
  exact hfiltered

end

end Braidinfer.Generate
