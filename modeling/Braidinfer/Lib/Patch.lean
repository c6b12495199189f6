/-
Patching a list in place through an index vector.

A program keeps the indices of the elements it patches in vectors of their own.  When such a
vector lists all elements of one kind, in order, patching through it is a map over these
elements, and the rest of the list can be forgotten.

* `indicesOf p l`: the indices of the elements that satisfy `p`;
* `filterMap_patchEnum`, `filterMap_patchPairs`: **patching through the indices of a kind**.
-/
import Mathlib.Data.List.Basic
import Mathlib.Data.List.Induction
import Mathlib.Tactic.Common

namespace Braidinfer.Lib

variable {α β : Type*}

/-- `for (k, &idx) in indices.iter().enumerate()`: patch the element at every index. -/
def patchEnum (f : ℕ → α → α) (indices : List ℕ) (l : List α) : List α :=
  indices.zipIdx.foldl (fun l (idx, k) => l.modify idx (f k)) l

/-- `for &idx in indices`: patch the element at every index. -/
def patchAll (f : α → α) (indices : List ℕ) (l : List α) : List α :=
  indices.foldl (fun l idx => l.modify idx f) l

/-- The indices of the elements that satisfy `p`. -/
def indicesOf (p : α → Bool) : List α → ℕ → List ℕ
  | [], _ => []
  | a :: l, i => if p a then i :: indicesOf p l (i + 1) else indicesOf p l (i + 1)

variable {p : α → Bool} {f : ℕ → α → α} {l l' : List α} {i n : ℕ}

/-! ### Indices -/

lemma pairwise_getElem? {R : α → α → Prop} (h : l.Pairwise R) {j k : ℕ} (hjk : j < k) {a b : α}
    (ha : l[j]? = some a) (hb : l[k]? = some b) : R a b := by
  obtain ⟨hj, rfl⟩ := List.getElem?_eq_some_iff.mp ha
  obtain ⟨hk, rfl⟩ := List.getElem?_eq_some_iff.mp hb
  exact List.pairwise_iff_getElem.mp h j k hj hk hjk

lemma indicesOf_append : indicesOf p (l ++ l') i = indicesOf p l i ++
    indicesOf p l' (i + l.length) := by
  induction l generalizing i with
  | nil => simp [indicesOf]
  | cons a l ih =>
      have harith : i + 1 + l.length = i + (a :: l).length := by
        rw [List.length_cons]
        omega
      by_cases ha : p a <;> simp [indicesOf, ha, ih, harith]

lemma lt_of_mem_indicesOf (h : n ∈ indicesOf p l i) : n < i + l.length := by
  induction l generalizing i with
  | nil => simp [indicesOf] at h
  | cons a l ih =>
      rw [indicesOf] at h
      rw [List.length_cons]
      split_ifs at h
      · rcases List.mem_cons.mp h with rfl | h
        · omega
        · have := ih h
          omega
      · have := ih h
        omega

lemma of_mem_indicesOf (h : n ∈ indicesOf p l i) : ∃ a, i ≤ n ∧ l[n - i]? = some a ∧ p a := by
  induction l generalizing i with
  | nil => simp [indicesOf] at h
  | cons a l ih =>
      have htail : n ∈ indicesOf p l (i + 1) → ∃ b, i ≤ n ∧ (a :: l)[n - i]? = some b ∧ p b := by
        intro h
        obtain ⟨b, hle, hb, hp⟩ := ih h
        refine ⟨b, by omega, ?_, hp⟩
        rw [show n - i = n - (i + 1) + 1 by omega, List.getElem?_cons_succ]
        exact hb
      rw [indicesOf] at h
      split_ifs at h with ha
      · rcases List.mem_cons.mp h with rfl | h
        · exact ⟨a, Nat.le_refl _, by simp, ha⟩
        · exact htail h
      · exact htail h

lemma indicesOf_eq_nil (h : ∀ a ∈ l, p a = false) : indicesOf p l i = [] := by
  induction l generalizing i with
  | nil => rfl
  | cons a l ih =>
      rw [indicesOf, if_neg (by simp [h a List.mem_cons_self])]
      exact ih fun b hb => h b (List.mem_cons_of_mem _ hb)

lemma length_indicesOf {as : α → Option β} :
    (indicesOf (fun a => (as a).isSome) l i).length = (l.filterMap as).length := by
  induction l generalizing i with
  | nil => rfl
  | cons a l ih => cases ha : as a <;> simp [indicesOf, ha, ih]

/-- A change that keeps the kind of every element keeps the indices. -/
lemma indicesOf_congr (hlen : l'.length = l.length)
    (h : ∀ (n : ℕ) a b, l[n]? = some a → l'[n]? = some b → p b = p a) :
    indicesOf p l' i = indicesOf p l i := by
  induction l generalizing l' i with
  | nil => rw [List.length_eq_zero_iff.mp hlen]
  | cons a l ih =>
      obtain ⟨b, t, rfl⟩ := List.exists_cons_of_length_eq_add_one hlen
      have hb : p b = p a := h 0 a b rfl rfl
      have ht : indicesOf p t (i + 1) = indicesOf p l (i + 1) := ih (by simpa using hlen)
        fun n x y hx hy => h (n + 1) x y (by simpa using hx) (by simpa using hy)
      rw [indicesOf, indicesOf, hb, ht]

lemma indicesOf_modify {g : α → α} (hg : ∀ a, p (g a) = p a) :
    indicesOf p (l.modify n g) i = indicesOf p l i := by
  refine indicesOf_congr (List.length_modify ..) fun k a b ha hb => ?_
  rw [List.getElem?_modify, ha] at hb
  obtain rfl := Option.some.inj hb
  dsimp only
  split_ifs
  · exact hg a
  · rfl

lemma filterMap_modify_of_same {as : α → Option β} {g : α → α} (hg : ∀ a, as (g a) = as a)
    (l : List α) (n : ℕ) : (l.modify n g).filterMap as = l.filterMap as := by
  induction l generalizing n with
  | nil => rw [List.modify_nil]
  | cons a l ih =>
      cases n with
      | zero => simp [List.filterMap_cons, hg]
      | succ n => rw [List.modify_succ_cons, List.filterMap_cons, ih, List.filterMap_cons]

/-! ### Patches -/

lemma patchAll_eq_patchEnum (g : α → α) (indices : List ℕ) :
    patchAll g indices l = patchEnum (fun _ => g) indices l := by
  rw [patchAll, patchEnum]
  conv_lhs => rw [← List.zipIdx_map_fst 0 indices, List.foldl_map]

/-- Patches below the end of `l` do not touch what follows it. -/
lemma patchEnum_append {indices : List ℕ} (h : ∀ n ∈ indices, n < l.length) :
    patchEnum f indices (l ++ l') = patchEnum f indices l ++ l' := by
  rw [patchEnum, patchEnum]
  have hfold : ∀ (es : List (ℕ × ℕ)) (l : List α), (∀ e ∈ es, e.1 < l.length) →
      es.foldl (fun l (e : ℕ × ℕ) => l.modify e.1 (f e.2)) (l ++ l') =
        es.foldl (fun l (e : ℕ × ℕ) => l.modify e.1 (f e.2)) l ++ l' := by
    intro es
    induction es with
    | nil => exact fun _ _ => rfl
    | cons e es ih =>
        intro l hes
        have he := hes e List.mem_cons_self
        rw [List.foldl_cons, List.foldl_cons, ← ih]
        · congr 1
          exact List.ext_getElem? fun k => by
            rw [List.getElem?_modify, List.getElem?_append, List.getElem?_append,
              List.length_modify, List.getElem?_modify]
            split_ifs <;> first | rfl | omega | simp_all
        · intro e' he'
          rw [List.length_modify]
          exact hes e' (List.mem_cons_of_mem _ he')
  exact hfold _ _ fun e he => h e.1 (List.fst_mem_of_mem_zipIdx he)

lemma length_patchEnum (indices : List ℕ) : (patchEnum f indices l).length = l.length := by
  rw [patchEnum]
  generalize indices.zipIdx = es
  induction es generalizing l with
  | nil => rfl
  | cons e es ih => rw [List.foldl_cons, ih, List.length_modify]

lemma patchEnum_concat (indices : List ℕ) (n : ℕ) :
    patchEnum f (indices ++ [n]) l = (patchEnum f indices l).modify n (f indices.length) := by
  rw [patchEnum, patchEnum, List.zipIdx_append, List.foldl_append]
  simp

lemma modify_concat (a : α) (g : α → α) : (l ++ [a]).modify l.length g = l ++ [g a] := by
  induction l with
  | nil => rfl
  | cons b l ih =>
      rw [List.cons_append, List.length_cons, List.modify_succ_cons, ih, List.cons_append]

/-- **Patching through the indices of a kind**: the elements of that kind, in order, are
patched with their numbers. -/
theorem filterMap_patchEnum {as : α → Option β} {g : ℕ → β → β}
    (has : ∀ k a b, as a = some b → as (f k a) = some (g k b)) (l : List α) :
    (patchEnum f (indicesOf (fun a => (as a).isSome) l 0) l).filterMap as =
      (l.filterMap as).mapIdx g := by
  induction l using List.reverseRec with
  | nil => rfl
  | append_singleton l a ih =>
      have hlt : ∀ n ∈ indicesOf (fun a => (as a).isSome) l 0, n < l.length := fun n hn => by
        simpa using lt_of_mem_indicesOf hn
      rw [indicesOf_append, List.filterMap_append]
      cases ha : as a with
      | none =>
          have hnil : indicesOf (fun a => (as a).isSome) [a] (0 + l.length) = [] := by
            simp [indicesOf, ha]
          rw [hnil, List.append_nil, patchEnum_append hlt, List.filterMap_append, ih]
          simp [ha]
      | some b =>
          have hone : indicesOf (fun a => (as a).isSome) [a] (0 + l.length) = [l.length] := by
            simp [indicesOf, ha]
          have hlen := length_patchEnum (f := f) (l := l)
            (indicesOf (fun a => (as a).isSome) l 0)
          rw [hone, patchEnum_concat, patchEnum_append hlt]
          conv_lhs => rw [← hlen, modify_concat, List.filterMap_append, ih, length_indicesOf]
          simp [has _ _ _ ha, ha]

/-- Patching the elements of a kind, each in its own way. -/
theorem filterMap_patchPairs {γ : Type*} {as : α → Option β} {f : γ → α → α} {g : γ → β → β}
    (has : ∀ c a b, as a = some b → as (f c a) = some (g c b)) {pairs : List (ℕ × γ)} (l : List α)
    (hidx : pairs.map Prod.fst = indicesOf (fun a => (as a).isSome) l 0) :
    (pairs.foldl (fun l e => l.modify e.1 (f e.2)) l).filterMap as =
      List.zipWith g (pairs.map Prod.snd) (l.filterMap as) := by
  set pick : ℕ → α → α := fun k a => ((pairs[k]?).map fun e => f e.2 a).getD a with hpick
  have hlen : pairs.length = (l.filterMap as).length := by
    rw [← length_indicesOf (i := 0), ← hidx, List.length_map]
  have henum : pairs.foldl (fun l e => l.modify e.1 (f e.2)) l =
      patchEnum pick (pairs.map Prod.fst) l := by
    have hzip : (pairs.map Prod.fst).zipIdx.map (fun e => (e.1, pick e.2)) =
        pairs.map fun e => (e.1, f e.2) := by
      refine List.ext_getElem? fun k => ?_
      rw [List.getElem?_map, List.getElem?_map, List.getElem?_zipIdx, List.getElem?_map]
      cases hk : pairs[k]? with
      | none => simp
      | some e => simp [hpick, hk]
    rw [patchEnum]
    calc pairs.foldl (fun l e => l.modify e.1 (f e.2)) l
        = (pairs.map fun e => (e.1, f e.2)).foldl (fun l e => l.modify e.1 e.2) l := by
          rw [List.foldl_map]
      _ = ((pairs.map Prod.fst).zipIdx.map fun e => (e.1, pick e.2)).foldl
            (fun l e => l.modify e.1 e.2) l := by rw [hzip]
      _ = (pairs.map Prod.fst).zipIdx.foldl (fun l e => l.modify e.1 (pick e.2)) l := by
          rw [List.foldl_map]
  set pick' : ℕ → β → β := fun k b => ((pairs[k]?).map fun e => g e.2 b).getD b with hpick'
  have has' : ∀ k a b, as a = some b → as (pick k a) = some (pick' k b) := by
    intro k a b hab
    cases hk : pairs[k]? with
    | none => simp [hpick, hpick', hk, hab]
    | some e => simp [hpick, hpick', hk, has _ _ _ hab]
  rw [henum, hidx, filterMap_patchEnum has']
  refine List.ext_getElem? fun k => ?_
  rw [List.getElem?_mapIdx, List.getElem?_zipWith, List.getElem?_map]
  cases hk : (l.filterMap as)[k]? with
  | none => cases pairs[k]? <;> simp
  | some b =>
      have hlt : k < pairs.length := hlen ▸ (List.getElem?_eq_some_iff.mp hk).1
      simp [hpick', List.getElem?_eq_getElem hlt]

/-- Patches of elements of a kind that keep it keep the indices. -/
lemma indicesOf_patchPairs {γ : Type*} {f : γ → α → α} (hf : ∀ c a, p a = true → p (f c a) = true)
    (pairs : List (ℕ × γ)) (l : List α) (hidx : ∀ e ∈ pairs, e.1 ∈ indicesOf p l 0) :
    indicesOf p (pairs.foldl (fun l e => l.modify e.1 (f e.2)) l) 0 = indicesOf p l 0 := by
  induction pairs generalizing l with
  | nil => rfl
  | cons e pairs ih =>
      have hone : indicesOf p (l.modify e.1 (f e.2)) 0 = indicesOf p l 0 := by
        refine indicesOf_congr (List.length_modify ..) fun k a b ha hb => ?_
        rw [List.getElem?_modify, ha] at hb
        obtain rfl := Option.some.inj hb
        dsimp only
        split_ifs with hk
        · obtain ⟨a', -, ha', hp⟩ := of_mem_indicesOf (hidx e List.mem_cons_self)
          rw [Nat.sub_zero, hk, ha] at ha'
          obtain rfl := Option.some.inj ha'
          rw [hp, hf _ _ hp]
        · rfl
      rw [List.foldl_cons, ih]
      · exact hone
      · intro e' he'
        rw [hone]
        exact hidx e' (List.mem_cons_of_mem _ he')

/-- Patches that elements of a kind do not show leave these as they are. -/
lemma filterMap_patchEnum_of_same {as : α → Option β} (has : ∀ k a, as (f k a) = as a)
    (indices : List ℕ) (l : List α) : (patchEnum f indices l).filterMap as = l.filterMap as := by
  rw [patchEnum]
  generalize indices.zipIdx = es
  induction es generalizing l with
  | nil => rfl
  | cons e es ih =>
      rw [List.foldl_cons, ih]
      exact filterMap_modify_of_same (has e.2) ..

/-- Patches that keep the kind of every element keep the indices. -/
lemma indicesOf_patchEnum (hf : ∀ k a, p (f k a) = p a) (indices : List ℕ) (l : List α) :
    indicesOf p (patchEnum f indices l) i = indicesOf p l i := by
  rw [patchEnum]
  generalize indices.zipIdx = es
  induction es generalizing l with
  | nil => rfl
  | cons e es ih => rw [List.foldl_cons, ih, indicesOf_modify (hf e.2)]

end Braidinfer.Lib
