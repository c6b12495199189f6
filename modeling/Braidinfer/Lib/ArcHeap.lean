/-
A heap of reference-counted cells.

A handle is the index of its cell; cells are never removed, a cell whose count is `0` is
dead.  Each cell may own slots of some pool, read off its value by a function
`f : α → List ρ`; `owned f h` lists what the live cells own.

* `ArcHeap.Counts h holders`: the count of every cell is the number of its handles in the
  list `holders`, and every handle points into the heap;
* `Counts.new`, `Counts.clone`, `Counts.drop`, `Counts.update`: what each operation does to
  the list of handles;
* `owned_replace`: replacing one cell exchanges what it owns and leaves the rest alone;
  `owned_new`, `owned_clone`, `owned_drop_shared`, `owned_drop_last`, `owned_update` follow;
* `eq_of_owned`: where nothing is owned twice, a thing has one owner.
-/
import Mathlib.Data.List.Perm.Basic
import Mathlib.Data.List.Count
import Mathlib.Data.List.Nodup

namespace Braidinfer.Lib

/-- Replacing one element of a list exchanges its part of a `flatMap` and leaves the rest
alone. -/
lemma flatMap_set_perm {β ρ : Type*} (f : β → List ρ) {l : List β} {i : ℕ} {b : β}
    (hb : l[i]? = some b) :
    ∃ rest, (l.flatMap f).Perm (f b ++ rest) ∧
      ∀ b', ((l.set i b').flatMap f).Perm (f b' ++ rest) := by
  obtain ⟨hlt, rfl⟩ := List.getElem?_eq_some_iff.mp hb
  have hsplit : l = l.take i ++ l[i] :: l.drop (i + 1) := by
    rw [List.getElem_cons_drop, List.take_append_drop]
  refine ⟨(l.take i).flatMap f ++ (l.drop (i + 1)).flatMap f, ?_, fun b' => ?_⟩
  · conv_lhs => rw [hsplit]
    rw [List.flatMap_append, List.flatMap_cons]
    exact List.perm_append_comm_assoc _ _ _
  · rw [List.set_eq_take_append_cons_drop, if_pos hlt, List.flatMap_append, List.flatMap_cons]
    exact List.perm_append_comm_assoc _ _ _

/-- A reference-counted cell. -/
structure Cell (α : Type*) where
  val : α
  strong : ℕ
deriving DecidableEq, Repr

/-- A heap of reference-counted cells; the handle of a cell is its index. -/
structure ArcHeap (α : Type*) where
  cells : List (Cell α)
deriving DecidableEq, Repr

namespace ArcHeap

variable {α ρ : Type*}

/-- The empty heap. -/
def empty : ArcHeap α := ⟨[]⟩

/-- The value behind a handle. -/
def get? (h : ArcHeap α) (i : ℕ) : Option α := h.cells[i]?.map Cell.val

/-- The reference count of a cell. -/
def strongCount (h : ArcHeap α) (i : ℕ) : ℕ := (h.cells[i]?.map Cell.strong).getD 0

/-- A new cell with one handle, which is returned. -/
def new (h : ArcHeap α) (v : α) : ℕ × ArcHeap α :=
  (h.cells.length, ⟨h.cells ++ [⟨v, 1⟩]⟩)

/-- One more handle of cell `i`. -/
def clone (h : ArcHeap α) (i : ℕ) : ArcHeap α :=
  ⟨h.cells.modify i fun c => { c with strong := c.strong + 1 }⟩

/-- One handle of cell `i` less. -/
def drop (h : ArcHeap α) (i : ℕ) : ArcHeap α :=
  ⟨h.cells.modify i fun c => { c with strong := c.strong - 1 }⟩

/-- Change the value of cell `i` through a handle. -/
def update (h : ArcHeap α) (i : ℕ) (g : α → α) : ArcHeap α :=
  ⟨h.cells.modify i fun c => { c with val := g c.val }⟩

/-- What the live cells own. -/
def owned (f : α → List ρ) (h : ArcHeap α) : List ρ :=
  h.cells.flatMap fun c => if 0 < c.strong then f c.val else []

/-! ### Reading after an operation -/

variable {h : ArcHeap α} {i j : ℕ} {v : α} {g : α → α}

lemma cells_modify (h : ArcHeap α) (i : ℕ) (m : Cell α → Cell α) {c : Cell α}
    (hc : h.cells[i]? = some c) : h.cells.modify i m = h.cells.set i (m c) := by
  obtain ⟨hlt, rfl⟩ := List.getElem?_eq_some_iff.mp hc
  refine List.ext_getElem? fun k => ?_
  rw [List.getElem?_modify, List.getElem?_set]
  by_cases hk : i = k
  · subst hk
    simp [hlt]
  · simp [hk]

lemma strongCount_of_cell {c : Cell α} (hc : h.cells[i]? = some c) :
    h.strongCount i = c.strong := by
  simp [strongCount, hc]

lemma exists_cell_of_strongCount_pos (hpos : 0 < h.strongCount i) :
    ∃ c, h.cells[i]? = some c ∧ h.strongCount i = c.strong := by
  cases hc : h.cells[i]? with
  | none => simp [strongCount, hc] at hpos
  | some c => exact ⟨c, rfl, strongCount_of_cell hc⟩

@[simp] lemma new_fst : (h.new v).1 = h.cells.length := rfl

lemma get?_new : (h.new v).2.get? h.cells.length = some v := by
  simp [new, get?]

lemma get?_new_of_lt (hj : j < h.cells.length) : (h.new v).2.get? j = h.get? j := by
  simp [new, get?, List.getElem?_append_left hj]

@[simp] lemma get?_clone : (h.clone i).get? j = h.get? j := by
  simp only [clone, get?, List.getElem?_modify]
  by_cases hij : i = j <;> cases h.cells[j]? <;> simp [hij]

@[simp] lemma get?_drop : (h.drop i).get? j = h.get? j := by
  simp only [drop, get?, List.getElem?_modify]
  by_cases hij : i = j <;> cases h.cells[j]? <;> simp [hij]

lemma get?_update : (h.update i g).get? j = if i = j then (h.get? j).map g else h.get? j := by
  simp only [update, get?, List.getElem?_modify]
  by_cases hij : i = j <;> cases h.cells[j]? <;> simp [hij]

/-- Only what a write does to the value that is there counts. -/
lemma update_congr {g' : α → α} (hg : ∀ v, h.get? i = some v → g v = g' v) :
    h.update i g = h.update i g' := by
  refine congrArg ArcHeap.mk (List.ext_getElem? fun j => ?_)
  rw [List.getElem?_modify, List.getElem?_modify]
  by_cases hij : i = j
  · subst hij
    cases hc : h.cells[i]? with
    | none => rfl
    | some c => simp [hg c.val (by simp [get?, hc])]
  · simp [hij]

lemma strongCount_new :
    (h.new v).2.strongCount j = if j = h.cells.length then 1 else h.strongCount j := by
  simp only [new, strongCount]
  rcases Nat.lt_trichotomy j h.cells.length with hj | hj | hj
  · rw [List.getElem?_append_left hj, if_neg (by omega)]
  · subst hj
    simp
  · have h1 : h.cells[j]? = none := List.getElem?_eq_none (by omega)
    have h2 : (h.cells ++ [⟨v, 1⟩])[j]? = none := List.getElem?_eq_none (by simp; omega)
    rw [h1, h2, if_neg (by omega)]

lemma strongCount_clone (hi : i < h.cells.length) :
    (h.clone i).strongCount j = if i = j then h.strongCount j + 1 else h.strongCount j := by
  simp only [clone, strongCount, List.getElem?_modify]
  by_cases hij : i = j
  · subst hij
    simp [List.getElem?_eq_getElem hi]
  · simp [hij]

lemma strongCount_drop :
    (h.drop i).strongCount j = if i = j then h.strongCount j - 1 else h.strongCount j := by
  simp only [drop, strongCount, List.getElem?_modify]
  by_cases hij : i = j <;> cases h.cells[j]? <;> simp [hij]

@[simp] lemma strongCount_update : (h.update i g).strongCount j = h.strongCount j := by
  simp only [update, strongCount, List.getElem?_modify]
  by_cases hij : i = j <;> cases h.cells[j]? <;> simp [hij]

@[simp] lemma length_clone : (h.clone i).cells.length = h.cells.length := by simp [clone]

@[simp] lemma length_drop : (h.drop i).cells.length = h.cells.length := by simp [drop]

@[simp] lemma length_update : (h.update i g).cells.length = h.cells.length := by simp [update]

@[simp] lemma length_new : (h.new v).2.cells.length = h.cells.length + 1 := by simp [new]

/-! ### Counts and handles -/

/-- The count of every cell is the number of its handles among `holders`, and every handle
points into the heap. -/
structure Counts (h : ArcHeap α) (holders : List ℕ) : Prop where
  count : ∀ i, h.strongCount i = holders.count i
  lt : ∀ i ∈ holders, i < h.cells.length

namespace Counts

variable {hs hs' : List ℕ}

lemma empty : Counts (ArcHeap.empty : ArcHeap α) [] :=
  ⟨fun i => by simp [ArcHeap.empty, strongCount], by simp⟩

/-- Only the multiset of handles matters. -/
lemma perm (hc : h.Counts hs) (hp : hs.Perm hs') : h.Counts hs' :=
  ⟨fun i => by rw [hc.count, hp.count_eq], fun i hi => hc.lt i (hp.mem_iff.mpr hi)⟩

lemma strong_pos (hc : h.Counts hs) (hi : i ∈ hs) : 0 < h.strongCount i := by
  rw [hc.count]
  exact List.count_pos_iff.mpr hi

lemma exists_cell (hc : h.Counts hs) (hi : i ∈ hs) :
    ∃ c, h.cells[i]? = some c ∧ c.strong = hs.count i := by
  obtain ⟨c, hcell, hstrong⟩ := exists_cell_of_strongCount_pos (hc.strong_pos hi)
  exact ⟨c, hcell, by rw [← hstrong, hc.count]⟩

lemma new (hc : h.Counts hs) : (h.new v).2.Counts (h.cells.length :: hs) := by
  refine ⟨fun j => ?_, fun j hj => ?_⟩
  · rw [strongCount_new, List.count_cons, hc.count]
    by_cases hj : j = h.cells.length
    · subst hj
      have hfresh : hs.count h.cells.length = 0 :=
        List.count_eq_zero.mpr fun hmem => Nat.lt_irrefl _ (hc.lt _ hmem)
      simp [hfresh]
    · simp [hj, Ne.symm hj]
  · rw [length_new]
    rcases List.mem_cons.mp hj with rfl | hj
    · omega
    · exact Nat.lt_succ_of_lt (hc.lt j hj)

lemma clone (hc : h.Counts hs) (hi : i ∈ hs) : (h.clone i).Counts (i :: hs) := by
  refine ⟨fun j => ?_, fun j hj => ?_⟩
  · rw [strongCount_clone (hc.lt i hi), List.count_cons, hc.count]
    by_cases hij : i = j <;> simp [hij]
  · rw [length_clone]
    rcases List.mem_cons.mp hj with rfl | hj
    · exact hc.lt _ hi
    · exact hc.lt j hj

lemma drop (hc : h.Counts (i :: hs)) : (h.drop i).Counts hs := by
  refine ⟨fun j => ?_, fun j hj => ?_⟩
  · rw [strongCount_drop, hc.count, List.count_cons]
    by_cases hij : i = j <;> simp [hij]
  · rw [length_drop]
    exact hc.lt j (List.mem_cons_of_mem _ hj)

lemma update (hc : h.Counts hs) : (h.update i g).Counts hs :=
  ⟨fun j => by rw [strongCount_update, hc.count], fun j hj => by
    rw [length_update]; exact hc.lt j hj⟩

end Counts

/-! ### What the live cells own -/

section Owned

variable {f : α → List ρ} {c : Cell α}

/-- Replacing one cell exchanges what it owns and leaves the rest alone. -/
lemma owned_replace (f : α → List ρ) (hc : h.cells[i]? = some c) :
    ∃ rest, (owned f h).Perm ((if 0 < c.strong then f c.val else []) ++ rest) ∧
      ∀ m : Cell α → Cell α, (owned f ⟨h.cells.modify i m⟩).Perm
        ((if 0 < (m c).strong then f (m c).val else []) ++ rest) := by
  obtain ⟨rest, hold, hnew⟩ :=
    flatMap_set_perm (fun c : Cell α => if 0 < c.strong then f c.val else []) hc
  refine ⟨rest, hold, fun m => ?_⟩
  rw [cells_modify h i m hc, owned]
  exact hnew (m c)

lemma owned_new (f : α → List ρ) : owned f (h.new v).2 = owned f h ++ f v := by
  simp [owned, new]

lemma owned_clone (f : α → List ρ) (hpos : 0 < h.strongCount i) :
    (owned f (h.clone i)).Perm (owned f h) := by
  obtain ⟨c, hc, hs⟩ := exists_cell_of_strongCount_pos hpos
  obtain ⟨rest, hold, hnew⟩ := owned_replace f hc
  refine (hnew _).trans (List.Perm.trans ?_ hold.symm)
  rw [if_pos (Nat.succ_pos _), if_pos (hs ▸ hpos)]

/-- Dropping a handle of a shared cell releases nothing. -/
lemma owned_drop_shared (f : α → List ρ) (hs : 1 < h.strongCount i) :
    (owned f (h.drop i)).Perm (owned f h) := by
  obtain ⟨c, hc, hstrong⟩ := exists_cell_of_strongCount_pos (Nat.lt_of_succ_lt hs)
  obtain ⟨rest, hold, hnew⟩ := owned_replace f hc
  refine (hnew _).trans (List.Perm.trans ?_ hold.symm)
  rw [if_pos (show 0 < c.strong - 1 by omega), if_pos (show 0 < c.strong by omega)]

/-- Dropping the last handle of a cell gives up exactly what the cell owned. -/
lemma owned_drop_last (f : α → List ρ) (hs : h.strongCount i = 1) (hv : h.get? i = some v) :
    (owned f h).Perm (f v ++ owned f (h.drop i)) := by
  obtain ⟨c, hc, hstrong⟩ := exists_cell_of_strongCount_pos (h := h) (i := i) (by omega)
  obtain ⟨rest, hold, hnew⟩ := owned_replace f hc
  have hval : c.val = v := by simpa [get?, hc] using hv
  have hdrop := hnew fun c => { c with strong := c.strong - 1 }
  rw [if_neg (show ¬ 0 < c.strong - 1 by omega), List.nil_append] at hdrop
  rw [if_pos (show 0 < c.strong by omega), hval] at hold
  exact hold.trans (hdrop.symm.append_left _)

/-- Writing through a handle exchanges what the cell owned for what it owns now. -/
lemma owned_update (f : α → List ρ) (g : α → α) (hpos : 0 < h.strongCount i)
    (hv : h.get? i = some v) :
    ∃ rest, (owned f h).Perm (f v ++ rest) ∧
      (owned f (h.update i g)).Perm (f (g v) ++ rest) := by
  obtain ⟨c, hc, hstrong⟩ := exists_cell_of_strongCount_pos hpos
  obtain ⟨rest, hold, hnew⟩ := owned_replace f hc
  have hval : c.val = v := by simpa [get?, hc] using hv
  have hupd := hnew fun c => { c with val := g c.val }
  simp only [hval] at hold hupd
  rw [if_pos (show 0 < c.strong by omega)] at hold hupd
  exact ⟨rest, hold, hupd⟩

/-- What a live cell owns is owned. -/
lemma mem_owned {x : ρ} :
    x ∈ owned f h ↔ ∃ i v, h.get? i = some v ∧ 0 < h.strongCount i ∧ x ∈ f v := by
  rw [owned, List.mem_flatMap]
  constructor
  · rintro ⟨c, hmem, hx⟩
    obtain ⟨i, hc⟩ := List.mem_iff_getElem?.mp hmem
    split_ifs at hx with hpos
    · exact ⟨i, c.val, by simp [get?, hc], by rwa [strongCount_of_cell hc], hx⟩
    · cases hx
  · rintro ⟨i, v, hv, hpos, hx⟩
    obtain ⟨c, hc, hstrong⟩ := exists_cell_of_strongCount_pos hpos
    have hval : c.val = v := by simpa [get?, hc] using hv
    exact ⟨c, List.mem_of_getElem? hc, by rw [if_pos (hstrong ▸ hpos), hval]; exact hx⟩

/-- Two live cells that own one thing, where nothing is owned twice, are the same cell. -/
lemma eq_of_owned (hnd : (owned f h).Nodup) {x : ρ} {v w : α}
    (hi : h.get? i = some v) (hpi : 0 < h.strongCount i) (hxi : x ∈ f v)
    (hj : h.get? j = some w) (hpj : 0 < h.strongCount j) (hxj : x ∈ f w) : i = j := by
  obtain ⟨c, hc, hsc⟩ := exists_cell_of_strongCount_pos hpi
  obtain ⟨d, hd, hsd⟩ := exists_cell_of_strongCount_pos hpj
  have hcv : c.val = v := by simpa [get?, hc] using hi
  have hdw : d.val = w := by simpa [get?, hd] using hj
  obtain ⟨hilt, hcget⟩ := List.getElem?_eq_some_iff.mp hc
  obtain ⟨hjlt, hdget⟩ := List.getElem?_eq_some_iff.mp hd
  have hpair := List.pairwise_iff_getElem.mp (List.nodup_flatMap.mp hnd).2
  have hown : ∀ e : Cell α, e = c ∨ e = d →
      x ∈ (if 0 < e.strong then f e.val else []) := by
    rintro e (rfl | rfl)
    · rw [if_pos (hsc ▸ hpi), hcv]; exact hxi
    · rw [if_pos (hsd ▸ hpj), hdw]; exact hxj
  rcases Nat.lt_trichotomy i j with hlt | heq | hlt
  · exact (hpair i j hilt hjlt hlt (hown _ (.inl hcget)) (hown _ (.inr hdget))).elim
  · exact heq
  · exact (hpair j i hjlt hilt hlt (hown _ (.inr hdget)) (hown _ (.inl hcget))).elim

end Owned

end ArcHeap

end Braidinfer.Lib
