/-
Memory of named blocks, read and written by rows.

A kernel that works on a matrix reads a row of a block and writes a row of a block.  Its effect is
one `setRows`: rows outside and blocks beside it stay.

* `setRows_apply`: a row that was written;
* `setRows_of_ne`, `setRows_of_notMem`: the frame;
* `applyStores`: single stores at raw addresses, in order (`applyStores_of_mem`,
  `applyStores_of_forall`, `applyStores_of_notMem`, `applyStores_map`);
* `copyRange`: a range of addresses copied from another memory (`copyRange_add`,
  `copyRange_of_notMem`).
-/
import Braidinfer.Lib.RowMajor
import Mathlib.Data.List.Nodup
import Mathlib.Data.List.Perm.Basic
import Mathlib.Logic.Function.Basic

namespace Braidinfer.Lib

/-! ### Rows of blocks -/

/-- A memory: what every block holds at every offset. -/
abbrev RowMem (B V : Type*) := B → ℕ → V

namespace RowMem

variable {B V : Type*}

/-- Row `r` of the rows of length `len` that start at offset `off` of block `b`. -/
def row (m : RowMem B V) (b : B) (off len r : ℕ) : Fin len → V := fun i => m b (off + (r * len + i))

variable [DecidableEq B]

/-- Write `n` rows of length `len` from offset `off` of block `b` on. -/
def setRows (m : RowMem B V) (b : B) (off n len : ℕ) (f : ℕ → Fin len → V) : RowMem B V :=
  fun b' j =>
    if h : b' = b ∧ off ≤ j ∧ j < off + n * len then
      f ((j - off) / len) ⟨(j - off) % len, Nat.mod_lt _ (Nat.pos_of_ne_zero fun h0 => by
        rw [h0, Nat.mul_zero, Nat.add_zero] at h
        omega)⟩
    else m b' j

variable {m : RowMem B V} {b b' : B} {off n len : ℕ} {f : ℕ → Fin len → V}

/-- A float of a row that was written. -/
lemma setRows_apply {r : ℕ} (hr : r < n) (i : Fin len) :
    setRows m b off n len f b (off + (r * len + i)) = f r i := by
  have hlt : r * len + i < n * len := rowMajor_lt hr i.isLt
  rw [setRows, dif_pos ⟨rfl, Nat.le_add_right _ _, Nat.add_lt_add_left hlt _⟩]
  simp only [Nat.add_sub_cancel_left, rowMajor_div i.isLt, rowMajor_mod i.isLt]

/-- A row that was written. -/
lemma row_setRows {r : ℕ} (hr : r < n) : row (setRows m b off n len f) b off len r = f r :=
  funext fun i => setRows_apply hr i

/-- Other blocks stay. -/
lemma setRows_of_ne (h : b' ≠ b) : setRows m b off n len f b' = m b' := by
  funext j
  rw [setRows, dif_neg fun hb => h hb.1]

/-- What lies outside the written range stays. -/
lemma setRows_of_notMem {j : ℕ} (h : ¬ (off ≤ j ∧ j < off + n * len)) :
    setRows m b off n len f b' j = m b' j := by
  rw [setRows, dif_neg fun hb => h hb.2]

end RowMem

/-! ### Single stores -/

section Stores

variable {A V : Type*} [DecidableEq A]

/-- Stores at raw addresses, in order. -/
def applyStores (m : A → V) (stores : List (A × V)) : A → V :=
  stores.foldl (fun m s => Function.update m s.1 s.2) m

variable {m : A → V} {stores stores' : List (A × V)} {a : A} {v : V}

lemma applyStores_append :
    applyStores m (stores ++ stores') = applyStores (applyStores m stores) stores' :=
  List.foldl_append

/-- An address that is not stored to. -/
lemma applyStores_of_notMem (h : a ∉ stores.map Prod.fst) : applyStores m stores a = m a := by
  induction stores generalizing m with
  | nil => rfl
  | cons s stores ih =>
      rw [List.map_cons, List.mem_cons, not_or] at h
      rw [applyStores, List.foldl_cons, ← applyStores, ih h.2, Function.update_of_ne h.1]

/-- An address that is stored to once. -/
lemma applyStores_of_mem (hnd : (stores.map Prod.fst).Nodup) (h : (a, v) ∈ stores) :
    applyStores m stores a = v := by
  induction stores generalizing m with
  | nil => cases h
  | cons s stores ih =>
      rw [List.map_cons, List.nodup_cons] at hnd
      rw [applyStores, List.foldl_cons, ← applyStores]
      rcases List.mem_cons.mp h with rfl | h
      · rw [applyStores_of_notMem hnd.1, Function.update_self]
      · exact ih hnd.2 h

/-- An address at which every store stores the same. -/
lemma applyStores_of_forall (h : (a, v) ∈ stores) (hall : ∀ s ∈ stores, s.1 = a → s.2 = v) :
    applyStores m stores a = v := by
  induction stores generalizing m with
  | nil => cases h
  | cons s stores ih =>
      rw [applyStores, List.foldl_cons, ← applyStores]
      by_cases hmem : a ∈ stores.map Prod.fst
      · obtain ⟨⟨a', w⟩, hw, rfl⟩ := List.mem_map.mp hmem
        obtain rfl : w = v := hall _ (List.mem_cons_of_mem _ hw) rfl
        exact ih hw fun s' hs' => hall s' (List.mem_cons_of_mem _ hs')
      · rw [applyStores_of_notMem hmem]
        rcases List.mem_cons.mp h with rfl | h
        · rw [Function.update_self]
        · exact absurd (List.mem_map.mpr ⟨_, h, rfl⟩) hmem

/-- Stores whose values depend on their addresses only. -/
lemma applyStores_map (l : List A) (g : A → V) (a : A) :
    applyStores m (l.map fun i => (i, g i)) a = if a ∈ l then g a else m a := by
  split_ifs with h
  · refine applyStores_of_forall (List.mem_map.mpr ⟨a, h, rfl⟩) fun s hs heq => ?_
    obtain ⟨i, -, rfl⟩ := List.mem_map.mp hs
    exact congrArg g heq
  · refine applyStores_of_notMem fun hmem => h ?_
    rw [List.map_map] at hmem
    obtain ⟨i, hi, rfl⟩ := List.mem_map.mp hmem
    exact hi

/-- Stores relative to a base address. -/
lemma applyStores_shift {m : ℕ → V} {stores : List (ℕ × V)} (base off : ℕ) :
    applyStores m (stores.map fun s => (base + s.1, s.2)) (base + off) =
      applyStores (fun o => m (base + o)) stores off := by
  induction stores generalizing m with
  | nil => rfl
  | cons s stores ih =>
      rw [List.map_cons, applyStores, List.foldl_cons, ← applyStores, ih, applyStores,
        applyStores, List.foldl_cons]
      refine congrFun (congrArg (fun m => List.foldl _ m stores) ?_) off
      funext o
      by_cases ho : o = s.1
      · rw [ho, Function.update_self, Function.update_self]
      · rw [Function.update_of_ne ho, Function.update_of_ne fun h => ho (Nat.add_left_cancel h)]

/-- Stores to memories that agree leave memories that agree. -/
lemma applyStores_congr {m' : A → V} (h : m a = m' a) :
    applyStores m stores a = applyStores m' stores a := by
  induction stores generalizing m m' with
  | nil => exact h
  | cons s stores ih =>
      rw [applyStores, applyStores, List.foldl_cons, List.foldl_cons]
      refine ih ?_
      by_cases ha : a = s.1
      · rw [ha, Function.update_self, Function.update_self]
      · rw [Function.update_of_ne ha, Function.update_of_ne ha, h]

end Stores

/-! ### Ranges of addresses -/

section CopyRange

variable {V : Type*} {src dst : ℕ → V} {srcPtr dstPtr n a i : ℕ}

/-- The memory `dst` after the `n` cells of `src` from `srcPtr` on were copied to `dstPtr`. -/
def copyRange (src : ℕ → V) (srcPtr : ℕ) (dst : ℕ → V) (dstPtr n : ℕ) : ℕ → V :=
  fun a => if dstPtr ≤ a ∧ a < dstPtr + n then src (srcPtr + (a - dstPtr)) else dst a

lemma copyRange_add (hi : i < n) :
    copyRange src srcPtr dst dstPtr n (dstPtr + i) = src (srcPtr + i) := by
  rw [copyRange, if_pos ⟨Nat.le_add_right _ _, by omega⟩, Nat.add_sub_cancel_left]

lemma copyRange_of_notMem (h : ¬ (dstPtr ≤ a ∧ a < dstPtr + n)) :
    copyRange src srcPtr dst dstPtr n a = dst a :=
  if_neg h

end CopyRange

end Braidinfer.Lib
