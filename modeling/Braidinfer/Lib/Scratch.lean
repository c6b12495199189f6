/-
Scratch memory that a call does not find cleared.

The memory is cut into regions of fixed sizes.  A flag records whether each access so far was in
its region and each word that was loaded had been stored by the call itself.

* `Scratch`, `store`, `load`: the memory and the accesses to it;
* `clobber`: what another call stores in between, so that the words are no longer the call's own;
* `ok_store`, `ok_load`: **what an access adds to the flag**;
* `word_store`, `written_store` and their `_of_ne` forms: what the words hold.
-/
import Braidinfer.Lib.RowMem

namespace Braidinfer.Lib

/-- Memory in regions of the sizes `size`: what the words hold, which of them the call has stored,
and whether all its accesses were sound. -/
structure Scratch {R : Type*} (size : R → ℕ) (K : Type*) where
  word : R → ℕ → K
  written : R → ℕ → Bool
  ok : Bool

namespace Scratch

variable {R K : Type*} {size : R → ℕ}

/-- What a call starts with: words of unknown contents. -/
def start (size : R → ℕ) (junk : R → ℕ → K) : Scratch size K where
  word := junk
  written _ _ := false
  ok := true

/-- Load some words of a region. -/
def load (m : Scratch size K) (r : R) (offs : List ℕ) : Scratch size K :=
  { m with ok := m.ok && offs.all fun i => decide (i < size r) && m.written r i }

variable {m : Scratch size K} {r r' : R} {stores : List (ℕ × K)} {offs : List ℕ} {i : ℕ}

/-! ### Loads -/

@[simp] lemma word_load : (m.load r offs).word = m.word := rfl

@[simp] lemma written_load : (m.load r offs).written = m.written := rfl

/-- **A load** has to be of a word of the region that was stored before. -/
lemma ok_load : (m.load r offs).ok = true ↔
    m.ok = true ∧ ∀ i ∈ offs, i < size r ∧ m.written r i = true := by
  rw [load, Bool.and_eq_true, List.all_eq_true]
  simp only [Bool.and_eq_true, decide_eq_true_iff]

/-! ### Stores -/

variable [DecidableEq R]

/-- Store to some words of a region. -/
def store (m : Scratch size K) (r : R) (stores : List (ℕ × K)) : Scratch size K where
  word := Function.update m.word r (applyStores (m.word r) stores)
  written := Function.update m.written r fun i => m.written r i || stores.any (·.1 == i)
  ok := m.ok && stores.all fun s => decide (s.1 < size r)

@[simp] lemma word_store : (m.store r stores).word r = applyStores (m.word r) stores :=
  Function.update_self ..

lemma word_store_of_ne (h : r' ≠ r) : (m.store r stores).word r' = m.word r' :=
  Function.update_of_ne h ..

lemma written_store : (m.store r stores).written r i = true ↔
    m.written r i = true ∨ ∃ s ∈ stores, s.1 = i := by
  have hupd : (m.store r stores).written r = fun i =>
    m.written r i || stores.any (·.1 == i) := Function.update_self ..
  rw [hupd, Bool.or_eq_true, List.any_eq_true]
  simp only [beq_iff_eq]

lemma written_store_of_ne (h : r' ≠ r) : (m.store r stores).written r' = m.written r' :=
  Function.update_of_ne h ..

/-- Another call stores to some words of a region. -/
def clobber (m : Scratch size K) (r : R) (stores : List (ℕ × K)) : Scratch size K where
  word := Function.update m.word r (applyStores (m.word r) stores)
  written := Function.update m.written r fun i => m.written r i && !stores.any (·.1 == i)
  ok := m.ok

@[simp] lemma clobber_nil (m : Scratch size K) (r : R) : m.clobber r [] = m := by
  cases m
  simp [clobber, applyStores]

/-- A word that another call has stored is not the call's own. -/
lemma written_clobber_of_mem {s : ℕ × K} (hs : s ∈ stores) :
    (m.clobber r stores).written r s.1 = false := by
  have hupd : (m.clobber r stores).written r = fun i =>
    m.written r i && !stores.any (·.1 == i) := Function.update_self ..
  have hany : stores.any (·.1 == s.1) = true := List.any_eq_true.mpr ⟨s, hs, beq_self_eq_true _⟩
  simp only [hupd, hany, Bool.not_true, Bool.and_false]

/-- **A store** has to be in its region. -/
lemma ok_store : (m.store r stores).ok = true ↔
    m.ok = true ∧ ∀ s ∈ stores, s.1 < size r := by
  rw [store, Bool.and_eq_true, List.all_eq_true]
  simp only [decide_eq_true_iff]

end Scratch

end Braidinfer.Lib
