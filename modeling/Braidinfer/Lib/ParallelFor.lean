/-
Parallel loops without data races.

The threads of a loop work on one memory.  Each writes cells of its own, and what it leaves there
does not depend on the cells that the others write.  The loop is run one thread after the other, in
some order; the result is the same for every order.

* `RaceFree`: no thread reads or writes what another thread writes;
* `runThreads_of_mem`: **a cell of a thread holds what this thread alone leaves there**;
  `runThreads_of_notMem`: the frame; `runThreads_perm`: **the order does not matter**;
* `ThreadOrder`: an order of the threads of every loop; `blockFor`: the loop
  `for (i = start + tid; i < stop; i += block_size)` of all threads of a block, up to the barrier
  (`blockFor_eq`).
-/
import Braidinfer.Lib.ThreadSum

namespace Braidinfer.Lib

variable {τ M A V : Type*}

/-! ### Threads -/

/-- The threads `ts`, one after the other. -/
def runThreads (step : τ → M → M) (ts : List τ) (m : M) : M := ts.foldl (fun m t => step t m) m

variable {step : τ → M → M}

@[simp] lemma runThreads_nil (m : M) : runThreads step [] m = m := rfl

@[simp] lemma runThreads_cons (t : τ) (ts : List τ) (m : M) :
    runThreads step (t :: ts) m = runThreads step ts (step t m) := rfl

lemma runThreads_append (ts us : List τ) (m : M) :
    runThreads step (ts ++ us) m = runThreads step us (runThreads step ts m) := List.foldl_append

/-- The threads of blocks, block by block. -/
lemma runThreads_flatMap {β : Type*} (bs : List β) (threads : β → List τ) (m : M) :
    runThreads step (bs.flatMap threads) m =
      runThreads (fun b => runThreads step (threads b)) bs m := by
  induction bs generalizing m with
  | nil => rfl
  | cons b bs ih => rw [List.flatMap_cons, runThreads_append, ih, runThreads_cons]

/-- Threads of which some have nothing to do. -/
lemma runThreads_ite (p : τ → Prop) [DecidablePred p] (ts : List τ) (m : M) :
    runThreads (fun t m => if p t then step t m else m) ts m =
      runThreads step (ts.filter fun t => decide (p t)) m := by
  rw [runThreads, runThreads, List.foldl_filter]
  simp only [decide_eq_true_eq]

/-- The threads below a bound. -/
lemma mem_filter_lt {order : List ℕ} {n N i : ℕ} (horder : order.Perm (List.range N))
    (hn : n ≤ N) : i ∈ order.filter (fun i => decide (i < n)) ↔ i < n := by
  rw [List.mem_filter, horder.mem_iff, List.mem_range, decide_eq_true_iff]
  omega

lemma nodup_filter_lt {order : List ℕ} {n N : ℕ} (horder : order.Perm (List.range N)) :
    (order.filter fun i => decide (i < n)).Nodup :=
  (horder.nodup_iff.mpr List.nodup_range).filter _

/-- No thread of `ts` reads or writes what another thread of `ts` writes: the cells that the
threads write are disjoint, a thread changes no others, and what it leaves in its own is determined
by the cells that no other thread writes. -/
structure RaceFree (get : M → A → V) (step : τ → M → M) (writes : τ → Set A) (ts : List τ) :
    Prop where
  disjoint : ∀ t ∈ ts, ∀ t' ∈ ts, t ≠ t' → ∀ a ∈ writes t, a ∉ writes t'
  frame : ∀ t ∈ ts, ∀ m, ∀ a ∉ writes t, get (step t m) a = get m a
  reads : ∀ t ∈ ts, ∀ m m', (∀ a, (∀ t' ∈ ts, t' ≠ t → a ∉ writes t') → get m a = get m' a) →
    ∀ a ∈ writes t, get (step t m) a = get (step t m') a

namespace RaceFree

variable {get : M → A → V} {writes : τ → Set A} {ts us : List τ} {m m' : M} {a : A} {t : τ}

/-- The condition does not depend on the order. -/
lemma perm (h : RaceFree get step writes ts) (hp : ts.Perm us) :
    RaceFree get step writes us where
  disjoint t ht t' ht' := h.disjoint t (hp.mem_iff.mpr ht) t' (hp.mem_iff.mpr ht')
  frame t ht := h.frame t (hp.mem_iff.mpr ht)
  reads t ht m m' hm := h.reads t (hp.mem_iff.mpr ht) m m' fun a ha =>
    hm a fun t' ht' => ha t' (hp.mem_iff.mpr ht')

/-- Threads that leave a cell alone. -/
lemma runThreads_sub (h : RaceFree get step writes ts) (hus : us ⊆ ts)
    (ha : ∀ t ∈ us, a ∉ writes t) : get (runThreads step us m) a = get m a := by
  induction us generalizing m with
  | nil => rfl
  | cons t us ih =>
      rw [List.cons_subset] at hus
      rw [runThreads_cons, ih hus.2 fun t' ht' => ha t' (List.mem_cons_of_mem _ ht'),
        h.frame t hus.1 m a (ha t List.mem_cons_self)]

/-- A cell that no thread writes. -/
lemma runThreads_of_notMem (h : RaceFree get step writes ts) (ha : ∀ t ∈ ts, a ∉ writes t) :
    get (runThreads step ts m) a = get m a :=
  h.runThreads_sub (List.Subset.refl _) ha

/-- **A cell that a thread writes** holds what this thread leaves there when it runs alone. -/
theorem runThreads_of_mem (h : RaceFree get step writes ts) (hnd : ts.Nodup) (ht : t ∈ ts)
    (ha : a ∈ writes t) : get (runThreads step ts m) a = get (step t m) a := by
  obtain ⟨before, after, rfl⟩ := List.append_of_mem ht
  have hbefore : before ⊆ before ++ t :: after := List.subset_append_left _ _
  have hafter : after ⊆ before ++ t :: after := fun _ hu =>
    List.mem_append_right _ (List.mem_cons_of_mem _ hu)
  rw [List.nodup_append, List.nodup_cons] at hnd
  obtain ⟨-, ⟨hnotAfter, -⟩, hne⟩ := hnd
  rw [runThreads_append, runThreads_cons]
  -- the threads after `t` do not write the cell
  rw [h.runThreads_sub hafter fun t' ht' hmem =>
    h.disjoint t ht t' (hafter ht') (fun heq => hnotAfter (heq ▸ ht')) a ha hmem]
  -- the threads before `t` write nothing that `t` reads
  refine h.reads t ht _ _ (fun a' ha' => ?_) a ha
  exact h.runThreads_sub hbefore fun t' ht' =>
    ha' t' (hbefore ht') (hne t' ht' t List.mem_cons_self)

/-- **The order of the threads does not matter.** -/
theorem runThreads_perm (h : RaceFree get step writes ts) (hnd : ts.Nodup) (hp : ts.Perm us) :
    get (runThreads step us m) a = get (runThreads step ts m) a := by
  by_cases ha : ∃ t ∈ ts, a ∈ writes t
  · obtain ⟨t, ht, hmem⟩ := ha
    rw [h.runThreads_of_mem hnd ht hmem,
      (h.perm hp).runThreads_of_mem (hp.nodup_iff.mp hnd) (hp.mem_iff.mp ht) hmem]
  · rw [not_exists] at ha
    have hnone : ∀ t ∈ ts, a ∉ writes t := fun t ht hmem => ha t ⟨ht, hmem⟩
    rw [h.runThreads_of_notMem hnone,
      (h.perm hp).runThreads_of_notMem fun t ht => hnone t (hp.mem_iff.mpr ht)]

end RaceFree

/-! ### Loops of a block -/

/-- An order of the threads of every loop. -/
structure ThreadOrder where
  of : ℕ → List ℕ
  perm : ∀ n, (of n).Perm (List.range n)

namespace ThreadOrder

lemma nodup (o : ThreadOrder) (n : ℕ) : (o.of n).Nodup := (o.perm n).nodup_iff.mpr List.nodup_range

@[simp] lemma mem_of (o : ThreadOrder) {n t : ℕ} : t ∈ o.of n ↔ t < n := by
  rw [(o.perm n).mem_iff, List.mem_range]

/-- The threads in the order of their indices. -/
def id : ThreadOrder := ⟨List.range, fun _ => List.Perm.refl _⟩

end ThreadOrder

/-- `for (i = start + tid; i < stop; i += size) body(i)` of the threads `tid < size`, up to the
barrier behind the loop. -/
def blockFor (o : ThreadOrder) (size start stop : ℕ) (body : ℕ → M → M) (m : M) : M :=
  runThreads (fun tid => runThreads body (strided (start + tid) size stop)) (o.of size) m

section BlockFor

/-- The loop runs over the range once. -/
lemma blockFor_eq {size : ℕ} (o : ThreadOrder) (start stop : ℕ) (body : ℕ → M → M) (m : M)
    (hsize : 0 < size) :
    ∃ is : List ℕ, is.Perm (List.range' start (stop - start)) ∧
      blockFor o size start stop body m = runThreads body is m := by
  refine ⟨(o.of size).flatMap fun tid => strided (start + tid) size stop, ?_,
    (runThreads_flatMap _ _ _).symm⟩
  exact ((o.perm size).flatMap_right _).trans (perm_strided hsize start stop)

end BlockFor

end Braidinfer.Lib
