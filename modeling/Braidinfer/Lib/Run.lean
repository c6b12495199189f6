/-
Runs of a labelled transition system.

A system is a step relation `step : σ → α → σ → Prop`; a run records the labels of the
steps taken, oldest first.

* `Run.invariant`: an invariant that every allowed step keeps holds after every run all of
  whose steps are allowed;
* `Run.append`: runs compose;
* `Run.simulate`: where each step is matched by steps of another system, each run is;
* `Run.exists_done`: where runs are bounded and can go on until they are done, some run is done;
* `Run.of_foldlM`: a computed run is a run;
* `tracked`: a system together with a record of its past.
-/
import Mathlib.Data.List.Basic

namespace Braidinfer.Lib

variable {σ α : Type*}

/-- `Run step s as t`: the labels `as`, taken in order, lead from `s` to `t`. -/
inductive Run (step : σ → α → σ → Prop) (s : σ) : List α → σ → Prop
  | nil : Run step s [] s
  | snoc {as : List α} {t u : σ} {a : α} :
      Run step s as t → step t a u → Run step s (as ++ [a]) u

namespace Run

variable {step : σ → α → σ → Prop} {s t u : σ} {as bs : List α}

/-- Runs compose. -/
lemma append (h : Run step s as t) (h' : Run step t bs u) : Run step s (as ++ bs) u := by
  induction h' with
  | nil => simpa using h
  | snoc _ hstep ih =>
      rw [← List.append_assoc]
      exact ih.snoc hstep

/-- **The invariant rule**: what holds at the start and is kept by every step holds after
every run. -/
theorem invariant {I : σ → Prop} (hstep : ∀ s a t, I s → step s a t → I t)
    (h : Run step s as t) (hs : I s) : I t := by
  induction h with
  | nil => exact hs
  | snoc _ hlast ih => exact hstep _ _ _ ih hlast

/-- **The simulation rule**: where each step is matched by one or more steps of another system,
each run is matched by one that is at least as long. -/
theorem simulate {τ β : Type*} {step' : τ → β → τ → Prop} {R : σ → τ → Prop}
    (hsim : ∀ s x a t, R s x → step s a t →
      ∃ bs y, Run step' x bs y ∧ 0 < bs.length ∧ R t y)
    (h : Run step s as t) {x : τ} (hR : R s x) :
    ∃ bs y, Run step' x bs y ∧ as.length ≤ bs.length ∧ R t y := by
  induction h with
  | nil => exact ⟨[], x, .nil, Nat.le_refl _, hR⟩
  | snoc _ hlast ih =>
      obtain ⟨bs, y, hr, hlen, hR'⟩ := ih
      obtain ⟨cs, z, hr', hpos, hR''⟩ := hsim _ _ _ _ hR' hlast
      refine ⟨bs ++ cs, z, hr.append hr', ?_, hR''⟩
      rw [List.length_append, List.length_append, List.length_singleton]
      omega

/-- **The termination rule**: where the runs from `s` are bounded, and go on as long as they are
not done, some run is done. -/
theorem exists_done {Done : σ → Prop} {n : ℕ}
    (hbound : ∀ as t, Run step s as t → as.length ≤ n)
    (hgo : ∀ as t, Run step s as t → ¬ Done t → ∃ a u, step t a u) :
    ∃ as t, Run step s as t ∧ Done t := by
  by_contra hcon
  -- otherwise there are runs of every length
  have hlong : ∀ k, ∃ as t, Run step s as t ∧ as.length = k := by
    intro k
    induction k with
    | zero => exact ⟨[], s, .nil, rfl⟩
    | succ k ih =>
        obtain ⟨as, t, hr, hlen⟩ := ih
        obtain ⟨a, u, hstep⟩ := hgo as t hr fun hdone => hcon ⟨as, t, hr, hdone⟩
        refine ⟨as ++ [a], u, hr.snoc hstep, ?_⟩
        rw [List.length_append, List.length_singleton, hlen]
  obtain ⟨as, t, hr, hlen⟩ := hlong (n + 1)
  have := hbound as t hr
  omega

/-- What an executable step function takes is a run. -/
lemma of_foldlM {next : σ → α → Option σ} (hnext : ∀ s a t, next s a = some t → step s a t)
    (h : as.foldlM next s = some t) : Run step s as t := by
  induction as generalizing s with
  | nil =>
      cases h
      exact .nil
  | cons a as ih =>
      rw [List.foldlM_cons, Option.bind_eq_bind, Option.bind_eq_some_iff] at h
      obtain ⟨u, hu, hrest⟩ := h
      exact (Run.nil.snoc (hnext _ _ _ hu)).append (ih hrest)

end Run

/-- The system `step` restricted to the steps that meet a guard on the state before the
step and its label. -/
def guarded (guard : σ → α → Prop) (step : σ → α → σ → Prop) : σ → α → σ → Prop :=
  fun s a t => guard s a ∧ step s a t

/-- The system `step` with a record of its past: `next` says what a step adds to it. -/
def tracked {γ : Type*} (next : σ → α → σ → γ → γ) (step : σ → α → σ → Prop) :
    σ × γ → α → σ × γ → Prop :=
  fun s a t => step s.1 a t.1 ∧ t.2 = next s.1 a t.1 s.2

end Braidinfer.Lib
