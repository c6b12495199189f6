/-
Transducers: from a state and an input to the next state and an output.

A stack of layers is a list of transducers, each with a state of its own.  Inputs may go through it
one at a time, or all inputs through one layer after the other.

* `run`: a list of inputs (`run_append`); `run_run`: a list of inputs in pieces;
  `run_lift`, `run_stateless`: on part of a state; `run_map`: in other words; `foldl_rows`,
  `foldl_pieces`: loops over rows, and over pieces;
* `tokenStep`: one input through all layers; `layerwise`: all inputs through one layer after the
  other;
* `run_tokenStep`: **the two leave the same states and the same outputs**;
* `Trace`: inputs that a machine takes, with anything in between that keeps its state;
  `Realises`: its steps are those of a transducer; `trace_eq_trace`: **a machine that takes inputs
  one at a time and one that takes them in pieces, layer by layer, do the same**.
-/
import Mathlib.Data.List.Basic
import Mathlib.Data.List.Induction

namespace Braidinfer.Lib

/-- A transducer. -/
abbrev Transducer (σ α β : Type*) := σ → α → σ × β

namespace Transducer

variable {σ α β γ δ : Type*}

/-! ### Runs -/

/-- The inputs, one after the other. -/
def run (f : Transducer σ α β) (s : σ) : List α → σ × List β
  | [] => (s, [])
  | a :: as => ((run f (f s a).1 as).1, (f s a).2 :: (run f (f s a).1 as).2)

variable {f : Transducer σ α β} {s : σ} {a : α} {as bs : List α}

@[simp] lemma run_nil : run f s [] = (s, []) := rfl

@[simp] lemma run_cons :
    run f s (a :: as) = ((run f (f s a).1 as).1, (f s a).2 :: (run f (f s a).1 as).2) := rfl

lemma run_append :
    run f s (as ++ bs) =
      ((run f (run f s as).1 bs).1, (run f s as).2 ++ (run f (run f s as).1 bs).2) := by
  induction as generalizing s with
  | nil => rfl
  | cons a as ih => rw [List.cons_append, run_cons, ih, run_cons, List.cons_append]

/-- The run of the last input. -/
lemma run_concat :
    run f s (as ++ [a]) =
      ((f (run f s as).1 a).1, (run f s as).2 ++ [(f (run f s as).1 a).2]) := run_append

/-- The same machine, on part of a larger state. -/
lemma run_lift {τ : Type*} {g : Transducer τ α β} {e : σ → τ}
    (hg : ∀ s a, g (e s) a = (e (f s a).1, (f s a).2)) :
    run g (e s) as = (e (run f s as).1, (run f s as).2) := by
  induction as generalizing s with
  | nil => rfl
  | cons a as ih => rw [run_cons, hg, ih, run_cons]

/-- Steps that keep the state. -/
lemma run_stateless {h : α → β} {g : Transducer σ α β} (hg : ∀ a, g s a = (s, h a)) :
    run g s as = (s, as.map h) := by
  induction as with
  | nil => rfl
  | cons a as ih => rw [run_cons, hg, ih, List.map_cons]

/-- Inputs and outputs in other words. -/
lemma run_map (e : γ → α) (g : β → δ) {cs : List γ} :
    run (fun s c => ((f s (e c)).1, g (f s (e c)).2)) s cs =
      ((run f s (cs.map e)).1, (run f s (cs.map e)).2.map g) := by
  induction cs generalizing s with
  | nil => rfl
  | cons c cs ih => rw [run_cons, ih, List.map_cons, run_cons, List.map_cons]

/-- **Inputs in pieces**: the state after the pieces, and what comes out together. -/
theorem run_run (pieces : List (List α)) :
    (run (run f) s pieces).1 = (run f s pieces.flatten).1 ∧
      (run (run f) s pieces).2.flatten = (run f s pieces.flatten).2 := by
  induction pieces generalizing s with
  | nil => exact ⟨rfl, rfl⟩
  | cons as pieces ih =>
      obtain ⟨hstate, hout⟩ := ih (s := (run f s as).1)
      rw [run_cons, List.flatten_cons, run_append, List.flatten_cons, hstate, hout]
      exact ⟨rfl, rfl⟩

/-! ### Loops over rows -/

section Rows

variable {μ : Type*} {g : Transducer σ α α} {state : μ → σ} {row : ℕ → μ → α} {step : ℕ → μ → μ}
  {inv : ℕ → μ → Prop} {n : ℕ}

/-- **A loop that replaces one row after the other** by what a transducer leaves. -/
theorem foldl_rows
    (hstep : ∀ t m, t < n → inv t m → inv (t + 1) (step t m) ∧
      g (state m) (row t m) = (state (step t m), row t (step t m)) ∧
      ∀ r, r ≠ t → row r (step t m) = row r m) {m : μ} (h : inv 0 m) :
    inv n ((List.range n).foldl (fun m t => step t m) m) ∧
      run g (state m) ((List.range n).map (row · m)) =
        (state ((List.range n).foldl (fun m t => step t m) m),
          (List.range n).map (row · ((List.range n).foldl (fun m t => step t m) m))) := by
  have hloop : ∀ k ≤ n, inv k ((List.range k).foldl (fun m t => step t m) m) ∧
      (∀ r, k ≤ r → row r ((List.range k).foldl (fun m t => step t m) m) = row r m) ∧
      run g (state m) ((List.range k).map (row · m)) =
        (state ((List.range k).foldl (fun m t => step t m) m),
          (List.range k).map (row · ((List.range k).foldl (fun m t => step t m) m))) := by
    intro k hk
    induction k with
    | zero => exact ⟨h, fun _ _ => rfl, rfl⟩
    | succ k ih =>
        obtain ⟨hinv, hlater, hrun⟩ := ih (Nat.le_of_succ_le hk)
        rw [List.range_succ, List.foldl_append, List.foldl_cons, List.foldl_nil]
        obtain ⟨hinv', hrow, hother⟩ := hstep k _ hk hinv
        refine ⟨hinv', fun r hr => ?_, ?_⟩
        · rw [hother r (by omega), hlater r (by omega)]
        · rw [List.map_append, List.map_singleton, run_concat, hrun, ← hlater k (Nat.le_refl k), hrow,
            List.map_append, List.map_singleton]
          refine Prod.ext rfl (congrArg (· ++ _) (List.map_congr_left fun r hr => ?_))
          exact (hother r (Nat.ne_of_lt (List.mem_range.mp hr))).symm
  obtain ⟨hinv, -, hrun⟩ := hloop n (Nat.le_refl n)
  exact ⟨hinv, hrun⟩

end Rows

section Pieces

variable {μ : Type*} {state : μ → σ} {out : μ → β} {step : List α → μ → μ}

/-- **A loop over pieces**, that shows the last output of each. -/
theorem foldl_pieces {pieces : List (List α)}
    (h : ∀ piece ∈ pieces, ∀ m, (run f (state m) piece).1 = state (step piece m) ∧
      (run f (state m) piece).2.getLast? = some (out (step piece m))) (m : μ) :
    (run f (state m) pieces.flatten).1 = state (pieces.foldl (fun m piece => step piece m) m) ∧
      (pieces ≠ [] → (run f (state m) pieces.flatten).2.getLast? =
        some (out (pieces.foldl (fun m piece => step piece m) m))) := by
  induction pieces using List.reverseRecOn with
  | nil => exact ⟨rfl, fun hne => absurd rfl hne⟩
  | append_singleton pieces piece ih =>
      obtain ⟨hstate, -⟩ := ih fun piece hp => h piece (List.mem_append_left _ hp)
      obtain ⟨hnext, hout⟩ := h piece (by simp)
        (pieces.foldl (fun m piece => step piece m) m)
      rw [← hstate] at hnext hout
      rw [List.flatten_append, List.flatten_singleton, run_append, List.foldl_append]
      refine ⟨hnext, fun _ => ?_⟩
      have hne : (run f (run f (state m) pieces.flatten).1 piece).2 ≠ [] := fun hnil => by
        rw [hnil] at hout
        cases hout
      rw [List.getLast?_append_of_ne_nil _ hne]
      exact hout

end Pieces

/-! ### Stacks of layers -/

/-- One input through the layers. -/
def tokenStep : List (Transducer σ α α) → Transducer (List σ) α α
  | f :: fs, s :: ss, a =>
      ((f s a).1 :: (tokenStep fs ss (f s a).2).1, (tokenStep fs ss (f s a).2).2)
  | _, ss, a => (ss, a)

/-- All inputs through one layer after the other. -/
def layerwise : List (Transducer σ α α) → Transducer (List σ) (List α) (List α)
  | f :: fs, s :: ss, as =>
      ((run f s as).1 :: (layerwise fs ss (run f s as).2).1, (layerwise fs ss (run f s as).2).2)
  | _, ss, as => (ss, as)

section Stack

/-- All inputs through one layer after the other, as one input. -/
lemma layerwise_eq (fs : List (Transducer σ α α)) (ss : List σ) (as : List α) :
    layerwise fs ss as = tokenStep (fs.map run) ss as := by
  induction fs generalizing ss as with
  | nil => cases ss <;> rfl
  | cons f fs ih =>
      cases ss with
      | nil => rfl
      | cons s ss => rw [layerwise, List.map_cons, tokenStep, ih]

variable {f : Transducer σ α α} {fs : List (Transducer σ α α)} {ss : List σ}

@[simp] lemma tokenStep_nil : tokenStep [] ss a = (ss, a) := by
  cases ss <;> rfl

@[simp] lemma layerwise_nil : layerwise [] ss as = (ss, as) := by
  cases ss <;> rfl

/-- All inputs through the first layer, then one at a time through the others. -/
lemma run_tokenStep_cons :
    run (tokenStep (f :: fs)) (s :: ss) as =
      ((run f s as).1 :: (run (tokenStep fs) ss (run f s as).2).1,
        (run (tokenStep fs) ss (run f s as).2).2) := by
  induction as generalizing s ss with
  | nil => rfl
  | cons a as ih => rw [run_cons, tokenStep, ih, run_cons, run_cons]

/-- **Inputs one at a time through the stack, or layer by layer**: the states and the outputs are
the same. -/
theorem run_tokenStep : run (tokenStep fs) ss as = layerwise fs ss as := by
  induction fs generalizing ss as with
  | nil => rw [run_stateless (h := id) fun _ => tokenStep_nil, layerwise_nil, List.map_id]
  | cons f fs ih =>
      cases ss with
      | nil =>
          rw [run_stateless (g := tokenStep (f :: fs)) (h := id) fun _ => rfl, List.map_id]
          rfl
      | cons s ss => rw [run_tokenStep_cons, ih, layerwise]

end Stack

/-! ### Machines -/

section Machine

variable {μ ν : Type*}

/-- A machine with memories `μ` takes inputs, one after the other.  Between two steps anything may
happen to its memory that keeps its state. -/
inductive Trace (state : μ → σ) (step : μ → α → μ → β → Prop) :
    σ → List α → σ → List β → Prop
  | nil (s : σ) : Trace state step s [] s []
  | cons {m m' : μ} {a : α} {b : β} {as : List α} {s : σ} {bs : List β}
      (hstep : step m a m' b) (h : Trace state step (state m') as s bs) :
      Trace state step (state m) (a :: as) s (b :: bs)

/-- The steps of a machine are those of a transducer. -/
def Realises (state : μ → σ) (step : μ → α → μ → β → Prop) (f : Transducer σ α β) : Prop :=
  ∀ ⦃m a m' b⦄, step m a m' b → f (state m) a = (state m', b)

/-- What a machine takes and gives is a run of its transducer. -/
lemma Trace.run_eq {state : μ → σ} {step : μ → α → μ → β → Prop} {f : Transducer σ α β} {s s' : σ}
    {as : List α} {bs : List β} (hf : Realises state step f)
    (h : Trace state step s as s' bs) : run f s as = (s', bs) := by
  induction h with
  | nil s => rfl
  | cons hstep _ ih => rw [run_cons, hf hstep, ih]

variable {fs : List (Transducer σ α α)} {state : μ → List σ} {state' : ν → List σ}
  {token : μ → α → μ → α → Prop} {slab : ν → List α → ν → List α → Prop}

/-- **Two machines for one stack**: one takes inputs one at a time, the other in pieces, layer by
layer.  They are left in the same state, and give the same outputs. -/
theorem trace_eq_trace (htoken : Realises state token (tokenStep fs))
    (hslab : Realises state' slab (layerwise fs)) {s s₁ s₂ : List σ} {as bs : List α}
    {pieces outs : List (List α)} (h₁ : Trace state token s as s₁ bs)
    (h₂ : Trace state' slab s pieces s₂ outs) (has : pieces.flatten = as) :
    s₁ = s₂ ∧ bs = outs.flatten := by
  have hrun := h₁.run_eq htoken
  have hpieces : run (run (tokenStep fs)) s pieces = (s₂, outs) := by
    rw [← h₂.run_eq hslab]
    exact congrArg (fun f => run f s pieces) (funext₂ fun _ _ => run_tokenStep)
  obtain ⟨hstate, hout⟩ := run_run (f := tokenStep fs) (s := s) pieces
  rw [has, hrun, hpieces] at hstate hout
  exact ⟨hstate.symm, hout.symm⟩

end Machine

end Transducer

end Braidinfer.Lib
