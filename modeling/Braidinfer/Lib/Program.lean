/-
Programs with a state and errors, `StateT σ (Except ε) α`, and what their runs do.

* `bind_ok`, `liftM_ok`: inverting a run that returns;
* `Preserves I m`: every run of `m` that returns keeps the invariant `I`.  It goes through `bind`,
  branches and `mapM`.
-/
import Mathlib.Data.List.Basic

namespace Braidinfer.Lib

variable {σ ε α β : Type}

namespace Program

/-- A run of a sequence is a run of its two parts. -/
lemma bind_ok {m : StateT σ (Except ε) α} {f : α → StateT σ (Except ε) β} {s s' : σ} {b : β} :
    (m >>= f) s = .ok (b, s') ↔ ∃ a t, m s = .ok (a, t) ∧ f a t = .ok (b, s') := by
  change (m s >>= fun p => f p.1 p.2) = _ ↔ _
  cases hm : m s with
  | error e => exact ⟨fun h => (by cases h), fun ⟨_, _, h, _⟩ => (by cases h)⟩
  | ok p => exact ⟨fun h => ⟨p.1, p.2, rfl, h⟩, fun ⟨_, _, h, hf⟩ => by cases h; exact hf⟩

/-- A computation without the state leaves it. -/
lemma liftM_ok {x : Except ε α} {s s' : σ} {a : α} :
    (liftM x : StateT σ (Except ε) α) s = .ok (a, s') ↔ x = .ok a ∧ s' = s := by
  change (x >>= fun a => .ok (a, s)) = _ ↔ _
  cases x with
  | error e => exact ⟨fun h => (by cases h), fun h => (by cases h.1)⟩
  | ok b => exact ⟨fun h => (by cases h; exact ⟨rfl, rfl⟩), fun h => by cases h.1; rw [h.2]; rfl⟩

end Program

open Program

/-- Every run that returns keeps the invariant. -/
def Preserves (I : σ → Prop) (m : StateT σ (Except ε) α) : Prop :=
  ∀ s a s', I s → m s = .ok (a, s') → I s'

namespace Preserves

variable {I : σ → Prop}

lemma throw (e : ε) : Preserves I (MonadExcept.throw e : StateT σ (Except ε) α) := by
  intro s a s' _ h
  cases h

lemma pure (a : α) : Preserves I (Pure.pure a : StateT σ (Except ε) α) := by
  intro s b s' hs h
  cases h
  exact hs

lemma lift (x : Except ε α) : Preserves I (liftM x : StateT σ (Except ε) α) := by
  intro s a s' hs h
  rw [(liftM_ok.mp h).2]
  exact hs

/-- What comes after a computation without the state may use its result. -/
lemma lift_bind {x : Except ε α} {f : α → StateT σ (Except ε) β}
    (hf : ∀ a, x = .ok a → Preserves I (f a)) : Preserves I (liftM x >>= f) := by
  intro s b s' hs h
  obtain ⟨a, t, ha, hb⟩ := bind_ok.mp h
  obtain ⟨ha', rfl⟩ := liftM_ok.mp ha
  exact hf a ha' _ _ _ hs hb

/-- What comes after reading the state may use it. -/
lemma get_bind {f : σ → StateT σ (Except ε) β} (hf : ∀ s, Preserves I (f s)) :
    Preserves I (get >>= f) := by
  intro s b s' hs h
  obtain ⟨a, t, ha, hb⟩ := bind_ok.mp h
  cases ha
  exact hf s _ _ _ hs hb

lemma bind {m : StateT σ (Except ε) α} {f : α → StateT σ (Except ε) β} (hm : Preserves I m)
    (hf : ∀ a, Preserves I (f a)) : Preserves I (m >>= f) := by
  intro s b s' hs h
  obtain ⟨a, t, ha, hb⟩ := bind_ok.mp h
  exact hf a _ _ _ (hm _ _ _ hs ha) hb

lemma mapM {f : α → StateT σ (Except ε) β} {l : List α} (hf : ∀ a ∈ l, Preserves I (f a)) :
    Preserves I (l.mapM f) := by
  induction l with
  | nil => exact pure []
  | cons a l ih =>
      rw [List.mapM_cons]
      refine bind (hf a List.mem_cons_self) fun b => ?_
      exact bind (ih fun x hx => hf x (List.mem_cons_of_mem _ hx)) fun bs => pure _

end Preserves

end Braidinfer.Lib
