/-
A counting barrier.

Every participant counts its arrivals; one that has arrived for the `k`-th time may leave once
everybody has arrived at least `k` times.  `passed i` counts the barriers participant `i` has
left, and `Ok` is the only promise a correct barrier makes: nobody has left a barrier at which
somebody has not arrived.

* `Barrier.Ok.arrive`, `Barrier.Ok.pass`: the two operations keep the promise;
* `Barrier.exists_opens`: somebody can always leave (or is not waiting).
-/
import Mathlib.Data.Fintype.Lattice
import Mathlib.Logic.Function.Basic

namespace Braidinfer.Lib

/-- The arrivals of each participant, and who has arrived and not left yet. -/
@[ext]
structure Barrier (ι : Type*) where
  arrived : ι → ℕ
  waiting : ι → Bool

namespace Barrier

variable {ι : Type*} {β : Barrier ι} {i j : ι}

/-- Nobody has arrived anywhere. -/
def init : Barrier ι := ⟨fun _ => 0, fun _ => false⟩

/-- Everybody has arrived as often as `i`. -/
def Opens (β : Barrier ι) (i : ι) : Prop := ∀ j, β.arrived i ≤ β.arrived j

instance [Fintype ι] : Decidable (β.Opens i) :=
  inferInstanceAs (Decidable (∀ j, β.arrived i ≤ β.arrived j))

/-- The barriers that `i` has left. -/
def passed (β : Barrier ι) (i : ι) : ℕ := β.arrived i - (β.waiting i).toNat

/-- Nobody has left a barrier at which somebody has not arrived. -/
def Ok (β : Barrier ι) : Prop := ∀ i j, β.passed i ≤ β.arrived j

lemma passed_of_waiting (h : β.waiting i = true) : β.passed i = β.arrived i - 1 := by
  simp [passed, h]

lemma passed_of_not_waiting (h : β.waiting i = false) : β.passed i = β.arrived i := by
  simp [passed, h]

lemma init_ok : (init : Barrier ι).Ok := by
  intro i j
  simp [passed, init]

/-- A participant inside has passed all its arrivals, so everybody has arrived as often. -/
lemma Ok.opens (h : β.Ok) (hi : β.waiting i = false) : β.Opens i := by
  intro j
  rw [← passed_of_not_waiting hi]
  exact h i j

/-- The barrier opens for somebody: a participant with the fewest arrivals. -/
lemma exists_opens [Finite ι] [Nonempty ι] (β : Barrier ι) : ∃ i, β.Opens i :=
  Finite.exists_min β.arrived

variable [DecidableEq ι]

/-- Participant `i` arrives. -/
def arrive (β : Barrier ι) (i : ι) : Barrier ι where
  arrived := Function.update β.arrived i (β.arrived i + 1)
  waiting := Function.update β.waiting i true

/-- Participant `i` leaves. -/
def pass (β : Barrier ι) (i : ι) : Barrier ι :=
  { β with waiting := Function.update β.waiting i false }

@[simp] lemma arrive_arrived_self : (β.arrive i).arrived i = β.arrived i + 1 := by
  simp [arrive]

lemma arrive_arrived_of_ne (h : j ≠ i) : (β.arrive i).arrived j = β.arrived j := by
  simp [arrive, h]

@[simp] lemma arrive_waiting_self : (β.arrive i).waiting i = true := by
  simp [arrive]

lemma arrive_waiting_of_ne (h : j ≠ i) : (β.arrive i).waiting j = β.waiting j := by
  simp [arrive, h]

@[simp] lemma pass_arrived : (β.pass i).arrived = β.arrived := rfl

@[simp] lemma pass_waiting_self : (β.pass i).waiting i = false := by
  simp [pass]

lemma pass_waiting_of_ne (h : j ≠ i) : (β.pass i).waiting j = β.waiting j := by
  simp [pass, h]

lemma arrived_le_arrive : β.arrived j ≤ (β.arrive i).arrived j := by
  by_cases h : j = i
  · subst h
    simp
  · rw [arrive_arrived_of_ne h]

namespace Ok

/-- Somebody who is not waiting can arrive. -/
lemma arrive (h : β.Ok) (hi : β.waiting i = false) : (β.arrive i).Ok := by
  intro k j
  refine le_trans ?_ (le_trans (h k j) arrived_le_arrive)
  by_cases hk : k = i
  · subst hk
    rw [passed_of_waiting arrive_waiting_self, arrive_arrived_self, passed_of_not_waiting hi]
    omega
  · simp only [passed, arrive_arrived_of_ne hk, arrive_waiting_of_ne hk, le_refl]

/-- Somebody for whom the barrier opens can leave. -/
lemma pass (h : β.Ok) (hi : β.Opens i) : (β.pass i).Ok := by
  intro k j
  by_cases hk : k = i
  · subst hk
    rw [passed_of_not_waiting pass_waiting_self]
    exact hi j
  · have hp : (β.pass i).passed k = β.passed k := by
      simp only [passed, pass_arrived, pass_waiting_of_ne hk]
    rw [hp]
    exact h k j

end Ok

end Barrier

end Braidinfer.Lib
