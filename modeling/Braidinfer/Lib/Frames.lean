/-
Readers of a stream of records, on complete and on truncated input.

A reader takes one record off the front of its input, or stops, or fails.  If it stops on every
proper beginning of a record and on every beginning of the tail, then on any beginning of a stream
it gives the records that are complete there and no others.

* `Reader`, `Reader.readAll`: a step that shrinks its input, and the loop over it;
* `Framed`: the step against an encoder, up to what a record is read as;
* `completeIn`: how many records are complete in the first `n` elements;
* `Framed.readAll_take`: **what is read of any beginning of a stream**.
-/
import Mathlib.Data.List.Basic
import Mathlib.Tactic.Common

namespace Braidinfer.Lib

variable {β ε α γ : Type*}

/-- One turn of a loop that reads records: the next record and what is behind it, or `none` at the
end of the data. -/
structure Reader (β ε α : Type*) where
  step : List β → Except ε (Option (α × List β))
  shrinks : ∀ {bs a rest}, step bs = .ok (some (a, rest)) → rest.length < bs.length

namespace Reader

/-- The loop. -/
def readAll (r : Reader β ε α) (bs : List β) : Except ε (List α) :=
  match _h : r.step bs with
  | .error e => .error e
  | .ok none => .ok []
  | .ok (some (a, rest)) => (r.readAll rest).map (a :: ·)
termination_by bs.length
decreasing_by exact r.shrinks _h

variable {r : Reader β ε α} {bs rest : List β} {a : α}

lemma readAll_none (h : r.step bs = .ok none) : r.readAll bs = .ok [] := by
  rw [readAll]
  split <;> simp_all

lemma readAll_some (h : r.step bs = .ok (some (a, rest))) :
    r.readAll bs = (r.readAll rest).map (a :: ·) := by
  rw [readAll]
  split <;> simp_all

end Reader

/-- The reader takes off the records that `encode` puts down, each read as its `value`, stops on a
record that is cut short, and stops on the tail, cut or not. -/
structure Framed (r : Reader β ε γ) (encode : α → List β) (value : α → γ) (Valid : α → Prop)
    (tail : List β) : Prop where
  complete : ∀ a, Valid a → ∀ rest, r.step (encode a ++ rest) = .ok (some (value a, rest))
  cut : ∀ a, Valid a → ∀ n < (encode a).length, r.step ((encode a).take n) = .ok none
  stop : ∀ n, r.step (tail.take n) = .ok none

/-- How many of the records are complete in the first `n` elements of the stream. -/
def completeIn (encode : α → List β) : List α → ℕ → ℕ
  | [], _ => 0
  | a :: as, n =>
      if (encode a).length ≤ n then completeIn encode as (n - (encode a).length) + 1 else 0

variable {r : Reader β ε γ} {encode : α → List β} {value : α → γ} {Valid : α → Prop}
  {tail : List β} {as : List α} {n : ℕ}

lemma completeIn_le : completeIn encode as n ≤ as.length := by
  induction as generalizing n with
  | nil => exact Nat.le_refl _
  | cons a as ih =>
      rw [completeIn, List.length_cons]
      split_ifs
      · exact Nat.succ_le_succ ih
      · exact Nat.zero_le _

/-- The first `i` records are complete exactly if they fit. -/
lemma le_completeIn {i : ℕ} (hi : i ≤ as.length) :
    i ≤ completeIn encode as n ↔ ((as.take i).flatMap encode).length ≤ n := by
  induction as generalizing n i with
  | nil =>
      obtain rfl : i = 0 := Nat.le_zero.mp hi
      exact ⟨fun _ => Nat.zero_le n, fun _ => Nat.zero_le _⟩
  | cons a as ih =>
      cases i with
      | zero => exact ⟨fun _ => Nat.zero_le n, fun _ => Nat.zero_le _⟩
      | succ i =>
          have ih := ih (n := n - (encode a).length) (Nat.le_of_succ_le_succ hi)
          rw [completeIn, List.take_succ_cons, List.flatMap_cons, List.length_append]
          split_ifs with hfit
          · rw [Nat.add_le_add_iff_right, ih]
            omega
          · omega

/-- **What is read of the first `n` elements of a stream**: the records complete in them. -/
lemma Framed.readAll_take (h : Framed r encode value Valid tail) (hvalid : ∀ a ∈ as, Valid a)
    (n : ℕ) : r.readAll ((as.flatMap encode ++ tail).take n) =
      .ok ((as.take (completeIn encode as n)).map value) := by
  induction as generalizing n with
  | nil => exact Reader.readAll_none (h.stop n)
  | cons a as ih =>
      have ha := hvalid a List.mem_cons_self
      rw [List.flatMap_cons, List.append_assoc, completeIn]
      split_ifs with hfit
      · have htake : (encode a ++ (as.flatMap encode ++ tail)).take n =
            encode a ++ (as.flatMap encode ++ tail).take (n - (encode a).length) := by
          rw [List.take_append, List.take_of_length_le hfit]
        rw [htake, Reader.readAll_some (h.complete a ha _),
          ih fun a ha => hvalid a (List.mem_cons_of_mem _ ha)]
        rfl
      · have htake : (encode a ++ (as.flatMap encode ++ tail)).take n = (encode a).take n :=
          List.take_append_of_le_length (Nat.le_of_not_le hfit)
        rw [htake, Reader.readAll_none (h.cut a ha n (Nat.lt_of_not_le hfit))]
        rfl

/-- The whole stream gives all records. -/
lemma Framed.readAll_stream (h : Framed r encode value Valid tail) (hvalid : ∀ a ∈ as, Valid a) :
    r.readAll (as.flatMap encode ++ tail) = .ok (as.map value) := by
  have htake := h.readAll_take hvalid (as.flatMap encode ++ tail).length
  have hall : as.length ≤ completeIn encode as (as.flatMap encode ++ tail).length := by
    rw [le_completeIn (Nat.le_refl _), List.take_length, List.length_append]
    exact Nat.le_add_right _ _
  rwa [List.take_length, List.take_of_length_le hall] at htake

end Braidinfer.Lib
