/-
Programs of several participants that meet at barriers.

All participants run the same list of phases: each does its own share of a phase, and a phase may
end in a barrier.  A state keeps what each participant has left to do and what it has done.

* `State.Inv.done_of_past`: once somebody is past the barrier of a phase, everybody has done all
  its shares up to that phase;
* `run_work`: a participant can do its share alone;
* `run_phases`: all participants can get through any number of phases.
-/
import Mathlib.Data.Fintype.EquivFin
import Mathlib.Data.List.Basic
import Braidinfer.Lib.Run
import Braidinfer.Lib.Barrier

namespace Braidinfer.Lib

namespace BarrierProgram

variable {ι ε : Type*}

/-- A phase: the share of every participant, and whether it ends in a barrier. -/
structure Phase (ι ε : Type*) where
  work : ι → List ε
  barrier : Bool

/-- An item of the program of a participant. -/
inductive Item (ε : Type*)
  | act (e : ε)
  | sync

/-- The actions among the items. -/
def acts : List (Item ε) → List ε
  | [] => []
  | .act e :: l => e :: acts l
  | .sync :: l => acts l

/-- The number of barriers among the items. -/
def syncs : List (Item ε) → ℕ
  | [] => 0
  | .act _ :: l => syncs l
  | .sync :: l => syncs l + 1

/-- The items of a phase. -/
def Phase.items (ph : Phase ι ε) (i : ι) : List (Item ε) :=
  (ph.work i).map .act ++ if ph.barrier then [.sync] else []

/-- The program of participant `i`. -/
def program (phs : List (Phase ι ε)) (i : ι) : List (Item ε) := phs.flatMap (·.items i)

section Items

variable {l l' : List (Item ε)} {phs phs' : List (Phase ι ε)} {i j : ι}

@[simp] lemma acts_append : acts (l ++ l') = acts l ++ acts l' := by
  induction l with
  | nil => rfl
  | cons x l ih => cases x <;> simp [acts, ih]

lemma acts_mono (h : l <+: l') : acts l <+: acts l' := by
  obtain ⟨r, rfl⟩ := h
  exact ⟨acts r, acts_append.symm⟩

@[simp] lemma syncs_append : syncs (l ++ l') = syncs l + syncs l' := by
  induction l with
  | nil => simp [syncs]
  | cons x l ih =>
      cases x with
      | act e => simp [syncs, ih]
      | sync =>
          simp only [List.cons_append, syncs, ih]
          omega

@[simp] lemma acts_map (es : List ε) : acts (es.map .act) = es := by
  induction es with
  | nil => rfl
  | cons e es ih => simp [acts, ih]

@[simp] lemma syncs_map (es : List ε) : syncs (es.map .act) = 0 := by
  induction es with
  | nil => rfl
  | cons e es ih => simp [syncs, ih]

lemma syncs_items (ph : Phase ι ε) (i : ι) : syncs (ph.items i) = ph.barrier.toNat := by
  rw [Phase.items, syncs_append, syncs_map]
  cases ph.barrier <;> rfl

lemma acts_items (ph : Phase ι ε) (i : ι) : acts (ph.items i) = ph.work i := by
  rw [Phase.items, acts_append, acts_map]
  cases ph.barrier <;> simp [acts]

lemma program_append : program (phs ++ phs') i = program phs i ++ program phs' i := by
  simp [program]

lemma program_cons (ph : Phase ι ε) : program (ph :: phs) i = ph.items i ++ program phs i := by
  simp [program]

/-- The actions of a program are the shares of its phases. -/
lemma acts_program : acts (program phs i) = phs.flatMap (·.work i) := by
  induction phs with
  | nil => rfl
  | cons ph phs ih => rw [program_cons, acts_append, acts_items, ih, List.flatMap_cons]

/-- All participants meet at the same number of barriers. -/
lemma syncs_program : syncs (program phs i) = syncs (program phs j) := by
  induction phs with
  | nil => rfl
  | cons ph phs ih =>
      rw [program_cons, program_cons, syncs_append, syncs_append, syncs_items, syncs_items, ih]

end Items

/-! ### Steps -/

/-- What everybody has left to do and has done, and the barrier. -/
@[ext]
structure State (ι ε : Type*) where
  rest : ι → List (Item ε)
  done : ι → List ε
  bar : Barrier ι

namespace State

/-- Nobody has done anything. -/
def init (phs : List (Phase ι ε)) : State ι ε := ⟨program phs, fun _ => [], Barrier.init⟩

/-- The invariant of a program: what is done and what is left make up the program, and the
arrivals count the barriers met. -/
structure Inv (phs : List (Phase ι ε)) (s : State ι ε) : Prop where
  split : ∀ i, ∃ pre, program phs i = pre ++ s.rest i ∧ s.done i = acts pre ∧
    s.bar.arrived i = syncs pre + (s.bar.waiting i).toNat
  waiting : ∀ i, s.bar.waiting i = true → ∃ l, s.rest i = .sync :: l
  bar_ok : s.bar.Ok

lemma init_inv (phs : List (Phase ι ε)) : (init phs).Inv phs where
  split := fun _ => ⟨[], rfl, rfl, rfl⟩
  waiting := fun _ h => Bool.noConfusion h
  bar_ok := Barrier.init_ok

variable [DecidableEq ι]

/-- A step of participant `i`. -/
inductive Step : State ι ε → ι → State ι ε → Prop
  | act {s : State ι ε} {i : ι} {e : ε} {l : List (Item ε)} (h : s.rest i = .act e :: l) :
      Step s i ⟨Function.update s.rest i l, Function.update s.done i (s.done i ++ [e]), s.bar⟩
  | arrive {s : State ι ε} {i : ι} {l : List (Item ε)} (h : s.rest i = .sync :: l)
      (hw : s.bar.waiting i = false) : Step s i ⟨s.rest, s.done, s.bar.arrive i⟩
  | pass {s : State ι ε} {i : ι} {l : List (Item ε)} (h : s.rest i = .sync :: l)
      (hw : s.bar.waiting i = true) (ho : s.bar.Opens i) :
      Step s i ⟨Function.update s.rest i l, s.done, s.bar.pass i⟩

variable {phs : List (Phase ι ε)} {s t : State ι ε} {i j : ι}

namespace Inv

/-- Every step keeps the invariant. -/
theorem step (h : s.Inv phs) (hs : Step s i t) : t.Inv phs := by
  have hnot : ∀ {e l}, s.rest i = .act e :: l → s.bar.waiting i = false := by
    intro e l hr
    by_contra hcon
    obtain ⟨l', hl'⟩ := h.waiting i (Bool.not_eq_false _ ▸ hcon)
    exact absurd (hr.symm.trans hl') (by simp)
  cases hs with
  | @act e l hr =>
      refine ⟨fun j => ?_, fun j hj => ?_, h.bar_ok⟩
      · by_cases hji : j = i
        · subst hji
          obtain ⟨pre, hprog, hdone, harr⟩ := h.split j
          refine ⟨pre ++ [.act e], ?_, ?_, ?_⟩
          · simp [hprog, hr]
          · simp [hdone, acts]
          · simp [harr, syncs]
        · simpa [Function.update_of_ne hji] using h.split j
      · by_cases hji : j = i
        · subst hji
          exact absurd (hnot hr) (by simp [show s.bar.waiting j = true from hj])
        · simpa [Function.update_of_ne hji] using h.waiting j hj
  | @arrive l hr hw =>
      refine ⟨fun j => ?_, fun j hj => ?_, h.bar_ok.arrive hw⟩
      · obtain ⟨pre, hprog, hdone, harr⟩ := h.split j
        refine ⟨pre, hprog, hdone, ?_⟩
        by_cases hji : j = i
        · subst hji
          simp [harr, hw]
        · simpa [Barrier.arrive_arrived_of_ne hji, Barrier.arrive_waiting_of_ne hji] using harr
      · by_cases hji : j = i
        · subst hji
          exact ⟨l, hr⟩
        · exact h.waiting j (by simpa [Barrier.arrive_waiting_of_ne hji] using hj)
  | @pass l hr hw ho =>
      refine ⟨fun j => ?_, fun j hj => ?_, h.bar_ok.pass ho⟩
      · obtain ⟨pre, hprog, hdone, harr⟩ := h.split j
        by_cases hji : j = i
        · subst hji
          refine ⟨pre ++ [.sync], ?_, ?_, ?_⟩
          · simp [hprog, hr]
          · simp [hdone, acts]
          · simp [harr, hw, syncs]
        · refine ⟨pre, ?_, hdone, ?_⟩
          · simpa [Function.update_of_ne hji] using hprog
          · simpa [Barrier.pass_waiting_of_ne hji] using harr
      · by_cases hji : j = i
        · subst hji
          exact absurd hj (by simp)
        · simpa [Function.update_of_ne hji] using
            h.waiting j (by simpa [Barrier.pass_waiting_of_ne hji] using hj)

theorem of_run {is : List ι} (hr : Run Step (init phs) is s) : s.Inv phs :=
  hr.invariant (fun _ _ _ h hs => h.step hs) (init_inv phs)

omit [DecidableEq ι] in
/-- **A barrier passed by one is met by all.**  When participant `i` has left the barrier at the
end of `phs₁ ++ [ph]`, every participant has done all its shares up to there. -/
theorem done_of_past {phs₁ phs₂ : List (Phase ι ε)} {ph : Phase ι ε}
    (h : s.Inv (phs₁ ++ ph :: phs₂)) (hb : ph.barrier = true) {pre : List (Item ε)}
    (hpre : program (phs₁ ++ ph :: phs₂) i = pre ++ s.rest i)
    (hpast : program (phs₁ ++ [ph]) i <+: pre) (j : ι) :
    acts (program (phs₁ ++ [ph]) j) <+: s.done j := by
  obtain ⟨prei, hprogi, -, harri⟩ := h.split i
  have hprei : prei = pre := List.append_cancel_right (hprogi.symm.trans hpre)
  subst hprei
  obtain ⟨prej, hprogj, hdonej, harrj⟩ := h.split j
  have hmet : syncs (program (phs₁ ++ [ph]) j) ≤ syncs prej + (s.bar.waiting j).toNat := by
    have hle : s.bar.passed i ≤ s.bar.arrived j := h.bar_ok i j
    have hpassed : s.bar.passed i = syncs prei := by
      rw [Barrier.passed, harri]
      omega
    obtain ⟨r, hr⟩ := hpast
    have hsyncs : syncs prei = syncs (program (phs₁ ++ [ph]) i) + syncs r := by
      rw [← hr, syncs_append]
    have heq : syncs (program (phs₁ ++ [ph]) i) = syncs (program (phs₁ ++ [ph]) j) :=
      syncs_program
    omega
  have hends : program (phs₁ ++ [ph]) j = (program phs₁ j ++ (ph.work j).map .act) ++ [.sync] := by
    simp [program, Phase.items, hb]
  have hfull : program (phs₁ ++ ph :: phs₂) j
      = program (phs₁ ++ [ph]) j ++ program phs₂ j := by
    rw [← program_append, List.append_assoc]
    rfl
  rw [hdonej]
  -- either `j` is past that barrier too, or it stands right before it
  rcases le_or_gt (program (phs₁ ++ [ph]) j).length prej.length with hlen | hlen
  · have hp : program (phs₁ ++ [ph]) j <+: prej :=
      List.prefix_of_prefix_length_le ⟨_, hfull.symm⟩ ⟨_, hprogj.symm⟩ hlen
    exact acts_mono hp
  · generalize hq : program phs₁ j ++ (ph.work j).map .act = q at hends
    have hlenq : prej.length ≤ q.length := by
      rw [hends, List.length_append, List.length_singleton] at hlen
      omega
    have hpq : prej <+: q := by
      refine List.prefix_of_prefix_length_le ⟨_, hprogj.symm⟩ ?_ hlenq
      exact ⟨[.sync] ++ program phs₂ j, by rw [hfull, hends, List.append_assoc]⟩
    obtain ⟨r, hr⟩ := hpq
    have hcount : syncs q + 1 ≤ syncs prej + (s.bar.waiting j).toNat := by
      have : syncs (program (phs₁ ++ [ph]) j) = syncs q + 1 := by
        rw [hends, syncs_append]
        rfl
      omega
    have hsplit : syncs q = syncs prej + syncs r := by rw [← hr, syncs_append]
    have hwait : s.bar.waiting j = true := by
      cases hw : s.bar.waiting j with
      | true => rfl
      | false =>
          simp only [hw, Bool.toNat_false] at hcount
          omega
    have hsync : syncs r = 0 := by
      simp only [hwait, Bool.toNat_true] at hcount
      omega
    obtain ⟨l, hl⟩ := h.waiting j hwait
    have hrest : r ++ .sync :: program phs₂ j = .sync :: l := by
      rw [← hl]
      have hcancel : prej ++ (r ++ .sync :: program phs₂ j) = prej ++ s.rest j := by
        rw [← List.append_assoc, hr, ← hprogj, hfull, hends]
        simp
      exact List.append_cancel_left hcancel
    have hnil : r = [] := by
      cases r with
      | nil => rfl
      | cons x r' =>
          simp only [List.cons_append, List.cons.injEq] at hrest
          rw [hrest.1, syncs] at hsync
          omega
    have hacts : acts (program (phs₁ ++ [ph]) j) = acts prej := by
      rw [hends, ← hr, hnil]
      simp [acts]
    rw [hacts]

end Inv

/-! ### Runs that can be made -/

/-- A participant can do its next actions alone. -/
lemma run_work (es : List ε) {l : List (Item ε)} (h : s.rest i = es.map .act ++ l) :
    ∃ is, Run Step s is
      ⟨Function.update s.rest i l, Function.update s.done i (s.done i ++ es), s.bar⟩ := by
  induction es generalizing s with
  | nil =>
      refine ⟨[], ?_⟩
      have hl : l = s.rest i := h.symm
      rw [List.append_nil, Function.update_eq_self, hl, Function.update_eq_self]
      exact .nil
  | cons e es ih =>
      have hr : s.rest i = .act e :: (es.map .act ++ l) := h
      obtain ⟨is, hrun⟩ := ih (s := ⟨Function.update s.rest i (es.map .act ++ l),
        Function.update s.done i (s.done i ++ [e]), s.bar⟩) (by simp)
      refine ⟨[i] ++ is, (Run.nil.snoc (Step.act hr)).append ?_⟩
      simpa using hrun

/-- When each participant can move on its own, all of them can; `S p` is the state in which
those with `p` have moved. -/
lemma run_each [Finite ι] (S : (ι → Bool) → State ι ε)
    (h : ∀ p i, p i = false → ∃ is, Run Step (S p) is (S (Function.update p i true))) :
    ∃ is, Run Step (S fun _ => false) is (S fun _ => true) := by
  cases nonempty_fintype ι
  have hsub : ∀ t : Finset ι, ∃ is, Run Step (S fun _ => false) is (S fun j => decide (j ∈ t)) := by
    intro t
    induction t using Finset.induction_on with
    | empty => exact ⟨[], by simpa using Run.nil⟩
    | insert i t hi ih =>
        obtain ⟨is, hr⟩ := ih
        obtain ⟨is', hr'⟩ := h (fun j => decide (j ∈ t)) i (by simpa using hi)
        have hup : Function.update (fun j => decide (j ∈ t)) i true
            = fun j => decide (j ∈ insert i t) := by
          funext j
          by_cases hj : j = i
          · subst hj
            simp
          · simp [hj]
        exact ⟨is ++ is', by rw [← hup]; exact hr.append hr'⟩
  simpa using hsub Finset.univ

section Stages

variable [Finite ι] (d : ι → List ε) (c : ℕ) (l : ι → List (Item ε))

/-- Everybody can do its share. -/
lemma run_shares (w : ι → List ε) :
    ∃ is, Run Step ⟨fun j => (w j).map .act ++ l j, d, ⟨fun _ => c, fun _ => false⟩⟩ is
      ⟨l, fun j => d j ++ w j, ⟨fun _ => c, fun _ => false⟩⟩ := by
  have h := run_each (fun p => ⟨fun j => if p j then l j else (w j).map .act ++ l j,
    fun j => if p j then d j ++ w j else d j, ⟨fun _ => c, fun _ => false⟩⟩) ?_
  · simpa using h
  intro p i hp
  obtain ⟨is, hr⟩ := run_work (i := i) (w i) (l := l i)
    (s := ⟨fun j => if p j then l j else (w j).map .act ++ l j,
      fun j => if p j then d j ++ w j else d j, ⟨fun _ => c, fun _ => false⟩⟩) (by simp [hp])
  refine ⟨is, ?_⟩
  convert hr using 1
  refine State.ext ?_ ?_ rfl
  · funext j
    by_cases hj : j = i
    · subst hj
      simp
    · simp [Function.update_of_ne hj]
  · funext j
    by_cases hj : j = i
    · subst hj
      simp [hp]
    · simp [Function.update_of_ne hj]

/-- Everybody can arrive at a barrier. -/
lemma run_arrivals :
    ∃ is, Run Step ⟨fun j => .sync :: l j, d, ⟨fun _ => c, fun _ => false⟩⟩ is
      ⟨fun j => .sync :: l j, d, ⟨fun _ => c + 1, fun _ => true⟩⟩ := by
  have h := run_each (fun p => ⟨fun j => .sync :: l j, d,
    ⟨fun j => if p j then c + 1 else c, p⟩⟩) ?_
  · simpa using h
  intro p i hp
  refine ⟨[i], ?_⟩
  have hr := Run.nil.snoc (Step.arrive
    (s := ⟨fun j => .sync :: l j, d, ⟨fun j => if p j then c + 1 else c, p⟩⟩) rfl hp)
  rw [List.nil_append] at hr
  convert hr using 1
  refine State.ext ?_ ?_ (Barrier.ext ?_ ?_)
  · rfl
  · rfl
  · funext j
    by_cases hj : j = i
    · subst hj
      simp [hp]
    · rw [Barrier.arrive_arrived_of_ne hj]
      simp [Function.update_of_ne hj]
  · rfl

/-- Everybody can leave a barrier at which all have arrived. -/
lemma run_departures :
    ∃ is, Run Step ⟨fun j => .sync :: l j, d, ⟨fun _ => c, fun _ => true⟩⟩ is
      ⟨l, d, ⟨fun _ => c, fun _ => false⟩⟩ := by
  have h := run_each (fun p => ⟨fun j => if p j then l j else .sync :: l j, d,
    ⟨fun _ => c, fun j => !p j⟩⟩) ?_
  · simpa using h
  intro p i hp
  refine ⟨[i], ?_⟩
  have hr := Run.nil.snoc (Step.pass (i := i) (l := l i)
    (s := ⟨fun j => if p j then l j else .sync :: l j, d, ⟨fun _ => c, fun j => !p j⟩⟩)
    (by simp [hp]) (by simp [hp]) (fun _ => le_refl _))
  rw [List.nil_append] at hr
  convert hr using 1
  refine State.ext ?_ ?_ (Barrier.ext ?_ ?_)
  · funext j
    by_cases hj : j = i
    · subst hj
      simp
    · simp [Function.update_of_ne hj]
  · rfl
  · rfl
  · funext j
    by_cases hj : j = i
    · subst hj
      simp
    · rw [Barrier.pass_waiting_of_ne hj]
      simp [Function.update_of_ne hj]

end Stages

/-- Everybody has done `d` and stands before the phases `phs`, after `c` barriers. -/
def level (phs : List (Phase ι ε)) (d : ι → List ε) (c : ℕ) : State ι ε :=
  ⟨program phs, d, ⟨fun _ => c, fun _ => false⟩⟩

/-- All participants can get through a phase. -/
lemma run_phase [Finite ι] (ph : Phase ι ε) (phs : List (Phase ι ε)) (d : ι → List ε) (c : ℕ) :
    ∃ is c', Run Step (level (ph :: phs) d c) is
      (level phs (fun j => d j ++ ph.work j) c') := by
  cases hb : ph.barrier with
  | false =>
      have hprog : program (ph :: phs) = fun j => (ph.work j).map .act ++ program phs j := by
        funext j
        simp [program_cons, Phase.items, hb]
      obtain ⟨is, hr⟩ := run_shares d c (program phs) ph.work
      exact ⟨is, c, by rw [level, hprog]; exact hr⟩
  | true =>
      have hprog : program (ph :: phs)
          = fun j => (ph.work j).map .act ++ .sync :: program phs j := by
        funext j
        simp [program_cons, Phase.items, hb]
      obtain ⟨is, hr⟩ := run_shares d c (fun j => .sync :: program phs j) ph.work
      obtain ⟨is₁, hr₁⟩ := run_arrivals (fun j => d j ++ ph.work j) c (program phs)
      obtain ⟨is₂, hr₂⟩ := run_departures (fun j => d j ++ ph.work j) (c + 1) (program phs)
      refine ⟨is ++ is₁ ++ is₂, c + 1, ?_⟩
      rw [level, hprog]
      exact (hr.append hr₁).append hr₂

/-- **Lockstep**: all participants can get through any number of phases. -/
theorem run_phases [Finite ι] (phs phs' : List (Phase ι ε)) (d : ι → List ε) (c : ℕ) :
    ∃ is c', Run Step (level (phs ++ phs') d c) is
      (level phs' (fun j => d j ++ acts (program phs j)) c') := by
  induction phs generalizing d c with
  | nil => exact ⟨[], c, by simpa [program, acts] using Run.nil⟩
  | cons ph phs ih =>
      obtain ⟨is, c₁, hr⟩ := run_phase ph (phs ++ phs') d c
      obtain ⟨is', c', hr'⟩ := ih (fun j => d j ++ ph.work j) c₁
      refine ⟨is ++ is', c', hr.append ?_⟩
      simpa [program_cons, acts_items] using hr'

end State

end BarrierProgram

end Braidinfer.Lib
