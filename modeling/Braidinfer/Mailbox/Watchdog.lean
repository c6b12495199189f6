/-
The watchdog of a persistent worker (`watchdog.rs`, `rdna3_persistent.h`).

The worker counts its beats in a 32-bit word of its own, publishes the count at the first beat and
at every hundredth, and starts every batch from the count it last published.  The host thread
samples the published count and the `exited` flag and sets `force_exit` when neither has moved for
`no_progress`.  The beat inside `op_moe_ffn_remote`, which has a counter of its own, is left out.

* `step`: one access of the worker or of the host thread;
* `published`: what the worker has published, from the beats of each of its batches;
* `Stalls`: two polls at least `no_progress` apart that find the worker busy, as do all polls
  between them, while no batch makes its next hundredth beat;
* `forceExit_iff`: **the host sets `force_exit` exactly in the runs that stall**.
-/
import Mathlib.Data.List.Chain
import Mathlib.Tactic
import Braidinfer.Lib.Run

namespace Braidinfer.Mailbox

open Braidinfer.Lib

namespace Watchdog

/-! ### The code -/

/-- `WatchdogConfig`, in milliseconds, of a thread that is not disabled. -/
structure Config where
  noProgress : ℕ
  grace : ℕ
  enabled : noProgress ≠ 0

/-- Where the leading thread of the worker is. -/
inductive Phase
  /-- at the top of the loop, before `watchdog_signal_exited` -/
  | looping
  /-- in the poll barrier -/
  | idle
  /-- before `watchdog_poll_and_check`, with a batch of `n` instructions -/
  | checking (n : ℕ)
  /-- before the beat of the batch -/
  | starting (n : ℕ)
  /-- `n` instructions left -/
  | running (n : ℕ)
  /-- the kernel has returned -/
  | returned
deriving DecidableEq, Repr

/-- What the host thread has read of a poll: the clock, the count, and how many instructions the
worker had completed (which the host does not see). -/
structure Sample where
  now : ℕ
  counter : ℕ
  completed : ℕ
deriving DecidableEq, Repr

/-- `WatchdogEntry`. -/
structure Entry where
  lastProgress : ℕ
  lastProgressAt : ℕ
  forceExitSentAt : Option ℕ
  hasStarted : Bool
deriving DecidableEq, Repr

/-- `WatchdogState`, the worker and the host thread. -/
structure State where
  forceExit : Bool
  exited : Bool
  progressCounter : ℕ
  phase : Phase
  beatCtr : ℕ
  completed : ℕ
  entry : Entry
  /-- the clock of the last poll -/
  clock : ℕ
  pending : Option Sample
  aborted : Bool
deriving DecidableEq, Repr

/-- `register`, and the launch of the worker. -/
def register (now : ℕ) : State where
  forceExit := false
  exited := false
  progressCounter := 0
  phase := .looping
  beatCtr := 0
  completed := 0
  entry := ⟨0, now, none, false⟩
  clock := now
  pending := none
  aborted := false

/-- `watchdog_init`. -/
def watchdogInit (s : State) : State :=
  { s with beatCtr := s.progressCounter % 2 ^ 32, exited := false }

/-- `watchdog_signal_exited`. -/
def watchdogSignalExited (s : State) : State := { s with exited := true }

/-- `watchdog_beat`. -/
def watchdogBeat (s : State) : State :=
  let c := (s.beatCtr + 1) % 2 ^ 32
  { s with
    beatCtr := c
    progressCounter := if c = 1 ∨ c % 100 = 0 then c else s.progressCounter }

/-- The rest of a poll of `watchdog_thread_main`, after the count was read: it reads `exited`. -/
def pollEntry (cfg : Config) (s : State) (p : Sample) : State :=
  if s.exited then
    { s with entry := ⟨p.counter, p.now, none, s.entry.hasStarted⟩ }
  else if s.entry.lastProgress < p.counter then
    { s with entry := ⟨p.counter, p.now, none, true⟩ }
  else if !s.entry.hasStarted then s
  else if p.now - s.entry.lastProgressAt < cfg.noProgress then s
  else match s.entry.forceExitSentAt with
    | none =>
      { s with forceExit := true, entry := { s.entry with forceExitSentAt := some p.now } }
    | some sentAt =>
      if p.now - sentAt < cfg.grace then s
      -- the worker moved after `force_exit`
      else if s.progressCounter ≠ p.counter then
        { s with entry := ⟨s.progressCounter, p.now, none, s.entry.hasStarted⟩ }
      else { s with forceExit := true, aborted := true }

/-- The accesses of the worker and of the host. -/
inductive Event
  | signalExited
  /-- a batch of `n` instructions arrives, and `watchdog_init` -/
  | take (n : ℕ)
  | shutdown
  | check
  /-- the beat of the batch -/
  | beat
  /-- an instruction completes, and its beat -/
  | exec
  /-- `OP_HALT` -/
  | halt
  | ack
  /-- the host reads the clock and the count -/
  | sample (now : ℕ)
  /-- the host reads `exited` and acts -/
  | poll
deriving DecidableEq, Repr

/-- One access.  The clock of the host does not run backwards. -/
def step (cfg : Config) (s : State) : Event → Option State
  | .signalExited =>
    if s.phase = .looping then some (watchdogSignalExited { s with phase := .idle }) else none
  | .take n =>
    if s.phase = .idle then some (watchdogInit { s with phase := .checking n }) else none
  | .shutdown => if s.phase = .idle then some { s with phase := .returned } else none
  | .check =>
    match s.phase with
    | .checking n => some { s with phase := if s.forceExit then .returned else .starting n }
    | _ => none
  | .beat =>
    match s.phase with
    | .starting n => some (watchdogBeat { s with phase := .running n })
    | _ => none
  | .exec =>
    match s.phase with
    | .running (n + 1) =>
      some (watchdogBeat { s with phase := .running n, completed := s.completed + 1 })
    | _ => none
  | .halt =>
    match s.phase with
    | .running (_ + 1) => some { s with phase := .returned }
    | _ => none
  | .ack => if s.phase = .running 0 then some { s with phase := .looping } else none
  | .sample now =>
    if s.pending = none ∧ s.clock ≤ now ∧ s.aborted = false then
      some { s with pending := some ⟨now, s.progressCounter, s.completed⟩, clock := now }
    else none
  | .poll =>
    match s.pending with
    | some p => some (pollEntry cfg { s with pending := none } p)
    | none => none

/-! ### Polls -/

/-- What a poll found: the host reads the clock, the count and the flag; the instructions
completed and the beats made, in each batch, the latest first, are the worker's. -/
structure Poll where
  now : ℕ
  counter : ℕ
  completed : ℕ
  beats : List ℕ
  idle : Bool
deriving DecidableEq

/-- The past of a run: the beats made in each batch, the latest batch first, those at the last
sample, and the polls, newest first. -/
structure Past where
  beats : List ℕ
  sampled : List ℕ
  polls : List Poll

/-- The past of a run that starts. -/
def Past.init : Past := ⟨[], [], []⟩

/-- One more beat of the latest batch. -/
def oneMore : List ℕ → List ℕ
  | [] => []
  | k :: ks => (k + 1) :: ks

/-- What an access adds to the past. -/
def record (s : State) (e : Event) (_ : State) (past : Past) : Past :=
  match e with
  | .take _ => { past with beats := 0 :: past.beats }
  | .beat | .exec => { past with beats := oneMore past.beats }
  | .sample _ => { past with sampled := past.beats }
  | .poll =>
    match s.pending with
    | some p =>
      { past with polls :=
          ⟨p.now, p.counter, p.completed, past.sampled, s.exited⟩ :: past.polls }
    | none => past
  | _ => past

/-- The system, with the record of its past. -/
def Step (cfg : Config) : State × Past → Event → State × Past → Prop :=
  tracked record fun s e t => step cfg s e = some t

/-- Between consecutive polls the worker completes an instruction, or the later one finds it
idle. -/
def Healthy (polls : List Poll) : Prop :=
  polls.IsChain fun later earlier => later.idle = true ∨ earlier.completed < later.completed

instance : DecidablePred Healthy := fun polls =>
  inferInstanceAs (Decidable (polls.IsChain _))

/-- The count after `k` beats of a batch that starts from the published count `P`: the very first
beat and every hundredth one are published. -/
def countAfter (P k : ℕ) : ℕ := max (max P (min k 1)) ((P + k) / 100 * 100)

/-- What the worker has published, from the beats of its batches, the latest batch first: each
batch starts from the count published before it. -/
def published : List ℕ → ℕ
  | [] => 0
  | k :: ks => countAfter (published ks) k

/-- The beats at the last of the polls. -/
def beatsAt (polls : List Poll) : List ℕ := (polls.head?.map Poll.beats).getD []

/-- The poll finds the worker busy, and a beat to publish has been made since the poll before. -/
def SeesBeat (r : Poll) (earlier : List Poll) : Prop :=
  r.idle = false ∧ published (beatsAt earlier) < published r.beats

/-- **A stall**: two polls `q` and `p`, at least `no_progress` apart, with no beat to publish
between them; all polls after `q` up to `p` find the worker busy; and `q`, or a poll before it, has
seen a beat. -/
def Stalls (cfg : Config) (polls : List Poll) : Prop :=
  ∃ later p stretch q earlier, polls = later ++ p :: (stretch ++ q :: earlier) ∧
    cfg.noProgress ≤ p.now - q.now ∧ (∀ r ∈ p :: stretch, r.idle = false) ∧
    published p.beats = published q.beats ∧
    ∃ mid r before, q :: earlier = mid ++ r :: before ∧ SeesBeat r before

/-! ### The test of the host -/

/-- The highest count that the polls have seen since they last found the worker idle. -/
def best : List Poll → ℕ
  | [] => 0
  | p :: earlier => if p.idle then p.counter else max p.counter (best earlier)

/-- The poll finds the worker idle, or a higher count. -/
def News (p : Poll) (earlier : List Poll) : Prop := p.idle = true ∨ best earlier < p.counter

/-- Some poll has found a higher count at a busy worker: from then on the timeout is enforced. -/
def Armed : List Poll → Prop
  | [] => False
  | p :: earlier => (p.idle = false ∧ best earlier < p.counter) ∨ Armed earlier

/-- A poll at least `no_progress` before `now`, with no news at the polls after it. -/
def Quiet (cfg : Config) (now : ℕ) : List Poll → Prop
  | [] => False
  | p :: earlier =>
    cfg.noProgress ≤ now - p.now ∨ (¬ News p earlier ∧ Quiet cfg now earlier)

/-- The poll starves: it brings no news, and there has been none for `no_progress`. -/
def Starved (cfg : Config) (p : Poll) (earlier : List Poll) : Prop :=
  Armed earlier ∧ ¬ News p earlier ∧ Quiet cfg p.now earlier

/-- Some poll of the run starves. -/
def Starves (cfg : Config) : List Poll → Prop
  | [] => False
  | p :: earlier => Starved cfg p earlier ∨ Starves cfg earlier

/-! ### The timer -/

variable {cfg : Config} {s t : State} {e : Event} {polls : List Poll} {p : Sample}

/-- The worker touches nothing of the host. -/
lemma step_worker (h : step cfg s e = some t) (hsample : ∀ now, e ≠ .sample now)
    (hpoll : e ≠ .poll) :
    t.entry = s.entry ∧ t.forceExit = s.forceExit ∧ t.clock = s.clock ∧
      t.pending = s.pending := by
  cases e with
  | sample now => exact absurd rfl (hsample now)
  | poll => exact absurd rfl hpoll
  | signalExited | take n | shutdown | ack =>
    simp only [step] at h
    split at h
    · cases h
      exact ⟨rfl, rfl, rfl, rfl⟩
    · cases h
  | check | beat | exec | halt =>
    simp only [step] at h
    split at h
    · cases h
      exact ⟨rfl, rfl, rfl, rfl⟩
    · cases h

/-- While `force_exit` is not set, the entry of the host is what the polls say. -/
structure Agrees (cfg : Config) (s : State) (polls : List Poll) : Prop where
  sent : s.entry.forceExitSentAt = none
  progress : s.entry.lastProgress = best polls
  started : s.entry.hasStarted = true ↔ Armed polls
  at_le : s.entry.lastProgressAt ≤ s.clock
  stall : Armed polls → ∀ now, s.clock ≤ now →
    (cfg.noProgress ≤ now - s.entry.lastProgressAt ↔ Quiet cfg now polls)
  starves : ¬ Starves cfg polls

/-- The invariant of the watchdog. -/
structure Inv (cfg : Config) (s : State) (polls : List Poll) : Prop where
  pending : ∀ p, s.pending = some p → p.now = s.clock
  calm : s.forceExit = false → Agrees cfg s polls
  forced : s.forceExit = true → Starves cfg polls

lemma inv_register (now : ℕ) : Inv cfg (register now) [] where
  pending := by simp [register]
  calm := by
    intro _
    exact ⟨rfl, rfl, by simp [register, Armed], le_rfl, by simp [Armed], by simp [Starves]⟩
  forced := by simp [register]

/-- What a poll that brings news leaves. -/
lemma Agrees.news (h : Agrees cfg s polls) {q : Poll} (hnews : News q polls)
    (hnow : q.now = s.clock) {t : State} (hclock : t.clock = s.clock)
    (hentry : t.entry = ⟨q.counter, q.now, none, s.entry.hasStarted || !q.idle⟩) :
    Agrees cfg t (q :: polls) where
  sent := by rw [hentry]
  progress := by
    rw [hentry, best]
    split
    · rfl
    · rename_i hidle
      have hlt := hnews.resolve_left hidle
      exact (max_eq_left hlt.le).symm
  started := by
    rw [hentry, Armed]
    simp only [Bool.or_eq_true, Bool.not_eq_true', h.started]
    constructor
    · rintro (harmed | hidle)
      · exact Or.inr harmed
      · exact Or.inl ⟨hidle, hnews.resolve_left (by simp [hidle])⟩
    · rintro (⟨hidle, -⟩ | harmed)
      · exact Or.inr hidle
      · exact Or.inl harmed
  at_le := by rw [hentry, hclock, hnow]
  stall := by
    intro _ now _
    rw [hentry, Quiet]
    simp [hnews]
  starves := by
    rintro (hstarved | hstarves)
    · exact hstarved.2.1 hnews
    · exact h.starves hstarves

/-- What a poll that brings no news leaves, if it does not starve. -/
lemma Agrees.noNews (h : Agrees cfg s polls) {q : Poll} (hnews : ¬ News q polls)
    (hstarved : ¬ Starved cfg q polls) (hnow : q.now = s.clock) {t : State}
    (hclock : t.clock = s.clock) (hentry : t.entry = s.entry) :
    Agrees cfg t (q :: polls) where
  sent := by rw [hentry, h.sent]
  progress := by
    have hle : q.counter ≤ best polls := Nat.le_of_not_lt fun hlt => hnews (Or.inr hlt)
    have hidle : ¬ q.idle = true := fun hidle => hnews (Or.inl hidle)
    rw [hentry, h.progress, best, if_neg hidle, max_eq_right hle]
  started := by
    rw [hentry, h.started, Armed]
    exact ⟨Or.inr, fun harmed => harmed.resolve_left fun hhigh => hnews (Or.inr hhigh.2)⟩
  at_le := by rw [hentry, hclock]; exact h.at_le
  stall := by
    intro harmed now hle
    rw [hclock] at hle
    have harmed' : Armed polls := harmed.resolve_left fun hhigh => hnews (Or.inr hhigh.2)
    have hat := h.at_le
    rw [hentry, Quiet, ← h.stall harmed' now hle]
    constructor
    · intro hstall
      exact Or.inr ⟨hnews, hstall⟩
    · rintro (hlong | ⟨-, hstall⟩)
      · omega
      · exact hstall
  starves := by
    rintro (hstarved' | hstarves)
    · exact hstarved hstarved'
    · exact h.starves hstarves

/-- A poll keeps the clock, and never clears `force_exit`. -/
lemma pollEntry_frame (cfg : Config) (s : State) (p : Sample) :
    (pollEntry cfg s p).clock = s.clock ∧ (pollEntry cfg s p).pending = s.pending ∧
      (s.forceExit = true → (pollEntry cfg s p).forceExit = true) := by
  unfold pollEntry
  split
  · exact ⟨rfl, rfl, id⟩
  split
  · exact ⟨rfl, rfl, id⟩
  split
  · exact ⟨rfl, rfl, id⟩
  split
  · exact ⟨rfl, rfl, id⟩
  split
  · exact ⟨rfl, rfl, fun _ => rfl⟩
  split
  · exact ⟨rfl, rfl, id⟩
  split
  · exact ⟨rfl, rfl, id⟩
  · exact ⟨rfl, rfl, fun _ => rfl⟩

/-- **One poll** of a host that has not set `force_exit`: it sets it exactly when the poll
starves. -/
lemma Agrees.poll (h : Agrees cfg s polls) (beats : List ℕ) (hforce : s.forceExit = false)
    (hnow : p.now = s.clock) :
    ((pollEntry cfg s p).forceExit = false ∧
      Agrees cfg (pollEntry cfg s p)
        (⟨p.now, p.counter, p.completed, beats, s.exited⟩ :: polls)) ∨
    ((pollEntry cfg s p).forceExit = true ∧
      Starved cfg ⟨p.now, p.counter, p.completed, beats, s.exited⟩ polls) := by
  unfold pollEntry
  by_cases hexited : s.exited = true
  · refine Or.inl ?_
    rw [if_pos hexited]
    exact ⟨hforce, h.news (Or.inl hexited) hnow rfl (by simp [hexited])⟩
  rw [if_neg hexited]
  have hbusy : s.exited = false := Bool.eq_false_iff.2 hexited
  by_cases hcounter : s.entry.lastProgress < p.counter
  · refine Or.inl ?_
    rw [if_pos hcounter]
    have hnews : News ⟨p.now, p.counter, p.completed, beats, s.exited⟩ polls :=
      Or.inr (by rw [← h.progress]; exact hcounter)
    exact ⟨hforce, h.news hnews hnow rfl (by simp [hbusy])⟩
  rw [if_neg hcounter]
  have hnews : ¬ News ⟨p.now, p.counter, p.completed, beats, s.exited⟩ polls := by
    rintro (hidle | hhigh)
    · exact hexited hidle
    · exact hcounter (by rw [h.progress]; exact hhigh)
  by_cases hstarted : s.entry.hasStarted = true
  swap
  · refine Or.inl ?_
    rw [if_pos (by simpa using hstarted)]
    have hunarmed : ¬ Armed polls := fun harmed => hstarted (h.started.2 harmed)
    exact ⟨hforce, h.noNews hnews (fun hstarved => hunarmed hstarved.1) hnow rfl rfl⟩
  rw [if_neg (by simpa using hstarted)]
  have harmed : Armed polls := h.started.1 hstarted
  have hstall := h.stall harmed p.now hnow.ge
  by_cases hshort : p.now - s.entry.lastProgressAt < cfg.noProgress
  · refine Or.inl ?_
    rw [if_pos hshort]
    have hquiet : ¬ Quiet cfg p.now polls := fun hquiet => by
      have := hstall.2 hquiet
      omega
    exact ⟨hforce, h.noNews hnews (fun hstarved => hquiet hstarved.2.2) hnow rfl rfl⟩
  · refine Or.inr ?_
    rw [if_neg hshort, h.sent]
    exact ⟨rfl, harmed, hnews, hstall.1 (by omega)⟩

lemma Inv.pollStep (h : Inv cfg s polls) (hpending : s.pending = some p) (beats : List ℕ) :
    Inv cfg (pollEntry cfg { s with pending := none } p)
      (⟨p.now, p.counter, p.completed, beats, s.exited⟩ :: polls) := by
  have hnow := h.pending p hpending
  have hframe := pollEntry_frame cfg { s with pending := none } p
  have hnone : ∀ q, (pollEntry cfg { s with pending := none } p).pending = some q →
      q.now = (pollEntry cfg { s with pending := none } p).clock := by
    intro q hq
    rw [hframe.2.1] at hq
    cases hq
  by_cases hforce : s.forceExit = true
  · have hset := hframe.2.2 hforce
    refine ⟨hnone, fun hclear => ?_, fun _ => Or.inr (h.forced hforce)⟩
    rw [hset] at hclear
    cases hclear
  · have hfalse : s.forceExit = false := Bool.eq_false_iff.2 hforce
    have hcalm := h.calm hfalse
    have hagrees : Agrees cfg { s with pending := none } polls :=
      ⟨hcalm.sent, hcalm.progress, hcalm.started, hcalm.at_le, hcalm.stall, hcalm.starves⟩
    rcases hagrees.poll beats hfalse hnow with ⟨hclear, hnext⟩ | ⟨hset, hstarved⟩
    · refine ⟨hnone, fun _ => hnext, fun hset => ?_⟩
      rw [hset] at hclear
      cases hclear
    · refine ⟨hnone, fun hclear => ?_, fun _ => Or.inl hstarved⟩
      rw [hset] at hclear
      cases hclear

lemma Inv.sampleStep (h : Inv cfg s polls) {now : ℕ} (hclock : s.clock ≤ now) :
    Inv cfg { s with
      pending := some ⟨now, s.progressCounter, s.completed⟩, clock := now } polls := by
  refine ⟨?_, ?_, h.forced⟩
  · rintro q ⟨⟩
    rfl
  · intro hforce
    have hcalm := h.calm hforce
    exact ⟨hcalm.sent, hcalm.progress, hcalm.started, hcalm.at_le.trans hclock,
      fun harmed later hlater => hcalm.stall harmed later (hclock.trans hlater), hcalm.starves⟩

lemma Inv.workerStep (h : Inv cfg s polls) (hentry : t.entry = s.entry)
    (hforce : t.forceExit = s.forceExit) (hclock : t.clock = s.clock)
    (hpending : t.pending = s.pending) : Inv cfg t polls := by
  refine ⟨?_, ?_, ?_⟩
  · rw [hpending, hclock]
    exact h.pending
  · intro hclear
    have hcalm := h.calm (hforce ▸ hclear)
    exact ⟨by rw [hentry, hcalm.sent], by rw [hentry, hcalm.progress],
      by rw [hentry, hcalm.started], by rw [hentry, hclock]; exact hcalm.at_le,
      by rw [hentry, hclock]; exact hcalm.stall, hcalm.starves⟩
  · intro hset
    exact h.forced (hforce ▸ hset)

/-- Every access keeps the invariant. -/
lemma Inv.step {past past' : Past} (h : Inv cfg s past.polls)
    (hstep : Step cfg (s, past) e (t, past')) : Inv cfg t past'.polls := by
  obtain ⟨hst, hrec⟩ := hstep
  simp only at hst hrec
  subst hrec
  cases e with
  | poll =>
    simp only [Watchdog.step] at hst
    cases hpending : s.pending with
    | none => simp [hpending] at hst
    | some p =>
      simp only [hpending, Option.some.injEq] at hst
      simp only [record, hpending]
      subst hst
      exact h.pollStep hpending past.sampled
  | sample now =>
    simp only [Watchdog.step] at hst
    split at hst
    · rename_i hok
      cases hst
      exact h.sampleStep hok.2.1
    · cases hst
  | signalExited | take n | shutdown | check | beat | exec | halt | ack =>
    obtain ⟨hentry, hforce, hclock, hpending⟩ := step_worker hst (by simp) (by simp)
    exact h.workerStep hentry hforce hclock hpending

/-- The invariant holds in every state of every run. -/
lemma inv_of_run {now : ℕ} {events : List Event} {past : Past}
    (hrun : Run (Step cfg) (register now, .init) events (s, past)) : Inv cfg s past.polls :=
  Run.invariant (I := fun sp : State × Past => Inv cfg sp.1 sp.2.polls)
    (fun _ _ _ hinv hstep => hinv.step hstep) hrun (inv_register now)

/-! ### The count of the worker -/

lemma countAfter_le (P k : ℕ) : countAfter P k ≤ P + k := by
  unfold countAfter
  omega

@[simp] lemma countAfter_zero (P : ℕ) : countAfter P 0 = P := by
  unfold countAfter
  omega

/-- One more beat. -/
lemma countAfter_succ (P k : ℕ) : countAfter P (k + 1) =
    if P + k + 1 = 1 ∨ (P + k + 1) % 100 = 0 then P + k + 1 else countAfter P k := by
  unfold countAfter
  split <;> omega

/-- The count is not above the number of beats. -/
lemma published_le_sum (ks : List ℕ) : published ks ≤ ks.sum := by
  induction ks with
  | nil => exact le_rfl
  | cons k ks ih =>
    have := countAfter_le (published ks) k
    rw [published, List.sum_cons]
    omega

/-- Whether the leading thread is in a batch. -/
def Phase.inBatch : Phase → Bool
  | .checking _ | .starting _ | .running _ => true
  | _ => false

/-- The counts are those of the beats, and they only grow. -/
structure Counts (s : State) (past : Past) : Prop where
  progress : s.progressCounter = published past.beats
  busy : s.phase.inBatch = true →
    ∃ k ks, past.beats = k :: ks ∧ s.beatCtr = published ks + k
  sampled : ∀ p, s.pending = some p → p.counter = published past.sampled ∧
    p.counter ≤ s.progressCounter ∧ ∀ q ∈ past.polls, q.counter ≤ p.counter
  polls_eq : ∀ q ∈ past.polls, q.counter = published q.beats
  polls_le : ∀ q ∈ past.polls, q.counter ≤ s.progressCounter
  sorted : past.polls.Pairwise fun later earlier => earlier.counter ≤ later.counter

lemma counts_register (now : ℕ) : Counts (register now) .init where
  progress := rfl
  busy := nofun
  sampled := nofun
  polls_eq := nofun
  polls_le := nofun
  sorted := .nil

/-- A step of the worker that makes no beat. -/
lemma Counts.of_eq {past past' : Past} (h : Counts s past)
    (hprogress : t.progressCounter = s.progressCounter) (hpending : t.pending = s.pending)
    (hsampled : past'.sampled = past.sampled) (hpolls : past'.polls = past.polls)
    (hpublished : published past'.beats = published past.beats)
    (hbusy : t.phase.inBatch = true →
      ∃ k ks, past'.beats = k :: ks ∧ t.beatCtr = published ks + k) : Counts t past' where
  progress := by rw [hprogress, hpublished, h.progress]
  busy := hbusy
  sampled := by
    rw [hpending, hprogress, hsampled, hpolls]
    exact h.sampled
  polls_eq := by rw [hpolls]; exact h.polls_eq
  polls_le := by rw [hpolls, hprogress]; exact h.polls_le
  sorted := by rw [hpolls]; exact h.sorted

/-- A beat. -/
lemma Counts.beat {past : Past} (h : Counts s past) (hbatch : s.phase.inBatch = true)
    (hsum : (oneMore past.beats).sum < 2 ^ 32) (completed n : ℕ) :
    Counts (watchdogBeat { s with phase := .running n, completed := completed })
      { past with beats := oneMore past.beats } := by
  obtain ⟨k, ks, hbeats, hctr⟩ := h.busy hbatch
  have hprogress := h.progress
  rw [hbeats, published] at hprogress
  rw [hbeats, oneMore, List.sum_cons] at hsum
  have hle := published_le_sum ks
  have hnext : (s.beatCtr + 1) % 2 ^ 32 = published ks + k + 1 := by
    rw [hctr, Nat.mod_eq_of_lt (by omega)]
  have hcounter : (watchdogBeat { s with phase := .running n, completed := completed }
      ).progressCounter = countAfter (published ks) (k + 1) := by
    simp only [watchdogBeat, hnext, countAfter_succ, hprogress]
  have hgrows : s.progressCounter ≤
      (watchdogBeat { s with phase := .running n, completed := completed }).progressCounter := by
    have hbound := countAfter_le (published ks) k
    rw [hcounter, hprogress, countAfter_succ]
    split <;> omega
  exact {
    progress := by rw [hcounter, hbeats]; rfl
    busy := fun _ => ⟨k + 1, ks, by rw [hbeats]; rfl, hnext⟩
    sampled := fun p hp =>
      have hs := h.sampled p hp
      ⟨hs.1, hs.2.1.trans hgrows, hs.2.2⟩
    polls_eq := h.polls_eq
    polls_le := fun q hq => (h.polls_le q hq).trans hgrows
    sorted := h.sorted }

/-- A poll touches nothing of the worker. -/
lemma pollEntry_worker (cfg : Config) (s : State) (p : Sample) :
    (pollEntry cfg s p).progressCounter = s.progressCounter ∧
      (pollEntry cfg s p).phase = s.phase ∧ (pollEntry cfg s p).beatCtr = s.beatCtr := by
  unfold pollEntry
  split
  · exact ⟨rfl, rfl, rfl⟩
  split
  · exact ⟨rfl, rfl, rfl⟩
  split
  · exact ⟨rfl, rfl, rfl⟩
  split
  · exact ⟨rfl, rfl, rfl⟩
  split
  · exact ⟨rfl, rfl, rfl⟩
  · split_ifs <;> exact ⟨rfl, rfl, rfl⟩

/-- The past only grows. -/
lemma sum_le_record (s t : State) (e : Event) (past : Past) :
    past.beats.sum ≤ (record s e t past).beats.sum := by
  have hmore : ∀ ks : List ℕ, ks.sum ≤ (oneMore ks).sum := by
    intro ks
    cases ks with
    | nil => exact le_rfl
    | cons k ks =>
      rw [oneMore, List.sum_cons, List.sum_cons]
      omega
  cases e with
  | beat | exec => exact hmore past.beats
  | take n => simp [record]
  | poll =>
    simp only [record]
    split <;> exact le_rfl
  | signalExited | shutdown | check | halt | ack | sample now => exact le_rfl

/-- **One access** keeps the counts, as long as the word of the worker does not wrap. -/
lemma Counts.step {past past' : Past} (h : Counts s past)
    (hstep : Step cfg (s, past) e (t, past')) (hsum : past'.beats.sum < 2 ^ 32) :
    Counts t past' := by
  obtain ⟨hst, hrec⟩ := hstep
  simp only at hst hrec
  subst hrec
  cases e with
  | signalExited =>
    simp only [Watchdog.step] at hst
    split at hst
    · cases hst
      exact h.of_eq rfl rfl rfl rfl rfl nofun
    · cases hst
  | take n =>
    simp only [Watchdog.step] at hst
    split at hst
    · cases hst
      refine h.of_eq rfl rfl rfl rfl (countAfter_zero _) fun _ => ⟨0, past.beats, rfl, ?_⟩
      have hle := published_le_sum past.beats
      simp only [record, List.sum_cons] at hsum
      simp only [watchdogInit, h.progress]
      omega
    · cases hst
  | shutdown | ack =>
    simp only [Watchdog.step] at hst
    split at hst
    · cases hst
      exact h.of_eq rfl rfl rfl rfl rfl nofun
    · cases hst
  | check =>
    simp only [Watchdog.step] at hst
    split at hst
    · rename_i hphase
      cases hst
      exact h.of_eq rfl rfl rfl rfl rfl fun _ => h.busy (by rw [hphase]; rfl)
    · cases hst
  | beat | exec =>
    simp only [Watchdog.step] at hst
    split at hst
    · rename_i hphase
      cases hst
      exact h.beat (by rw [hphase]; rfl) hsum _ _
    · cases hst
  | halt =>
    simp only [Watchdog.step] at hst
    split at hst
    · cases hst
      exact h.of_eq rfl rfl rfl rfl rfl nofun
    · cases hst
  | sample now =>
    simp only [Watchdog.step] at hst
    split at hst
    · cases hst
      refine ⟨h.progress, h.busy, ?_, h.polls_eq, h.polls_le, h.sorted⟩
      rintro p ⟨⟩
      exact ⟨h.progress, le_rfl, h.polls_le⟩
    · cases hst
  | poll =>
    simp only [Watchdog.step] at hst
    cases hpending : s.pending with
    | none => simp [hpending] at hst
    | some p =>
      simp only [hpending, Option.some.injEq] at hst
      subst hst
      obtain ⟨hprogress, hphase, hctr⟩ := pollEntry_worker cfg { s with pending := none } p
      have hnone := (pollEntry_frame cfg { s with pending := none } p).2.1
      obtain ⟨heq, hle, hpolls⟩ := h.sampled p hpending
      simp only [record, hpending]
      exact {
        progress := hprogress.trans h.progress
        busy := by rw [hphase, hctr]; exact h.busy
        sampled := by rw [hnone]; exact nofun
        polls_eq := List.forall_mem_cons.mpr ⟨heq, h.polls_eq⟩
        polls_le := by
          rw [hprogress]
          exact List.forall_mem_cons.mpr ⟨hle, h.polls_le⟩
        sorted := List.pairwise_cons.mpr ⟨hpolls, h.sorted⟩ }

/-- In every run of fewer than `2 ^ 32` beats the counts are those of the beats. -/
lemma counts_of_run {now : ℕ} {events : List Event} {past : Past}
    (hrun : Run (Step cfg) (register now, .init) events (s, past))
    (hsum : past.beats.sum < 2 ^ 32) : Counts s past :=
  Run.invariant (I := fun sp : State × Past => sp.2.beats.sum < 2 ^ 32 → Counts sp.1 sp.2)
    (fun s e t hinv hstep ht => (hinv (lt_of_le_of_lt (by
      rw [hstep.2]
      exact sum_le_record s.1 t.1 e s.2) ht)).step hstep ht)
    hrun (fun _ => counts_register now) hsum

/-! ### The test and the stall -/

section Stall

variable {earlier stretch : List Poll} {p q : Poll}

/-- Counts that only grow: the highest is the last. -/
lemma best_eq (hsorted : (q :: earlier).Pairwise fun x y => y.counter ≤ x.counter) :
    best (q :: earlier) = q.counter := by
  have hle : best earlier ≤ q.counter := by
    induction earlier with
    | nil => exact Nat.zero_le _
    | cons r earlier ih =>
      obtain ⟨hq, hrest⟩ := List.pairwise_cons.mp hsorted
      obtain ⟨hr, hq⟩ := List.forall_mem_cons.mp hq
      have hle := ih (List.pairwise_cons.mpr ⟨hq, (List.pairwise_cons.mp hrest).2⟩)
      rw [best]
      split
      · exact hr
      · exact max_le hr hle
  rw [best]
  split
  · rfl
  · exact max_eq_left hle

/-- What the polls have seen last is what was published. -/
lemma best_eq_published (hsorted : earlier.Pairwise fun x y => y.counter ≤ x.counter)
    (heq : ∀ x ∈ earlier, x.counter = published x.beats) :
    best earlier = published (beatsAt earlier) := by
  cases earlier with
  | nil => rfl
  | cons q earlier =>
    rw [best_eq hsorted, heq q List.mem_cons_self]
    rfl

/-- The timeout is enforced once a poll has seen a beat. -/
lemma armed_iff (hsorted : polls.Pairwise fun x y => y.counter ≤ x.counter)
    (heq : ∀ x ∈ polls, x.counter = published x.beats) :
    Armed polls ↔ ∃ mid r before, polls = mid ++ r :: before ∧ SeesBeat r before := by
  induction polls with
  | nil => simp [Armed]
  | cons q earlier ih =>
    obtain ⟨-, hrest⟩ := List.pairwise_cons.mp hsorted
    have heq' := fun x hx => heq x (List.mem_cons_of_mem q hx)
    rw [Armed, ih hrest heq', best_eq_published hrest heq', heq q List.mem_cons_self]
    constructor
    · rintro (hsees | ⟨mid, r, before, rfl, hsees⟩)
      · exact ⟨[], q, earlier, rfl, hsees⟩
      · exact ⟨q :: mid, r, before, rfl, hsees⟩
    · rintro ⟨mid, r, before, hsplit, hsees⟩
      cases mid with
      | nil =>
        obtain ⟨rfl, rfl⟩ := List.cons.inj hsplit
        exact Or.inl hsees
      | cons x mid => exact Or.inr ⟨mid, r, before, (List.cons.inj hsplit).2, hsees⟩

variable (hstretch : ∀ r ∈ stretch, r.counter = q.counter)

include hstretch in
/-- A stretch of polls with one count has not seen a higher one. -/
lemma best_stretch (hsorted : (stretch ++ q :: earlier).Pairwise fun x y => y.counter ≤ x.counter) :
    best (stretch ++ q :: earlier) = q.counter := by
  cases stretch with
  | nil => exact best_eq hsorted
  | cons r stretch => exact (best_eq hsorted).trans (hstretch r List.mem_cons_self)

include hstretch in
/-- Behind such a stretch, a poll brings no news if it finds the worker busy with the same
count. -/
lemma not_news_iff (hsorted : (p :: (stretch ++ q :: earlier)).Pairwise
    fun x y => y.counter ≤ x.counter) :
    ¬ News p (stretch ++ q :: earlier) ↔ p.idle = false ∧ p.counter = q.counter := by
  obtain ⟨hp, hrest⟩ := List.pairwise_cons.mp hsorted
  have hle := hp q (List.mem_append_right _ List.mem_cons_self)
  rw [News, best_stretch hstretch hrest, not_or, Bool.not_eq_true]
  exact and_congr_right fun _ => ⟨fun h => by omega, fun h => by omega⟩

include hstretch in
/-- Such a stretch does not start the timeout. -/
lemma armed_stretch (hsorted : (stretch ++ q :: earlier).Pairwise
    fun x y => y.counter ≤ x.counter) (h : Armed (stretch ++ q :: earlier)) :
    Armed (q :: earlier) := by
  induction stretch with
  | nil => exact h
  | cons x stretch ih =>
    have hstretch' := fun r hr => hstretch r (List.mem_cons_of_mem x hr)
    rw [List.cons_append] at hsorted h
    obtain ⟨-, hrest⟩ := List.pairwise_cons.mp hsorted
    rcases h with ⟨-, hlt⟩ | h
    · rw [best_stretch hstretch' hrest, hstretch x List.mem_cons_self] at hlt
      exact absurd hlt (lt_irrefl _)
    · exact ih hstretch' hrest h

omit hstretch in
/-- Quiet polls are such a stretch, of busy polls, behind an old one. -/
lemma quiet_iff (now : ℕ) (hsorted : polls.Pairwise fun x y => y.counter ≤ x.counter) :
    Quiet cfg now polls ↔ ∃ stretch q earlier, polls = stretch ++ q :: earlier ∧
      cfg.noProgress ≤ now - q.now ∧ ∀ r ∈ stretch, r.idle = false ∧ r.counter = q.counter := by
  induction polls with
  | nil => simp [Quiet]
  | cons p rest ih =>
    obtain ⟨-, hrest⟩ := List.pairwise_cons.mp hsorted
    rw [Quiet, ih hrest]
    constructor
    · rintro (hlong | ⟨hnews, stretch, q, earlier, rfl, hlong, hstretch⟩)
      · exact ⟨[], p, rest, rfl, hlong, nofun⟩
      · have hp := (not_news_iff (fun r hr => (hstretch r hr).2) hsorted).1 hnews
        exact ⟨p :: stretch, q, earlier, rfl, hlong, List.forall_mem_cons.mpr ⟨hp, hstretch⟩⟩
    · rintro ⟨stretch, q, earlier, hsplit, hlong, hstretch⟩
      cases stretch with
      | nil =>
        obtain ⟨rfl, rfl⟩ := List.cons.inj hsplit
        exact Or.inl hlong
      | cons x stretch =>
        obtain ⟨rfl, rfl⟩ := List.cons.inj hsplit
        obtain ⟨hp, hstretch⟩ := List.forall_mem_cons.mp hstretch
        exact Or.inr ⟨(not_news_iff (fun r hr => (hstretch r hr).2) hsorted).2 hp,
          stretch, q, earlier, rfl, hlong, hstretch⟩

omit hstretch in
/-- The poll at which the test fires is the last one of a stall. -/
lemma starved_iff (hsorted : (p :: polls).Pairwise fun x y => y.counter ≤ x.counter)
    (heq : ∀ x ∈ p :: polls, x.counter = published x.beats) :
    Starved cfg p polls ↔ ∃ stretch q earlier, polls = stretch ++ q :: earlier ∧
      cfg.noProgress ≤ p.now - q.now ∧ (∀ r ∈ p :: stretch, r.idle = false) ∧
      published p.beats = published q.beats ∧
      ∃ mid r before, q :: earlier = mid ++ r :: before ∧ SeesBeat r before := by
  obtain ⟨hp, hrest⟩ := List.pairwise_cons.mp hsorted
  obtain ⟨hpeq, heq⟩ := List.forall_mem_cons.mp heq
  rw [Starved, quiet_iff _ hrest]
  constructor
  · rintro ⟨harmed, hnews, stretch, q, earlier, rfl, hlong, hstretch⟩
    have hcount := fun r hr => (hstretch r hr).2
    obtain ⟨hidle, hsame⟩ := (not_news_iff hcount hsorted).1 hnews
    have hq := List.forall_mem_append.mp heq
    refine ⟨stretch, q, earlier, rfl, hlong,
      List.forall_mem_cons.mpr ⟨hidle, fun r hr => (hstretch r hr).1⟩, ?_,
      (armed_iff (List.pairwise_append.mp hrest).2.1 hq.2).1 (armed_stretch hcount hrest harmed)⟩
    rw [← hpeq, hsame, hq.2 q List.mem_cons_self]
  · rintro ⟨stretch, q, earlier, rfl, hlong, hidle, hsame, mid, r, before, hsplit, hsees⟩
    obtain ⟨hidlep, hidle⟩ := List.forall_mem_cons.mp hidle
    have hqmem : q ∈ stretch ++ q :: earlier := List.mem_append_right _ List.mem_cons_self
    have hpq : p.counter = q.counter := by rw [hpeq, hsame, heq q hqmem]
    have hcount : ∀ r ∈ stretch, r.counter = q.counter := by
      intro r hr
      have hle := hp r (List.mem_append_left _ hr)
      have hge := (List.pairwise_append.mp hrest).2.2 r hr q List.mem_cons_self
      omega
    refine ⟨(armed_iff hrest heq).2 ⟨stretch ++ mid, r, before, ?_, hsees⟩,
      (not_news_iff hcount hsorted).2 ⟨hidlep, hpq⟩, stretch, q, earlier, rfl, hlong,
      fun r hr => ⟨hidle r hr, hcount r hr⟩⟩
    rw [hsplit, List.append_assoc]

omit hstretch in
/-- **The test and the stall**: with counts that are those of the beats and only grow, the test of
the host fires at some poll exactly if the polls stall. -/
lemma starves_iff (hsorted : polls.Pairwise fun x y => y.counter ≤ x.counter)
    (heq : ∀ x ∈ polls, x.counter = published x.beats) :
    Starves cfg polls ↔ Stalls cfg polls := by
  induction polls with
  | nil => simp [Starves, Stalls]
  | cons p polls ih =>
    rw [Starves, starved_iff hsorted heq,
      ih (List.pairwise_cons.mp hsorted).2 (List.forall_mem_cons.mp heq).2]
    constructor
    · rintro (⟨stretch, q, earlier, rfl, hstall⟩ | ⟨later, p', stretch, q, earlier, rfl, hstall⟩)
      · exact ⟨[], p, stretch, q, earlier, rfl, hstall⟩
      · exact ⟨p :: later, p', stretch, q, earlier, rfl, hstall⟩
    · rintro ⟨later, p', stretch, q, earlier, hsplit, hstall⟩
      cases later with
      | nil =>
        obtain ⟨rfl, rfl⟩ := List.cons.inj hsplit
        exact Or.inl ⟨stretch, q, earlier, rfl, hstall⟩
      | cons x later =>
        exact Or.inr ⟨later, p', stretch, q, earlier, (List.cons.inj hsplit).2, hstall⟩

end Stall

/-- **The host sets `force_exit` in a run if and only if the run stalls**: over every sequence of
batches of fewer than `2 ^ 32` beats, and every times of the polls. -/
theorem forceExit_iff (cfg : Config) (now : ℕ) (events : List Event) (s : State) (past : Past)
    (hrun : Run (Step cfg) (register now, .init) events (s, past))
    (hsum : past.beats.sum < 2 ^ 32) : s.forceExit = false ↔ ¬ Stalls cfg past.polls := by
  have hinv := inv_of_run hrun
  have hcounts := counts_of_run hrun hsum
  rw [← starves_iff hcounts.sorted hcounts.polls_eq]
  constructor
  · intro hclear
    exact (hinv.calm hclear).starves
  · intro hstarves
    by_contra hset
    exact hstarves (hinv.forced (by simpa using hset))

/-! ### Runs of the worker and the host -/

/-- The step, computed with the record of the past. -/
def next (cfg : Config) (sp : State × Past) (e : Event) : Option (State × Past) :=
  (step cfg sp.1 e).map fun t => (t, record sp.1 e t sp.2)

lemma next_step (cfg : Config) (sp : State × Past) (e : Event) (tp : State × Past)
    (h : next cfg sp e = some tp) : Step cfg sp e tp := by
  rw [next, Option.map_eq_some_iff] at h
  obtain ⟨t, ht, rfl⟩ := h
  exact ⟨ht, rfl⟩

/-- The default timeouts. -/
def defaults : Config := ⟨2000, 1000, by decide⟩

/-- The start of a batch of `n` instructions, and its first poll after `100` ms. -/
def opening (n : ℕ) : List Event :=
  [.signalExited, .take n, .check, .beat, .sample 100, .poll]

/-- A worker that takes `100` ms for each of `n` instructions, polled after each. -/
def oneByOne (n : ℕ) : List Event :=
  (List.range n).flatMap fun k => [.exec, .sample (100 * (k + 2)), .poll]

/-- The theorem at a batch of three instructions: four beats, which do not stall. -/
theorem forceExit_iff_three_instructions :
    ∃ s past, Run (Step defaults) (register 0, .init) (opening 3 ++ oneByOne 3) (s, past) ∧
      past.beats = [4] ∧ s.forceExit = false ∧ ¬ Stalls defaults past.polls := by
  obtain ⟨⟨s, past⟩, hres⟩ := Option.isSome_iff_exists.1
    (show ((opening 3 ++ oneByOne 3).foldlM (next defaults) (register 0, .init)).isSome by
      decide +kernel)
  have hend : ((opening 3 ++ oneByOne 3).foldlM (next defaults) (register 0, .init)).map
      (fun sp => (sp.2.beats, sp.1.forceExit)) = some ([4], false) := by decide +kernel
  rw [hres, Option.map_some, Option.some.injEq, Prod.mk.injEq] at hend
  have hrun := Run.of_foldlM (next_step defaults) hres
  exact ⟨s, past, hrun, hend.1, hend.2,
    (forceExit_iff defaults 0 _ s past hrun (by rw [hend.1]; decide)).1 hend.2⟩

/-- Twenty instructions of a batch of fifty, one between any two polls, and the host sets
`force_exit`: the count stays at `1` until the hundredth beat. -/
theorem healthy_worker_stopped :
    ¬ ∀ (cfg : Config) (now : ℕ) (events : List Event) (s : State) (past : Past),
      Run (Step cfg) (register now, .init) events (s, past) → Healthy past.polls →
        s.forceExit = false := by
  intro hall
  obtain ⟨⟨s, past⟩, hres⟩ := Option.isSome_iff_exists.1
    (show ((opening 50 ++ oneByOne 20).foldlM (next defaults) (register 0, .init)).isSome by
      decide +kernel)
  have hend : ((opening 50 ++ oneByOne 20).foldlM (next defaults) (register 0, .init)).map
      (fun sp => (sp.1.forceExit, decide (Healthy sp.2.polls))) = some (true, true) := by
    decide +kernel
  rw [hres, Option.map_some, Option.some.injEq, Prod.mk.injEq] at hend
  have hclear := hall defaults 0 _ s past (Run.of_foldlM (next_step defaults) hres)
    (of_decide_eq_true hend.2)
  rw [hend.1] at hclear
  cases hclear

end Watchdog

end Braidinfer.Mailbox
