/-
A worker that recovers from a stall (`watchdog_thread_main` in `watchdog.rs`).

The host thread keeps, for each page, the time at which it set `force_exit`, and forgets it on
three branches: when it finds the worker idle, when the count has moved, and when the count moves
at the end of the grace period.  No branch clears the word of the page.

* `Pages`: the entries of one thread, each with its worker, in any order of steps;
* `Known.step`: a standing request has set the word, a whole timeout after the last progress;
* `recoversCleanly_iff`: **the host's record and the word agree in every state of a run exactly if
  no poll of the run finds a worker recovered** from a request;
* `not_recoversCleanly`: a slow batch ends, and its worker is made to exit at the next one.
-/
import Braidinfer.Mailbox.Watchdog

namespace Braidinfer.Mailbox

open Braidinfer.Lib

namespace Watchdog

/-! ### All the pages of a thread -/

/-- The entries of `WatchdogThread`, each with its page and its worker. -/
abbrev Pages (n : ℕ) := Fin n → State

/-- The end of the process: `force_exit` is set on every page, and nothing is polled any more. -/
def quiesce (s : State) : State :=
  { s with forceExit := true, aborted := true, pending := none }

/-- One access of the worker of a page, or of the thread to it. -/
def pagesStep {n : ℕ} (cfg : Config) (s : Pages n) (a : Fin n × Event) : Option (Pages n) :=
  (step cfg (s a.1) a.2).map fun t =>
    if t.aborted then fun j => quiesce (Function.update s a.1 t j) else Function.update s a.1 t

/-- The step relation of the pages. -/
def PagesStep {n : ℕ} (cfg : Config) (s : Pages n) (a : Fin n × Event) (t : Pages n) : Prop :=
  pagesStep cfg s a = some t

/-- The pages, registered at the times `now`. -/
def registered {n : ℕ} (now : Fin n → ℕ) : Pages n := fun i => register (now i)

/-! ### What a recovery should look like -/

/-- The grace period of a standing request is over. -/
def GraceOver (cfg : Config) (s : State) (p : Sample) : Prop :=
  ∃ sentAt, s.entry.forceExitSentAt = some sentAt ∧ cfg.grace ≤ p.now - sentAt

/-- A poll finds a worker recovered from a request: idle, or with a count that has moved. -/
structure Recovered (cfg : Config) (s : State) (p : Sample) : Prop where
  requested : s.entry.forceExitSentAt ≠ none
  moved : s.exited = true ∨ s.entry.lastProgress < p.counter ∨
    GraceOver cfg s p ∧ s.progressCounter ≠ p.counter

/-- Where no request stands, the word of the page is clear. -/
def Clear (s : State) : Prop := s.entry.forceExitSentAt = none → s.forceExit = false

variable {n : ℕ}

/-- `s` is a state of the run `events`. -/
def Passes (cfg : Config) (init : Pages n) (events : List (Fin n × Event)) (s : Pages n) : Prop :=
  ∃ before after, events = before ++ after ∧ Run (PagesStep cfg) init before s

/-- The run `events` takes the step `a` from `s` to `t`. -/
def Takes (cfg : Config) (init : Pages n) (events : List (Fin n × Event)) (s : Pages n)
    (a : Fin n × Event) (t : Pages n) : Prop :=
  ∃ before after, events = before ++ a :: after ∧ Run (PagesStep cfg) init before s ∧
    PagesStep cfg s a t

/-- A run in which the record of the host and the words of the pages agree, and what follows for
the workers. -/
structure RecoversCleanly (cfg : Config) (init : Pages n) (events : List (Fin n × Event)) :
    Prop where
  /-- until the process ends -/
  clear : ∀ s, Passes cfg init events s → ∀ i, (s i).aborted = false → Clear (s i)
  /-- No worker is made to exit while no request stands. -/
  spared : ∀ s i t, Takes cfg init events s (i, .check) t → (s i).aborted = false →
    (s i).entry.forceExitSentAt = none → (t i).phase ≠ .returned
  /-- A stall is met by a request that sets the word. -/
  fresh : ∀ s i t, Takes cfg init events s (i, .poll) t →
    (s i).entry.forceExitSentAt = none → (t i).entry.forceExitSentAt ≠ none →
      (s i).forceExit = false ∧ (t i).forceExit = true
  /-- The process ends a whole grace period after the request. -/
  grace : ∀ s i t, Takes cfg init events s (i, .poll) t → (t i).aborted = true →
    ∃ p, (s i).pending = some p ∧ GraceOver cfg (s i) p

/-! ### One page -/

section Page

variable {cfg : Config} {s t : State} {p : Sample} {e : Event}

/-- What the host knows of a page. -/
structure Known (cfg : Config) (s : State) : Prop where
  pending : ∀ p, s.pending = some p → p.now = s.clock ∧ s.aborted = false
  /-- A standing request came a whole timeout after the last progress, and has set the word. -/
  request : ∀ sentAt, s.entry.forceExitSentAt = some sentAt →
    s.forceExit = true ∧ s.entry.hasStarted = true ∧ sentAt ≤ s.clock ∧
      cfg.noProgress ≤ sentAt - s.entry.lastProgressAt

/-- What one poll can do. -/
inductive PollCase (cfg : Config) (s : State) (p : Sample) : State → Prop
  /-- The entry starts afresh. -/
  | reset {counter started} (h : s.exited = true ∨ s.entry.lastProgress < p.counter ∨
      GraceOver cfg s p ∧ s.progressCounter ≠ p.counter) :
      PollCase cfg s p { s with entry := ⟨counter, p.now, none, started⟩ }
  | quiet : PollCase cfg s p s
  | request (hnone : s.entry.forceExitSentAt = none) (hstarted : s.entry.hasStarted = true)
      (hstall : cfg.noProgress ≤ p.now - s.entry.lastProgressAt) :
      PollCase cfg s p
        { s with forceExit := true, entry := { s.entry with forceExitSentAt := some p.now } }
  | abort (hgrace : GraceOver cfg s p) :
      PollCase cfg s p { s with forceExit := true, aborted := true }

lemma pollEntry_cases (cfg : Config) (s : State) (p : Sample) :
    PollCase cfg s p (pollEntry cfg s p) := by
  rw [pollEntry]
  by_cases hexited : s.exited = true
  · rw [if_pos hexited]
    exact .reset (.inl hexited)
  rw [if_neg hexited]
  by_cases hcounter : s.entry.lastProgress < p.counter
  · rw [if_pos hcounter]
    exact .reset (.inr (.inl hcounter))
  rw [if_neg hcounter]
  by_cases hstarted : s.entry.hasStarted = true
  swap
  · rw [if_pos (by simpa using hstarted)]
    exact .quiet
  rw [if_neg (by simpa using hstarted)]
  by_cases hshort : p.now - s.entry.lastProgressAt < cfg.noProgress
  · rw [if_pos hshort]
    exact .quiet
  rw [if_neg hshort]
  cases hsent : s.entry.forceExitSentAt with
  | none => exact .request hsent hstarted (not_lt.mp hshort)
  | some sentAt =>
      by_cases hwait : p.now - sentAt < cfg.grace
      · simp only [if_pos hwait]
        exact .quiet
      have hover : GraceOver cfg s p := ⟨sentAt, hsent, not_lt.mp hwait⟩
      by_cases hmoved : s.progressCounter ≠ p.counter
      · simp only [if_neg hwait, if_pos hmoved]
        exact .reset (.inr (.inr ⟨hover, hmoved⟩))
      · simp only [if_neg hwait, if_neg hmoved]
        exact .abort hover

/-- A poll that finds a worker recovered forgets the request, and leaves the word. -/
lemma pollEntry_recovered (h : Recovered cfg s p)
    (hstarted : s.entry.hasStarted = true)
    (hstall : cfg.noProgress ≤ p.now - s.entry.lastProgressAt) :
    (pollEntry cfg s p).entry.forceExitSentAt = none ∧
      (pollEntry cfg s p).forceExit = s.forceExit ∧
      (pollEntry cfg s p).aborted = s.aborted := by
  by_cases hexited : s.exited = true
  · rw [pollEntry, if_pos hexited]
    exact ⟨rfl, rfl, rfl⟩
  by_cases hcounter : s.entry.lastProgress < p.counter
  · rw [pollEntry, if_neg hexited, if_pos hcounter]
    exact ⟨rfl, rfl, rfl⟩
  obtain ⟨⟨sentAt, hsent, hover⟩, hmoved⟩ := (h.moved.resolve_left hexited).resolve_left hcounter
  have hreset : pollEntry cfg s p =
      { s with entry := ⟨s.progressCounter, p.now, none, s.entry.hasStarted⟩ } := by
    rw [pollEntry, if_neg hexited, if_neg hcounter, if_neg (by simpa using hstarted),
      if_neg (not_lt.mpr hstall), hsent]
    simp only [if_neg (not_lt.mpr hover), if_pos hmoved]
  rw [hreset]
  exact ⟨rfl, rfl, rfl⟩

lemma known_register (now : ℕ) : Known cfg (register now) where
  pending := by simp [register]
  request := by simp [register]

/-- What a poll leaves known. -/
lemma Known.poll (h : Known cfg s) (hpending : s.pending = some p)
    (hcase : PollCase cfg { s with pending := none } p t) : Known cfg t := by
  obtain ⟨hnow, -⟩ := h.pending p hpending
  cases hcase with
  | reset => exact ⟨nofun, nofun⟩
  | quiet => exact ⟨nofun, h.request⟩
  | request hnone hstarted hstall =>
      refine ⟨nofun, fun sentAt hsent => ?_⟩
      obtain rfl := Option.some.inj hsent
      exact ⟨rfl, hstarted, hnow.le, hstall⟩
  | abort =>
      refine ⟨nofun, fun sentAt hsent => ?_⟩
      obtain ⟨-, hstarted, hle, hstall⟩ := h.request sentAt hsent
      exact ⟨rfl, hstarted, hle, hstall⟩

/-- A poll, from its sample. -/
lemma step_poll (hs : step cfg s .poll = some t) :
    ∃ p, s.pending = some p ∧ t = pollEntry cfg { s with pending := none } p := by
  simp only [step] at hs
  split at hs
  · rename_i p hpending
    exact ⟨p, hpending, (Option.some.inj hs).symm⟩
  · cases hs

/-- A sample, taken no earlier than the last. -/
lemma step_sample {now : ℕ} (hs : step cfg s (.sample now) = some t) :
    s.clock ≤ now ∧ s.aborted = false ∧
      t = { s with pending := some ⟨now, s.progressCounter, s.completed⟩, clock := now } := by
  simp only [step] at hs
  split at hs
  · rename_i hok
    exact ⟨hok.2.1, hok.2.2, (Option.some.inj hs).symm⟩
  · cases hs

/-- Only a poll can end the process. -/
lemma aborted_eq_of_step (hs : step cfg s e = some t) (hpoll : e ≠ .poll) :
    t.aborted = s.aborted := by
  cases e with
  | poll => exact absurd rfl hpoll
  | sample now =>
      obtain ⟨-, -, rfl⟩ := step_sample hs
      rfl
  | signalExited | take | shutdown | ack =>
      simp only [step] at hs
      split at hs
      · cases hs
        rfl
      · cases hs
  | check | beat | exec | halt =>
      simp only [step] at hs
      split at hs
      · cases hs
        rfl
      · cases hs

/-- **Every access keeps what is known.** -/
lemma Known.step (h : Known cfg s) (hs : step cfg s e = some t) : Known cfg t := by
  cases e with
  | poll =>
      obtain ⟨p, hpending, rfl⟩ := step_poll hs
      exact h.poll hpending (pollEntry_cases _ _ _)
  | sample now =>
      obtain ⟨hclock, hrunning, rfl⟩ := step_sample hs
      refine ⟨fun p hp => ?_, fun sentAt hsent => ?_⟩
      · obtain rfl := Option.some.inj hp
        exact ⟨rfl, hrunning⟩
      · obtain ⟨hset, hstarted, hle, hstall⟩ := h.request sentAt hsent
        exact ⟨hset, hstarted, hle.trans hclock, hstall⟩
  | signalExited | take | shutdown | check | beat | exec | halt | ack =>
      obtain ⟨hentry, hforce, hclock, hpending⟩ := step_worker hs (by simp) (by simp)
      refine ⟨?_, ?_⟩
      · rw [hpending, hclock, aborted_eq_of_step hs (by simp)]
        exact h.pending
      · rw [hentry, hforce, hclock]
        exact h.request

/-- **What an access does to a clear page**: it stays clear, unless a poll finds a recovered
worker, or the process ends. -/
lemma Clear.step (h : Clear s) (hs : step cfg s e = some t) (habort : t.aborted = false)
    (hrec : e = .poll → ∀ p, s.pending = some p → ¬ Recovered cfg s p) : Clear t := by
  cases e with
  | poll =>
      obtain ⟨p, hpending, rfl⟩ := step_poll hs
      generalize hu : pollEntry cfg { s with pending := none } p = u at habort
      have hcase := pollEntry_cases cfg { s with pending := none } p
      rw [hu] at hcase
      cases hcase with
      | reset hmoved =>
          intro _
          refine h ?_
          by_contra hne
          exact hrec rfl p hpending ⟨hne, hmoved⟩
      | quiet => exact h
      | request => exact nofun
      | abort => exact Bool.noConfusion habort
  | sample now =>
      obtain ⟨-, -, rfl⟩ := step_sample hs
      exact h
  | signalExited | take | shutdown | check | beat | exec | halt | ack =>
      obtain ⟨hentry, hforce, -, -⟩ := step_worker hs (by simp) (by simp)
      rw [Clear, hentry, hforce]
      exact h

/-- **After a poll that finds a recovered worker** no request stands, and the word is set. -/
lemma Known.not_clear (h : Known cfg s) (hpending : s.pending = some p)
    (hrec : Recovered cfg s p) (hs : Watchdog.step cfg s .poll = some t) :
    ¬ Clear t ∧ t.aborted = s.aborted := by
  obtain ⟨p', hpending', rfl⟩ := step_poll hs
  obtain rfl : p' = p := Option.some.inj (hpending'.symm.trans hpending)
  obtain ⟨sentAt, hsent⟩ := Option.ne_none_iff_exists'.mp hrec.requested
  obtain ⟨hset, hstarted, hle, hstall⟩ := h.request sentAt hsent
  obtain ⟨hnow, -⟩ := h.pending p' hpending
  have hrec' : Recovered cfg { s with pending := none } p' := ⟨hrec.requested, hrec.moved⟩
  obtain ⟨hforgot, hword, habort⟩ := pollEntry_recovered hrec' hstarted
    (show cfg.noProgress ≤ p'.now - s.entry.lastProgressAt by omega)
  refine ⟨fun hclear => ?_, habort⟩
  have hfalse := hclear hforgot
  rw [hword] at hfalse
  exact absurd (hset.symm.trans hfalse) (by decide)

/-- The end of the process is for good. -/
lemma aborted_of_step (hs : step cfg s e = some t) (habort : t.aborted = false) :
    s.aborted = false := by
  by_cases hpoll : e = .poll
  · subst hpoll
    obtain ⟨p, -, rfl⟩ := step_poll hs
    generalize hu : pollEntry cfg { s with pending := none } p = u at habort
    have hcase := pollEntry_cases cfg { s with pending := none } p
    rw [hu] at hcase
    cases hcase with
    | abort => exact Bool.noConfusion habort
    | reset | quiet | request => exact habort
  · exact (aborted_eq_of_step hs hpoll).symm.trans habort

/-- A worker goes on when the word of its page is clear. -/
lemma check_spared (hs : step cfg s .check = some t) (hword : s.forceExit = false) :
    t.phase ≠ .returned := by
  simp only [step] at hs
  split at hs
  · obtain rfl := Option.some.inj hs
    rw [hword]
    intro hreturned
    cases hreturned
  · cases hs

/-- A request sets the word. -/
lemma poll_sets (hs : step cfg s .poll = some t) (hnone : s.entry.forceExitSentAt = none)
    (hsent : t.entry.forceExitSentAt ≠ none) : t.forceExit = true := by
  obtain ⟨p, -, rfl⟩ := step_poll hs
  generalize hu : pollEntry cfg { s with pending := none } p = u at hsent
  have hcase := pollEntry_cases cfg { s with pending := none } p
  rw [hu] at hcase
  cases hcase with
  | reset => exact absurd rfl hsent
  | quiet => exact absurd hnone hsent
  | request | abort => rfl

/-- The process ends after a whole grace period. -/
lemma poll_aborts (hs : step cfg s .poll = some t) (hknown : Known cfg s)
    (habort : t.aborted = true) : ∃ p, s.pending = some p ∧ GraceOver cfg s p := by
  obtain ⟨p, hpending, rfl⟩ := step_poll hs
  have hrunning := (hknown.pending p hpending).2
  generalize hu : pollEntry cfg { s with pending := none } p = u at habort
  have hcase := pollEntry_cases cfg { s with pending := none } p
  rw [hu] at hcase
  cases hcase with
  | abort hgrace => exact ⟨p, hpending, hgrace⟩
  | reset | quiet | request => exact absurd (hrunning.symm.trans habort) (by decide)

end Page

/-! ### The pages together -/

section Together

variable {cfg : Config} {s t : Pages n} {a : Fin n × Event}

/-- A step of the pages is a step of one of them, and the end of the process if that page asks
for it. -/
lemma pagesStep_eq (hs : PagesStep cfg s a t) : ∃ u, step cfg (s a.1) a.2 = some u ∧
    t = if u.aborted then fun j => quiesce (Function.update s a.1 u j)
      else Function.update s a.1 u := by
  obtain ⟨u, hu, heq⟩ := Option.map_eq_some_iff.mp hs
  exact ⟨u, hu, heq.symm⟩

lemma Known.quiesce {s : State} (h : Known cfg s) : Known cfg (quiesce s) where
  pending := nofun
  request := fun sentAt hsent => ⟨rfl, (h.request sentAt hsent).2⟩

/-- What is known of every page stays known. -/
lemma known_step (h : ∀ i, Known cfg (s i)) (hs : PagesStep cfg s a t) :
    ∀ i, Known cfg (t i) := by
  obtain ⟨u, hu, rfl⟩ := pagesStep_eq hs
  have hupdate : ∀ i, Known cfg (Function.update s a.1 u i) := by
    intro i
    by_cases hi : i = a.1
    · subst hi
      rw [Function.update_self]
      exact (h a.1).step hu
    · rw [Function.update_of_ne hi]
      exact h i
  intro i
  split
  · exact (hupdate i).quiesce
  · exact hupdate i

lemma known_of_run {now : Fin n → ℕ} {events : List (Fin n × Event)}
    (hr : Run (PagesStep cfg) (registered now) events s) : ∀ i, Known cfg (s i) :=
  hr.invariant (I := fun s : Pages n => ∀ i, Known cfg (s i)) (fun _ _ _ h hs => known_step h hs)
    fun i => known_register (now i)

/-- A page that has not ended has made a step of its own, or none. -/
lemma page_cases (hs : PagesStep cfg s a t) {i : Fin n} (habort : (t i).aborted = false) :
    (i = a.1 ∧ step cfg (s i) a.2 = some (t i)) ∨ (i ≠ a.1 ∧ t i = s i) := by
  obtain ⟨u, hu, rfl⟩ := pagesStep_eq hs
  by_cases hend : u.aborted = true
  · rw [if_pos hend] at habort
    exact Bool.noConfusion habort
  rw [if_neg hend]
  by_cases hi : i = a.1
  · subst hi
    rw [Function.update_self]
    exact .inl ⟨rfl, hu⟩
  · rw [Function.update_of_ne hi]
    exact .inr ⟨hi, rfl⟩

/-- No poll of the run finds a worker recovered from a request. -/
def NoneRecovered (cfg : Config) (init : Pages n) (events : List (Fin n × Event)) : Prop :=
  ∀ s i t, Takes cfg init events s (i, .poll) t → ∀ p, (s i).pending = some p →
    ¬ Recovered cfg (s i) p

/-- The part of a run that comes first. -/
lemma NoneRecovered.of_append {init : Pages n} {before after : List (Fin n × Event)}
    (h : NoneRecovered cfg init (before ++ after)) : NoneRecovered cfg init before := by
  rintro u i v ⟨as, bs, rfl, hru, hsu⟩
  refine h u i v ⟨as, bs ++ after, ?_, hru, hsu⟩
  rw [List.append_assoc]
  rfl

/-- **In a run in which no poll finds a recovered worker** the pages stay clear. -/
lemma clear_of_run {now : Fin n → ℕ} {events : List (Fin n × Event)}
    (hr : Run (PagesStep cfg) (registered now) events s)
    (hnone : NoneRecovered cfg (registered now) events) :
    ∀ i, (s i).aborted = false → Clear (s i) := by
  induction hr with
  | nil => exact fun i _ _ => rfl
  | @snoc before s t a hr' hs ih =>
      have hbefore : NoneRecovered cfg (registered now) before := hnone.of_append
      intro i habort
      rcases page_cases hs habort with ⟨rfl, hstep⟩ | ⟨-, heq⟩
      · refine (ih hbefore a.1 (aborted_of_step hstep habort)).step hstep habort ?_
        intro hpoll p hpending
        obtain ⟨i, e⟩ := a
        subst hpoll
        exact hnone s i t ⟨before, [], rfl, hr', hs⟩ p hpending
      · rw [heq] at habort ⊢
        exact ih hbefore i habort

end Together

/-- **The record of the host and the words of the pages agree**, in every state of a run, and a
stall is met by a request that sets the word and is given its grace period, if and only if no poll
of the run finds a worker recovered from a request. -/
theorem recoversCleanly_iff (cfg : Config) (now : Fin n → ℕ) (events : List (Fin n × Event)) :
    RecoversCleanly cfg (registered now) events ↔
      NoneRecovered cfg (registered now) events := by
  constructor
  · rintro h s i t ⟨before, after, rfl, hr, hs⟩ p hpending hrec
    obtain ⟨u, hu, rfl⟩ := pagesStep_eq hs
    have hknown := known_of_run hr i
    obtain ⟨hnot, habort⟩ := hknown.not_clear hpending hrec hu
    have hrunning : u.aborted = false := habort.trans (hknown.pending p hpending).2
    have hpage : (if u.aborted then fun j => quiesce (Function.update s i u j)
        else Function.update s i u) i = u := by
      simp [hrunning]
    refine hnot ?_
    rw [← hpage]
    refine h.clear _ ⟨before ++ [(i, .poll)], after, by simp, hr.snoc hs⟩ i ?_
    rw [hpage]
    exact hrunning
  · intro hnone
    have hclear : ∀ s, Passes cfg (registered now) events s →
        ∀ i, (s i).aborted = false → Clear (s i) := by
      rintro s ⟨before, after, rfl, hr⟩
      exact clear_of_run hr hnone.of_append
    have htakes : ∀ {s a t}, Takes cfg (registered now) events s a t →
        Passes cfg (registered now) events s ∧ (∀ i, Known cfg (s i)) ∧
          ∃ u, step cfg (s a.1) a.2 = some u ∧
            t a.1 = if u.aborted then quiesce u else u := by
      rintro s a t ⟨before, after, hcat, hr, hs⟩
      obtain ⟨u, hu, rfl⟩ := pagesStep_eq hs
      refine ⟨⟨before, _, hcat, hr⟩, known_of_run hr, u, hu, ?_⟩
      split <;> simp
    refine ⟨hclear, ?_, ?_, ?_⟩
    · intro s i t ht hrunning hsent
      obtain ⟨hpass, -, u, hu, heq⟩ := htakes ht
      have hspared := check_spared hu (hclear s hpass i hrunning hsent)
      rw [heq]
      split <;> exact hspared
    · intro s i t ht hsent hrequest
      obtain ⟨hpass, hknown, u, hu, heq⟩ := htakes ht
      obtain ⟨p, hpending, -⟩ := step_poll hu
      have hrunning := ((hknown i).pending p hpending).2
      have hrequest' : u.entry.forceExitSentAt ≠ none := by
        rw [heq] at hrequest
        split at hrequest <;> exact hrequest
      refine ⟨hclear s hpass i hrunning hsent, ?_⟩
      have hset := poll_sets hu hsent hrequest'
      rw [heq]
      split
      · rfl
      · exact hset
    · intro s i t ht habort
      obtain ⟨-, hknown, u, hu, heq⟩ := htakes ht
      have hend : u.aborted = true := by
        rw [heq] at habort
        split at habort
        · assumption
        · exact habort
      exact poll_aborts hu (hknown i) hend

/-- A batch of three instructions, the first of which takes more than two seconds; the host sets
`force_exit`, the batch ends, a poll finds the worker idle, and the next batch arrives. -/
def slowBatch : List Event :=
  opening 3 ++ [.sample 2200, .poll, .exec, .exec, .exec, .ack, .signalExited, .sample 2300, .poll,
    .take 1, .check]

/-- **A worker that has recovered is made to exit**: no request stands, and the worker of the slow
batch returns at the batch after it. -/
theorem not_recoversCleanly :
    ∃ s : Pages 1,
      Run (PagesStep defaults) (registered fun _ => 0) (slowBatch.map fun e => (0, e)) s ∧
      (s 0).entry.forceExitSentAt = none ∧ (s 0).forceExit = true ∧ (s 0).phase = .returned ∧
      ¬ RecoversCleanly defaults (registered fun _ => 0)
        (slowBatch.map fun e => ((0 : Fin 1), e)) := by
  obtain ⟨s, hres⟩ := Option.isSome_iff_exists.1
    (show ((slowBatch.map fun e => ((0 : Fin 1), e)).foldlM (pagesStep defaults)
      (registered fun _ => 0)).isSome by decide +kernel)
  have hend : ((slowBatch.map fun e => ((0 : Fin 1), e)).foldlM (pagesStep defaults)
      (registered fun _ => 0)).map (fun s => ((s 0).entry.forceExitSentAt, (s 0).forceExit,
        (s 0).phase, (s 0).aborted)) = some (none, true, .returned, false) := by decide +kernel
  rw [hres] at hend
  obtain ⟨hsent, hword, hphase, hrunning⟩ : (s 0).entry.forceExitSentAt = none ∧
      (s 0).forceExit = true ∧ (s 0).phase = .returned ∧ (s 0).aborted = false := by
    simpa using hend
  have hr : Run (PagesStep defaults) (registered fun _ => 0) _ s :=
    Run.of_foldlM (fun _ _ _ h => h) hres
  refine ⟨s, hr, hsent, hword, hphase, fun h => ?_⟩
  have hclear := h.clear s ⟨_, [], (List.append_nil _).symm, hr⟩ 0 hrunning hsent
  exact absurd (hword.symm.trans hclear) (by decide)

end Watchdog

end Braidinfer.Mailbox
