/-
Sequence numbers past `2 ^ 32`.

The host numbers the batches of a worker `1, 2, …` in 32 bits and skips `0` and `0xFFFFFFFF` when
the counter wraps, so that number `1` follows number `2 ^ 32 - 2`.  The worker polls for a number
greater than the last one it acted on.  The two rules agree for the first `2 ^ 32 - 2` batches of
a worker, and disagree for the next one.

* `Machine.Observes`: block 0, at its poll, sees a new number exactly when a batch is waiting;
* `observes_iff`: every run of a sequence of batches observes every batch, and does not get
  stuck, if and only if there are at most `2 ^ 32 - 2` of them;
* `not_observed_after_wrap`: the batch that is never seen.
-/
import Braidinfer.Mailbox.Slices

namespace Braidinfer.Mailbox

open Braidinfer.Lib

variable {N : Fin 1 → ℕ}

/-- Batches dispatched to one worker, one after the other. -/
def dispatchBatches (batches : List Batch) : List (HostOp 1) :=
  batches.flatMap fun batch => dispatchBatchWithBase 0 batch.insts batch.pcBase

namespace Machine

/-- Whenever block 0 polls, the poll test is true if and only if a batch has been fired that it
has not executed. -/
def Observes (s : Machine N) : Prop :=
  ((s.workers 0).blocks 0).phase = .poll →
    (((s.workers 0).blocks 0).lastSeq < (s.workers 0).queue.seqNum ↔
      ((s.workers 0).blocks 0).log ≠ (s.workers 0).fired.flatMap Batch.entries)

/-- The host with more to do at the end. -/
def andThen {G : ℕ} {N : Fin G → ℕ} (s : Machine N) (rest : List (HostOp G)) : Machine N :=
  ⟨s.ops ++ rest, s.stores, s.workers⟩

lemma step_andThen {G : ℕ} {N : Fin G → ℕ} {s t : Machine N} {a : Act N}
    (rest : List (HostOp G)) (h : s.Step a t) : (s.andThen rest).Step a (t.andThen rest) := by
  cases a with
  | block g b j =>
      obtain ⟨w, hw, rfl⟩ := Option.map_eq_some_iff.mp h
      show Option.map _ _ = _
      rw [show (s.andThen rest).workers g = s.workers g from rfl, hw]
      rfl
  | host target =>
      obtain ⟨ops, k, ws⟩ := s
      cases ops with
      | nil => exact absurd h (by simp [Step, step, hostStep])
      | cons op ops =>
          cases op with
          | fire g batch =>
              simp only [Step, step, hostStep] at h
              split at h
              · exact absurd h (by simp)
              · rename_i hle
                split at h
                · rename_i hlt
                  obtain rfl := Option.some.inj h
                  exact hostStep_store (s := andThen ⟨.fire g batch :: ops, k, ws⟩ rest) rfl
                    (not_lt.mp hle) hlt target
                · rename_i hge
                  obtain rfl := Option.some.inj h
                  exact hostStep_trigger (s := andThen ⟨.fire g batch :: ops, k, ws⟩ rest) rfl
                    (not_lt.mp hle) (not_lt.mp hge) target
          | wait targets =>
              cases targets with
              | nil =>
                  obtain rfl := Option.some.inj h
                  rfl
              | cons g targets =>
                  simp only [Step, step, hostStep] at h
                  split at h
                  · rename_i hcond
                    obtain rfl := Option.some.inj h
                    exact if_pos hcond
                  · exact absurd h (by simp)

/-- A run goes through in the same way when the host has more to do at the end. -/
lemma run_andThen {G : ℕ} {N : Fin G → ℕ} {s t : Machine N} {as : List (Act N)}
    (rest : List (HostOp G)) (h : Run Step s as t) :
    Run Step (s.andThen rest) as (t.andThen rest) := by
  induction h with
  | nil => exact .nil
  | snoc _ hstep ih => exact ih.snoc (step_andThen rest hstep)

end Machine

lemma firesTo_dispatchBatches (batches : List Batch) :
    firesTo 0 (dispatchBatches batches) = batches := by
  induction batches with
  | nil => rfl
  | cons batch batches ih =>
      rw [dispatchBatches, List.flatMap_cons, firesTo_append]
      rw [dispatchBatches] at ih
      rw [ih]
      rfl

lemma dispatchBatches_disciplined {batches : List Batch} (hb : ∀ b ∈ batches, b.Proper)
    (hlen : batches.length ≤ 2 ^ 32 - 2) : Disciplined (dispatchBatches batches) where
  waits := (Synced.flatMap fun batch _ => .fire_wait 0 batch).waits
  proper := by
    intro g batch hmem
    obtain rfl : g = 0 := Fin.fin_one_eq_zero g
    rw [firesTo_dispatchBatches] at hmem
    exact hb batch hmem
  count := by
    intro g
    obtain rfl : g = 0 := Fin.fin_one_eq_zero g
    rwa [firesTo_dispatchBatches]

/-- A run of the first batches is a run of all of them. -/
lemma run_andThen_init {as : List (Act N)} {t : Machine N} (first rest : List Batch)
    (h : Run Machine.Step (Machine.init (dispatchBatches first)) as t) :
    Run Machine.Step (Machine.init (dispatchBatches (first ++ rest))) as
      (t.andThen (dispatchBatches rest)) := by
  have := Machine.run_andThen (dispatchBatches rest) h
  rwa [show (Machine.init (dispatchBatches first) : Machine N).andThen (dispatchBatches rest) =
    Machine.init (dispatchBatches (first ++ rest)) by
      rw [dispatchBatches, dispatchBatches, dispatchBatches, List.flatMap_append]
      rfl] at this

/-- A polling block 0 sees a new number exactly when a batch is waiting. -/
lemma Worker.Inv.poll_iff {n : ℕ} {w : Worker n} (h : w.Inv)
    (hph : (w.blocks 0).phase = .poll) :
    (w.blocks 0).lastSeq < w.queue.seqNum ↔
      (w.blocks 0).log ≠ w.fired.flatMap Batch.entries := by
  have hok := h.block_ok 0
  rw [h.seqNum_eq, ← logAt_length]
  generalize w.gbs.arrived 0 = arr at hok
  generalize w.blocks 0 = blk at hok hph
  cases hok with
  | @poll i hi =>
      constructor
      · intro hlt heq
        replace hlt : i < w.fired.length := hlt
        replace heq : logAt w.fired i = logAt w.fired w.fired.length := heq
        have hget := List.getElem?_eq_getElem hlt
        have hle := (logAt_mono (F := w.fired) hlt).length_le
        have hpos := List.length_pos_iff.mpr (h.nonempty _ (List.getElem_mem hlt))
        rw [Nat.succ_eq_add_one, logAt_succ hget, List.length_append, Batch.length_entries,
          ← heq] at hle
        omega
      · intro hne
        refine lt_of_le_of_ne hi fun heq => hne ?_
        rw [← heq]
  | _ => exact Phase.noConfusion hph

/-- Block 0 of a worker with nothing outstanding polls. -/
lemma Worker.Inv.phase_of_ack {n : ℕ} {w : Worker n} (h : w.Inv)
    (hack : w.queue.ack = w.fired.length) : (w.blocks 0).phase = .poll := by
  have hok := h.block_ok 0
  have hlead := h.leader
  rw [h.ack_eq] at hack
  generalize w.gbs.arrived 0 = arr at hok
  generalize w.blocks 0 = blk at hok hlead hack
  cases hok with
  | poll => rfl
  | pollBarrier => exact absurd hack (hlead rfl).ne
  | readSeq hi | readNum hi | writeAck hi => exact absurd hack hi.ne
  | readBase hi => exact absurd hack (List.getElem?_eq_some_iff.mp hi).1.ne
  | load hi => exact absurd hack (List.getElem?_eq_some_iff.mp hi).1.ne
  | opBarrier hi => exact absurd hack (List.getElem?_eq_some_iff.mp hi).1.ne

/-- After `2 ^ 32 - 2` batches the next number is `1`. -/
lemma nextSeq_wrap : nextSeq (2 ^ 32 - 2) = 1 := by decide

/-- Past `2 ^ 32 - 2` batches some run reaches a state in which a batch is waiting and the poll
test is false. -/
lemma exists_not_observes {batches : List Batch} (hb : ∀ b ∈ batches, b.Proper)
    (hlen : 2 ^ 32 - 2 < batches.length) :
    ∃ (as : List (Act N)) (s : Machine N),
      Run Machine.Step (Machine.init (dispatchBatches batches)) as s ∧ ¬ s.Observes := by
  -- split off the first `2 ^ 32 - 2` batches and the one after them
  obtain ⟨batch, rest, hsplit⟩ : ∃ batch rest, batches.drop (2 ^ 32 - 2) = batch :: rest :=
    List.exists_cons_of_ne_nil fun h => by
      rw [List.drop_eq_nil_iff] at h
      omega
  have hcat : batches = batches.take (2 ^ 32 - 2) ++ batch :: rest := by
    rw [← hsplit, List.take_append_drop]
  have hfirst : (batches.take (2 ^ 32 - 2)).length = 2 ^ 32 - 2 := by
    rw [List.length_take]
    omega
  generalize batches.take (2 ^ 32 - 2) = first at hcat hfirst
  subst hcat
  have hproper : batch.Proper := hb batch (by simp)
  have hd : Disciplined (dispatchBatches first) :=
    dispatchBatches_disciplined (fun b hmem => hb b (List.mem_append_left _ hmem)) hfirst.le
  -- the first ones get through
  obtain ⟨as, t, hr, hops⟩ := Machine.exists_complete_run (N := N) hd Nat.one_pos
  have hinv := Machine.Inv.of_run hd hr
  have hw := hinv.worker 0
  have hack := hinv.ack_eq_of_done hops 0
  have hfired : (t.workers 0).fired = first := by
    rw [hinv.fired_eq_of_done hops 0, firesTo_dispatchBatches]
  have hlast : ((t.workers 0).blocks 0).lastSeq = 2 ^ 32 - 2 := by
    rw [← hw.ack_eq, hack, hfired, hfirst]
  -- and then the next one is fired
  have htops : (t.andThen (dispatchBatches (batch :: rest))).ops =
      .fire 0 batch :: .wait [0] :: dispatchBatches rest := by
    show t.ops ++ _ = _
    rw [hops]
    rfl
  have hstores : t.stores = 0 := by
    have := hinv.stores_le
    rw [hops] at this
    exact Nat.le_zero.mp this
  obtain ⟨as', u, hr', -, -, hblocks, hfired', hseq⟩ :=
    Machine.run_fire htops hstores hproper.length_le
  have hrun := run_andThen_init first (batch :: rest) hr
  refine ⟨as ++ as', u, hrun.append hr', fun hobs => ?_⟩
  have hblock : (u.workers 0).blocks 0 = (t.workers 0).blocks 0 := congrFun (hblocks 0) 0
  have hiff := hobs (by rw [hblock]; exact hw.phase_of_ack hack)
  have hone : (u.workers 0).queue.seqNum = 1 := by
    rw [hseq]
    show nextSeq (t.workers 0).seqCounter = 1
    rw [hw.seqCounter_eq, hfired, hfirst, nextSeq_wrap]
  have hnew : ((u.workers 0).blocks 0).log ≠ (u.workers 0).fired.flatMap Batch.entries := by
    rw [hblock, hinv.log_eq_of_done hops 0, firesTo_dispatchBatches, hfired']
    show _ ≠ ((t.workers 0).fired ++ [batch]).flatMap Batch.entries
    rw [hfired, List.flatMap_append, List.flatMap_singleton]
    intro heq
    have hnil := List.self_eq_append_right.mp heq
    have hzero : batch.insts.length = 0 := by rw [← Batch.length_entries, hnil, List.length_nil]
    exact hproper.nonempty (List.length_eq_zero_iff.mp hzero)
  have hlt := hiff.mpr hnew
  rw [hblock, hlast, hone] at hlt
  exact absurd hlt (by decide)

/-- **Every batch is observed exactly up to number `2 ^ 32 - 2`.**  For batches dispatched to one
worker: in every reachable state the poll test is true exactly when a batch is waiting, and the
machine can go on until the host is through, if and only if there are at most `2 ^ 32 - 2`
batches. -/
theorem observes_iff {batches : List Batch} (hb : ∀ b ∈ batches, b.Proper) :
    (∀ (as : List (Act N)) (s : Machine N),
      Run Machine.Step (Machine.init (dispatchBatches batches)) as s →
        s.Observes ∧ (s.ops ≠ [] → ∃ a t, s.step a = some t)) ↔
      batches.length ≤ 2 ^ 32 - 2 := by
  constructor
  · intro h
    by_contra hcon
    obtain ⟨as, s, hr, hnot⟩ := exists_not_observes (N := N) hb (not_le.mp hcon)
    exact hnot (h as s hr).1
  · intro hlen as s hr
    have hd := dispatchBatches_disciplined hb hlen
    have hinv := Machine.Inv.of_run hd hr
    exact ⟨(hinv.worker 0).poll_iff, hinv.exists_step hd Nat.one_pos⟩

/-- A batch of one instruction. -/
def oneBatch : Batch := ⟨[.ofOpcode 1], 0⟩

lemma oneBatch_proper : oneBatch.Proper := by
  refine ⟨by simp [oneBatch], by simp [oneBatch, maxBatchInstructions], fun i hi => ?_⟩
  rw [List.mem_singleton.mp hi]
  decide

/-- Three batches. -/
def threeBatches : List Batch := [oneBatch, ⟨[.ofOpcode 2, .ofOpcode 3], 1⟩, oneBatch]

/-- Three batches are observed, in every state of every run on a worker with two blocks. -/
theorem observes_iff_three_batches :
    threeBatches.length ≤ 2 ^ 32 - 2 ∧
      ∀ (as : List (Act fun _ : Fin 1 => 1)) (s : Machine fun _ : Fin 1 => 1),
        Run Machine.Step (Machine.init (dispatchBatches threeBatches)) as s → s.Observes := by
  have hb : ∀ b ∈ threeBatches, b.Proper := by
    intro b hmem
    simp only [threeBatches, List.mem_cons, List.not_mem_nil, or_false] at hmem
    rcases hmem with rfl | rfl | rfl
    · exact oneBatch_proper
    · refine ⟨by simp, by simp [maxBatchInstructions], fun i hi => ?_⟩
      rcases List.mem_pair.mp hi with rfl | rfl <;> decide
    · exact oneBatch_proper
  have hlen : threeBatches.length ≤ 2 ^ 32 - 2 := by decide
  exact ⟨hlen, fun as s hr => ((observes_iff hb).mpr hlen as s hr).1⟩

/-- **The batch that is never seen.**  With `2 ^ 32 - 1` batches of one instruction each, some run
reaches a state in which the last batch is waiting and the poll test of block 0 is false. -/
theorem not_observed_after_wrap :
    ∃ batches : List Batch, batches.length = 2 ^ 32 - 1 ∧ (∀ b ∈ batches, b = oneBatch) ∧
      ∃ (as : List (Act fun _ : Fin 1 => 0)) (s : Machine fun _ : Fin 1 => 0),
        Run Machine.Step (Machine.init (dispatchBatches batches)) as s ∧ ¬ s.Observes := by
  obtain ⟨batches, hlen, hall⟩ : ∃ batches : List Batch,
      batches.length = 2 ^ 32 - 1 ∧ ∀ b ∈ batches, b = oneBatch :=
    exists_replicated oneBatch (2 ^ 32 - 1)
  refine ⟨batches, hlen, hall, exists_not_observes (fun b hmem => ?_) (by omega)⟩
  rw [hall b hmem]
  exact oneBatch_proper

end Braidinfer.Mailbox
