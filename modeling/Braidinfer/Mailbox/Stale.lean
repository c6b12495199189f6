/-
Which instructions a batch executes (`dispatch_batch_fire`, `persistent_iter_poll_barrier`).

The mailbox keeps the words of earlier batches, and the worker takes a length of `0` for `1`, so
that an empty batch executes whatever stands in the first slot.  A run with empty batches is
compared with a run in which each of them is replaced by a batch of the instruction that is left
there: the workers of the two agree but for the length they are given.

* `effective`: what a history of batches amounts to;
* `Mirrors.step`: each step of the one machine is matched by steps of the other;
* `logs_effective`: in every state of every run, the blocks have executed a prefix of what the
  history amounts to, and all of it at the end;
* `executesPassed_iff`: the worker executes what it is passed if and only if no batch is empty;
* `not_executesPassed_empty`: the second execution of an instruction that was passed once.
-/
import Braidinfer.Mailbox.SeqWrap

namespace Braidinfer.Mailbox

open Braidinfer.Lib

variable {N : Fin 1 → ℕ}

/-- The batch of one call of `dispatch_batch_fire`, which stores a `pc_base` of `0`. -/
def dispatchBatchFire (insts : List Instruction) : Batch := ⟨insts, 0⟩

/-- What stands in the first slot of a new mailbox. -/
def zeroInstruction : Instruction := .ofOpcode 0

/-- What a history of batches amounts to, with `cur` in the first slot: an empty batch is one of
the instruction in the first slot. -/
def effective : Instruction → List Batch → List Batch
  | _, [] => []
  | cur, ⟨[], pcBase⟩ :: batches => ⟨[cur], pcBase⟩ :: effective cur batches
  | _, ⟨inst :: insts, pcBase⟩ :: batches => ⟨inst :: insts, pcBase⟩ :: effective inst batches

section Effective

variable {cur : Instruction} {batches : List Batch}

lemma length_effective : (effective cur batches).length = batches.length := by
  fun_induction effective cur batches with
  | case1 => rfl
  | case2 cur pcBase batches ih => rw [List.length_cons, List.length_cons, ih]
  | case3 cur inst insts pcBase batches ih => rw [List.length_cons, List.length_cons, ih]

/-- Batches that fit the mailbox and do not end the worker amount to proper ones. -/
lemma effective_proper (hcur : cur.opcode ≠ opHalt)
    (hlen : ∀ b ∈ batches, b.insts.length ≤ maxBatchInstructions)
    (hhalt : ∀ b ∈ batches, ∀ i ∈ b.insts, i.opcode ≠ opHalt) :
    ∀ b ∈ effective cur batches, b.Proper := by
  fun_induction effective cur batches with
  | case1 => exact fun b hb => absurd hb List.not_mem_nil
  | case2 cur pcBase batches ih =>
      intro b hb
      rcases List.mem_cons.mp hb with rfl | hb
      · refine ⟨List.cons_ne_nil _ _, Nat.le_of_ble_eq_true rfl, fun i hi => ?_⟩
        rw [List.mem_singleton.mp hi]
        exact hcur
      · exact ih hcur (fun b hb => hlen b (List.mem_cons_of_mem _ hb))
          (fun b hb => hhalt b (List.mem_cons_of_mem _ hb)) b hb
  | case3 cur inst insts pcBase batches ih =>
      have hinst : inst.opcode ≠ opHalt :=
        hhalt _ List.mem_cons_self inst List.mem_cons_self
      intro b hb
      rcases List.mem_cons.mp hb with rfl | hb
      · exact ⟨List.cons_ne_nil _ _, hlen _ List.mem_cons_self, hhalt _ List.mem_cons_self⟩
      · exact ih hinst (fun b hb => hlen b (List.mem_cons_of_mem _ hb))
          (fun b hb => hhalt b (List.mem_cons_of_mem _ hb)) b hb

/-- More is executed than was passed as soon as one batch is empty. -/
lemma entries_lt_effective (h : ∃ b ∈ batches, b.insts = []) :
    (batches.flatMap Batch.entries).length <
      ((effective cur batches).flatMap Batch.entries).length := by
  have hle : ∀ (cur : Instruction) (batches : List Batch),
      (batches.flatMap Batch.entries).length ≤
        ((effective cur batches).flatMap Batch.entries).length := by
    intro cur batches
    fun_induction effective cur batches with
    | case1 => exact le_rfl
    | case2 cur pcBase batches ih =>
        rw [List.flatMap_cons, List.flatMap_cons, List.length_append, List.length_append]
        exact Nat.add_le_add (Nat.zero_le _) ih
    | case3 cur inst insts pcBase batches ih =>
        rw [List.flatMap_cons, List.flatMap_cons, List.length_append, List.length_append]
        exact Nat.add_le_add_left ih _
  fun_induction effective cur batches with
  | case1 =>
      obtain ⟨b, hb, -⟩ := h
      exact absurd hb List.not_mem_nil
  | case2 cur pcBase batches ih =>
      have := hle cur batches
      rw [List.flatMap_cons, List.flatMap_cons, List.length_append, List.length_append,
        Batch.length_entries, Batch.length_entries, List.length_singleton]
      exact Nat.add_lt_add_of_lt_of_le Nat.one_pos this
  | case3 cur inst insts pcBase batches ih =>
      obtain ⟨b, hb, hnil⟩ := h
      have hmem : b ∈ batches := by
        rcases List.mem_cons.mp hb with rfl | hb
        · exact absurd hnil (List.cons_ne_nil _ _)
        · exact hb
      rw [List.flatMap_cons, List.flatMap_cons, List.length_append, List.length_append]
      exact Nat.add_lt_add_left (ih ⟨b, hmem, hnil⟩) _

/-- The operations of a history with a batch to come. -/
lemma dispatchBatches_cons (batch : Batch) (batches : List Batch) :
    dispatchBatches (batch :: batches) =
      .fire 0 batch :: .wait [0] :: dispatchBatches batches := rfl

end Effective

/-! ### Workers that read the same -/

namespace Worker

variable {n : ℕ} {w w' : Worker n} {b : Fin (n + 1)} {p : Phase}

/-- The worker as its blocks see it: a length of `0` reads as `1`, and what was fired is not
recorded. -/
def view (w : Worker n) : Worker n :=
  { w with
    queue.numInstructions :=
      if w.queue.numInstructions = 0 then 1 else w.queue.numInstructions
    fired := [] }

@[simp] lemma view_blocks (w : Worker n) : w.view.blocks = w.blocks := rfl

@[simp] lemma view_gbs (w : Worker n) : w.view.gbs = w.gbs := rfl

/-- The length a block reads. -/
lemma view_length (w : Worker n) :
    (if w.view.queue.numInstructions = 0 then 1 else w.view.queue.numInstructions) =
      if w.queue.numInstructions = 0 then 1 else w.queue.numInstructions := by
  by_cases h : w.queue.numInstructions = 0
  · simp [view, h]
  · simp [view, h]

@[simp] lemma view_view (w : Worker n) : w.view.view = w.view := by
  conv_lhs => rw [view, view_length]
  rfl

lemma leave_view : w.view.leave b p = (w.leave b p).map view := by
  rw [leave, leave, view_gbs]
  by_cases h : w.gbs.Opens b
  · rw [if_pos h, if_pos h]
    rfl
  · rw [if_neg h, if_neg h]
    rfl

/-- **The blocks do not see more than the view.** -/
lemma blockStep_view (j : Fin instSize) :
    w.view.blockStep b j = (w.blockStep b j).map view := by
  rw [blockStep, blockStep, view_blocks]
  cases (w.blocks b).phase with
  | poll =>
      by_cases h : b = 0 ∧ w.view.queue.seqNum ≤ (w.blocks b).lastSeq
      · simp only [if_pos h]
        show Option.map view none = _
        exact (congrArg (Option.map view) (if_pos h)).symm
      · simp only [if_neg h]
        show Option.map view (some ((w.arrive b).goto b .pollBarrier)) = _
        exact (congrArg (Option.map view) (if_neg h)).symm
  | pollBarrier => exact leave_view
  | readNum seq =>
      simp only [view_length]
      rfl
  | load seq num base pc sinst =>
      simp only
      cases loaded sinst with
      | some inst =>
          by_cases h : inst.opcode = opHalt
          · simp only [if_pos h]
            rfl
          · simp only [if_neg h]
            rfl
      | none =>
          by_cases h : (sinst j).isSome
          · simp only [if_pos h]
            rfl
          · simp only [if_neg h]
            rfl
  | opBarrier seq num base pc => exact leave_view
  | haltBarrier => exact leave_view
  | readSeq | readBase | writeAck | returned => rfl

lemma store_view (w : Worker n) (batch : Batch) (k : ℕ) :
    (w.view.store batch k).view = (w.store batch k).view := by
  by_cases hword : k < batch.numWords
  · rw [store, store, if_pos hword, if_pos hword]
    exact view_view { w with queue.inst := Function.update w.queue.inst k (batch.word k) }
  · by_cases hnum : k = batch.numWords
    · rw [store, store, if_neg hword, if_neg hword, if_pos hnum, if_pos hnum]
      rfl
    · rw [store, store, if_neg hword, if_neg hword, if_neg hnum, if_neg hnum]
      exact view_view { w with queue.pcBase := batch.pcBase }

lemma store_fired (w : Worker n) (batch : Batch) (k : ℕ) :
    (w.store batch k).fired = w.fired := by
  rw [store]
  split
  · rfl
  · split <;> rfl

lemma trigger_view (w : Worker n) (batch batch' : Batch) :
    (w.view.trigger batch').view = (w.trigger batch).view :=
  view_view (w.trigger batch)

/-- Workers that look the same make the same steps. -/
lemma exists_blockStep_of_view (h : w.view = w'.view) {j : Fin instSize} {v : Worker n}
    (hs : w.blockStep b j = some v) : ∃ v', w'.blockStep b j = some v' ∧ v.view = v'.view := by
  have hview : (w'.blockStep b j).map view = some v.view := by
    rw [← blockStep_view, ← h, blockStep_view, hs]
    rfl
  obtain ⟨v', hv', heq⟩ := Option.map_eq_some_iff.mp hview
  exact ⟨v', hv', heq.symm⟩

end Worker

/-! ### The two machines side by side -/

namespace WorkerQueue

/-- The instruction `cur` stands in the first slot. -/
def Keeps (q : WorkerQueue) (cur : Instruction) : Prop :=
  ∀ j : Fin instSize, q.inst j = cur.words j

/-- A mailbox that holds a batch has its first instruction in the first slot. -/
lemma Holds.keeps {q : WorkerQueue} {inst : Instruction} {insts : List Instruction} {pcBase : ℕ}
    (h : q.Holds ⟨inst :: insts, pcBase⟩) : q.Keeps inst := by
  intro j
  have hfirst : (inst :: insts)[0]? = some inst := rfl
  have hword := h.inst_eq hfirst j
  rwa [Nat.zero_mul, Nat.zero_add] at hword

/-- Past the words of a batch, its stores leave the instructions alone. -/
lemma Keeps.store {n : ℕ} {w : Worker n} {cur : Instruction} {batch : Batch} {k : ℕ}
    (h : w.queue.Keeps cur) (hk : batch.numWords ≤ k) : (w.store batch k).queue.Keeps cur := by
  rw [Worker.store, if_neg (not_lt.mpr hk)]
  split <;> exact h

end WorkerQueue

namespace Machine

/-- Where the hosts of the two machines stand, the batches `batches` being still to come: `s`
fires them, `t` what they amount to. -/
inductive Hosts (s t : Machine N) : Prop
  | done (hs : s.ops = []) (ht : t.ops = [])
  /-- Within the fire of the same batch. -/
  | fire {inst insts pcBase batches}
      (hs : s.ops = dispatchBatches (⟨inst :: insts, pcBase⟩ :: batches))
      (ht : t.ops = dispatchBatches (⟨inst :: insts, pcBase⟩ :: effective inst batches))
      (hstores : t.stores = s.stores)
  /-- Within the fire of an empty batch, and of one of the instruction in the first slot. -/
  | stale {cur pcBase batches}
      (hs : s.ops = dispatchBatches (⟨[], pcBase⟩ :: batches))
      (ht : t.ops = dispatchBatches (⟨[cur], pcBase⟩ :: effective cur batches))
      (hkeeps : (t.workers 0).queue.Keeps cur)
      (hstores : t.stores = if s.stores = 0 then 0 else s.stores + instSize)
  | wait {targets cur batches}
      (hs : s.ops = .wait targets :: dispatchBatches batches)
      (ht : t.ops = .wait targets :: dispatchBatches (effective cur batches))
      (hkeeps : (t.workers 0).queue.Keeps cur)

/-- The machine `t` fires what the batches of `s` amount to, and has come as far as `s`. -/
structure Mirrors (ops₀ : List (HostOp 1)) (s t : Machine N) : Prop where
  inv : t.Inv ops₀
  hosts : Hosts s t
  view_eq : (s.workers 0).view = (t.workers 0).view

/-- Two hosts about to fire the next batch. -/
lemma Hosts.ready {s t : Machine N} {cur : Instruction} {batches : List Batch}
    (hs : s.ops = dispatchBatches batches) (ht : t.ops = dispatchBatches (effective cur batches))
    (hkeeps : (t.workers 0).queue.Keeps cur) (hs₀ : s.stores = 0) (ht₀ : t.stores = 0) :
    Hosts s t := by
  match batches with
  | [] => exact .done hs ht
  | ⟨[], pcBase⟩ :: batches =>
      refine .stale hs ht hkeeps ?_
      rw [ht₀, if_pos hs₀]
  | ⟨inst :: insts, pcBase⟩ :: batches => exact .fire hs ht (ht₀.trans hs₀.symm)

variable {ops₀ : List (HostOp 1)} {s t : Machine N}

lemma Mirrors.blocks_eq (h : Mirrors ops₀ s t) : (s.workers 0).blocks = (t.workers 0).blocks := by
  rw [← Worker.view_blocks, h.view_eq, Worker.view_blocks]

/-- The stores of an instruction that stands in the first slot already change nothing. -/
lemma run_restore {cur : Instruction} {pcBase : ℕ} {rest : List (HostOp 1)}
    (hops : t.ops = .fire 0 ⟨[cur], pcBase⟩ :: rest) (hzero : t.stores = 0)
    (hkeeps : (t.workers 0).queue.Keeps cur) {k : ℕ} (hk : k ≤ instSize) :
    ∃ as, Run Step t as (⟨t.ops, k, t.workers⟩ : Machine N) := by
  induction k with
  | zero =>
      refine ⟨[], ?_⟩
      rw [← hzero]
      exact .nil
  | succ k ih =>
      obtain ⟨as, hr⟩ := ih (Nat.le_of_succ_le hk)
      refine ⟨_, hr.snoc (a := .host 0) ?_⟩
      have hword : k < (⟨[cur], pcBase⟩ : Batch).numWords := hk
      have hstep := hostStep_store (s := (⟨t.ops, k, t.workers⟩ : Machine N)) hops
        (Nat.le_of_ble_eq_true rfl) (Nat.lt_add_right 2 hword) 0
      refine hstep.trans ?_
      have hcur : (⟨[cur], pcBase⟩ : Batch).word k = (t.workers 0).queue.inst k := by
        have hdiv : k / instSize = 0 := Nat.div_eq_of_lt hk
        have hmod : k % instSize = k := Nat.mod_eq_of_lt hk
        rw [Batch.word, hdiv, hkeeps ⟨k, hk⟩]
        exact congrArg cur.words (Fin.ext hmod)
      have hsame : (t.workers 0).store ⟨[cur], pcBase⟩ k = t.workers 0 := by
        rw [Worker.store, if_pos hword, hcur, Function.update_eq_self]
      rw [setWorker, hsame, Function.update_eq_self]

lemma view_setWorker (s t : Machine N) {w w' : Worker (N 0)} (h : w.view = w'.view) :
    (s.setWorker 0 w 0).view = (t.setWorker 0 w' 0).view := by
  rw [setWorker_self, setWorker_self]
  exact h

/-- A step of a block is matched by the same step of the other machine. -/
lemma Mirrors.block (h : Mirrors ops₀ s t) (hd : Disciplined ops₀) {b : Fin (N 0 + 1)}
    {j : Fin instSize} {w : Worker (N 0)} (hs : (s.workers 0).blockStep b j = some w) :
    ∃ t', t.Step (.block 0 b j) t' ∧ Mirrors ops₀ ⟨s.ops, s.stores, s.setWorker 0 w⟩ t' := by
  obtain ⟨w', hw', hview⟩ := Worker.exists_blockStep_of_view h.view_eq hs
  have hstep : t.Step (.block 0 b j) ⟨t.ops, t.stores, t.setWorker 0 w'⟩ := by
    show Option.map _ _ = _
    rw [hw']
    rfl
  have hinst : ∀ {cur}, (t.workers 0).queue.Keeps cur → w'.queue.Keeps cur := by
    intro cur hkeeps
    rw [(Worker.blockStep_frame hw').queue_eq]
    exact hkeeps
  refine ⟨_, hstep, h.inv.step hd hstep, ?_, ?_⟩
  · cases h.hosts with
    | done hs ht => exact .done hs ht
    | fire hs ht hstores => exact .fire hs ht hstores
    | stale hs ht hkeeps hstores =>
        refine .stale hs ht ?_ hstores
        show (t.setWorker 0 w' 0).queue.Keeps _
        rw [setWorker_self]
        exact hinst hkeeps
    | wait hs ht hkeeps =>
        refine .wait hs ht ?_
        show (t.setWorker 0 w' 0).queue.Keeps _
        rw [setWorker_self]
        exact hinst hkeeps
  · exact view_setWorker s t hview

/-- The view of a store. -/
lemma Mirrors.view_store (h : Mirrors ops₀ s t) (batch : Batch) (k : ℕ) :
    ((s.workers 0).store batch k).view = ((t.workers 0).store batch k).view := by
  rw [← Worker.store_view, h.view_eq, Worker.store_view]

/-- The view of the end of a fire. -/
lemma Mirrors.view_trigger (h : Mirrors ops₀ s t) (batch batch' : Batch) :
    ((s.workers 0).trigger batch).view = ((t.workers 0).trigger batch').view := by
  rw [← Worker.trigger_view _ batch batch', h.view_eq, Worker.trigger_view _ batch' batch']

/-- The last stores of an empty batch and of a batch of one instruction are the same to see. -/
lemma Worker.store_empty_view {n : ℕ} (w : Worker n) (cur : Instruction) (pcBase k : ℕ)
    (hk : k < 2) :
    (w.store ⟨[], pcBase⟩ k).view = (w.store ⟨[cur], pcBase⟩ (k + instSize)).view := by
  obtain rfl | rfl : k = 0 ∨ k = 1 := by omega
  · rfl
  · rfl

/-- A store of the same batch. -/
lemma Mirrors.store_fire (h : Mirrors ops₀ s t) (hd : Disciplined ops₀) {inst : Instruction}
    {insts : List Instruction} {pcBase : ℕ} {batches : List Batch}
    (hs : s.ops = dispatchBatches (⟨inst :: insts, pcBase⟩ :: batches))
    (ht : t.ops = dispatchBatches (⟨inst :: insts, pcBase⟩ :: effective inst batches))
    (hstores : t.stores = s.stores)
    (hlt : s.stores < (⟨inst :: insts, pcBase⟩ : Batch).numWords + 2) :
    ∃ t', t.Step (.host 0) t' ∧ Mirrors ops₀
      ⟨s.ops, s.stores + 1, s.setWorker 0 ((s.workers 0).store ⟨inst :: insts, pcBase⟩ s.stores)⟩
      t' := by
  have hops : t.ops = .fire 0 ⟨inst :: insts, pcBase⟩ :: _ := ht
  have hlen := (hd.proper 0 _ (h.inv.fire_mem hops)).length_le
  have hstep : t.Step (.host 0) _ := hostStep_store hops hlen (hstores ▸ hlt) 0
  refine ⟨_, hstep, h.inv.step hd hstep, .fire hs ht (congrArg (· + 1) hstores), ?_⟩
  rw [hstores]
  exact view_setWorker s t (h.view_store _ _)

/-- A store of an empty batch: before the first of them the other machine writes the first slot
again. -/
lemma Mirrors.store_stale (h : Mirrors ops₀ s t) (hd : Disciplined ops₀) {cur : Instruction}
    {pcBase : ℕ} {batches : List Batch}
    (hs : s.ops = dispatchBatches (⟨[], pcBase⟩ :: batches))
    (ht : t.ops = dispatchBatches (⟨[cur], pcBase⟩ :: effective cur batches))
    (hkeeps : (t.workers 0).queue.Keeps cur)
    (hstores : t.stores = if s.stores = 0 then 0 else s.stores + instSize)
    (hlt : s.stores < 2) :
    ∃ bs t', Run Step t bs t' ∧ 0 < bs.length ∧ Mirrors ops₀
      ⟨s.ops, s.stores + 1, s.setWorker 0 ((s.workers 0).store ⟨[], pcBase⟩ s.stores)⟩ t' := by
  -- the same worker, with all words of the first slot written
  obtain ⟨bs, hrun⟩ : ∃ bs, Run Step t bs
      (⟨t.ops, s.stores + instSize, t.workers⟩ : Machine N) := by
    by_cases hzero : s.stores = 0
    · rw [hzero, Nat.zero_add]
      exact run_restore ht (by rw [hstores, if_pos hzero]) hkeeps le_rfl
    · refine ⟨[], ?_⟩
      rw [if_neg hzero] at hstores
      rw [← hstores]
      exact .nil
  have hinv : (⟨t.ops, s.stores + instSize, t.workers⟩ : Machine N).Inv ops₀ :=
    hrun.invariant (fun _ _ _ h hs => h.step hd hs) h.inv
  have hops : t.ops = .fire 0 ⟨[cur], pcBase⟩ :: _ := ht
  have hstep : Step (⟨t.ops, s.stores + instSize, t.workers⟩ : Machine N) (.host 0) _ :=
    hostStep_store (s := ⟨t.ops, s.stores + instSize, t.workers⟩) hops
      (Nat.le_of_ble_eq_true rfl) (show s.stores + instSize < 1 * instSize + 2 by omega) 0
  refine ⟨_, _, hrun.snoc hstep, ?_, hinv.step hd hstep, .stale hs ht ?_ ?_, ?_⟩
  · rw [List.length_append, List.length_singleton]
    exact Nat.succ_pos _
  · show (t.setWorker 0 ((t.workers 0).store _ (s.stores + instSize)) 0).queue.Keeps cur
    rw [setWorker_self]
    exact hkeeps.store (show 1 * instSize ≤ s.stores + instSize by omega)
  · show s.stores + instSize + 1 = if s.stores + 1 = 0 then 0 else s.stores + 1 + instSize
    rw [if_neg (Nat.succ_ne_zero _)]
    omega
  · exact view_setWorker s t ((h.view_store _ _).trans (Worker.store_empty_view _ _ _ _ hlt))

/-- The end of a fire. -/
lemma Mirrors.trigger (h : Mirrors ops₀ s t) (hd : Disciplined ops₀) {batch batch' : Batch}
    {cur : Instruction} {batches : List Batch}
    (ht : t.ops = dispatchBatches (batch' :: effective cur batches))
    (hkeeps : (t.workers 0).queue.Keeps cur) (hge : batch'.numWords + 2 ≤ t.stores) :
    ∃ t', t.Step (.host 0) t' ∧ Mirrors ops₀
      ⟨.wait [0] :: dispatchBatches batches, 0, s.setWorker 0 ((s.workers 0).trigger batch)⟩
      t' := by
  have hops : t.ops = .fire 0 batch' :: .wait [0] :: dispatchBatches (effective cur batches) := ht
  have hlen := (hd.proper 0 _ (h.inv.fire_mem hops)).length_le
  have hstep : t.Step (.host 0) _ := hostStep_trigger hops hlen hge 0
  refine ⟨_, hstep, h.inv.step hd hstep, .wait rfl rfl ?_, ?_⟩
  · show (t.setWorker 0 _ 0).queue.Keeps cur
    rw [setWorker_self]
    exact hkeeps
  · exact view_setWorker s t (h.view_trigger batch batch')

/-- The first instruction of a batch whose words are all written stands in the first slot. -/
lemma Inv.keeps (h : t.Inv ops₀) {inst : Instruction} {insts : List Instruction} {pcBase : ℕ}
    {rest : List (HostOp 1)} (hops : t.ops = .fire 0 ⟨inst :: insts, pcBase⟩ :: rest)
    (hge : (⟨inst :: insts, pcBase⟩ : Batch).numWords + 2 ≤ t.stores) :
    (t.workers 0).queue.Keeps inst := by
  have hle : t.stores ≤ (⟨inst :: insts, pcBase⟩ : Batch).numWords + 2 := h.stores_le_of hops
  have hholds := h.stored 0 _ _ hops
  rw [show t.stores = _ from le_antisymm hle hge] at hholds
  exact WorkerQueue.Holds.keeps hholds

/-- A step of a wait changes no worker. -/
lemma Mirrors.wait_step (h : Mirrors ops₀ s t) (hd : Disciplined ops₀) {a : Act N}
    {ops ops' : List (HostOp 1)} (hstep : t.Step a ⟨ops', 0, t.workers⟩)
    (hhosts : Hosts (⟨ops, 0, s.workers⟩ : Machine N) ⟨ops', 0, t.workers⟩) :
    ∃ t', t.Step a t' ∧ Mirrors ops₀ ⟨ops, 0, s.workers⟩ t' :=
  ⟨_, hstep, h.inv.step hd hstep, hhosts, h.view_eq⟩

/-- A wait returns once it has seen all its targets. -/
lemma hostStep_return {rest : List (HostOp 1)} (hops : t.ops = .wait [] :: rest) :
    t.hostStep 0 = some ⟨rest, 0, t.workers⟩ := by
  rw [hostStep]
  simp only [hops]

/-- A wait sees a target that is done. -/
lemma hostStep_seen {targets : List (Fin 1)} {rest : List (HostOp 1)}
    (hops : t.ops = .wait targets :: rest) (hmem : (0 : Fin 1) ∈ targets)
    (hack : (t.workers 0).queue.ack = (t.workers 0).seqCounter) :
    t.hostStep 0 = some ⟨.wait (targets.erase 0) :: rest, 0, t.workers⟩ := by
  rw [hostStep, hops]
  cases targets with
  | nil => exact absurd hmem List.not_mem_nil
  | cons g targets => exact if_pos ⟨hmem, hack⟩

/-- **Each step is matched** by one or more steps of the other machine. -/
theorem Mirrors.step (h : Mirrors ops₀ s t) (hd : Disciplined ops₀) {a : Act N} {s' : Machine N}
    (hs : s.Step a s') : ∃ bs t', Run Step t bs t' ∧ 0 < bs.length ∧ Mirrors ops₀ s' t' := by
  have single : ∀ {a s'}, (∃ t', t.Step a t' ∧ Mirrors ops₀ s' t') →
      ∃ bs t', Run Step t bs t' ∧ 0 < bs.length ∧ Mirrors ops₀ s' t' :=
    fun ⟨t', hstep, hm⟩ => ⟨_, t', Run.nil.snoc hstep, Nat.one_pos, hm⟩
  cases a with
  | block g b j =>
      obtain ⟨w, hw, rfl⟩ := Option.map_eq_some_iff.mp hs
      obtain rfl := Fin.fin_one_eq_zero g
      exact single (h.block hd hw)
  | host target =>
      cases hostStep_cases hs with
      | @store g batch rest hops hlt =>
          obtain rfl := Fin.fin_one_eq_zero g
          cases h.hosts with
          | done hs' => exact absurd (hops.symm.trans hs') (List.cons_ne_nil _ _)
          | wait hs' => exact absurd (hops.symm.trans hs') (by simp)
          | fire hs' ht hstores =>
              obtain ⟨rfl, -⟩ : batch = _ ∧ rest = _ := by
                simpa [dispatchBatches_cons] using hops.symm.trans hs'
              exact single (h.store_fire hd hs' ht hstores hlt)
          | stale hs' ht hkeeps hstores =>
              obtain ⟨rfl, -⟩ : batch = _ ∧ rest = _ := by
                simpa [dispatchBatches_cons] using hops.symm.trans hs'
              exact h.store_stale hd hs' ht hkeeps hstores hlt
      | @trigger g batch rest hops hge =>
          obtain rfl := Fin.fin_one_eq_zero g
          cases h.hosts with
          | done hs' => exact absurd (hops.symm.trans hs') (List.cons_ne_nil _ _)
          | wait hs' => exact absurd (hops.symm.trans hs') (by simp)
          | fire hs' ht hstores =>
              obtain ⟨rfl, rfl⟩ : batch = _ ∧ rest = _ := by
                simpa [dispatchBatches_cons] using hops.symm.trans hs'
              rw [← hstores] at hge
              exact single (h.trigger hd ht (h.inv.keeps ht hge) hge)
          | @stale cur pcBase batches hs' ht hkeeps hstores =>
              obtain ⟨rfl, rfl⟩ : batch = _ ∧ rest = _ := by
                simpa [dispatchBatches_cons] using hops.symm.trans hs'
              have htwo : 2 ≤ s.stores := hge
              rw [if_neg (by omega)] at hstores
              refine single (h.trigger hd ht hkeeps ?_)
              show 1 * instSize + 2 ≤ t.stores
              omega
      | @ret rest hops =>
          cases h.hosts with
          | done hs' => exact absurd (hops.symm.trans hs') (List.cons_ne_nil _ _)
          | fire hs' | stale hs' =>
              exact absurd (hops.symm.trans hs') (by simp [dispatchBatches_cons])
          | @wait targets cur batches hs' ht hkeeps =>
              obtain ⟨rfl, rfl⟩ : targets = [] ∧ rest = _ := by
                simpa [eq_comm] using hops.symm.trans hs'
              refine single (h.wait_step hd (a := .host 0) ?_ (.ready rfl rfl hkeeps rfl rfl))
              exact hostStep_return ht
      | @seen g targets rest hops hmem hack =>
          obtain rfl := Fin.fin_one_eq_zero g
          cases h.hosts with
          | done hs' => exact absurd (hops.symm.trans hs') (List.cons_ne_nil _ _)
          | fire hs' | stale hs' =>
              exact absurd (hops.symm.trans hs') (by simp [dispatchBatches_cons])
          | @wait targets' cur batches hs' ht hkeeps =>
              obtain ⟨rfl, rfl⟩ : targets = targets' ∧ rest = _ := by
                simpa using hops.symm.trans hs'
              refine single (h.wait_step hd (a := .host 0) ?_ (.wait rfl rfl hkeeps))
              have hack' : (t.workers 0).queue.ack = (t.workers 0).seqCounter := by
                have hq := congrArg (fun w => w.queue.ack) h.view_eq
                have hc := congrArg Worker.seqCounter h.view_eq
                exact hq.symm.trans (hack.trans hc)
              exact hostStep_seen ht hmem hack'

/-- **The machine gets stuck only if the other does.** -/
theorem Mirrors.exists_step (h : Mirrors ops₀ s t) (hd : Disciplined ops₀) (hne : s.ops ≠ []) :
    ∃ a s', s.Step a s' := by
  have fires : ∀ {batch rest}, s.ops = .fire 0 batch :: rest →
      batch.insts.length ≤ maxBatchInstructions → ∃ a s', s.Step a s' := by
    intro batch rest hops hlen
    by_cases hlt : s.stores < batch.numWords + 2
    · exact ⟨.host 0, _, hostStep_store hops hlen hlt 0⟩
    · exact ⟨.host 0, _, hostStep_trigger hops hlen (not_lt.mp hlt) 0⟩
  cases h.hosts with
  | done hs => exact absurd hs hne
  | fire hs ht => exact fires hs (hd.proper 0 _ (h.inv.fire_mem ht)).length_le
  | stale hs => exact fires hs (Nat.zero_le _)
  | @wait targets cur batches hs ht =>
      have htne : t.ops ≠ [] := by
        rw [ht]
        exact List.cons_ne_nil _ _
      obtain ⟨a, t', hstep⟩ := h.inv.exists_step hd Nat.one_pos htne
      cases a with
      | block g b j =>
          obtain ⟨w, hw, -⟩ := Option.map_eq_some_iff.mp hstep
          obtain rfl := Fin.fin_one_eq_zero g
          obtain ⟨w', hw', -⟩ := Worker.exists_blockStep_of_view h.view_eq.symm hw
          refine ⟨.block 0 b j, ⟨s.ops, s.stores, s.setWorker 0 w'⟩, ?_⟩
          show Option.map _ _ = _
          rw [hw']
          rfl
      | host target =>
          cases hostStep_cases hstep with
          | store hops | trigger hops => exact absurd (hops.symm.trans ht) (by simp)
          | @ret rest hops =>
              obtain ⟨rfl, -⟩ : targets = [] ∧ rest = _ := by
                simpa [eq_comm] using hops.symm.trans ht
              exact ⟨.host 0, _, hostStep_return hs⟩
          | @seen g targets' rest hops hmem hack =>
              obtain rfl := Fin.fin_one_eq_zero g
              obtain ⟨rfl, -⟩ : targets' = targets ∧ rest = _ := by
                simpa using hops.symm.trans ht
              have hq := congrArg (fun w => w.queue.ack) h.view_eq
              have hc := congrArg Worker.seqCounter h.view_eq
              exact ⟨.host 0, _, hostStep_seen hs hmem (hq.trans (hack.trans hc.symm))⟩

/-- The batches fired and those still to come are the history. -/
lemma step_fired {a : Act N} (h : s.Step a t) :
    (t.workers 0).fired ++ firesTo 0 t.ops = (s.workers 0).fired ++ firesTo 0 s.ops := by
  cases a with
  | block g b j =>
      obtain ⟨w, hw, rfl⟩ := Option.map_eq_some_iff.mp h
      obtain rfl := Fin.fin_one_eq_zero g
      show (s.setWorker 0 w 0).fired ++ firesTo 0 s.ops = _
      rw [setWorker_self, (Worker.blockStep_frame hw).fired_eq]
  | host target =>
      cases hostStep_cases h with
      | @store g batch rest hops hlt =>
          obtain rfl := Fin.fin_one_eq_zero g
          show (s.setWorker 0 ((s.workers 0).store batch s.stores) 0).fired ++ firesTo 0 s.ops = _
          rw [setWorker_self, Worker.store_fired]
      | @trigger g batch rest hops hge =>
          obtain rfl := Fin.fin_one_eq_zero g
          show (s.setWorker 0 ((s.workers 0).trigger batch) 0).fired ++ firesTo 0 rest = _
          rw [setWorker_self, hops, firesTo, if_pos rfl]
          exact List.append_assoc _ [batch] _
      | ret hops | seen hops =>
          rw [hops]
          rfl

/-- What a worker has executed is what it was passed: at any time a beginning of it, and whenever
the host does not wait, all of it. -/
structure ExecutesPassed (s : Machine N) : Prop where
  sound : ∀ b, ((s.workers 0).blocks b).log <+: (s.workers 0).fired.flatMap Batch.entries
  waited : (∀ targets rest, s.ops ≠ .wait targets :: rest) →
    ∀ b, ((s.workers 0).blocks b).log = (s.workers 0).fired.flatMap Batch.entries

end Machine

/-- Once the host is through, the whole history has been fired. -/
lemma fired_of_end {batches : List Batch} {as : List (Act N)} {s : Machine N}
    (hr : Run Machine.Step (Machine.init (dispatchBatches batches)) as s) (hops : s.ops = []) :
    (s.workers 0).fired = batches := by
  have := hr.invariant (I := fun s => (s.workers 0).fired ++ firesTo 0 s.ops = batches)
    (fun _ _ _ hI hs => (Machine.step_fired hs).trans hI) (firesTo_dispatchBatches batches)
  rwa [hops, firesTo, List.append_nil] at this

section History

variable {batches : List Batch}
  (hlen : ∀ b ∈ batches, b.insts.length ≤ maxBatchInstructions)
  (hhalt : ∀ b ∈ batches, ∀ i ∈ b.insts, i.opcode ≠ opHalt)
  (hcount : batches.length ≤ 2 ^ 32 - 2)
include hlen hhalt hcount

lemma effective_disciplined : Disciplined (dispatchBatches (effective zeroInstruction batches)) :=
  dispatchBatches_disciplined (effective_proper (by decide) hlen hhalt)
    (length_effective.trans_le hcount)

/-- Every run is matched by a run of what the history amounts to. -/
lemma mirrors_of_run {as : List (Act N)} {s : Machine N}
    (hr : Run Machine.Step (Machine.init (dispatchBatches batches)) as s) :
    ∃ (bs : List (Act N)) (t : Machine N),
      Run Machine.Step (Machine.init (dispatchBatches (effective zeroInstruction batches))) bs t ∧
      as.length ≤ bs.length ∧
      Machine.Mirrors (dispatchBatches (effective zeroInstruction batches)) s t := by
  have hd := effective_disciplined hlen hhalt hcount
  refine hr.simulate (fun s t a s' h hs => h.step hd hs) ⟨Machine.init_inv hd.waits, ?_, rfl⟩
  have hzero : ∀ j : Fin instSize, (0 : UInt64) = zeroInstruction.words j := fun j => by
    show (0 : UInt64) = if j.val = 0 then 0 else 0
    rw [ite_self]
  exact .ready rfl rfl hzero rfl rfl

/-- **What a history executes.**  In every state of every run the blocks have executed a prefix
of what the batches amount to; the machine goes on until the host is through, and then all of it
has been executed. -/
theorem logs_effective {as : List (Act N)} {s : Machine N}
    (hr : Run Machine.Step (Machine.init (dispatchBatches batches)) as s) :
    (∀ b, ((s.workers 0).blocks b).log <+:
      (effective zeroInstruction batches).flatMap Batch.entries) ∧
    (s.ops ≠ [] → ∃ a t, s.Step a t) ∧
    (s.ops = [] → ∀ b, ((s.workers 0).blocks b).log =
      (effective zeroInstruction batches).flatMap Batch.entries) := by
  have hd := effective_disciplined hlen hhalt hcount
  obtain ⟨bs, t, -, -, hm⟩ := mirrors_of_run hlen hhalt hcount hr
  have hfired := hm.inv.fired_eq 0
  rw [firesTo_dispatchBatches] at hfired
  refine ⟨fun b => ?_, hm.exists_step hd, fun hops b => ?_⟩
  · have hlog := ((hm.inv.worker 0).block_ok b).log_isPrefix_logAt
    rw [logAt_length] at hlog
    rw [hm.blocks_eq, ← hfired, List.flatMap_append]
    exact hlog.trans (List.prefix_append _ _)
  · have htops : t.ops = [] := by
      cases hm.hosts with
      | done _ ht => exact ht
      | fire hs | stale hs | wait hs =>
          exact absurd (hops.symm.trans hs) (by simp [dispatchBatches_cons])
    rw [hm.blocks_eq, hm.inv.log_eq_of_done htops b, firesTo_dispatchBatches]

/-- Some run gets to the end of the history. -/
lemma exists_run_to_end : ∃ (as : List (Act N)) (s : Machine N),
    Run Machine.Step (Machine.init (dispatchBatches batches)) as s ∧ s.ops = [] := by
  have hd := effective_disciplined hlen hhalt hcount
  refine Run.exists_done
    (n := Machine.maxSteps N (dispatchBatches (effective zeroInstruction batches)))
    (fun as s hr => ?_) (fun as s hr hne => (logs_effective hlen hhalt hcount hr).2.1 hne)
  obtain ⟨bs, t, hr', hle, -⟩ := mirrors_of_run hlen hhalt hcount hr
  exact hle.trans (Machine.Inv.run_length_le hd hr')

/-- With an empty batch, what has been executed at the end is more than what was passed. -/
lemma exists_not_executesPassed (hempty : ∃ b ∈ batches, b.insts = []) :
    ∃ (as : List (Act N)) (s : Machine N),
      Run Machine.Step (Machine.init (dispatchBatches batches)) as s ∧ ¬ s.ExecutesPassed := by
  obtain ⟨as, s, hr, hops⟩ := exists_run_to_end (N := N) hlen hhalt hcount
  refine ⟨as, s, hr, fun h => ?_⟩
  have hlog := (logs_effective hlen hhalt hcount hr).2.2 hops 0
  rw [h.waited (fun _ _ heq => List.cons_ne_nil _ _ (heq.symm.trans hops)) 0,
    fired_of_end hr hops] at hlog
  exact (entries_lt_effective hempty).ne (congrArg List.length hlog)

end History

/-- **The instructions executed are those of the batch exactly if no batch is empty.**  For
batches passed to `dispatch_batch_fire` one after the other, each waited for: in every state of
every run the worker has executed what it was passed, and the machine goes on until the host is
through, if and only if every batch has an instruction. -/
theorem executesPassed_iff {batches : List (List Instruction)}
    (hlen : ∀ insts ∈ batches, insts.length ≤ maxBatchInstructions)
    (hhalt : ∀ insts ∈ batches, ∀ i ∈ insts, i.opcode ≠ opHalt)
    (hcount : batches.length ≤ 2 ^ 32 - 2) :
    (∀ (as : List (Act N)) (s : Machine N),
      Run Machine.Step (Machine.init (dispatchBatches (batches.map dispatchBatchFire))) as s →
        s.ExecutesPassed ∧ (s.ops ≠ [] → ∃ a t, s.Step a t)) ↔
      ∀ insts ∈ batches, insts ≠ [] := by
  have hlen' : ∀ b ∈ batches.map dispatchBatchFire, b.insts.length ≤ maxBatchInstructions :=
    List.forall_mem_map.mpr hlen
  have hhalt' : ∀ b ∈ batches.map dispatchBatchFire, ∀ i ∈ b.insts, i.opcode ≠ opHalt :=
    List.forall_mem_map.mpr hhalt
  have hcount' : (batches.map dispatchBatchFire).length ≤ 2 ^ 32 - 2 := by
    rwa [List.length_map]
  constructor
  · intro h insts hmem hnil
    obtain ⟨as, s, hr, hnot⟩ := exists_not_executesPassed (N := N) hlen' hhalt' hcount'
      ⟨_, List.mem_map_of_mem hmem, hnil⟩
    exact hnot (h as s hr).1
  · intro hne as s hr
    have hd : Disciplined (dispatchBatches (batches.map dispatchBatchFire)) := by
      refine dispatchBatches_disciplined (List.forall_mem_map.mpr fun insts hmem => ?_) hcount'
      exact ⟨hne insts hmem, hlen insts hmem, hhalt insts hmem⟩
    have hinv := Machine.Inv.of_run hd hr
    refine ⟨⟨fun b => ?_, fun hwait b => ?_⟩, hinv.exists_step hd Nat.one_pos⟩
    · rw [← logAt_length]
      exact ((hinv.worker 0).block_ok b).log_isPrefix_logAt
    · cases hops : s.ops with
      | nil => rw [hinv.log_eq_of_done hops b, hinv.fired_eq_of_done hops]
      | cons op rest =>
          cases op with
          | fire g batch =>
              obtain rfl := Fin.fin_one_eq_zero g
              exact hinv.executed_before_fire hops b
          | wait targets => exact absurd hops (hwait targets rest)

/-- `OP_RESIDUAL_ADD`, which adds in place. -/
def residualAdd : Instruction := .ofOpcode 7

/-- Two batches of one instruction each are executed as passed, on a worker with two blocks. -/
theorem executesPassed_iff_twoBatches : [[residualAdd], [residualAdd]].length = 2 ∧
    ∀ (as : List (Act fun _ : Fin 1 => 1)) (s : Machine fun _ : Fin 1 => 1),
      Run Machine.Step (Machine.init
        (dispatchBatches ([[residualAdd], [residualAdd]].map dispatchBatchFire))) as s →
        s.ExecutesPassed ∧ (s.ops ≠ [] → ∃ a t, s.Step a t) := by
  refine ⟨rfl, (executesPassed_iff ?_ ?_ (Nat.le_of_ble_eq_true rfl)).mpr ?_⟩
  · intro insts hmem
    obtain rfl : insts = [residualAdd] := by simpa using hmem
    exact Nat.le_of_ble_eq_true rfl
  · intro insts hmem i hi
    obtain rfl : insts = [residualAdd] := by simpa using hmem
    rw [List.mem_singleton.mp hi]
    decide
  · intro insts hmem
    obtain rfl : insts = [residualAdd] := by simpa using hmem
    exact List.cons_ne_nil _ _

/-- **An instruction executed again.**  An addition in place is passed once, and an empty batch
after it: some run ends with the addition executed twice. -/
theorem not_executesPassed_empty :
    ∃ (as : List (Act fun _ : Fin 1 => 0)) (s : Machine fun _ : Fin 1 => 0),
      Run Machine.Step
        (Machine.init (dispatchBatches ([[residualAdd], []].map dispatchBatchFire))) as s ∧
      s.ops = [] ∧ ((s.workers 0).blocks 0).log = [(residualAdd, 0), (residualAdd, 0)] ∧
      ¬ s.ExecutesPassed := by
  have hlen : ∀ b ∈ [[residualAdd], []].map dispatchBatchFire,
      b.insts.length ≤ maxBatchInstructions := by decide
  have hhalt : ∀ b ∈ [[residualAdd], []].map dispatchBatchFire,
      ∀ i ∈ b.insts, i.opcode ≠ opHalt := by
    intro b hb i hi
    obtain rfl : i = residualAdd := by
      rcases List.mem_pair.mp hb with rfl | rfl
      · exact List.mem_singleton.mp hi
      · exact absurd hi List.not_mem_nil
    decide
  obtain ⟨as, s, hr, hops⟩ := exists_run_to_end (N := fun _ => 0) hlen hhalt
    (Nat.le_of_ble_eq_true rfl)
  have hlog := (logs_effective hlen hhalt (Nat.le_of_ble_eq_true rfl) hr).2.2 hops 0
  have hlog' : ((s.workers 0).blocks 0).log = [(residualAdd, 0), (residualAdd, 0)] := hlog
  have hfired := fired_of_end hr hops
  refine ⟨as, s, hr, hops, hlog', fun h => ?_⟩
  have hpassed := h.waited (fun _ _ heq => List.cons_ne_nil _ _ (heq.symm.trans hops)) 0
  rw [hlog', hfired] at hpassed
  exact absurd (congrArg List.length hpassed) (by decide)

end Braidinfer.Mailbox
