/-
The back-pressure on the activation copy (`YEF52_GPU_BP` with `YEF52_OPTION_C`).

From the third decode step on the host no longer waits for GPU 0 between the MoE layers.  Instead
the activation copy of a layer waits, before it overwrites its staging slot, for the value
`seq - 2` in worker 0's result sentinel of the layer.  A worker releases its result sentinel once
all its blocks are through with the staging slot, and the sum step of a layer waits for the result
sentinels of all workers.

The MoE layers of all decode steps, in order, are the rounds of the protocol.  The host fires the
segment of a round on GPU 0 chunk by chunk, then one `OP_MOE_FFN_REMOTE` a worker; the rest of a
step is dispatched synchronously.  A mailbox holds one batch, and a fire overwrites it whether or
not it was acknowledged.  Prefill calls are synchronous and touch none of the sentinels: between
two decode steps they only move the position.

* `next`, `Step`: the transitions of the host, GPU 0 and the workers;
* `State.Throttled`: the awaited value was sent for, is there, and its arrival frees the slot;
* `Inv`, `Inv.step`: the invariant and what one step preserves;
* `throttled_of_run`: **the back-pressure can be satisfied and is enough**, over all runs in
  which the position before the last was decoded too and no mailbox is overwritten;
* `not_throttled_jump`: a prefill between two decode steps, after which GPU 0 waits for a value
  that no worker writes.
-/
import Mathlib.Data.List.Nodup
import Mathlib.Data.List.Range
import Mathlib.Tactic.IntervalCases
import Braidinfer.Lib.Patch
import Braidinfer.Lib.Run
import Braidinfer.Mailbox.Protocol
import Braidinfer.Moe.Step

namespace Braidinfer.Moe

open Braidinfer.Lib

namespace BackPressure

/-! ### The armed wait -/

/-- `(wait_ptr, wait_seq)` of the activation copy, for worker 0's result sentinel `rs0` of the
layer. -/
def waitWords (bpStep seq : ℕ) (rs0 : Option Ptr) : Option (Ptr × ℕ) :=
  match rs0 with
  | some ptr => if 2 ≤ bpStep then some (ptr.add (dbufSlot seq), seq - 2) else none
  | none => none

/-- **The armed wait is for the release of worker 0's instruction two positions ago**: that
instruction stores its `result_seq` to the word of its parity. -/
theorem waitWords_eq_release (p2p : P2pConfig) (hC : p2p.optionC = true)
    (hw : 0 < p2p.numWorkers) {m : Model} {moe : MoeLayer} {layer : ℕ}
    (hmoe : m.moeWeights layer = some moe) {bpStep : ℕ} (hbp : 2 ≤ bpStep) (position : ℕ) :
    ∃ remotes remote ptr, dispatchMoeWorkersDecode p2p m layer position = some remotes ∧
      remotes[0]? = some remote ∧ remote.resultSentinel = some ptr ∧
      waitWords bpStep (position + 2 + 1) remote.resultSentinel =
        some (ptr.add (dbufSlot remote.resultSeq), remote.resultSeq) := by
  obtain ⟨st, hcovers, hremotes⟩ := dispatchMoeWorkersDecode_eq p2p hmoe position
  have hdescs : st.resultDescs layer = true := by rw [hcovers.resultDescs, hC]
  refine ⟨_, remoteInst st (decodeMoeParams m moe) layer (position + 1) 0,
    (Buf.moeResultSentinel layer 0).ptr, hremotes, ?_, ?_, ?_⟩
  · rw [List.getElem?_map, List.getElem?_range hw]
    rfl
  · simp [remoteInst, hdescs]
  · simp only [remoteInst, hdescs, if_true, waitWords, if_pos hbp, dbufSlot]
    have hslot : (position + 2 + 1) % 2 = (position + 1) % 2 := by omega
    have hseq : position + 2 + 1 - 2 = position + 1 := by omega
    rw [hslot, hseq]

/-! ### Rounds -/

/-- The MoE layers (all with result sentinels), the decode steps of a run, and the numbers of the
other instructions of the program. -/
structure Setup where
  numWorkers : ℕ
  numWorkers_pos : 0 < numWorkers
  layers : List ℕ
  layers_nodup : layers.Nodup
  /-- the layer has a latent projection: its copies are not rewritten, and its workers do not
  wait -/
  latent : ℕ → Bool
  positions : List ℕ
  positions_lt : positions.Pairwise (· < ·)
  /-- positions are `u32` -/
  positions_u32 : ∀ p ∈ positions, p < 2 ^ 32
  /-- instructions in front of the staging of a round, behind it, and at the end of its step -/
  numBefore : ℕ → ℕ
  numBehind : ℕ → ℕ
  numTail : ℕ → ℕ

namespace Setup

variable (su : Setup)

/-- The rounds of a decode step. -/
def width : ℕ := su.layers.length

def numRounds : ℕ := su.positions.length * su.width

/-- `bp_step`: the decode step of a round. -/
def bpStep (n : ℕ) : ℕ := n / su.width

/-- The layer of a round. -/
def layer (n : ℕ) : ℕ := su.layers.getD (n % su.width) 0

/-- The position of a round. -/
def position (n : ℕ) : ℕ := su.positions.getD (su.bpStep n) 0

/-- `seq_value` -/
def seq (n : ℕ) : ℕ := su.position n + 1

/-- `dbuf_slot` -/
def slot (n : ℕ) : ℕ := dbufSlot (su.seq n)

/-- `(unsigned int) seq`, as the copies, the workers and the sum step use it. -/
def signal (n : ℕ) : ℕ := su.seq n % 2 ^ 32

/-- The activation copy of the round is armed. -/
def armed (n : ℕ) : Bool := decide (2 ≤ su.bpStep n) && !su.latent (su.layer n)

/-- `(unsigned int) wait_seq` of an armed copy. -/
def awaited (n : ℕ) : ℕ := (su.seq n - 2) % 2 ^ 32

/-- The word the armed copy waits on belongs to worker 0. -/
def worker0 : Fin su.numWorkers := ⟨0, su.numWorkers_pos⟩

end Setup

/-- The instructions of GPU 0's program that the protocol is about. -/
inductive Op
  | other
  /-- the activation copy of a round -/
  | copyAct (n : ℕ)
  /-- the copy of the routing weights, which signals the activation sentinel -/
  | copyWeights (n : ℕ)
  /-- `OP_MOE_DISPATCH_POST` -/
  | post (n : ℕ)
deriving DecidableEq, Repr

namespace Setup

variable (su : Setup)

/-- The segment of a round: it starts with the sum step of the layer before and ends with
`OP_MOE_DISPATCH`.  Between the two copies stand the gate and the copy of the expert ids. -/
def segOps (n : ℕ) : List Op :=
  (if n % su.width = 0 then [] else [.post (n - 1)]) ++ List.replicate (su.numBefore n) .other ++
    [.copyAct n, .other, .other, .copyWeights n] ++ List.replicate (su.numBehind n) .other

/-- What remains of the step behind the segment of its last round. -/
def tailOps (n : ℕ) : List Op :=
  if (n + 1) % su.width = 0 then .post n :: List.replicate (su.numTail n) .other else []

def roundOps (n : ℕ) : List Op := su.segOps n ++ su.tailOps n

/-- What is to be sent from a round on. -/
def opsFrom (n : ℕ) : List Op := (List.range' n (su.numRounds - n)).flatMap su.roundOps

end Setup

/-! ### The system -/

/-- Where the host is in a round. -/
inductive HostPhase
  /-- fires the chunks of the segment -/
  | segment (rest : List Op)
  /-- fires on worker `w` next -/
  | workers (w : ℕ)
  /-- dispatches the end of the step -/
  | tail (rest : List Op)
  /-- waits for GPU 0 in `dispatch_batch` -/
  | tailWait (rest : List Op)
  | done
deriving DecidableEq, Repr

structure Host where
  round : ℕ
  phase : HostPhase
deriving DecidableEq, Repr

/-- The host at the start of a round. -/
def Host.enter (su : Setup) (n : ℕ) : Host :=
  ⟨n, if n < su.numRounds then .segment (su.segOps n) else .done⟩

/-- GPU 0 in a batch: the batch's `seq_num`, its length, the next instruction, and whether the
wait of that instruction has ended. -/
structure Cursor where
  seq : ℕ
  num : ℕ
  pc : ℕ
  waited : Bool
deriving DecidableEq, Repr

/-- GPU 0 with its mailbox. -/
structure Gpu0 where
  inst : List Op
  numInstructions : ℕ
  seqNum : ℕ
  ack : ℕ
  cursor : Option Cursor
deriving DecidableEq, Repr

/-- `dispatch_batch_fire`: the batch overwrites the front of the mailbox. -/
def Gpu0.fire (g : Gpu0) (ops : List Op) : Gpu0 :=
  { g with
    inst := ops ++ g.inst.drop ops.length
    numInstructions := ops.length
    seqNum := g.seqNum + 1 }

/-- The instruction GPU 0 is at. -/
def Gpu0.at? (g : Gpu0) : Option (Cursor × Op) := do
  let c ← g.cursor
  let op ← (if c.pc < c.num then g.inst[c.pc]? else none)
  pure (c, op)

/-- Where a worker is in its batch; `seq` is the batch's `seq_num`. -/
inductive Phase
  | idle
  /-- spins on the activation sentinel -/
  | waiting (seq : ℕ)
  /-- from the first block behind the sentinel to the barrier in front of the release -/
  | reading (seq : ℕ)
  | released (seq : ℕ)
deriving DecidableEq, Repr

/-- A worker with its mailbox, which holds the instruction of one round, and its result sentinels
by layer and slot. -/
structure Worker where
  round : ℕ
  seqNum : ℕ
  ack : ℕ
  phase : Phase
  result : ℕ → ℕ → ℕ

/-- `dispatch_batch_fire` of the `OP_MOE_FFN_REMOTE` of a round. -/
def Worker.fire (k : Worker) (n : ℕ) : Worker := { k with round := n, seqNum := k.seqNum + 1 }

/-- One word of a table of sentinels is stored. -/
def store (f : ℕ → ℕ → ℕ) (layer slot v : ℕ) : ℕ → ℕ → ℕ :=
  Function.update f layer (Function.update (f layer) slot v)

variable (su : Setup)

/-- A state of the protocol. -/
structure State where
  host : Host
  gpu0 : Gpu0
  worker : Fin su.numWorkers → Worker
  /-- the activation sentinels, by layer and slot -/
  act : ℕ → ℕ → ℕ

/-- Nothing is fired and the sentinels are zero. -/
def init : State su where
  host := .enter su 0
  gpu0 := ⟨[], 0, 0, 0, none⟩
  worker := fun _ => ⟨0, 0, 0, .idle, fun _ _ => 0⟩
  act := fun _ _ => 0

variable {su}

def State.setWorker (s : State su) (w : Fin su.numWorkers) (k : Worker) : State su :=
  { s with worker := Function.update s.worker w k }

/-- The parties' moves. -/
inductive Move (su : Setup)
  | fire0
  | fire (w : Fin su.numWorkers)
  | advance
  | tailAck
  | start0
  | endWait
  | exec
  | ack0
  | start (w : Fin su.numWorkers)
  | startRead (w : Fin su.numWorkers)
  | release (w : Fin su.numWorkers)
  | ack (w : Fin su.numWorkers)

/-- The host fires the next chunk on GPU 0. -/
def State.fire0 (s : State su) : Option (State su) :=
  match s.host.phase with
  | .segment rest =>
      let more := rest.drop Mailbox.maxBatchInstructions
      some { s with
        gpu0 := s.gpu0.fire (rest.take Mailbox.maxBatchInstructions)
        host := ⟨s.host.round, if more = [] then .workers 0 else .segment more⟩ }
  | .tail rest =>
      some { s with
        gpu0 := s.gpu0.fire (rest.take Mailbox.maxBatchInstructions)
        host := ⟨s.host.round, .tailWait (rest.drop Mailbox.maxBatchInstructions)⟩ }
  | _ => none

/-- `dispatch_moe_workers_decode_async` fires on worker `w`. -/
def State.fire (s : State su) (w : Fin su.numWorkers) : Option (State su) :=
  if s.host.phase = .workers w then
    some { s.setWorker w ((s.worker w).fire s.host.round) with
      host := ⟨s.host.round, .workers (w + 1)⟩ }
  else none

/-- `dispatch_moe_workers_decode_async` returns: in the first two steps the host waits for GPU 0. -/
def State.advance (s : State su) : Option (State su) :=
  if s.host.phase = .workers su.numWorkers ∧
      (2 ≤ su.bpStep s.host.round ∨ s.gpu0.ack = s.gpu0.seqNum) then
    some { s with
      host := if (s.host.round + 1) % su.width = 0 then
          ⟨s.host.round, .tail (su.tailOps s.host.round)⟩
        else .enter su (s.host.round + 1) }
  else none

/-- A chunk of the end of the step is acknowledged. -/
def State.tailAck (s : State su) : Option (State su) :=
  match s.host.phase with
  | .tailWait rest =>
      if s.gpu0.ack = s.gpu0.seqNum then
        some { s with
          host := if rest = [] then .enter su (s.host.round + 1)
            else ⟨s.host.round, .tail rest⟩ }
      else none
  | _ => none

/-- GPU 0 sees a new batch. -/
def State.start0 (s : State su) : Option (State su) :=
  if s.gpu0.cursor = none ∧ s.gpu0.ack < s.gpu0.seqNum then
    some { s with gpu0.cursor := some ⟨s.gpu0.seqNum, s.gpu0.numInstructions, 0, false⟩ }
  else none

/-- The spin of an armed activation copy ends. -/
def State.endWait (s : State su) : Option (State su) :=
  match s.gpu0.at? with
  | some (c, .copyAct n) =>
      if su.armed n = true ∧
          (s.worker su.worker0).result (su.layer n) (su.slot n) = su.awaited n then
        some { s with gpu0.cursor := some { c with waited := true } }
      else none
  | _ => none

/-- GPU 0 is through with an instruction. -/
def State.step0 (s : State su) (c : Cursor) : State su :=
  { s with gpu0.cursor := some { c with pc := c.pc + 1, waited := false } }

/-- GPU 0 executes an instruction. -/
def State.exec (s : State su) : Option (State su) :=
  match s.gpu0.at? with
  | some (c, .other) => some (s.step0 c)
  | some (c, .copyAct n) => if su.armed n = true → c.waited = true then some (s.step0 c) else none
  | some (c, .copyWeights n) =>
      some { s.step0 c with
        act := if su.latent (su.layer n) then s.act
          else store s.act (su.layer n) (su.slot n) (su.signal n) }
  | some (c, .post n) =>
      -- the sum step spins on the result sentinels of all workers
      if ∀ w, (s.worker w).result (su.layer n) (su.slot n) = su.signal n then some (s.step0 c)
      else none
  | none => none

/-- GPU 0 acknowledges its batch. -/
def State.ack0 (s : State su) : Option (State su) :=
  match s.gpu0.cursor with
  | some c =>
      if c.num ≤ c.pc then some { s with gpu0.ack := c.seq, gpu0.cursor := none } else none
  | none => none

/-- A worker sees a new batch. -/
def State.start (s : State su) (w : Fin su.numWorkers) : Option (State su) :=
  let k := s.worker w
  if k.phase = .idle ∧ k.ack < k.seqNum then
    some (s.setWorker w { k with phase := .waiting k.seqNum })
  else none

/-- A worker finds the awaited value in the activation sentinel; a latent layer has none. -/
def State.startRead (s : State su) (w : Fin su.numWorkers) : Option (State su) :=
  let k := s.worker w
  match k.phase with
  | .waiting seq =>
      if su.latent (su.layer k.round) = true ∨
          s.act (su.layer k.round) (su.slot k.round) = su.signal k.round then
        some (s.setWorker w { k with phase := .reading seq })
      else none
  | _ => none

/-- All blocks of a worker are behind the last read, and block 0 stores the result sentinel. -/
def State.release (s : State su) (w : Fin su.numWorkers) : Option (State su) :=
  let k := s.worker w
  match k.phase with
  | .reading seq =>
      some (s.setWorker w { k with
        phase := .released seq
        result := store k.result (su.layer k.round) (su.slot k.round) (su.signal k.round) })
  | _ => none

/-- A worker acknowledges its batch. -/
def State.ack (s : State su) (w : Fin su.numWorkers) : Option (State su) :=
  let k := s.worker w
  match k.phase with
  | .released seq => some (s.setWorker w { k with phase := .idle, ack := seq })
  | _ => none

/-- One move, where it is possible. -/
def next (s : State su) : Move su → Option (State su)
  | .fire0 => s.fire0
  | .fire w => s.fire w
  | .advance => s.advance
  | .tailAck => s.tailAck
  | .start0 => s.start0
  | .endWait => s.endWait
  | .exec => s.exec
  | .ack0 => s.ack0
  | .start w => s.start w
  | .startRead w => s.startRead w
  | .release w => s.release w
  | .ack w => s.ack w

def Step (s : State su) (a : Move su) (t : State su) : Prop := next s a = some t

/-- No fire overwrites a batch that is not acknowledged. -/
def NoOverwrite (s : State su) : Move su → Prop
  | .fire0 => s.gpu0.ack = s.gpu0.seqNum
  | .fire w => (s.worker w).ack = (s.worker w).seqNum
  | _ => True

/-! ### The property -/

/-- The position two before the round's was decoded, too. -/
def Setup.Prior (su : Setup) (n : ℕ) : Prop :=
  ∃ j < su.bpStep n, ∃ p, su.positions[j]? = some p ∧ p + 2 = su.position n

/-- The program of the round's step is patched, and the activation copy of the round is armed. -/
def State.Armed (s : State su) (n : ℕ) : Prop :=
  n < su.numRounds ∧ su.bpStep n ≤ su.bpStep s.host.round ∧ su.armed n = true

/-- GPU 0 is at the activation copy of the round. -/
def State.AtCopy (s : State su) (n : ℕ) (c : Cursor) : Prop := s.gpu0.at? = some (c, .copyAct n)

/-- What the back-pressure is for. -/
structure State.Throttled (s : State su) : Prop where
  /-- an earlier step has fired the instruction that writes the awaited value, on all workers, and
  no instruction in between writes to its word -/
  fired : ∀ n, s.Armed n → ∃ n' < n, su.layer n' = su.layer n ∧ su.seq n' = su.seq n - 2 ∧
    (∀ w, n' < (s.worker w).seqNum) ∧
    ∀ k, n' < k → k < n → su.layer k = su.layer n → su.slot k ≠ su.slot n
  /-- the awaited value is in the word while the copy waits -/
  held : ∀ n c, s.AtCopy n c → su.armed n = true →
    ∀ w, (s.worker w).result (su.layer n) (su.slot n) = su.awaited n
  /-- when the wait ends no worker reads the slot -/
  free : ∀ n c, s.AtCopy n c → su.armed n = true →
    (c.waited = true ∨
      (s.worker su.worker0).result (su.layer n) (su.slot n) = su.awaited n) →
    ∀ w seq, (s.worker w).phase = .reading seq → su.slot (s.worker w).round ≠ su.slot n

/-! ### Rounds are told apart by their sentinel values -/

namespace Setup

variable {n n' : ℕ}

lemma width_pos (hn : n < su.numRounds) : 0 < su.width := by
  rcases Nat.eq_zero_or_pos su.width with h | h
  · rw [numRounds, h, Nat.mul_zero] at hn
    exact absurd hn (Nat.not_lt_zero n)
  · exact h

lemma bpStep_lt (hn : n < su.numRounds) : su.bpStep n < su.positions.length :=
  Nat.div_lt_of_lt_mul (by rwa [numRounds, Nat.mul_comm] at hn)

lemma getElem?_position (hn : n < su.numRounds) :
    su.positions[su.bpStep n]? = some (su.position n) := by
  rw [position, List.getD_eq_getElem?_getD, List.getElem?_eq_getElem (bpStep_lt hn),
    Option.getD_some]

lemma position_u32 (hn : n < su.numRounds) : su.position n < 2 ^ 32 :=
  su.positions_u32 _ (List.mem_of_getElem? (getElem?_position hn))

lemma position_mono (hn : n < su.numRounds) (hn' : n' < su.numRounds)
    (h : su.bpStep n < su.bpStep n') : su.position n < su.position n' :=
  pairwise_getElem? su.positions_lt h (getElem?_position hn) (getElem?_position hn')

lemma bpStep_le (hn : n < su.numRounds) (hn' : n' < su.numRounds)
    (h : su.position n ≤ su.position n') : su.bpStep n ≤ su.bpStep n' := by
  by_contra hlt
  have := position_mono hn' hn (Nat.not_le.mp hlt)
  omega

lemma mod_eq_of_layer (hn : n < su.numRounds)
    (h : su.layer n = su.layer n') : n % su.width = n' % su.width := by
  have hlt : n % su.width < su.layers.length := Nat.mod_lt _ (width_pos hn)
  have hlt' : n' % su.width < su.layers.length := Nat.mod_lt _ (width_pos hn)
  rw [layer, layer, List.getD_eq_getElem?_getD, List.getD_eq_getElem?_getD,
    List.getElem?_eq_getElem hlt, List.getElem?_eq_getElem hlt', Option.getD_some,
    Option.getD_some] at h
  exact (List.Nodup.getElem_inj_iff su.layers_nodup).mp h

/-- A round is determined by its step and its layer. -/
lemma round_inj (hn : n < su.numRounds)
    (hlayer : su.layer n = su.layer n') (hstep : su.bpStep n = su.bpStep n') : n = n' := by
  have hmod := mod_eq_of_layer hn hlayer
  calc n = su.width * (n / su.width) + n % su.width := (Nat.div_add_mod _ _).symm
    _ = su.width * (n' / su.width) + n' % su.width := by
        rw [hmod]
        show su.width * su.bpStep n + _ = su.width * su.bpStep n' + _
        rw [hstep]
    _ = n' := Nat.div_add_mod _ _

/-- A round is determined by its layer and what it signals. -/
lemma signal_inj (hn : n < su.numRounds) (hn' : n' < su.numRounds)
    (hlayer : su.layer n = su.layer n') (hsig : su.signal n = su.signal n') : n = n' := by
  have hpos : su.position n = su.position n' := by
    have := position_u32 hn
    have := position_u32 hn'
    rw [signal, signal, seq, seq] at hsig
    omega
  exact round_inj hn hlayer
    (Nat.le_antisymm (bpStep_le hn hn' hpos.le) (bpStep_le hn' hn hpos.ge))

/-- The step two positions before has a round of the same layer, whose value is the awaited one,
and no round in between uses the word. -/
lemma Prior.round (h : su.Prior n) (hn : n < su.numRounds) :
    ∃ n' < n, su.layer n' = su.layer n ∧ su.seq n' + 2 = su.seq n ∧
      su.bpStep n' < su.bpStep n ∧
      ∀ k, n' < k → k < n → su.layer k = su.layer n → su.slot k ≠ su.slot n := by
  obtain ⟨j, hj, p, hp, hpos⟩ := h
  have hw := width_pos hn
  have hmod := Nat.mod_lt n hw
  have hn' : su.width * j + n % su.width < n := by
    calc su.width * j + n % su.width < su.width * j + su.width := by omega
      _ = su.width * (j + 1) := (Nat.mul_succ _ _).symm
      _ ≤ su.width * su.bpStep n := Nat.mul_le_mul_left _ hj
      _ ≤ n := Nat.mul_div_le _ _
  have hstep : su.bpStep (su.width * j + n % su.width) = j := by
    rw [bpStep, Nat.mul_add_div hw, Nat.div_eq_of_lt hmod, Nat.add_zero]
  have hlayer : su.layer (su.width * j + n % su.width) = su.layer n := by
    rw [layer, layer, Nat.mul_add_mod, Nat.mod_mod]
  have hpos' : su.position (su.width * j + n % su.width) = p := by
    rw [position, hstep, List.getD_eq_getElem?_getD, hp, Option.getD_some]
  refine ⟨_, hn', hlayer, by rw [seq, seq, hpos']; omega, by rwa [hstep], ?_⟩
  intro k hk hkn hkl hslot
  have hkN := hkn.trans hn
  have hle : su.bpStep k ≤ su.bpStep n := Nat.div_le_div_right hkn.le
  have hge : j ≤ su.bpStep k := by
    rw [← hstep]
    exact Nat.div_le_div_right hk.le
  -- a round of the same layer is in another step, so its position is strictly in between
  have hne : su.bpStep k ≠ su.bpStep n := fun he => hkn.ne (round_inj hkN hkl he)
  have hne' : su.bpStep k ≠ j := fun he =>
    hk.ne (round_inj (hn'.trans hn) (hlayer.trans hkl.symm) (hstep.trans he.symm))
  have hlt := position_mono hkN hn (by omega)
  have hgt := position_mono (hn'.trans hn) hkN (by omega)
  rw [slot, slot, dbufSlot, dbufSlot, seq, seq] at hslot
  omega

/-! ### The words of a sentinel -/

variable (su) in
/-- What a sentinel holds after the first `k` rounds have signalled it, by layer and slot. -/
def word : ℕ → ℕ → ℕ → ℕ
  | 0 => fun _ _ => 0
  | k + 1 => store (word k) (su.layer k) (su.slot k) (su.signal k)

variable {k : ℕ}

lemma word_succ_of_ne {l slot : ℕ} (h : su.layer k = l → su.slot k ≠ slot) :
    su.word (k + 1) l slot = su.word k l slot := by
  by_cases hl : l = su.layer k
  · subst hl
    have hs : slot ≠ su.slot k := fun hs => h rfl hs.symm
    simp [word, store, hs]
  · simp [word, store, hl]

/-- A word holds what the last round that uses it has signalled. -/
lemma word_eq (hnk : n < k)
    (hlast : ∀ i, n < i → i < k → su.layer i = su.layer n → su.slot i ≠ su.slot n) :
    su.word k (su.layer n) (su.slot n) = su.signal n := by
  induction k with
  | zero => exact absurd hnk (Nat.not_lt_zero n)
  | succ k ih =>
      by_cases hk : n = k
      · subst hk
        simp [word, store]
      · rw [word_succ_of_ne (hlast k (by omega) (Nat.lt_succ_self k))]
        exact ih (by omega) fun i hi hik => hlast i hi (by omega)

/-- A word is zero and unused, or some round has signalled it. -/
lemma word_cases (l slot : ℕ) :
    (su.word k l slot = 0 ∧ ∀ n < k, su.layer n = l → su.slot n ≠ slot) ∨
      ∃ n < k, su.layer n = l ∧ su.slot n = slot ∧ su.word k l slot = su.signal n := by
  induction k with
  | zero => exact .inl ⟨rfl, fun n hn => absurd hn (Nat.not_lt_zero n)⟩
  | succ k ih =>
      by_cases hk : su.layer k = l ∧ su.slot k = slot
      · obtain ⟨rfl, rfl⟩ := hk
        exact .inr ⟨k, Nat.lt_succ_self k, rfl, rfl, by simp [word, store]⟩
      · have hne : su.layer k = l → su.slot k ≠ slot := fun h h' => hk ⟨h, h'⟩
        rw [word_succ_of_ne hne]
        rcases ih with ⟨h0, hnone⟩ | ⟨n, hn, hl, hs, hw⟩
        · refine .inl ⟨h0, fun n hn => ?_⟩
          rcases Nat.lt_succ_iff_lt_or_eq.mp hn with hn | rfl
          · exact hnone n hn
          · exact hne
        · exact .inr ⟨n, by omega, hl, hs, hw⟩

variable (su) in
/-- The value of the round is the initial one, and no earlier round has changed the word. -/
def Fresh (n : ℕ) : Prop := su.signal n = 0 ∧ ¬ su.Prior n

/-- **The value of a round is in its word only once the round has signalled**, unless it is the
initial value. -/
lemma lt_of_word_eq (hn : n < su.numRounds) (hk : k ≤ su.numRounds)
    (hword : su.word k (su.layer n) (su.slot n) = su.signal n)
    (hbefore : ∀ n' < n, su.signal n' ≠ 0 → n' < k) : n < k ∨ su.Fresh n := by
  rcases @word_cases su k (su.layer n) (su.slot n) with
    ⟨h0, hnone⟩ | ⟨n', hn', hl, -, hw⟩
  · refine .inr ⟨hword.symm.trans h0, fun hprior => ?_⟩
    obtain ⟨n', hlt, hlayer, hseq, -, -⟩ := hprior.round hn
    have hu32 := position_u32 hn
    have hsig : su.signal n' ≠ 0 := by
      rw [signal, seq] at *
      rw [seq] at hseq
      omega
    have hslot : su.slot n' = su.slot n := by
      rw [slot, slot, dbufSlot, dbufSlot]
      omega
    exact hnone n' (hbefore n' hlt hsig) hlayer hslot
  · refine .inl ?_
    rwa [signal_inj (hn'.trans_le hk) hn hl (hw.symm.trans hword)] at hn'

end Setup

/-! ### The program -/

/-- The copies and sum steps, numbered in program order. -/
def Op.mark : Op → Option ℕ
  | .other => none
  | .copyAct n => some (3 * n)
  | .copyWeights n => some (3 * n + 1)
  | .post n => some (3 * n + 2)

@[simp]
lemma filterMap_mark_other (k : ℕ) : (List.replicate k Op.other).filterMap Op.mark = [] := by
  simp [List.filterMap_replicate, Op.mark]

namespace Setup

variable {n : ℕ}

lemma marks_segOps : (su.segOps n).filterMap Op.mark =
    (if n % su.width = 0 then [] else [3 * (n - 1) + 2]) ++ [3 * n, 3 * n + 1] := by
  by_cases h : n % su.width = 0 <;> simp [segOps, h, Op.mark, List.filterMap_cons]

lemma marks_tailOps : (su.tailOps n).filterMap Op.mark =
    if (n + 1) % su.width = 0 then [3 * n + 2] else [] := by
  by_cases h : (n + 1) % su.width = 0 <;> simp [tailOps, h, Op.mark]

/-- The marks of the first rounds; the sum step of an inner layer comes with the next round. -/
lemma marks_range (n : ℕ) : ((List.range n).flatMap su.roundOps).filterMap Op.mark =
    List.range (3 * n - if n % su.width = 0 then 0 else 1) := by
  induction n with
  | zero => simp
  | succ n ih =>
      have htwo : List.range (3 * n) ++ [3 * n, 3 * n + 1] = List.range (3 * n + 2) := by
        rw [List.range_succ, List.range_succ, List.append_assoc]
        rfl
      have hseg : List.range (3 * n - if n % su.width = 0 then 0 else 1) ++
          ((if n % su.width = 0 then [] else [3 * (n - 1) + 2]) ++ [3 * n, 3 * n + 1]) =
          List.range (3 * n + 2) := by
        by_cases h : n % su.width = 0
        · simpa [h] using htwo
        · have hpos : n ≠ 0 := fun h0 => h (by rw [h0, Nat.zero_mod])
          have hsub : 3 * n - 1 = 3 * (n - 1) + 2 := by omega
          have hsucc : (3 * (n - 1) + 2).succ = 3 * n := by omega
          rw [if_neg h, if_neg h, hsub, ← List.append_assoc, ← List.range_succ, hsucc]
          exact htwo
      rw [List.range_succ, List.flatMap_append, List.flatMap_singleton, List.filterMap_append, ih,
        roundOps, List.filterMap_append, marks_segOps, marks_tailOps, ← List.append_assoc, hseg]
      by_cases h : (n + 1) % su.width = 0
      · rw [if_pos h, if_pos h, ← List.range_succ]
        rfl
      · rw [if_neg h, if_neg h, List.append_nil]
        rfl

/-- **The program meets the copies and sum steps of all rounds in order.** -/
lemma marks_opsFrom_zero : (su.opsFrom 0).filterMap Op.mark = List.range' 0 (3 * su.numRounds) := by
  have h := @marks_range su su.numRounds
  rw [numRounds, Nat.mul_mod_left, if_pos rfl, Nat.sub_zero] at h
  rw [opsFrom, Nat.sub_zero, ← List.range_eq_range', ← List.range_eq_range']
  exact h

/-- A round has no mark before the sum step of the layer before. -/
lemma le_mark_of_mem {op : Op} (h : op ∈ su.roundOps n) {k : ℕ} (hk : op.mark = some k) :
    3 * n ≤ k + 1 := by
  have hmem : k ∈ (su.roundOps n).filterMap Op.mark := List.mem_filterMap.mpr ⟨op, h, hk⟩
  rw [roundOps, List.filterMap_append, marks_segOps, marks_tailOps] at hmem
  split_ifs at hmem <;> simp at hmem <;> omega

lemma opsFrom_eq (hn : n < su.numRounds) :
    su.opsFrom n = su.segOps n ++ su.tailOps n ++ su.opsFrom (n + 1) := by
  obtain ⟨d, hd⟩ : ∃ d, su.numRounds - n = d + 1 := ⟨su.numRounds - n - 1, by omega⟩
  have hd' : su.numRounds - (n + 1) = d := by omega
  rw [opsFrom, opsFrom, hd, hd', List.range'_succ, List.flatMap_cons, roundOps]

lemma opsFrom_numRounds : su.opsFrom su.numRounds = [] := by
  rw [opsFrom, Nat.sub_self]
  rfl

lemma le_mark_of_mem_opsFrom {op : Op} (h : op ∈ su.opsFrom n) {k : ℕ} (hk : op.mark = some k) :
    3 * n ≤ k + 1 := by
  obtain ⟨i, hi, hop⟩ := List.mem_flatMap.mp h
  have hle := (List.mem_range'_1.mp hi).1
  have := le_mark_of_mem hop hk
  omega

end Setup

/-! ### The invariant -/

/-- What the host is still to send to GPU 0. -/
def Host.future (su : Setup) (h : Host) : List Op :=
  match h.phase with
  | .segment rest => rest ++ su.tailOps h.round ++ su.opsFrom (h.round + 1)
  | .workers _ => su.tailOps h.round ++ su.opsFrom (h.round + 1)
  | .tail rest | .tailWait rest => rest ++ su.opsFrom (h.round + 1)
  | .done => []

/-- The rounds fired on worker `w`. -/
def Host.fired (h : Host) (w : ℕ) : ℕ :=
  match h.phase with
  | .segment _ | .done => h.round
  | .workers k => if w < k then h.round + 1 else h.round
  | .tail _ | .tailWait _ => h.round + 1

/-- The host is in a round of the run; once it fires on the workers, GPU 0 has begun the segment
of the round.  `marks` is the number of marks GPU 0 has passed. -/
def Host.Ok (su : Setup) (marks : ℕ) (h : Host) : Prop :=
  match h.phase with
  | .segment rest => h.round < su.numRounds ∧ rest <:+ su.segOps h.round
  | .workers _ => h.round < su.numRounds ∧ 3 * h.round ≤ marks + 1
  | .tail rest | .tailWait rest => h.round < su.numRounds ∧ rest <:+ su.tailOps h.round
  | .done => h.round = su.numRounds

/-- What GPU 0 is still to execute of the batch in its mailbox. -/
def Gpu0.pending (g : Gpu0) : List Op :=
  match g.cursor with
  | none => if g.ack < g.seqNum then g.inst.take g.numInstructions else []
  | some c => (g.inst.take c.num).drop c.pc

/-- GPU 0 works on the batch fired last. -/
structure Gpu0.Ok (g : Gpu0) : Prop where
  ack_le : g.ack ≤ g.seqNum
  cursor : ∀ c, g.cursor = some c → c.seq = g.seqNum ∧ g.ack < g.seqNum

/-- The `seq_num` a worker has taken, if it is in a batch. -/
def Phase.seq? : Phase → Option ℕ
  | .idle => none
  | .waiting seq | .reading seq | .released seq => some seq

/-- The rounds a worker has released. -/
def Worker.rel (k : Worker) : ℕ :=
  match k.phase with
  | .released _ => k.ack + 1
  | _ => k.ack

/-- The rounds a worker has begun to read. -/
def Worker.begun (k : Worker) : ℕ :=
  match k.phase with
  | .reading _ | .released _ => k.ack + 1
  | _ => k.ack

/-- A worker works on the round fired last. -/
structure Worker.Ok (k : Worker) : Prop where
  ack_le : k.ack ≤ k.seqNum
  le_ack : k.seqNum ≤ k.ack + 1
  busy : ∀ seq, k.phase.seq? = some seq → seq = k.seqNum ∧ k.ack < k.seqNum
  round : 0 < k.seqNum → k.round + 1 = k.seqNum

/-- **The invariant**, when GPU 0 has passed `marks` marks: it has signalled `(marks + 1) / 3`
rounds and summed up `marks / 3`. -/
structure Inv (s : State su) (marks : ℕ) : Prop where
  marks_le : marks ≤ 3 * su.numRounds
  program : (s.gpu0.pending ++ s.host.future su).filterMap Op.mark =
    List.range' marks (3 * su.numRounds - marks)
  gpu0 : s.gpu0.Ok
  host : s.host.Ok su marks
  worker : ∀ w, (s.worker w).Ok
  fired : ∀ w, (s.worker w).seqNum = s.host.fired w
  fired_le : ∀ w, (s.worker w).seqNum ≤ (marks + 1) / 3 + 1
  act : ∀ l slot, su.latent l = false → s.act l slot = su.word ((marks + 1) / 3) l slot
  result : ∀ w, (s.worker w).result = su.word (s.worker w).rel
  posted : ∀ n < marks / 3, ¬ su.Fresh n → ∀ w, n < (s.worker w).rel
  begun : ∀ w, ∀ n < (s.worker w).begun, su.latent (su.layer n) = false →
    n < (marks + 1) / 3 ∨ su.Fresh n

/-! ### The host and the mailbox of GPU 0 -/

section Parts

variable {h : Host} {g : Gpu0} {n marks : ℕ}

lemma Host.future_enter (hn : n ≤ su.numRounds) : (Host.enter su n).future su = su.opsFrom n := by
  by_cases h : n < su.numRounds
  · rw [Setup.opsFrom_eq h]
    simp [Host.enter, Host.future, h]
  · obtain rfl : n = su.numRounds := by omega
    rw [Setup.opsFrom_numRounds]
    simp [Host.enter, Host.future]

lemma Host.ok_enter (hn : n ≤ su.numRounds) : (Host.enter su n).Ok su marks := by
  by_cases h : n < su.numRounds
  · simp [Host.enter, Host.Ok, h]
  · simp only [Host.enter, Host.Ok, h, if_false]
    omega

lemma Host.fired_enter (w : ℕ) : (Host.enter su n).fired w = n := by
  by_cases h : n < su.numRounds <;> simp [Host.enter, Host.fired, h]

lemma Host.Ok.mono (hok : h.Ok su marks) {marks' : ℕ} (hle : marks ≤ marks') :
    h.Ok su marks' := by
  unfold Host.Ok at *
  split at hok <;> simp_all
  omega

lemma Host.Ok.fired_le (hok : h.Ok su marks) (w : ℕ) : h.fired w ≤ su.numRounds := by
  unfold Host.Ok at hok
  unfold Host.fired
  split at hok <;> simp_all <;> (try split) <;> omega

lemma Host.round_le_fired (h : Host) (w : ℕ) : h.round ≤ h.fired w := by
  unfold Host.fired
  split
  · exact Nat.le_refl _
  · exact Nat.le_refl _
  · split <;> omega
  · omega
  · omega

lemma Gpu0.Ok.cursor_of_acked (hok : g.Ok) (hack : g.ack = g.seqNum) : g.cursor = none := by
  cases hc : g.cursor with
  | none => rfl
  | some c =>
      have := (hok.cursor c hc).2
      omega

lemma Gpu0.Ok.pending_of_acked (hok : g.Ok) (hack : g.ack = g.seqNum) : g.pending = [] := by
  simp [Gpu0.pending, hok.cursor_of_acked hack, hack]

lemma Gpu0.Ok.pending_fire (hok : g.Ok) (hack : g.ack = g.seqNum) (ops : List Op) :
    (g.fire ops).pending = ops := by
  simp [Gpu0.pending, Gpu0.fire, hok.cursor_of_acked hack, hack]

lemma Gpu0.Ok.fire (hok : g.Ok) (hack : g.ack = g.seqNum) (ops : List Op) : (g.fire ops).Ok where
  ack_le := Nat.le_succ_of_le hok.ack_le
  cursor := by
    intro c hc
    rw [Gpu0.fire, hok.cursor_of_acked hack] at hc
    cases hc

lemma Gpu0.at?_eq_some {c : Cursor} {op : Op} (h : g.at? = some (c, op)) :
    g.cursor = some c ∧ c.pc < c.num ∧ g.inst[c.pc]? = some op := by
  unfold Gpu0.at? at h
  cases hc : g.cursor with
  | none => simp [hc] at h
  | some c' =>
      by_cases hlt : c'.pc < c'.num
      · cases hop : g.inst[c'.pc]? with
        | none => simp [hc, hlt, hop] at h
        | some op' =>
            simp only [hc, hlt, hop, if_true, Option.bind_eq_bind, Option.bind_some,
              Option.pure_def, Option.some.injEq, Prod.mk.injEq] at h
            obtain ⟨rfl, rfl⟩ := h
            exact ⟨rfl, hlt, hop⟩
      · simp [hc, hlt] at h

/-- The instruction GPU 0 is at is the first of those to be executed. -/
lemma Gpu0.pending_at {c : Cursor} {op : Op} (h : g.at? = some (c, op)) (waited : Bool) :
    g.pending = op ::
      Gpu0.pending { g with cursor := some { c with pc := c.pc + 1, waited := waited } } := by
  obtain ⟨hc, hlt, hop⟩ := Gpu0.at?_eq_some h
  have htake : (g.inst.take c.num)[c.pc]? = some op := by
    rw [List.getElem?_take_of_lt hlt, hop]
  obtain ⟨hlen, hget⟩ := List.getElem?_eq_some_iff.mp htake
  simp only [Gpu0.pending, hc]
  rw [List.drop_eq_getElem_cons hlen, hget]

end Parts

/-! ### One step -/

lemma Inv.init : Inv (init su) 0 where
  marks_le := Nat.zero_le _
  program := by
    show ([] ++ (Host.enter su 0).future su).filterMap Op.mark = _
    rw [List.nil_append, Host.future_enter (Nat.zero_le _), Setup.marks_opsFrom_zero]
    rfl
  gpu0 := ⟨Nat.le_refl _, fun c hc => nomatch hc⟩
  host := Host.ok_enter (Nat.zero_le _)
  worker := fun _ => ⟨Nat.le_refl _, Nat.zero_le _, (fun seq h => nomatch h),
    fun h => absurd h (Nat.lt_irrefl 0)⟩
  fired := by
    intro w
    show 0 = (Host.enter su 0).fired w
    rw [Host.fired_enter]
  fired_le := fun _ => Nat.zero_le _
  act := fun _ _ _ => rfl
  result := fun _ => rfl
  posted := fun n hn => absurd hn (Nat.not_lt_zero n)
  begun := fun _ n hn => absurd hn (Nat.not_lt_zero n)

section Steps

variable {s t : State su} {marks : ℕ}

/-- What holds of the new worker and held of all workers holds of all workers. -/
lemma forall_setWorker {P : Fin su.numWorkers → Worker → Prop} {w : Fin su.numWorkers}
    {k : Worker} (hself : P w k) (hother : ∀ w', P w' (s.worker w')) (w' : Fin su.numWorkers) :
    P w' ((s.setWorker w k).worker w') := by
  by_cases hw : w' = w
  · subst hw
    simpa [State.setWorker] using hself
  · simpa [State.setWorker, hw] using hother w'

/-- The host goes on without a store. -/
lemma Inv.setHost (hinv : Inv s marks) (h : Host) (hfuture : h.future su = s.host.future su)
    (hok : h.Ok su marks) (hfired : ∀ w : Fin su.numWorkers, h.fired w = s.host.fired w) :
    Inv { s with host := h } marks where
  marks_le := hinv.marks_le
  program := by
    show (s.gpu0.pending ++ h.future su).filterMap Op.mark = _
    rw [hfuture, hinv.program]
  gpu0 := hinv.gpu0
  host := hok
  worker := hinv.worker
  fired := fun w => (hinv.fired w).trans (hfired w).symm
  fired_le := hinv.fired_le
  act := hinv.act
  result := hinv.result
  posted := hinv.posted
  begun := hinv.begun

/-- The host fires a chunk on GPU 0, which has acknowledged the batch before. -/
lemma Inv.fireChunk (hinv : Inv s marks) (hack : s.gpu0.ack = s.gpu0.seqNum) (ops : List Op)
    (h : Host) (hfuture : ops ++ h.future su = s.host.future su) (hok : h.Ok su marks)
    (hfired : ∀ w : Fin su.numWorkers, h.fired w = s.host.fired w) :
    Inv { s with gpu0 := s.gpu0.fire ops, host := h } marks where
  marks_le := hinv.marks_le
  program := by
    show ((s.gpu0.fire ops).pending ++ h.future su).filterMap Op.mark = _
    rw [hinv.gpu0.pending_fire hack, hfuture, ← hinv.program, hinv.gpu0.pending_of_acked hack,
      List.nil_append]
  gpu0 := hinv.gpu0.fire hack ops
  host := hok
  worker := hinv.worker
  fired := fun w => (hinv.fired w).trans (hfired w).symm
  fired_le := hinv.fired_le
  act := hinv.act
  result := hinv.result
  posted := hinv.posted
  begun := hinv.begun

/-- GPU 0 goes on without passing an instruction. -/
lemma Inv.setGpu0 (hinv : Inv s marks) (g : Gpu0) (hpending : g.pending = s.gpu0.pending)
    (hok : g.Ok) : Inv { s with gpu0 := g } marks where
  marks_le := hinv.marks_le
  program := by
    show (g.pending ++ s.host.future su).filterMap Op.mark = _
    rw [hpending, hinv.program]
  gpu0 := hok
  host := hinv.host
  worker := hinv.worker
  fired := hinv.fired
  fired_le := hinv.fired_le
  act := hinv.act
  result := hinv.result
  posted := hinv.posted
  begun := hinv.begun

/-- A worker goes on in the batch in its mailbox. -/
lemma Inv.setWorker (hinv : Inv s marks) (w : Fin su.numWorkers) (k : Worker) (hok : k.Ok)
    (hseq : k.seqNum = (s.worker w).seqNum) (hresult : k.result = su.word k.rel)
    (hrel : (s.worker w).rel ≤ k.rel)
    (hbegun : ∀ n < k.begun, su.latent (su.layer n) = false →
      n < (marks + 1) / 3 ∨ su.Fresh n) : Inv (s.setWorker w k) marks where
  marks_le := hinv.marks_le
  program := hinv.program
  gpu0 := hinv.gpu0
  host := hinv.host
  worker := forall_setWorker hok hinv.worker
  fired := forall_setWorker (P := fun w' k => k.seqNum = s.host.fired w')
    (hseq.trans (hinv.fired w)) hinv.fired
  fired_le := forall_setWorker (P := fun _ k => k.seqNum ≤ (marks + 1) / 3 + 1)
    (hseq.trans_le (hinv.fired_le w)) hinv.fired_le
  act := hinv.act
  result := forall_setWorker (P := fun _ k => k.result = su.word k.rel) hresult hinv.result
  posted := fun n hn hfresh => forall_setWorker (P := fun _ k => n < k.rel)
    ((hinv.posted n hn hfresh w).trans_le hrel) (hinv.posted n hn hfresh)
  begun := forall_setWorker (P := fun _ k => ∀ n < k.begun, su.latent (su.layer n) = false →
    n < (marks + 1) / 3 ∨ su.Fresh n) hbegun hinv.begun

/-- When GPU 0 has acknowledged everything sent before the segment of a round ends, it has passed
all copies of the rounds before. -/
lemma Inv.le_marks (hinv : Inv s marks) (hack : s.gpu0.ack = s.gpu0.seqNum) {rest : List Op}
    (hphase : s.host.phase = .segment rest) : 3 * s.host.round ≤ marks + 1 := by
  have hok := hinv.host
  simp only [Host.Ok, hphase] at hok
  have hprog := hinv.program
  rw [hinv.gpu0.pending_of_acked hack, List.nil_append] at hprog
  simp only [Host.future, hphase] at hprog
  rcases Nat.eq_or_lt_of_le hinv.marks_le with heq | hlt
  · omega
  · have hmem : marks ∈ List.range' marks (3 * su.numRounds - marks) :=
      List.mem_range'_1.mpr (by omega)
    rw [← hprog, List.mem_filterMap] at hmem
    obtain ⟨op, hop, hmark⟩ := hmem
    rcases List.mem_append.mp hop with hop | hop
    · have hround : op ∈ su.roundOps s.host.round := by
        rcases List.mem_append.mp hop with hop | hop
        · exact List.mem_append_left _ (hok.2.subset hop)
        · exact List.mem_append_right _ hop
      exact Setup.le_mark_of_mem hround hmark
    · have := Setup.le_mark_of_mem_opsFrom hop hmark
      omega

lemma Inv.fire0 (hinv : Inv s marks) (hack : s.gpu0.ack = s.gpu0.seqNum)
    (h : s.fire0 = some t) : Inv t marks := by
  unfold State.fire0 at h
  split at h
  case h_1 rest hphase =>
    cases h
    have hok := hinv.host
    have hle := hinv.le_marks hack hphase
    simp only [Host.Ok, hphase] at hok
    refine hinv.fireChunk hack _ _ ?_ ?_ ?_
    · by_cases hmore : rest.drop Mailbox.maxBatchInstructions = []
      · have htake := List.take_append_drop Mailbox.maxBatchInstructions rest
        rw [hmore, List.append_nil] at htake
        simp [hmore, Host.future, hphase, htake]
      · simp only [hmore, if_false, Host.future, hphase]
        rw [← List.append_assoc, ← List.append_assoc, List.take_append_drop]
    · by_cases hmore : rest.drop Mailbox.maxBatchInstructions = []
      · simp only [hmore, if_true, Host.Ok]
        exact ⟨hok.1, hle⟩
      · simp only [hmore, if_false, Host.Ok]
        exact ⟨hok.1, (List.drop_suffix _ _).trans hok.2⟩
    · intro w
      by_cases hmore : rest.drop Mailbox.maxBatchInstructions = [] <;>
        simp [hmore, Host.fired, hphase]
  case h_2 rest hphase =>
    cases h
    have hok := hinv.host
    simp only [Host.Ok, hphase] at hok
    refine hinv.fireChunk hack _ _ ?_ ?_ ?_
    · simp only [Host.future, hphase]
      rw [← List.append_assoc, List.take_append_drop]
    · simp only [Host.Ok]
      exact ⟨hok.1, (List.drop_suffix _ _).trans hok.2⟩
    · intro w
      simp [Host.fired, hphase]
  case h_3 => cases h

lemma Inv.advance (hinv : Inv s marks) (h : s.advance = some t) : Inv t marks := by
  unfold State.advance at h
  split_ifs at h with hcond hlast
  all_goals
    cases h
    have hphase := hcond.1
    have hok := hinv.host
    simp only [Host.Ok, hphase] at hok
  · refine hinv.setHost _ ?_ ?_ ?_
    · simp [Host.future, hphase]
    · simp only [Host.Ok]
      exact ⟨hok.1, List.suffix_refl _⟩
    · intro w
      simp [Host.fired, hphase]
  · refine hinv.setHost _ ?_ (Host.ok_enter hok.1) ?_
    · rw [Host.future_enter hok.1]
      simp [Host.future, hphase, Setup.tailOps, hlast]
    · intro w
      rw [Host.fired_enter]
      simp [Host.fired, hphase]

lemma Inv.tailAck (hinv : Inv s marks) (h : s.tailAck = some t) : Inv t marks := by
  unfold State.tailAck at h
  split at h
  case h_1 rest hphase =>
    split_ifs at h with hack hrest
    all_goals
      cases h
      have hok := hinv.host
      simp only [Host.Ok, hphase] at hok
    · refine hinv.setHost _ ?_ (Host.ok_enter hok.1) ?_
      · rw [Host.future_enter hok.1]
        simp [Host.future, hphase, hrest]
      · intro w
        rw [Host.fired_enter]
        simp [Host.fired, hphase]
    · refine hinv.setHost _ ?_ ?_ ?_
      · simp [Host.future, hphase]
      · simpa only [Host.Ok] using hok
      · intro w
        simp [Host.fired, hphase]
  case h_2 => cases h

lemma Inv.start0 (hinv : Inv s marks) (h : s.start0 = some t) : Inv t marks := by
  unfold State.start0 at h
  split_ifs at h with hcond
  cases h
  refine hinv.setGpu0 _ ?_ ⟨hinv.gpu0.ack_le, ?_⟩
  · simp [Gpu0.pending, hcond.1, hcond.2]
  · intro c hc
    cases hc
    exact ⟨rfl, hcond.2⟩

lemma Inv.endWait (hinv : Inv s marks) (h : s.endWait = some t) : Inv t marks := by
  unfold State.endWait at h
  split at h
  case h_1 c n hat =>
    split_ifs at h
    cases h
    obtain ⟨hc, -, -⟩ := Gpu0.at?_eq_some hat
    refine hinv.setGpu0 _ ?_ ⟨hinv.gpu0.ack_le, ?_⟩
    · simp [Gpu0.pending, hc]
    · intro c' hc'
      cases hc'
      exact hinv.gpu0.cursor c hc
  case h_2 => cases h

lemma Inv.ack0 (hinv : Inv s marks) (h : s.ack0 = some t) : Inv t marks := by
  unfold State.ack0 at h
  split at h
  case h_1 c hc =>
    split_ifs at h with hdone
    cases h
    have hseq := (hinv.gpu0.cursor c hc).1
    refine hinv.setGpu0 _ ?_ ⟨hseq.le, fun c' hc' => nomatch hc'⟩
    have hnil : (s.gpu0.inst.take c.num).drop c.pc = [] :=
      List.drop_eq_nil_of_le ((List.length_take_le _ _).trans hdone)
    simp [Gpu0.pending, hc, hseq, hnil]
  case h_2 => cases h

lemma Worker.Ok.fire {k : Worker} (hok : k.Ok) (hack : k.ack = k.seqNum) {n : ℕ}
    (hn : k.seqNum = n) : (k.fire n).Ok where
  ack_le := Nat.le_succ_of_le hok.ack_le
  le_ack := by
    show k.seqNum + 1 ≤ k.ack + 1
    omega
  busy := by
    intro seq h
    have := (hok.busy seq h).2
    omega
  round := fun _ => by
    show n + 1 = k.seqNum + 1
    omega

lemma Inv.fire (hinv : Inv s marks) {w : Fin su.numWorkers}
    (hack : (s.worker w).ack = (s.worker w).seqNum) (h : s.fire w = some t) : Inv t marks := by
  unfold State.fire at h
  split_ifs at h with hphase
  cases h
  have hok := hinv.host
  simp only [Host.Ok, hphase] at hok
  have hround : (s.worker w).seqNum = s.host.round := by
    rw [hinv.fired w]
    simp [Host.fired, hphase]
  exact
    { marks_le := hinv.marks_le
      program := by
        have hprog := hinv.program
        simp only [Host.future, hphase] at hprog
        exact hprog
      gpu0 := hinv.gpu0
      host := hok
      worker := forall_setWorker ((hinv.worker w).fire hack hround) hinv.worker
      fired := by
        intro w'
        by_cases hw : w' = w
        · subst hw
          simp [State.setWorker, Host.fired, Worker.fire, hround]
        · have hne : (w' : ℕ) ≠ w := fun he => hw (Fin.ext he)
          have hlt : (w' : ℕ) < w + 1 ↔ (w' : ℕ) < w := by omega
          have hfired := hinv.fired w'
          simpa [State.setWorker, hw, Host.fired, hphase, hlt] using hfired
      fired_le := by
        refine forall_setWorker (P := fun _ k => k.seqNum ≤ (marks + 1) / 3 + 1) ?_ hinv.fired_le
        show (s.worker w).seqNum + 1 ≤ (marks + 1) / 3 + 1
        omega
      act := hinv.act
      result := forall_setWorker (P := fun _ k => k.result = su.word k.rel) (hinv.result w)
        hinv.result
      posted := fun n hn hfresh => forall_setWorker (P := fun _ k => n < k.rel)
        (hinv.posted n hn hfresh w) (hinv.posted n hn hfresh)
      begun := forall_setWorker (P := fun _ k => ∀ n < k.begun,
        su.latent (su.layer n) = false → n < (marks + 1) / 3 ∨ su.Fresh n) (hinv.begun w)
        hinv.begun }

/-! #### GPU 0 executes -/

/-- The mark GPU 0 is at is the next one. -/
lemma Inv.at_mark (hinv : Inv s marks) {c : Cursor} {op : Op} {k : ℕ}
    (hat : s.gpu0.at? = some (c, op)) (hk : op.mark = some k) : k = marks ∧
      marks < 3 * su.numRounds ∧
      ((s.step0 c).gpu0.pending ++ s.host.future su).filterMap Op.mark =
        List.range' (marks + 1) (3 * su.numRounds - (marks + 1)) := by
  have hprog := hinv.program
  rw [Gpu0.pending_at hat false, List.cons_append, List.filterMap_cons_some hk] at hprog
  cases hd : 3 * su.numRounds - marks with
  | zero =>
      rw [hd] at hprog
      cases hprog
  | succ d =>
      rw [hd, List.range'_succ] at hprog
      obtain ⟨hhead, htail⟩ := List.cons.inj hprog
      have hd' : 3 * su.numRounds - (marks + 1) = d := by omega
      exact ⟨hhead, by omega, by rw [hd']; exact htail⟩

/-- GPU 0 passes an instruction. -/
lemma Inv.pass (hinv : Inv s marks) {c : Cursor} {op : Op} (hat : s.gpu0.at? = some (c, op))
    {marks' : ℕ} (hle : marks ≤ marks') (hle' : marks' ≤ 3 * su.numRounds)
    (hprog : ((s.step0 c).gpu0.pending ++ s.host.future su).filterMap Op.mark =
      List.range' marks' (3 * su.numRounds - marks'))
    {act : ℕ → ℕ → ℕ}
    (hact : ∀ l slot, su.latent l = false → act l slot = su.word ((marks' + 1) / 3) l slot)
    (hposted : ∀ n, marks / 3 ≤ n → n < marks' / 3 → ¬ su.Fresh n →
      ∀ w, n < (s.worker w).rel) : Inv { s.step0 c with act := act } marks' where
  marks_le := hle'
  program := hprog
  gpu0 := by
    obtain ⟨hc, -, -⟩ := Gpu0.at?_eq_some hat
    refine ⟨hinv.gpu0.ack_le, fun c' hc' => ?_⟩
    cases hc'
    exact hinv.gpu0.cursor c hc
  host := hinv.host.mono hle
  worker := hinv.worker
  fired := hinv.fired
  fired_le := by
    intro w
    have hdiv : (marks + 1) / 3 ≤ (marks' + 1) / 3 := Nat.div_le_div_right (by omega)
    exact (hinv.fired_le w).trans (Nat.add_le_add_right hdiv 1)
  act := hact
  result := hinv.result
  posted := by
    intro n hn hfresh
    rcases Nat.lt_or_ge n (marks / 3) with hlt | hge
    · exact hinv.posted n hlt hfresh
    · exact hposted n hge hn hfresh
  begun := by
    intro w n hn hlat
    have hdiv : (marks + 1) / 3 ≤ (marks' + 1) / 3 := Nat.div_le_div_right (by omega)
    exact (hinv.begun w n hn hlat).imp_left fun h => h.trans_le hdiv

lemma Inv.rel_le (hinv : Inv s marks) (w : Fin su.numWorkers) :
    (s.worker w).rel ≤ su.numRounds := by
  have hok := hinv.worker w
  have hle := hinv.host.fired_le w
  rw [← hinv.fired w] at hle
  have hack := hok.ack_le
  unfold Worker.rel
  split
  case h_1 seq hphase =>
    have := (hok.busy seq (by rw [hphase]; rfl)).2
    omega
  case h_2 => omega

/-- **The sum step of a round passes only once all workers have released the round.** -/
lemma Inv.released_of_post (hinv : Inv s marks) {n : ℕ} (hn : n < su.numRounds)
    (hmarks : marks / 3 = n)
    (hpost : ∀ w, (s.worker w).result (su.layer n) (su.slot n) = su.signal n)
    (hfresh : ¬ su.Fresh n) (w : Fin su.numWorkers) : n < (s.worker w).rel := by
  have hword := hpost w
  rw [hinv.result w] at hword
  refine (Setup.lt_of_word_eq hn (hinv.rel_le w) hword ?_).resolve_right hfresh
  intro n' hn' hsig
  exact hinv.posted n' (hmarks ▸ hn') (fun h => hsig h.1) w

lemma Inv.exec (hinv : Inv s marks) (h : s.exec = some t) : ∃ marks', Inv t marks' := by
  unfold State.exec at h
  split at h
  case h_1 c hat =>
    cases h
    refine ⟨marks, hinv.pass hat (Nat.le_refl _) hinv.marks_le ?_ hinv.act ?_⟩
    · have hprog := hinv.program
      rwa [Gpu0.pending_at hat false, List.cons_append, List.filterMap_cons_none rfl] at hprog
    · intro n hge hlt
      omega
  case h_2 c n hat =>
    split_ifs at h
    cases h
    obtain ⟨hk, hlt, hprog⟩ := hinv.at_mark hat rfl
    refine ⟨marks + 1, hinv.pass hat (Nat.le_succ _) hlt hprog ?_ ?_⟩
    · have hdiv : (marks + 1 + 1) / 3 = (marks + 1) / 3 := by omega
      rw [hdiv]
      exact hinv.act
    · intro i hge hlt
      omega
  case h_3 c n hat =>
    cases h
    obtain ⟨hk, hlt, hprog⟩ := hinv.at_mark hat rfl
    have hn : (marks + 1) / 3 = n := by omega
    have hn' : (marks + 1 + 1) / 3 = n + 1 := by omega
    refine ⟨marks + 1, hinv.pass hat (Nat.le_succ _) hlt hprog ?_ ?_⟩
    · intro l slot hl
      have hact := hinv.act
      rw [hn] at hact
      rw [hn']
      by_cases hlat : su.latent (su.layer n)
      · rw [if_pos hlat, hact l slot hl, Setup.word_succ_of_ne]
        intro hln
        rw [hln, hl] at hlat
        cases hlat
      · rw [if_neg hlat]
        by_cases hln : l = su.layer n
        · subst hln
          have hrow : s.act (su.layer n) = su.word n (su.layer n) :=
            funext fun slot => hact _ slot hl
          simp [Setup.word, store, hrow]
        · simp [Setup.word, store, hln, hact l slot hl]
    · intro i hge hlt
      omega
  case h_4 c n hat =>
    split_ifs at h with hpost
    cases h
    obtain ⟨hk, hlt, hprog⟩ := hinv.at_mark hat rfl
    refine ⟨marks + 1, hinv.pass hat (Nat.le_succ _) hlt hprog ?_ ?_⟩
    · have hdiv : (marks + 1 + 1) / 3 = (marks + 1) / 3 := by omega
      rw [hdiv]
      exact hinv.act
    · intro i hge hlt' hfresh w
      obtain rfl : i = n := by omega
      exact hinv.released_of_post (by omega) (by omega) hpost hfresh w
  case h_5 => cases h

/-! #### A worker moves -/

lemma Inv.start (hinv : Inv s marks) {w : Fin su.numWorkers} (h : s.start w = some t) :
    Inv t marks := by
  simp only [State.start] at h
  split_ifs at h with hcond
  cases h
  have hok := hinv.worker w
  have hrel : (s.worker w).rel = (s.worker w).ack := by simp [Worker.rel, hcond.1]
  have hbegun : (s.worker w).begun = (s.worker w).ack := by simp [Worker.begun, hcond.1]
  refine hinv.setWorker w _ ⟨hok.ack_le, hok.le_ack, ?_, hok.round⟩ rfl ?_ hrel.le ?_
  · intro seq hseq
    cases hseq
    exact ⟨rfl, hcond.2⟩
  · show (s.worker w).result = su.word (s.worker w).ack
    rw [hinv.result w, hrel]
  · intro n hn
    exact hinv.begun w n (hbegun ▸ hn)

/-- The round in the mailbox of a worker that is in a batch. -/
lemma Inv.round_eq (hinv : Inv s marks) {w : Fin su.numWorkers} {seq : ℕ}
    (hphase : (s.worker w).phase.seq? = some seq) :
    (s.worker w).round = (s.worker w).ack ∧ (s.worker w).round < su.numRounds := by
  have hok := hinv.worker w
  have hbusy := hok.busy seq hphase
  have hround := hok.round (by omega)
  have hle := hinv.host.fired_le w
  rw [← hinv.fired w] at hle
  have := hok.le_ack
  omega

/-- **A worker begins to read only once GPU 0 has signalled the round**, unless the awaited value
is the initial one. -/
lemma Inv.signalled_of_act (hinv : Inv s marks) {w : Fin su.numWorkers} {seq : ℕ}
    (hphase : (s.worker w).phase.seq? = some seq)
    (hlat : su.latent (su.layer (s.worker w).round) = false)
    (hact : s.act (su.layer (s.worker w).round) (su.slot (s.worker w).round) =
      su.signal (s.worker w).round) :
    (s.worker w).round < (marks + 1) / 3 ∨ su.Fresh (s.worker w).round := by
  obtain ⟨hround, hn⟩ := hinv.round_eq hphase
  have hbusy := (hinv.worker w).busy seq hphase
  have hfired := hinv.fired_le w
  have hmarks := hinv.marks_le
  rw [hinv.act _ _ hlat] at hact
  refine Setup.lt_of_word_eq hn (by omega) hact ?_
  intro n' hn' _
  omega

lemma Inv.startRead (hinv : Inv s marks) {w : Fin su.numWorkers} (h : s.startRead w = some t) :
    Inv t marks := by
  simp only [State.startRead] at h
  split at h
  case h_1 seq hphase =>
    split_ifs at h with hcond
    cases h
    have hok := hinv.worker w
    have hseq : (s.worker w).phase.seq? = some seq := by rw [hphase]; rfl
    have hrel : (s.worker w).rel = (s.worker w).ack := by simp [Worker.rel, hphase]
    have hbegun : (s.worker w).begun = (s.worker w).ack := by simp [Worker.begun, hphase]
    refine hinv.setWorker w _ ⟨hok.ack_le, hok.le_ack, ?_, hok.round⟩ rfl ?_ hrel.le ?_
    · intro seq' hseq'
      cases hseq'
      exact hok.busy seq hseq
    · show (s.worker w).result = su.word (s.worker w).ack
      rw [hinv.result w, hrel]
    · intro n hn hlat
      have hn' : n < (s.worker w).ack + 1 := hn
      rcases Nat.lt_succ_iff_lt_or_eq.mp hn' with hlt | heq
      · exact hinv.begun w n (hbegun ▸ hlt) hlat
      · obtain rfl : n = (s.worker w).round := by rw [(hinv.round_eq hseq).1, heq]
        rcases hcond with hlat' | hact
        · rw [hlat] at hlat'
          cases hlat'
        · exact hinv.signalled_of_act hseq hlat hact
  case h_2 => cases h

lemma Inv.release (hinv : Inv s marks) {w : Fin su.numWorkers} (h : s.release w = some t) :
    Inv t marks := by
  simp only [State.release] at h
  split at h
  case h_1 seq hphase =>
    cases h
    have hok := hinv.worker w
    have hseq : (s.worker w).phase.seq? = some seq := by rw [hphase]; rfl
    have hrel : (s.worker w).rel = (s.worker w).ack := by simp [Worker.rel, hphase]
    have hbegun : (s.worker w).begun = (s.worker w).ack + 1 := by simp [Worker.begun, hphase]
    refine hinv.setWorker w _ ⟨hok.ack_le, hok.le_ack, ?_, hok.round⟩ rfl ?_ ?_ ?_
    · intro seq' hseq'
      cases hseq'
      exact hok.busy seq hseq
    · show store (s.worker w).result _ _ _ = su.word ((s.worker w).ack + 1)
      rw [hinv.result w, hrel, (hinv.round_eq hseq).1]
      rfl
    · show (s.worker w).rel ≤ (s.worker w).ack + 1
      omega
    · intro n hn
      exact hinv.begun w n (hbegun ▸ hn)
  case h_2 => cases h

lemma Inv.ack (hinv : Inv s marks) {w : Fin su.numWorkers} (h : s.ack w = some t) :
    Inv t marks := by
  simp only [State.ack] at h
  split at h
  case h_1 seq hphase =>
    cases h
    have hok := hinv.worker w
    have hbusy := hok.busy seq (by rw [hphase]; rfl)
    have hle := hok.le_ack
    have hack : seq = (s.worker w).ack + 1 := by omega
    have hrel : (s.worker w).rel = seq := by simp [Worker.rel, hphase, hack]
    have hbegun : (s.worker w).begun = seq := by simp [Worker.begun, hphase, hack]
    refine hinv.setWorker w _ ⟨hbusy.1.le, ?_, (fun seq' h => nomatch h), hok.round⟩ rfl ?_
      hrel.le ?_
    · show (s.worker w).seqNum ≤ seq + 1
      omega
    · show (s.worker w).result = su.word seq
      rw [hinv.result w, hrel]
    · intro n hn
      exact hinv.begun w n (hbegun ▸ hn)
  case h_2 => cases h

/-- **What one step preserves**: without an overwritten mailbox the invariant is kept. -/
theorem Inv.step (hinv : Inv s marks) {a : Move su} (hguard : NoOverwrite s a)
    (hstep : Step s a t) : ∃ marks', Inv t marks' := by
  cases a with
  | fire0 => exact ⟨marks, hinv.fire0 hguard hstep⟩
  | fire w => exact ⟨marks, hinv.fire hguard hstep⟩
  | advance => exact ⟨marks, hinv.advance hstep⟩
  | tailAck => exact ⟨marks, hinv.tailAck hstep⟩
  | start0 => exact ⟨marks, hinv.start0 hstep⟩
  | endWait => exact ⟨marks, hinv.endWait hstep⟩
  | exec => exact hinv.exec hstep
  | ack0 => exact ⟨marks, hinv.ack0 hstep⟩
  | start w => exact ⟨marks, hinv.start hstep⟩
  | startRead w => exact ⟨marks, hinv.startRead hstep⟩
  | release w => exact ⟨marks, hinv.release hstep⟩
  | ack w => exact ⟨marks, hinv.ack hstep⟩

end Steps

/-! ### Main results -/

/-- Every armed step has a step at the position two before. -/
def Setup.NoJump (su : Setup) : Prop := ∀ n < su.numRounds, su.armed n = true → su.Prior n

section Main

variable {s : State su} {marks n : ℕ} {c : Cursor}

lemma Inv.at_copy (hinv : Inv s marks) (hat : s.AtCopy n c) :
    marks = 3 * n ∧ n < su.numRounds := by
  obtain ⟨hk, hlt, -⟩ := hinv.at_mark hat rfl
  omega

/-- At an armed copy all earlier rounds are released, on all workers. -/
lemma Inv.released_of_lt (hinv : Inv s marks) (hat : s.AtCopy n c) (hprior : su.Prior n) {m : ℕ}
    (hm : m < n) (w : Fin su.numWorkers) : m < (s.worker w).rel := by
  obtain ⟨hmarks, hn⟩ := hinv.at_copy hat
  refine hinv.posted m (by omega) (fun hfresh => hfresh.2 ?_) w
  -- the round with the initial value is at the last position there is, so in the copy's step
  have hmn := hm.trans hn
  have hmax : su.position n ≤ su.position m := by
    have hsig := hfresh.1
    have := su.position_u32 hn
    have := su.position_u32 hmn
    rw [Setup.signal, Setup.seq] at hsig
    omega
  have hstep : su.bpStep m = su.bpStep n :=
    Nat.le_antisymm (Nat.div_le_div_right hm.le) (Setup.bpStep_le hn hmn hmax)
  have hpos : su.position m = su.position n := by rw [Setup.position, hstep]; rfl
  rw [Setup.Prior, hstep, hpos]
  exact hprior

/-- At an armed copy no worker has begun the copy's own round. -/
lemma Inv.begun_le (hinv : Inv s marks) (hat : s.AtCopy n c) (harmed : su.armed n = true)
    (hprior : su.Prior n) (w : Fin su.numWorkers) : (s.worker w).begun ≤ n := by
  obtain ⟨hmarks, -⟩ := hinv.at_copy hat
  by_contra hlt
  have hlat : su.latent (su.layer n) = false := by
    rw [Setup.armed, Bool.and_eq_true, Bool.not_eq_true'] at harmed
    exact harmed.2
  rcases hinv.begun w n (Nat.not_le.mp hlt) hlat with h | h
  · omega
  · exact h.2 hprior

lemma Worker.rel_le_begun (k : Worker) : k.rel ≤ k.begun := by
  unfold Worker.rel Worker.begun
  cases k.phase <;> simp

/-- At an armed copy every worker has released exactly the rounds before. -/
lemma Inv.rel_eq (hinv : Inv s marks) (hat : s.AtCopy n c) (harmed : su.armed n = true)
    (hprior : su.Prior n) (w : Fin su.numWorkers) : (s.worker w).rel = n := by
  have hle := (s.worker w).rel_le_begun.trans (hinv.begun_le hat harmed hprior w)
  rcases Nat.eq_zero_or_pos n with h0 | hpos
  · omega
  · have := hinv.released_of_lt hat hprior (Nat.sub_lt hpos Nat.one_pos) w
    omega

theorem Inv.throttled (hinv : Inv s marks) (hsu : su.NoJump) : s.Throttled where
  fired := by
    rintro n ⟨hn, hstep, harmed⟩
    obtain ⟨n', hlt, hlayer, hseq, hbp, hfree⟩ := (hsu n hn harmed).round hn
    refine ⟨n', hlt, hlayer, by omega, fun w => ?_, hfree⟩
    have hround : n' < s.host.round := by
      by_contra hle
      have : su.bpStep s.host.round ≤ su.bpStep n' := Nat.div_le_div_right (Nat.not_lt.mp hle)
      omega
    calc n' < s.host.round := hround
      _ ≤ s.host.fired w := s.host.round_le_fired w
      _ = (s.worker w).seqNum := (hinv.fired w).symm
  held := by
    intro n c hat harmed w
    obtain ⟨-, hn⟩ := hinv.at_copy hat
    have hprior := hsu n hn harmed
    obtain ⟨n', hlt, hlayer, hseq, -, hfree⟩ := hprior.round hn
    have hslot : su.slot n' = su.slot n := by
      rw [Setup.slot, Setup.slot, dbufSlot, dbufSlot]
      omega
    have hword : su.word n (su.layer n') (su.slot n') = su.signal n' := by
      refine Setup.word_eq hlt fun i hi hin hl => ?_
      rw [hslot]
      exact hfree i hi hin (hl.trans hlayer)
    rw [hinv.result w, hinv.rel_eq hat harmed hprior w, ← hlayer, ← hslot, hword, Setup.signal,
      Setup.awaited, ← hseq, Nat.add_sub_cancel]
  free := by
    intro n c hat harmed _ w seq hreads
    obtain ⟨-, hn⟩ := hinv.at_copy hat
    have hprior := hsu n hn harmed
    have hrel := hinv.rel_eq hat harmed hprior w
    have hbegun := hinv.begun_le hat harmed hprior w
    simp only [Worker.rel, hreads] at hrel
    simp only [Worker.begun, hreads] at hbegun
    omega

/-- **The back-pressure can always be satisfied and is enough**: in every run in which the third
and every later decode step has an earlier step two positions before, and in which no fire
overwrites a batch that is not acknowledged, in every state. -/
theorem throttled_of_run (hsu : su.NoJump) {as : List (Move su)} {s : State su}
    (hrun : Run (guarded NoOverwrite Step) (init su) as s) : s.Throttled := by
  obtain ⟨marks, hinv⟩ := hrun.invariant (I := fun s => ∃ marks, Inv s marks)
    (fun _ _ _ h hstep => h.elim fun _ h => h.step hstep.1 hstep.2) ⟨0, Inv.init⟩
  exact hinv.throttled hsu

end Main

/-! ### A run of three decode steps -/

instance (s : State su) (a : Move su) : Decidable (NoOverwrite s a) :=
  match a with
  | .fire0 => inferInstanceAs (Decidable (s.gpu0.ack = s.gpu0.seqNum))
  | .fire w => inferInstanceAs (Decidable ((s.worker w).ack = (s.worker w).seqNum))
  | .advance | .tailAck | .start0 | .endWait | .exec | .ack0 | .start _ | .startRead _
  | .release _ | .ack _ => .isTrue trivial

/-- One move that overwrites no mailbox. -/
def guardedNext (s : State su) (a : Move su) : Option (State su) :=
  if NoOverwrite s a then next s a else none

lemma guarded_of_guardedNext {s t : State su} {a : Move su} (h : guardedNext s a = some t) :
    guarded NoOverwrite Step s a t := by
  unfold guardedNext at h
  split_ifs at h with hguard
  exact ⟨hguard, h⟩

/-- One worker and one MoE layer; decode steps at the positions 10, 11 and `p`. -/
def threeSteps (p : ℕ) (hlt : 11 < p) (hu32 : p < 2 ^ 32) : Setup where
  numWorkers := 1
  numWorkers_pos := Nat.one_pos
  layers := [0]
  layers_nodup := List.nodup_singleton 0
  latent := fun _ => false
  positions := [10, 11, p]
  positions_lt := by
    simp
    omega
  positions_u32 := by
    simp
    omega
  numBefore := fun _ => 0
  numBehind := fun _ => 0
  numTail := fun _ => 0

/-- A decode step of `threeSteps`, from the first fire to the last acknowledgement. -/
def stepMoves (w : Fin su.numWorkers) : List (Move su) :=
  [.fire0, .fire w, .start0, .exec, .exec, .exec, .exec, .ack0, .advance, .start w, .startRead w,
    .release w, .ack w, .fire0, .start0, .exec, .ack0, .tailAck]

/-- Two decode steps, and the third up to its activation copy. -/
def threeMoves (w : Fin su.numWorkers) : List (Move su) :=
  stepMoves w ++ stepMoves w ++ [.fire0, .fire w, .start0]

/-- Steps at the positions 10, 11 and 12. -/
def steady : Setup := threeSteps 12 (by decide) (by decide)

/-- A prefill of five tokens between the second and the third decode step. -/
def jump : Setup := threeSteps 17 (by decide) (by decide)

theorem throttled_steady : ∃ t : State steady,
    Run (guarded NoOverwrite Step) (init steady) (threeMoves steady.worker0) t ∧
      (∃ c, t.AtCopy 2 c) ∧ steady.armed 2 = true ∧ t.Throttled := by
  have hrun : ((threeMoves steady.worker0).foldlM guardedNext (init steady)).map
      (fun t => t.gpu0.at?) = some (some (⟨5, 4, 0, false⟩, .copyAct 2)) := by
    decide +kernel
  obtain ⟨t, ht, hat⟩ := Option.map_eq_some_iff.mp hrun
  have hrun := Run.of_foldlM (fun _ _ _ => guarded_of_guardedNext) ht
  refine ⟨t, hrun, ⟨_, hat⟩, by decide, throttled_of_run ?_ hrun⟩
  intro n hn harmed
  have hn3 : n < 3 := hn
  interval_cases n
  · exact absurd harmed (by decide)
  · exact absurd harmed (by decide)
  · exact ⟨0, by decide, 10, rfl, rfl⟩

/-- After the jump the third step waits for 16 in a word that holds 12, and no step writes 16. -/
theorem not_throttled_jump : ∃ t : State jump,
    Run (guarded NoOverwrite Step) (init jump) (threeMoves jump.worker0) t ∧
      t.Armed 2 ∧ (∃ c, t.AtCopy 2 c ∧ c.waited = false) ∧ jump.awaited 2 = 16 ∧
      (t.worker jump.worker0).result (jump.layer 2) (jump.slot 2) = 12 ∧
      (∀ n < jump.numRounds, jump.signal n ≠ 16) ∧ ¬ t.Throttled := by
  have hrun : ((threeMoves jump.worker0).foldlM guardedNext (init jump)).map
      (fun t => (t.gpu0.at?, t.host.round,
        (t.worker jump.worker0).result (jump.layer 2) (jump.slot 2))) =
      some (some (⟨5, 4, 0, false⟩, .copyAct 2), 2, 12) := by
    decide +kernel
  obtain ⟨t, ht, hval⟩ := Option.map_eq_some_iff.mp hrun
  have hrun := Run.of_foldlM (fun _ _ _ => guarded_of_guardedNext) ht
  simp only [Prod.mk.injEq] at hval
  obtain ⟨hat, hround, hresult⟩ := hval
  have hat2 : t.AtCopy 2 ⟨5, 4, 0, false⟩ := hat
  have harmed : t.Armed 2 := ⟨by decide, by rw [hround], by decide⟩
  have hnone : ∀ n < 2, jump.seq n ≠ jump.seq 2 - 2 := by decide
  refine ⟨t, hrun, harmed, ⟨_, hat2, rfl⟩, by decide, hresult, by decide, fun h => ?_⟩
  obtain ⟨n, hn, -, hseq, -⟩ := h.fired 2 harmed
  exact hnone n hn hseq

end BackPressure

end Braidinfer.Moe
