/-
The hand-off of the staged activation to the workers.

In a decode step GPU 0 stages, for one MoE layer after the other, the activation and the routing
of the layer and signals the layer's sentinel.  The host fires a layer's batch on GPU 0, then one
`OP_MOE_FFN_REMOTE` a worker, and waits for all acknowledgements before it goes on.  The blocks of
a worker wait for the sentinel by equality, and block 0 acknowledges when it is through.

The layers of all steps, in order, are the rounds of the protocol.  Every load and store that
another party can observe is a step of its own: a copy begins and ends, a block starts to read,
arrives at the last grid barrier of the operator, leaves it and ends.  Whether a block still reads
the staged expert ids behind that barrier depends on the routing (`Setup.readsBehind`).

* `Step`: the transitions of the host, GPU 0 and the workers' blocks;
* `Inv`, `Inv.step`: the invariant and what one step preserves;
* `staged_while_reading`: **a block reads only what GPU 0 staged for its own round**, over all runs;
* `overwritten_while_reading`: a run in which a block that reads behind the barrier is overtaken.
-/
import Mathlib.Data.List.Nodup
import Mathlib.Data.List.ProdSigma
import Braidinfer.Lib.Barrier
import Braidinfer.Lib.Run
import Braidinfer.Moe.Step

namespace Braidinfer.Moe

open Braidinfer.Lib

namespace ActHandoff

/-! ### Rounds -/

/-- A MoE layer in a decode step, with the expert ids its gate selects. -/
structure Round where
  position : ℕ
  layer : ℕ
  expertIds : List ℕ
deriving DecidableEq, Repr

/-- `seq_value` -/
def Round.seq (r : Round) : ℕ := r.position + 1

/-- `dbuf_slot` -/
def Round.slot (r : Round) : ℕ := dbufSlot r.seq

/-- `(unsigned int) seq`, as it is signalled and waited for. -/
def Round.signal (r : Round) : ℕ := r.seq % 2 ^ 32

/-- The decode steps of a run, the MoE layers (all with an activation sentinel) and the workers. -/
structure Setup where
  numWorkers : ℕ
  /-- the blocks of a worker's persistent kernel -/
  numBlocks : Fin numWorkers → ℕ
  numBlocks_pos : ∀ w, 0 < numBlocks w
  /-- whether a worker's config has an entry for an expert of a layer -/
  holds : ℕ → Fin numWorkers → ℕ → Bool
  layers : List ℕ
  layers_nodup : layers.Nodup
  positions : List ℕ
  positions_lt : positions.Pairwise (· < ·)
  /-- positions are `u32` -/
  positions_u32 : ∀ p ∈ positions, p < 2 ^ 32
  /-- the gate's choice at a position in a layer -/
  route : ℕ → ℕ → List ℕ

/-- The rounds of the run, in order. -/
def Setup.rounds (su : Setup) : List Round :=
  su.positions.flatMap fun p => su.layers.map fun l => ⟨p, l, su.route p l⟩

/-- Block 0 of a worker. -/
def Setup.block0 (su : Setup) (w : Fin su.numWorkers) : Fin (su.numBlocks w) :=
  ⟨0, su.numBlocks_pos w⟩

/-- The expert loop of `op_moe_ffn_remote` loads `eids[j]` for every `j`; only a local expert's
iteration has grid barriers.  So the last load is behind the last barrier when the last of the
routed experts is not local. -/
def Setup.readsBehind (su : Setup) (w : Fin su.numWorkers) (r : Round) : Bool :=
  match r.expertIds.getLast? with
  | some e => !su.holds r.layer w e
  | none => false

/-- **The sentinel of a round.**  In the compiled step the copy that ends the staging of a layer
without a latent projection signals the word of the round's slot with the round's `seq`, and every
worker instruction of the layer waits for that word and value. -/
theorem Round.sentinel (r : Round) (p2p : P2pConfig) {m : Model} {moe : MoeLayer}
    (hmoe : m.moeWeights r.layer = some moe) (hfc1 : moe.fc1LatentProj = false) :
    ∃ bd remotes c, stepBoundary p2p m r.position r.layer = some bd ∧
      dispatchMoeWorkersDecode p2p m r.layer r.position = some remotes ∧
      copiesInto .routingWeightsStagingVram bd.batch = [c] ∧
      c.signalPtr = some ((Buf.moeActSentinel r.layer).ptr.add r.slot) ∧ c.signalSeq = r.seq ∧
      ∀ remote ∈ remotes, remote.waitPtr = c.signalPtr ∧ remote.waitSeq = c.signalSeq := by
  obtain ⟨batch, hbd, hcopies⟩ := stepBoundary_eq p2p hmoe r.position
  obtain ⟨st, hcovers, hremotes⟩ := dispatchMoeWorkersDecode_eq p2p hmoe r.position
  have hcopy := hcopies .routingWeightsStagingVram
  rw [copiesInto_routingWeights] at hcopy
  have hsent : st.moeActSentinel r.layer = true := by
    rw [hcovers.moeActSentinel, hfc1]
    rfl
  refine ⟨_, _, _, hbd, hremotes, hcopy, ?_, ?_, ?_⟩
  · simp [stepWeightsCopy, hfc1, D2dCopy.withSignal, Round.slot, Round.seq]
  · simp [stepWeightsCopy, hfc1, D2dCopy.withSignal, Round.seq]
  · intro remote hremote
    obtain ⟨w, -, rfl⟩ := List.mem_map.mp hremote
    simp [remoteInst, hsent, stepWeightsCopy, hfc1, D2dCopy.withSignal]

/-! ### The system -/

/-- The three staging buffers. -/
inductive StagedBuf
  | activation | ids | weights
deriving DecidableEq, Repr

/-- Where GPU 0 is in the batch of a round. -/
inductive Gpu0Phase
  /-- polls for the next batch -/
  | idle
  /-- about to execute the copy into `b` -/
  | before (b : StagedBuf)
  /-- its blocks store into `b` -/
  | copying (b : StagedBuf)
  /-- behind the barrier of the last copy -/
  | signalling
  /-- the rest of the batch -/
  | acking
deriving DecidableEq, Repr

/-- The phase behind a copy. -/
def Gpu0Phase.after : StagedBuf → Gpu0Phase
  | .activation => .before .ids
  | .ids => .before .weights
  | .weights => .signalling

/-- Where a block of a worker is in the operator of its round. -/
inductive BlockPhase
  /-- polls for the batch, then spins on the sentinel -/
  | waiting
  /-- in front of the last barrier -/
  | reading
  /-- at the last barrier -/
  | arrived
  /-- behind the last barrier -/
  | behind
deriving DecidableEq, Repr

/-- A block: the round it works on and where it is in it. -/
structure Block where
  round : ℕ
  phase : BlockPhase
deriving DecidableEq, Repr

/-- The last barriers a block has arrived at. -/
def Block.arrivals (b : Block) : ℕ :=
  match b.phase with
  | .waiting | .reading => b.round
  | .arrived | .behind => b.round + 1

variable (su : Setup)

/-- A state of the protocol. -/
structure State where
  /-- the round the host is in -/
  round : ℕ
  /-- what the host fires next: `none` is GPU 0, `some w` worker `w`, and at `some numWorkers` it
  waits for the acknowledgements -/
  next : Option ℕ
  /-- rounds fired on GPU 0 -/
  fired0 : ℕ
  /-- rounds fired on a worker -/
  fired : Fin su.numWorkers → ℕ
  /-- GPU 0's round, which is also the number of rounds it has acknowledged -/
  round0 : ℕ
  gpu0 : Gpu0Phase
  block : (w : Fin su.numWorkers) → Fin (su.numBlocks w) → Block
  /-- rounds acknowledged by a worker -/
  acked : Fin su.numWorkers → ℕ
  /-- the activation sentinels, by layer and slot -/
  sentinel : ℕ → ℕ → ℕ
  /-- the round whose complete copy a slot of a staging buffer holds -/
  staged : StagedBuf → ℕ → Option ℕ

/-- Nothing is fired and the sentinels are zero. -/
def init : State su where
  round := 0
  next := none
  fired0 := 0
  fired := fun _ => 0
  round0 := 0
  gpu0 := .idle
  block := fun _ _ => ⟨0, .waiting⟩
  acked := fun _ => 0
  sentinel := fun _ _ => 0
  staged := fun _ _ => none

variable {su}

/-- The last barrier of a worker's operators. -/
def State.barrier (s : State su) (w : Fin su.numWorkers) : Barrier (Fin (su.numBlocks w)) where
  arrived := fun b => (s.block w b).arrivals
  waiting := fun b => (s.block w b).phase == .arrived

/-- Update one block. -/
def State.setBlock (s : State su) (w : Fin su.numWorkers) (b : Fin (su.numBlocks w))
    (blk : Block) : State su :=
  { s with block := Function.update s.block w (Function.update (s.block w) b blk) }

/-- Update a slot of a staging buffer. -/
def State.setStaged (s : State su) (b : StagedBuf) (slot : ℕ) (v : Option ℕ) : State su :=
  { s with staged := Function.update s.staged b (Function.update (s.staged b) slot v) }

/-- The parties' moves. -/
inductive Move (su : Setup)
  | fire0
  | fire (w : Fin su.numWorkers)
  | collect
  | start0
  | beginCopy (b : StagedBuf)
  | endCopy (b : StagedBuf)
  | signal
  | ack0
  | startRead (w : Fin su.numWorkers) (b : Fin (su.numBlocks w))
  | arrive (w : Fin su.numWorkers) (b : Fin (su.numBlocks w))
  | leave (w : Fin su.numWorkers) (b : Fin (su.numBlocks w))
  | finish (w : Fin su.numWorkers) (b : Fin (su.numBlocks w))

/-- One transition. -/
inductive Step : State su → Move su → State su → Prop
  /-- `dispatch_batch_fire(0, ..)` of the round's batch -/
  | fire0 {s : State su} (hnext : s.next = none) (hround : s.round < su.rounds.length) :
      Step s .fire0 { s with fired0 := s.round + 1, next := some 0 }
  /-- `dispatch_batch_fire(w + 1, ..)` of the round's `OP_MOE_FFN_REMOTE` -/
  | fire {s : State su} (w : Fin su.numWorkers) (hnext : s.next = some w) :
      Step s (.fire w) { s with
        fired := Function.update s.fired w (s.round + 1)
        next := some (w + 1) }
  /-- `try_wait_acks_many` returns -/
  | collect {s : State su} (hnext : s.next = some su.numWorkers)
      (hack0 : s.round0 = s.round + 1) (hack : ∀ w, s.acked w = s.round + 1) :
      Step s .collect { s with round := s.round + 1, next := none }
  | start0 {s : State su} (hidle : s.gpu0 = .idle) (hfired : s.round0 < s.fired0) :
      Step s .start0 { s with gpu0 := .before .activation }
  | beginCopy {s : State su} {r : Round} (b : StagedBuf) (hgpu : s.gpu0 = .before b)
      (hr : su.rounds[s.round0]? = some r) :
      Step s (.beginCopy b) { s.setStaged b r.slot none with gpu0 := .copying b }
  | endCopy {s : State su} {r : Round} (b : StagedBuf) (hgpu : s.gpu0 = .copying b)
      (hr : su.rounds[s.round0]? = some r) :
      Step s (.endCopy b) { s.setStaged b r.slot (some s.round0) with gpu0 := .after b }
  /-- the sentinel store of `dispatch_opcode`, behind the barrier of the copy -/
  | signal {s : State su} {r : Round} (hgpu : s.gpu0 = .signalling)
      (hr : su.rounds[s.round0]? = some r) :
      Step s .signal { s with
        sentinel := Function.update s.sentinel r.layer
          (Function.update (s.sentinel r.layer) r.slot r.signal)
        gpu0 := .acking }
  | ack0 {s : State su} (hgpu : s.gpu0 = .acking) :
      Step s .ack0 { s with round0 := s.round0 + 1, gpu0 := .idle }
  /-- the batch is fired and the sentinel holds the awaited value -/
  | startRead {s : State su} {r : Round} (w : Fin su.numWorkers) (b : Fin (su.numBlocks w))
      (hphase : (s.block w b).phase = .waiting) (hfired : (s.block w b).round < s.fired w)
      (hr : su.rounds[(s.block w b).round]? = some r)
      (hsig : s.sentinel r.layer r.slot = r.signal) :
      Step s (.startRead w b) (s.setBlock w b ⟨(s.block w b).round, .reading⟩)
  | arrive {s : State su} (w : Fin su.numWorkers) (b : Fin (su.numBlocks w))
      (hphase : (s.block w b).phase = .reading) :
      Step s (.arrive w b) (s.setBlock w b ⟨(s.block w b).round, .arrived⟩)
  | leave {s : State su} (w : Fin su.numWorkers) (b : Fin (su.numBlocks w))
      (hphase : (s.block w b).phase = .arrived) (hopen : (s.barrier w).Opens b) :
      Step s (.leave w b) (s.setBlock w b ⟨(s.block w b).round, .behind⟩)
  /-- the operator returns; block 0 acknowledges -/
  | finish {s : State su} (w : Fin su.numWorkers) (b : Fin (su.numBlocks w))
      (hphase : (s.block w b).phase = .behind) :
      Step s (.finish w b) { s.setBlock w b ⟨(s.block w b).round + 1, .waiting⟩ with
        acked := if b = su.block0 w then
          Function.update s.acked w ((s.block w b).round + 1) else s.acked }

/-- A block reads the staging buffers for the round `n`. -/
def State.Reads (s : State su) (w : Fin su.numWorkers) (b : Fin (su.numBlocks w)) (n : ℕ)
    (r : Round) : Prop :=
  (s.block w b).round = n ∧ su.rounds[n]? = some r ∧
    ((s.block w b).phase = .reading ∨ (s.block w b).phase = .behind ∧ su.readsBehind w r = true)

/-- Every block that reads finds the complete copies of its own round in its slot. -/
def State.Safe (s : State su) : Prop :=
  ∀ w b n r, s.Reads w b n r → ∀ buf, s.staged buf r.slot = some n

/-! ### Rounds are told apart by their sentinel values -/

lemma Setup.rounds_key (su : Setup) : su.rounds.map (fun r => (r.position, r.layer)) =
    su.positions.product su.layers := by
  rw [Setup.rounds, List.map_flatMap]
  simp only [List.map_map, Function.comp_def]
  rfl

lemma Setup.key_nodup (su : Setup) :
    (su.rounds.map fun r => (r.position, r.layer)).Nodup := by
  rw [su.rounds_key]
  have hpos : su.positions.Nodup := su.positions_lt.imp fun h => Nat.ne_of_lt h
  exact hpos.product su.layers_nodup

lemma Setup.mem_positions {n : ℕ} {r : Round} (hr : su.rounds[n]? = some r) :
    r.position ∈ su.positions := by
  have hmem := List.mem_of_getElem? hr
  obtain ⟨p, hp, hmap⟩ := List.mem_flatMap.mp hmem
  obtain ⟨l, -, rfl⟩ := List.mem_map.mp hmap
  exact hp

/-- A round is determined by its position and its layer. -/
lemma Setup.round_inj {n n' : ℕ} {r r' : Round} (hr : su.rounds[n]? = some r)
    (hr' : su.rounds[n']? = some r') (hpos : r.position = r'.position)
    (hlayer : r.layer = r'.layer) : n = n' := by
  have hn : n < (su.rounds.map fun r => (r.position, r.layer)).length := by
    rw [List.length_map]
    exact (List.getElem?_eq_some_iff.mp hr).1
  refine (List.getElem?_inj hn su.key_nodup).mp ?_
  rw [List.getElem?_map, List.getElem?_map, hr, hr', Option.map_some, Option.map_some, hpos,
    hlayer]

/-- No `seq` of the run is `0` as a `u32`. -/
def Setup.NoWrap (su : Setup) : Prop := ∀ p ∈ su.positions, p + 1 < 2 ^ 32

lemma Setup.NoWrap.signal_eq (hsu : su.NoWrap) {n : ℕ} {r : Round}
    (hr : su.rounds[n]? = some r) : r.signal = r.position + 1 :=
  Nat.mod_eq_of_lt (hsu _ (su.mem_positions hr))

/-! ### The invariant -/

/-- The rounds GPU 0 has signalled. -/
def State.signalled (s : State su) : ℕ := s.round0 + if s.gpu0 = .acking then 1 else 0

/-- GPU 0 has completed the copy into a buffer for the round it is in. -/
def Gpu0Phase.Done : Gpu0Phase → StagedBuf → Prop
  | .idle, _ => False
  | .before b, b' | .copying b, b' => b' = .activation ∧ b ≠ .activation ∨
      b' = .ids ∧ b = .weights
  | .signalling, _ | .acking, _ => True

/-- **The invariant** of the hand-off. -/
structure Inv (s : State su) : Prop where
  fired0_le : s.fired0 ≤ s.round + 1
  fired0_eq : s.next = none → s.fired0 = s.round
  round0_ge : s.round ≤ s.round0
  round0_le : s.round0 ≤ s.fired0
  busy0 : s.gpu0 ≠ .idle → s.round0 < s.fired0
  fired_le : ∀ w, s.fired w ≤ s.round + 1
  acked_ge : ∀ w, s.round ≤ s.acked w
  acked_eq : ∀ w, s.acked w = (s.block w (su.block0 w)).round
  barrier : ∀ w, (s.barrier w).Ok
  fired : ∀ w b, (s.block w b).phase ≠ .waiting → (s.block w b).round < s.fired w
  awaited : ∀ w b, (s.block w b).phase ≠ .waiting → (s.block w b).round < s.signalled
  sentinel : ∀ l slot, s.sentinel l slot = 0 ∨ ∃ n r, n < s.signalled ∧
    su.rounds[n]? = some r ∧ r.layer = l ∧ s.sentinel l slot = r.signal
  staged_last : s.gpu0 = .idle ∨ s.gpu0 = .before .activation → ∀ n r, n + 1 = s.round0 →
    su.rounds[n]? = some r → ∀ buf, s.staged buf r.slot = some n
  staged_now : ∀ r buf, su.rounds[s.round0]? = some r → s.gpu0.Done buf →
    s.staged buf r.slot = some s.round0

lemma Inv.init : Inv (init su) where
  fired0_le := Nat.zero_le _
  fired0_eq := fun _ => rfl
  round0_ge := Nat.le_refl _
  round0_le := Nat.le_refl _
  busy0 := fun h => absurd rfl h
  fired_le := fun _ => Nat.zero_le _
  acked_ge := fun _ => Nat.le_refl _
  acked_eq := fun _ => rfl
  barrier := fun _ => Barrier.init_ok
  fired := fun _ _ h => absurd rfl h
  awaited := fun _ _ h => absurd rfl h
  sentinel := fun _ _ => Or.inl rfl
  staged_last := fun _ _ _ h => by simp [ActHandoff.init] at h
  staged_now := fun _ _ _ h => h.elim

/-! ### One step -/

section Blocks

variable {s : State su} {w : Fin su.numWorkers} {b : Fin (su.numBlocks w)} {blk : Block}

lemma block_setBlock_self : (s.setBlock w b blk).block w b = blk := by
  simp [State.setBlock]

lemma block_setBlock_of_ne {w' : Fin su.numWorkers} {b' : Fin (su.numBlocks w')}
    (h : (⟨w', b'⟩ : (w : Fin su.numWorkers) × Fin (su.numBlocks w)) ≠ ⟨w, b⟩) :
    (s.setBlock w b blk).block w' b' = s.block w' b' := by
  by_cases hw : w' = w
  · subst hw
    have hb : b' ≠ b := fun hb => h (by rw [hb])
    simp [State.setBlock, hb]
  · simp [State.setBlock, hw]

/-- What holds of the new block and held of all blocks holds of all blocks. -/
lemma forall_setBlock {P : (w : Fin su.numWorkers) → Fin (su.numBlocks w) → Block → Prop}
    (hself : P w b blk) (hother : ∀ w' b', P w' b' (s.block w' b')) (w' : Fin su.numWorkers)
    (b' : Fin (su.numBlocks w')) : P w' b' ((s.setBlock w b blk).block w' b') := by
  by_cases h : (⟨w', b'⟩ : (w : Fin su.numWorkers) × Fin (su.numBlocks w)) = ⟨w, b⟩
  · obtain ⟨rfl, hb⟩ := Sigma.mk.inj h
    obtain rfl := eq_of_heq hb
    rwa [block_setBlock_self]
  · rw [block_setBlock_of_ne h]
    exact hother w' b'

lemma barrier_setBlock_of_ne {w' : Fin su.numWorkers} (h : w' ≠ w) :
    (s.setBlock w b blk).barrier w' = s.barrier w' := by
  simp [State.barrier, State.setBlock, h]

/-- A change of a block that neither arrives nor leaves. -/
lemma barrier_setBlock_same (harr : blk.arrivals = (s.block w b).arrivals)
    (hphase : (blk.phase == .arrived) = ((s.block w b).phase == .arrived)) :
    (s.setBlock w b blk).barrier w = s.barrier w := by
  refine Barrier.ext (funext fun b' => ?_) (funext fun b' => ?_)
  · by_cases hb : b' = b
    · subst hb
      simpa [State.barrier, State.setBlock] using harr
    · simp [State.barrier, State.setBlock, hb]
  · by_cases hb : b' = b
    · subst hb
      simpa [State.barrier, State.setBlock] using hphase
    · simp [State.barrier, State.setBlock, hb]

lemma barrier_arrive (hphase : (s.block w b).phase = .reading) :
    (s.setBlock w b ⟨(s.block w b).round, .arrived⟩).barrier w = (s.barrier w).arrive b := by
  refine Barrier.ext (funext fun b' => ?_) (funext fun b' => ?_)
  · by_cases hb : b' = b
    · subst hb
      simp [State.barrier, State.setBlock, Barrier.arrive, Block.arrivals, hphase]
    · simp [State.barrier, State.setBlock, Barrier.arrive, hb]
  · by_cases hb : b' = b
    · subst hb
      simp [State.barrier, State.setBlock, Barrier.arrive]
    · simp [State.barrier, State.setBlock, Barrier.arrive, hb]

lemma barrier_leave (hphase : (s.block w b).phase = .arrived) :
    (s.setBlock w b ⟨(s.block w b).round, .behind⟩).barrier w = (s.barrier w).pass b := by
  refine Barrier.ext (funext fun b' => ?_) (funext fun b' => ?_)
  · by_cases hb : b' = b
    · subst hb
      simp [State.barrier, State.setBlock, Barrier.pass, Block.arrivals, hphase]
    · simp [State.barrier, State.setBlock, Barrier.pass, hb]
  · by_cases hb : b' = b
    · subst hb
      simp [State.barrier, State.setBlock, Barrier.pass]
    · simp [State.barrier, State.setBlock, Barrier.pass, hb]

/-- A step of a block keeps the invariant if it keeps the barrier's promise and the block has been
fired and signalled for the round it works on. -/
lemma Inv.setBlock (hinv : Inv s) (acked : Fin su.numWorkers → ℕ)
    (hbar : ((s.setBlock w b blk).barrier w).Ok)
    (hfired : blk.phase ≠ .waiting → blk.round < s.fired w)
    (hawait : blk.phase ≠ .waiting → blk.round < s.signalled)
    (hge : ∀ w', s.round ≤ acked w')
    (hacked : ∀ w', acked w' = ((s.setBlock w b blk).block w' (su.block0 w')).round) :
    Inv { s.setBlock w b blk with acked := acked } where
  fired0_le := hinv.fired0_le
  fired0_eq := hinv.fired0_eq
  round0_ge := hinv.round0_ge
  round0_le := hinv.round0_le
  busy0 := hinv.busy0
  fired_le := hinv.fired_le
  acked_ge := hge
  acked_eq := hacked
  barrier := by
    intro w'
    by_cases hw : w' = w
    · subst hw
      exact hbar
    · have h := hinv.barrier w'
      rw [← barrier_setBlock_of_ne (b := b) (s := s) (w := w) hw] at h
      exact h
  fired := forall_setBlock (P := fun w' _ blk => blk.phase ≠ .waiting → blk.round < s.fired w')
    hfired hinv.fired
  awaited := forall_setBlock (P := fun _ _ blk => blk.phase ≠ .waiting →
    blk.round < s.signalled) hawait hinv.awaited
  sentinel := hinv.sentinel
  staged_last := hinv.staged_last
  staged_now := hinv.staged_now

/-- Block 0 keeps its round unless it ends one. -/
lemma Inv.acked_setBlock (hinv : Inv s) (hround : blk.round = (s.block w b).round)
    (w' : Fin su.numWorkers) :
    s.acked w' = ((s.setBlock w b blk).block w' (su.block0 w')).round := by
  by_cases h : (⟨w', su.block0 w'⟩ : (w : Fin su.numWorkers) × Fin (su.numBlocks w)) = ⟨w, b⟩
  · obtain ⟨rfl, hb⟩ := Sigma.mk.inj h
    obtain rfl := eq_of_heq hb
    rw [block_setBlock_self, hround, hinv.acked_eq]
  · rw [block_setBlock_of_ne h, hinv.acked_eq]

end Blocks

section Steps

variable {s t : State su} {a : Move su}

/-- **The awaited value is in the sentinel only once its round is signalled.** -/
lemma Inv.signalled_of_sentinel (hinv : Inv s) (hsu : su.NoWrap) {n : ℕ} {r : Round}
    (hr : su.rounds[n]? = some r) (hsig : s.sentinel r.layer r.slot = r.signal) :
    n < s.signalled := by
  have hval := hsu.signal_eq hr
  rcases hinv.sentinel r.layer r.slot with h0 | ⟨n', r', hlt, hr', hlayer, hsig'⟩
  · omega
  · have hval' := hsu.signal_eq hr'
    have hpos : r'.position = r.position := by omega
    rwa [su.round_inj hr' hr hpos hlayer] at hlt

lemma Inv.fire0 (hinv : Inv s) (hnext : s.next = none) :
    Inv { s with fired0 := s.round + 1, next := some 0 } where
  fired0_le := Nat.le_refl _
  fired0_eq := fun h => nomatch h
  round0_ge := hinv.round0_ge
  round0_le := by
    have h := hinv.round0_le
    rw [hinv.fired0_eq hnext] at h
    exact Nat.le_succ_of_le h
  busy0 := by
    intro h
    have hlt := hinv.busy0 h
    rw [hinv.fired0_eq hnext] at hlt
    exact Nat.lt_succ_of_lt hlt
  fired_le := hinv.fired_le
  acked_ge := hinv.acked_ge
  acked_eq := hinv.acked_eq
  barrier := hinv.barrier
  fired := hinv.fired
  awaited := hinv.awaited
  sentinel := hinv.sentinel
  staged_last := hinv.staged_last
  staged_now := hinv.staged_now

lemma Inv.fire (hinv : Inv s) (w : Fin su.numWorkers) :
    Inv { s with
      fired := Function.update s.fired w (s.round + 1)
      next := some (w + 1) } where
  fired0_le := hinv.fired0_le
  fired0_eq := fun h => nomatch h
  round0_ge := hinv.round0_ge
  round0_le := hinv.round0_le
  busy0 := hinv.busy0
  fired_le := by
    intro w'
    by_cases hw : w' = w
    · subst hw
      simp
    · simpa [hw] using hinv.fired_le w'
  acked_ge := hinv.acked_ge
  acked_eq := hinv.acked_eq
  barrier := hinv.barrier
  fired := by
    intro w' b h
    have hlt := hinv.fired w' b h
    by_cases hw : w' = w
    · subst hw
      have hle := hinv.fired_le w'
      simp only [Function.update_self]
      omega
    · simpa [hw] using hlt
  awaited := hinv.awaited
  sentinel := hinv.sentinel
  staged_last := hinv.staged_last
  staged_now := hinv.staged_now

lemma Inv.collect (hinv : Inv s) (hack0 : s.round0 = s.round + 1)
    (hack : ∀ w, s.acked w = s.round + 1) :
    Inv { s with round := s.round + 1, next := none } where
  fired0_le := Nat.le_succ_of_le hinv.fired0_le
  fired0_eq := by
    intro _
    have hle := hinv.fired0_le
    have hge := hinv.round0_le
    dsimp only
    omega
  round0_ge := hack0.ge
  round0_le := hinv.round0_le
  busy0 := hinv.busy0
  fired_le := fun w => Nat.le_succ_of_le (hinv.fired_le w)
  acked_ge := fun w => (hack w).ge
  acked_eq := hinv.acked_eq
  barrier := hinv.barrier
  fired := hinv.fired
  awaited := hinv.awaited
  sentinel := hinv.sentinel
  staged_last := hinv.staged_last
  staged_now := hinv.staged_now

lemma Inv.start0 (hinv : Inv s) (hidle : s.gpu0 = .idle) (hfired : s.round0 < s.fired0) :
    Inv { s with gpu0 := .before .activation } := by
  have hsig : State.signalled { s with gpu0 := .before .activation } = s.signalled := by
    simp [State.signalled, hidle]
  exact
    { fired0_le := hinv.fired0_le
      fired0_eq := hinv.fired0_eq
      round0_ge := hinv.round0_ge
      round0_le := hinv.round0_le
      busy0 := fun _ => hfired
      fired_le := hinv.fired_le
      acked_ge := hinv.acked_ge
      acked_eq := hinv.acked_eq
      barrier := hinv.barrier
      fired := hinv.fired
      awaited := by
        rw [hsig]
        exact hinv.awaited
      sentinel := by
        rw [hsig]
        exact hinv.sentinel
      staged_last := fun _ => hinv.staged_last (Or.inl hidle)
      staged_now := by
        intro r buf _ hdone
        simp [Gpu0Phase.Done] at hdone }

lemma Inv.beginCopy (hinv : Inv s) {b : StagedBuf} (hgpu : s.gpu0 = .before b) {slot : ℕ} :
    Inv { s.setStaged b slot none with gpu0 := .copying b } := by
  have hsig : State.signalled { s.setStaged b slot none with gpu0 := .copying b } =
      s.signalled := by
    simp [State.signalled, hgpu, State.setStaged]
  exact
    { fired0_le := hinv.fired0_le
      fired0_eq := hinv.fired0_eq
      round0_ge := hinv.round0_ge
      round0_le := hinv.round0_le
      busy0 := fun _ => hinv.busy0 (by rw [hgpu]; nofun)
      fired_le := hinv.fired_le
      acked_ge := hinv.acked_ge
      acked_eq := hinv.acked_eq
      barrier := hinv.barrier
      fired := hinv.fired
      awaited := by
        rw [hsig]
        exact hinv.awaited
      sentinel := by
        rw [hsig]
        exact hinv.sentinel
      staged_last := fun h => by rcases h with h | h <;> cases h
      staged_now := by
        intro r buf hr hdone
        -- the copies done before are into other buffers
        have hne : buf ≠ b := by
          rintro rfl
          cases buf <;> simp [Gpu0Phase.Done] at hdone
        have h := hinv.staged_now r buf hr (by rw [hgpu]; exact hdone)
        simpa [State.setStaged, hne] using h }

lemma Inv.endCopy (hinv : Inv s) {b : StagedBuf} (hgpu : s.gpu0 = .copying b) {r : Round}
    (hr : su.rounds[s.round0]? = some r) :
    Inv { s.setStaged b r.slot (some s.round0) with gpu0 := .after b } := by
  have hsig : State.signalled { s.setStaged b r.slot (some s.round0) with gpu0 := .after b } =
      s.signalled := by
    cases b <;> simp [State.signalled, hgpu, State.setStaged, Gpu0Phase.after]
  exact
    { fired0_le := hinv.fired0_le
      fired0_eq := hinv.fired0_eq
      round0_ge := hinv.round0_ge
      round0_le := hinv.round0_le
      busy0 := fun _ => hinv.busy0 (by rw [hgpu]; nofun)
      fired_le := hinv.fired_le
      acked_ge := hinv.acked_ge
      acked_eq := hinv.acked_eq
      barrier := hinv.barrier
      fired := hinv.fired
      awaited := by
        rw [hsig]
        exact hinv.awaited
      sentinel := by
        rw [hsig]
        exact hinv.sentinel
      staged_last := by
        intro h
        cases b <;> simp [Gpu0Phase.after] at h
      staged_now := by
        intro r' buf hr' hdone
        obtain rfl : r = r' := Option.some.inj (hr.symm.trans hr')
        by_cases hb : buf = b
        · subst hb
          simp [State.setStaged]
        · have hold : s.gpu0.Done buf := by
            rw [hgpu]
            cases b <;> cases buf <;> simp_all [Gpu0Phase.after, Gpu0Phase.Done]
          have h := hinv.staged_now r buf hr hold
          simpa [State.setStaged, hb] using h }

lemma Inv.signal (hinv : Inv s) (hgpu : s.gpu0 = .signalling) {r : Round}
    (hr : su.rounds[s.round0]? = some r) :
    Inv { s with
      sentinel := Function.update s.sentinel r.layer
        (Function.update (s.sentinel r.layer) r.slot r.signal)
      gpu0 := .acking } := by
  have hold : s.signalled = s.round0 := by simp [State.signalled, hgpu]
  exact
    { fired0_le := hinv.fired0_le
      fired0_eq := hinv.fired0_eq
      round0_ge := hinv.round0_ge
      round0_le := hinv.round0_le
      busy0 := fun _ => hinv.busy0 (by rw [hgpu]; nofun)
      fired_le := hinv.fired_le
      acked_ge := hinv.acked_ge
      acked_eq := hinv.acked_eq
      barrier := hinv.barrier
      fired := hinv.fired
      awaited := by
        intro w b h
        have hlt := hinv.awaited w b h
        rw [hold] at hlt
        simp only [State.signalled, if_true]
        omega
      sentinel := by
        intro l slot
        simp only [State.signalled, if_true]
        by_cases hnew : l = r.layer ∧ slot = r.slot
        · obtain ⟨rfl, rfl⟩ := hnew
          exact Or.inr ⟨s.round0, r, Nat.lt_succ_self _, hr, rfl, by simp⟩
        · have hsame : Function.update s.sentinel r.layer
              (Function.update (s.sentinel r.layer) r.slot r.signal) l slot =
                s.sentinel l slot := by
            by_cases hl : l = r.layer
            · subst hl
              have hslot : slot ≠ r.slot := fun h => hnew ⟨rfl, h⟩
              simp [hslot]
            · simp [hl]
          rw [hsame]
          rcases hinv.sentinel l slot with h0 | ⟨n, r', hlt, hrest⟩
          · exact Or.inl h0
          · exact Or.inr ⟨n, r', by omega, hrest⟩
      staged_last := fun h => by rcases h with h | h <;> cases h
      staged_now := fun r' buf hr' _ => hinv.staged_now r' buf hr' (by rw [hgpu]; trivial) }

lemma Inv.ack0 (hinv : Inv s) (hgpu : s.gpu0 = .acking) :
    Inv { s with round0 := s.round0 + 1, gpu0 := .idle } := by
  have hsig : State.signalled { s with round0 := s.round0 + 1, gpu0 := .idle } =
      s.signalled := by
    simp [State.signalled, hgpu]
  have hbusy : s.round0 < s.fired0 := hinv.busy0 (by rw [hgpu]; nofun)
  exact
    { fired0_le := hinv.fired0_le
      fired0_eq := hinv.fired0_eq
      round0_ge := Nat.le_succ_of_le hinv.round0_ge
      round0_le := hbusy
      busy0 := fun h => absurd rfl h
      fired_le := hinv.fired_le
      acked_ge := hinv.acked_ge
      acked_eq := hinv.acked_eq
      barrier := hinv.barrier
      fired := hinv.fired
      awaited := by
        rw [hsig]
        exact hinv.awaited
      sentinel := by
        rw [hsig]
        exact hinv.sentinel
      staged_last := by
        intro _ n r hn hr buf
        obtain rfl : n = s.round0 := Nat.succ.inj hn
        exact hinv.staged_now r buf hr (by rw [hgpu]; trivial)
      staged_now := fun _ _ _ h => h.elim }

/-- **What one step preserves.** -/
theorem Inv.step (hsu : su.NoWrap) (hinv : Inv s) (hstep : Step s a t) : Inv t := by
  cases hstep with
  | fire0 hnext _ => exact hinv.fire0 hnext
  | fire w _ => exact hinv.fire w
  | collect _ hack0 hack => exact hinv.collect hack0 hack
  | start0 hidle hfired => exact hinv.start0 hidle hfired
  | beginCopy b hgpu _ => exact hinv.beginCopy hgpu
  | endCopy b hgpu hr => exact hinv.endCopy hgpu hr
  | signal hgpu hr => exact hinv.signal hgpu hr
  | ack0 hgpu => exact hinv.ack0 hgpu
  | startRead w b hphase hfired hr hsig =>
      refine hinv.setBlock s.acked ?_ (fun _ => hfired)
        (fun _ => hinv.signalled_of_sentinel hsu hr hsig) hinv.acked_ge
        (hinv.acked_setBlock rfl)
      rw [barrier_setBlock_same (by simp [Block.arrivals, hphase]) (by simp [hphase])]
      exact hinv.barrier w
  | arrive w b hphase =>
      have hne : (s.block w b).phase ≠ .waiting := by rw [hphase]; nofun
      refine hinv.setBlock s.acked ?_ (fun _ => hinv.fired w b hne)
        (fun _ => hinv.awaited w b hne) hinv.acked_ge (hinv.acked_setBlock rfl)
      rw [barrier_arrive hphase]
      exact (hinv.barrier w).arrive (by simp [State.barrier, hphase])
  | leave w b hphase hopen =>
      have hne : (s.block w b).phase ≠ .waiting := by rw [hphase]; nofun
      refine hinv.setBlock s.acked ?_ (fun _ => hinv.fired w b hne)
        (fun _ => hinv.awaited w b hne) hinv.acked_ge (hinv.acked_setBlock rfl)
      rw [barrier_leave hphase]
      exact (hinv.barrier w).pass hopen
  | finish w b hphase =>
      refine hinv.setBlock _ ?_ (fun h => absurd rfl h) (fun h => absurd rfl h) ?_ ?_
      · rw [barrier_setBlock_same (by simp [Block.arrivals, hphase]) (by simp [hphase])]
        exact hinv.barrier w
      · intro w'
        have hge := hinv.acked_ge w'
        have heq := hinv.acked_eq w'
        split_ifs with hb
        · by_cases hw : w' = w
          · subst hw
            rw [Function.update_self, hb]
            omega
          · rwa [Function.update_of_ne hw]
        · exact hge
      · intro w'
        by_cases hw : w' = w
        · subst hw
          split_ifs with hb
          · rw [Function.update_self, ← hb, block_setBlock_self]
          · rw [block_setBlock_of_ne fun h => hb (eq_of_heq (Sigma.mk.inj h).2).symm,
              hinv.acked_eq]
        · rw [block_setBlock_of_ne fun h => hw (Sigma.mk.inj h).1, ← hinv.acked_eq]
          split_ifs
          · rw [Function.update_of_ne hw]
          · rfl

end Steps

/-! ### Safety over runs -/

/-- A block has left the last barriers of the rounds before its own. -/
lemma Block.round_le_passed (b : Block) :
    b.round ≤ b.arrivals - (b.phase == .arrived).toNat := by
  obtain ⟨round, phase⟩ := b
  cases phase with
  | waiting => exact Nat.le_refl round
  | reading => exact Nat.le_refl round
  | arrived => exact Nat.le_refl round
  | behind => exact Nat.le_succ round

/-- Every operator of the run ends its staged loads in front of a grid barrier.  One block is no
way out: behind the barrier its other waves load on while thread 0 acknowledges. -/
def Setup.ReadsGuarded (su : Setup) : Prop :=
  ∀ r ∈ su.rounds, ∀ w, su.readsBehind w r = false

/-- A block that reads is in the host's round, and its worker has not acknowledged it. -/
lemma Inv.round_of_reads {s : State su} (hinv : Inv s) (hsu : su.ReadsGuarded)
    {w : Fin su.numWorkers} {b : Fin (su.numBlocks w)} {n : ℕ} {r : Round}
    (hreads : s.Reads w b n r) : n = s.round := by
  obtain ⟨rfl, hr, hphase⟩ := hreads
  have hne : (s.block w b).phase ≠ .waiting := by
    rcases hphase with h | ⟨h, -⟩ <;> rw [h] <;> nofun
  have hfired := hinv.fired w b hne
  have hle := hinv.fired_le w
  have hge := hinv.acked_ge w
  have hacked := hinv.acked_eq w
  have hround : (s.block w (su.block0 w)).round ≤ (s.block w b).round := by
    rcases hphase with h | ⟨h, hbehind⟩
    · -- block 0 has not left the barrier the reader has not arrived at
      have hok := hinv.barrier w (su.block0 w) b
      have harr : (s.barrier w).arrived b = (s.block w b).round := by
        simp [State.barrier, Block.arrivals, h]
      have hpassed : (s.block w (su.block0 w)).round ≤ (s.barrier w).passed (su.block0 w) := by
        exact Block.round_le_passed _
      omega
    · -- nobody reads behind the barrier
      rw [hsu r (List.mem_of_getElem? hr) w] at hbehind
      cases hbehind
  omega

/-- The invariant gives safety. -/
lemma Inv.safe {s : State su} (hinv : Inv s) (hsu : su.ReadsGuarded) : s.Safe := by
  intro w b n r hreads buf
  have hround := hinv.round_of_reads hsu hreads
  obtain ⟨hn, hr, hphase⟩ := hreads
  have hne : (s.block w b).phase ≠ .waiting := by
    rcases hphase with h | ⟨h, -⟩ <;> rw [h] <;> nofun
  have hawait := hinv.awaited w b hne
  have hfired0 := hinv.fired0_le
  have hle0 := hinv.round0_le
  have hge0 := hinv.round0_ge
  rw [State.signalled] at hawait
  by_cases hack : s.gpu0 = .acking
  · -- GPU 0 is still in this round, behind its copies
    have hbusy := hinv.busy0 (by rw [hack]; nofun)
    obtain rfl : n = s.round0 := by omega
    exact hinv.staged_now r buf hr (by rw [hack]; trivial)
  · -- GPU 0 has acknowledged this round and the next one is not fired
    rw [if_neg hack] at hawait
    have hidle : s.gpu0 = .idle := by
      by_contra hbusy
      have := hinv.busy0 hbusy
      omega
    exact hinv.staged_last (Or.inl hidle) n r (by omega) hr buf

/-- **The activation hand-off.**  In every run of decode steps none of whose `seq` wraps to zero
and all of whose operators end their staged loads in front of a grid barrier, every block that
reads finds the complete copies of its own round, in every state reached. -/
theorem staged_while_reading (hwrap : su.NoWrap) (hguard : su.ReadsGuarded) {moves : List (Move su)}
    {s : State su} (hrun : Run Step (init su) moves s) : s.Safe := by
  have hinv : Inv s := hrun.invariant (fun _ _ _ hinv hstep => hinv.step hwrap hstep) Inv.init
  exact hinv.safe hguard

/-- Two GPUs: a worker with two blocks that holds all experts, and one step over two layers. -/
def oneWorker : Setup where
  numWorkers := 1
  numBlocks := fun _ => 2
  numBlocks_pos := by decide
  holds := fun _ _ _ => true
  layers := [0, 1]
  layers_nodup := by decide
  positions := [0]
  positions_lt := by decide
  positions_u32 := by decide
  route := fun _ l => [l, 4]

/-- The second block of the worker finds the copies of its round, while the first block is already
at the barrier. -/
theorem staged_while_reading_local : ∃ moves s, Run Step (init oneWorker) moves s ∧
    s.Reads (0 : Fin 1) (1 : Fin 2) 0 ⟨0, 0, [0, 4]⟩ ∧
      ∀ buf, s.staged buf (Round.slot ⟨0, 0, [0, 4]⟩) = some 0 := by
  have hnil : Run Step (init oneWorker) [] (init oneWorker) := .nil
  have hfire := ((hnil.snoc (.fire0 rfl (by decide))).snoc (.fire (0 : Fin 1) rfl)).snoc
    (.start0 rfl (by decide))
  have hact := (hfire.snoc (.beginCopy .activation rfl rfl)).snoc (.endCopy .activation rfl rfl)
  have hids := (hact.snoc (.beginCopy .ids rfl rfl)).snoc (.endCopy .ids rfl rfl)
  have hweights := (hids.snoc (.beginCopy .weights rfl rfl)).snoc (.endCopy .weights rfl rfl)
  have hread0 := ((hweights.snoc (.signal rfl rfl)).snoc
    (.startRead (0 : Fin 1) (0 : Fin 2) rfl (by decide) rfl rfl)).snoc
    (.arrive (0 : Fin 1) (0 : Fin 2) rfl)
  have hread := hread0.snoc (.startRead (0 : Fin 1) (1 : Fin 2) rfl (by decide) rfl rfl)
  have hwrap : oneWorker.NoWrap := by
    intro p hp
    rw [List.mem_singleton.mp hp]
    decide
  have hguard : oneWorker.ReadsGuarded := by
    intro r hr
    revert r
    decide
  refine ⟨_, _, hread, ⟨rfl, rfl, Or.inl rfl⟩, fun buf => ?_⟩
  exact staged_while_reading hwrap hguard hread (0 : Fin 1) (1 : Fin 2) 0 _ ⟨rfl, rfl, Or.inl rfl⟩
    buf

/-- Two workers with two and one blocks and one step over two layers.  The experts go round robin
over the workers, and the gate selects expert 1. -/
def twoWorkers : Setup where
  numWorkers := 2
  numBlocks := fun w => 2 - w
  numBlocks_pos := by decide
  holds := fun _ w e => e % 2 == w
  layers := [0, 1]
  layers_nodup := by decide
  positions := [0]
  positions_lt := by decide
  positions_u32 := by decide
  route := fun _ _ => [1]

/-- Worker 0 does not hold expert 1.  Its block 0 acknowledges the first layer while block 1 is
still to load the expert id, and GPU 0 has already staged the ids of the second layer. -/
theorem overwritten_while_reading : ∃ moves s, Run Step (init twoWorkers) moves s ∧
    s.Reads (0 : Fin 2) (1 : Fin 2) 0 ⟨0, 0, [1]⟩ ∧
      s.staged .ids (Round.slot ⟨0, 0, [1]⟩) = some 1 ∧ ¬ s.Safe := by
  have hnil : Run Step (init twoWorkers) [] (init twoWorkers) := .nil
  -- the first layer is staged and signalled
  have hfire := ((hnil.snoc (.fire0 rfl (by decide))).snoc (.fire (0 : Fin 2) rfl)).snoc
    (.fire (1 : Fin 2) rfl)
  have hact := ((hfire.snoc (.start0 rfl (by decide))).snoc (.beginCopy .activation rfl rfl)).snoc
    (.endCopy .activation rfl rfl)
  have hids := (hact.snoc (.beginCopy .ids rfl rfl)).snoc (.endCopy .ids rfl rfl)
  have hweights := (hids.snoc (.beginCopy .weights rfl rfl)).snoc (.endCopy .weights rfl rfl)
  have hack0 := (hweights.snoc (.signal rfl rfl)).snoc (.ack0 rfl)
  -- both blocks of worker 0 leave the last barrier; only block 0 ends
  have hread0 := (hack0.snoc (.startRead (0 : Fin 2) (0 : Fin 2) rfl (by decide) rfl rfl)).snoc
    (.arrive (0 : Fin 2) (0 : Fin 2) rfl)
  have hread1 := (hread0.snoc (.startRead (0 : Fin 2) (1 : Fin 2) rfl (by decide) rfl rfl)).snoc
    (.arrive (0 : Fin 2) (1 : Fin 2) rfl)
  have hleave := (hread1.snoc (.leave (0 : Fin 2) (0 : Fin 2) rfl (by
    intro j
    revert j
    decide))).snoc (.leave (0 : Fin 2) (1 : Fin 2) rfl (by
      intro j
      revert j
      decide))
  have hworker0 := hleave.snoc (.finish (0 : Fin 2) (0 : Fin 2) rfl)
  have hread := (hworker0.snoc (.startRead (1 : Fin 2) (0 : Fin 1) rfl (by decide) rfl rfl)).snoc
    (.arrive (1 : Fin 2) (0 : Fin 1) rfl)
  have hworker1 := (hread.snoc (.leave (1 : Fin 2) (0 : Fin 1) rfl (by
    intro j
    revert j
    decide))).snoc (.finish (1 : Fin 2) (0 : Fin 1) rfl)
  -- the host goes on to the second layer
  have hcollect := hworker1.snoc (.collect rfl rfl (by decide))
  have hfire' := (hcollect.snoc (.fire0 rfl (by decide))).snoc (.start0 rfl (by decide))
  have hact' := (hfire'.snoc (.beginCopy .activation rfl rfl)).snoc (.endCopy .activation rfl rfl)
  have hids' := (hact'.snoc (.beginCopy .ids rfl rfl)).snoc (.endCopy .ids rfl rfl)
  refine ⟨_, _, hids', ⟨rfl, rfl, Or.inr ⟨rfl, rfl⟩⟩, rfl, fun hsafe => ?_⟩
  have hstale := hsafe (0 : Fin 2) (1 : Fin 2) 0 ⟨0, 0, [1]⟩ ⟨rfl, rfl, Or.inr ⟨rfl, rfl⟩⟩ .ids
  exact absurd (Option.some.inj hstale) (by decide)

end ActHandoff

end Braidinfer.Moe
