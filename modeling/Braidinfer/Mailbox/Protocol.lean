/-
The mailbox between the host and the persistent workers (`persistent_dispatch.rs`,
`kernels/worker_queue.h`, `kernels/rdna3/rdna3_persistent_protocol.h` and `persistent_worker` in
`kernels/megakernel.hip`).

Each GPU has one `WorkerQueue` in host-mapped memory, which holds one batch.  The host writes
the instruction words one by one, then `num_instructions`, `pc_base` and last `seq_num`; it
waits by polling `ack`.  Block 0 of the worker polls `seq_num`, all blocks meet at the grid
barrier, and only then does every block read the words of the batch, one load at a time.
Every load and every store of a shared word is a step of its own, so `step` allows every
interleaving of the host with the blocks of all GPUs.

A poll that fails changes nothing and is no step.  Shutdown, the watchdog and the host's time
limits are left out; the in-band `OP_HALT` is modelled.  The fields `fired` and `log` record
what happened and are read by nobody.
-/
import Mathlib.Tactic.Common
import Mathlib.Data.Fintype.Basic
import Mathlib.Data.List.Basic
import Braidinfer.Lib.Run
import Braidinfer.Lib.Barrier

namespace Braidinfer.Mailbox

open Braidinfer.Lib

/-- `INST_SIZE`, the number of 64-bit words of an instruction. -/
def instSize : ℕ := 19

/-- `MAX_BATCH_INSTRUCTIONS`, the capacity of the mailbox. -/
def maxBatchInstructions : ℕ := 256

/-- `OP_HALT`. -/
def opHalt : ℕ := 16

/-- An instruction as the mailbox carries it. -/
structure Instruction where
  words : Fin instSize → UInt64

namespace Instruction

/-- `inst_opcode`: the low half of the first word. -/
def opcode (i : Instruction) : ℕ := (i.words ⟨0, by decide⟩).toNat % 2 ^ 32

/-- The instruction with the given first word, all other words being zero. -/
def ofOpcode (op : UInt64) : Instruction := ⟨fun j => if j.val = 0 then op else 0⟩

end Instruction

/-- What one call of `dispatch_batch_with_base` or `dispatch_batch_fire` puts into the
mailbox. -/
structure Batch where
  insts : List Instruction
  pcBase : ℕ

namespace Batch

/-- Word `k` of the instruction buffer. -/
def word (b : Batch) (k : ℕ) : UInt64 :=
  match b.insts[k / instSize]? with
  | some i => i.words ⟨k % instSize, Nat.mod_lt _ (by decide)⟩
  | none => 0

/-- The number of instruction words. -/
def numWords (b : Batch) : ℕ := b.insts.length * instSize

/-- What a block executes for the batch: each instruction with its index `pc + pc_base`,
computed in 32 bits. -/
def entries (b : Batch) : List (Instruction × ℕ) :=
  b.insts.mapIdx fun pc i => (i, (pc + b.pcBase) % 2 ^ 32)

/-- A batch that runs to its acknowledgement: it has an instruction, it fits the mailbox, and
none of its instructions ends the worker. -/
structure Proper (b : Batch) : Prop where
  nonempty : b.insts ≠ []
  length_le : b.insts.length ≤ maxBatchInstructions
  no_halt : ∀ i ∈ b.insts, i.opcode ≠ opHalt

end Batch

/-- The words of `WorkerQueue` that the protocol uses. -/
structure WorkerQueue where
  seqNum : ℕ
  numInstructions : ℕ
  inst : ℕ → UInt64
  ack : ℕ
  pcBase : ℕ

/-! ### The worker -/

/-- Where a block stands in the outer loop of `persistent_worker`. -/
inductive Phase
  /-- At the top of the loop; block 0 polls `seq_num`. -/
  | poll
  /-- Arrived at the grid barrier of `persistent_iter_poll_barrier`. -/
  | pollBarrier
  | readSeq
  | readNum (seq : ℕ)
  | readBase (seq num : ℕ)
  /-- Copying instruction `pc` to `sinst`. -/
  | load (seq num base pc : ℕ) (sinst : Fin instSize → Option UInt64)
  /-- Arrived at the barrier that ends `dispatch_opcode` for instruction `pc`. -/
  | opBarrier (seq num base pc : ℕ)
  /-- Past the instruction loop, about to call `persistent_iter_ack`. -/
  | writeAck (seq : ℕ)
  /-- Arrived at the barrier before the return on `OP_HALT`. -/
  | haltBarrier
  | returned

/-- Whether the block stands at a grid barrier. -/
def Phase.waiting : Phase → Bool
  | .pollBarrier | .opBarrier .. | .haltBarrier => true
  | _ => false

/-- The batch header a block works under: sequence number, length and index base. -/
def Phase.header? : Phase → Option (ℕ × ℕ × ℕ)
  | .load seq num base .. | .opBarrier seq num base _ => some (seq, num, base)
  | _ => none

/-- A block: its phase, its `last_seq`, and what it has executed. -/
structure Block where
  phase : Phase
  lastSeq : ℕ
  log : List (Instruction × ℕ)

/-- One GPU with `n + 1` blocks: the mailbox, the host's `seq_counter` for it, the batches fired
so far, the grid barrier `g_gbs` and the blocks. -/
structure Worker (n : ℕ) where
  queue : WorkerQueue
  seqCounter : ℕ
  fired : List Batch
  gbs : Barrier (Fin (n + 1))
  blocks : Fin (n + 1) → Block

/-- The instruction in shared memory, once all its words are there. -/
def loaded (sinst : Fin instSize → Option UInt64) : Option Instruction :=
  if h : ∀ j, (sinst j).isSome then some ⟨fun j => (sinst j).get (h j)⟩ else none

/-- The head of the instruction loop: `pc < num_inst`. -/
def loopHead (seq num base pc : ℕ) : Phase :=
  if pc < num then .load seq num base pc (fun _ => none) else .writeAck seq

namespace Worker

variable {n : ℕ}

/-- The worker after the launch of the kernel, before any batch. -/
def init : Worker n where
  queue := ⟨0, 0, fun _ => 0, 0, 0⟩
  seqCounter := 0
  fired := []
  gbs := Barrier.init
  blocks := fun _ => ⟨.poll, 0, []⟩

/-- Block `b` replaced. -/
def setBlock (w : Worker n) (b : Fin (n + 1)) (blk : Block) : Worker n :=
  { w with blocks := Function.update w.blocks b blk }

/-- Block `b` goes on to phase `p`. -/
def goto (w : Worker n) (b : Fin (n + 1)) (p : Phase) : Worker n :=
  w.setBlock b { w.blocks b with phase := p }

/-- Block `b` arrives at the grid barrier. -/
def arrive (w : Worker n) (b : Fin (n + 1)) : Worker n :=
  { w with gbs := w.gbs.arrive b }

/-- Block `b` leaves the grid barrier for phase `p`, if everybody has arrived. -/
def leave (w : Worker n) (b : Fin (n + 1)) (p : Phase) : Option (Worker n) :=
  if w.gbs.Opens b then some ({ w with gbs := w.gbs.pass b }.goto b p) else none

/-- Block `b` executes instruction `inst` at index `pc + pc_base` and arrives at the barrier
that ends it. -/
def execute (w : Worker n) (b : Fin (n + 1)) (seq num base pc : ℕ) (inst : Instruction) :
    Worker n :=
  (w.arrive b).setBlock b
    { w.blocks b with
      phase := .opBarrier seq num base pc
      log := (w.blocks b).log ++ [(inst, (pc + base) % 2 ^ 32)] }

/-- Block `b` ends its batch; block 0 also writes `ack`. -/
def finish (w : Worker n) (b : Fin (n + 1)) (seq : ℕ) : Worker n :=
  { w with queue.ack := if b = 0 then seq else w.queue.ack }.setBlock b
    { w.blocks b with
      phase := .poll
      lastSeq := seq }

/-- One step of block `b` of the worker; while an instruction is copied, `j` is the word
loaded. -/
def blockStep (w : Worker n) (b : Fin (n + 1)) (j : Fin instSize) : Option (Worker n) :=
  match (w.blocks b).phase with
  | .poll =>
      if b = 0 ∧ w.queue.seqNum ≤ (w.blocks b).lastSeq then none
      else some ((w.arrive b).goto b .pollBarrier)
  | .pollBarrier => w.leave b .readSeq
  | .readSeq => some (w.goto b (.readNum w.queue.seqNum))
  | .readNum seq =>
      -- a batch of length 0 is taken for one of length 1 (backward compat)
      let num := if w.queue.numInstructions = 0 then 1 else w.queue.numInstructions
      some (w.goto b (.readBase seq num))
  | .readBase seq num => some (w.goto b (loopHead seq num w.queue.pcBase 0))
  | .load seq num base pc sinst =>
      match loaded sinst with
      | some inst =>
          if inst.opcode = opHalt then some ((w.arrive b).goto b .haltBarrier)
          else some (w.execute b seq num base pc inst)
      | none =>
          if (sinst j).isSome then none
          else
            let x := w.queue.inst (pc * instSize + j)
            some (w.goto b (.load seq num base pc (Function.update sinst j (some x))))
  | .opBarrier seq num base pc => w.leave b (loopHead seq num base (pc + 1))
  | .writeAck seq => some (w.finish b seq)
  | .haltBarrier => w.leave b .returned
  | .returned => none

/-- The host's store number `k` of a batch, before the store of `seq_num`. -/
def store (w : Worker n) (batch : Batch) (k : ℕ) : Worker n :=
  if k < batch.numWords then
    { w with queue.inst := Function.update w.queue.inst k (batch.word k) }
  else if k = batch.numWords then
    { w with queue.numInstructions := batch.insts.length }
  else
    { w with queue.pcBase := batch.pcBase }

end Worker

/-- The next sequence number: `0` is the initial `ack` and `0xFFFFFFFF` is reserved for
shutdown. -/
def nextSeq (seqCounter : ℕ) : ℕ :=
  let s := (seqCounter + 1) % 2 ^ 32
  if s = 0 ∨ s = 2 ^ 32 - 1 then 1 else s

namespace Worker

variable {n : ℕ}

/-- The host's store of `seq_num`, which ends the firing of a batch. -/
def trigger (w : Worker n) (batch : Batch) : Worker n :=
  { w with
    seqCounter := nextSeq w.seqCounter
    queue.seqNum := nextSeq w.seqCounter
    fired := w.fired ++ [batch] }

end Worker

/-! ### The host -/

/-- What the host does, in order.  `wait` is `try_wait_acks_many`, or `try_wait_ack` for one
target: it waits on each GPU for the sequence number that the last `dispatch_batch_fire` to
this GPU has returned. -/
inductive HostOp (G : ℕ)
  | fire (g : Fin G) (batch : Batch)
  | wait (targets : List (Fin G))

/-- The host with its remaining operations, the number of stores of the current fire it has
made, and the GPUs; GPU `g` has `N g + 1` blocks. -/
structure Machine {G : ℕ} (N : Fin G → ℕ) where
  ops : List (HostOp G)
  stores : ℕ
  workers : (g : Fin G) → Worker (N g)

/-- Who steps: the host (which polls the `ack` of `target` when it waits), or a block. -/
inductive Act {G : ℕ} (N : Fin G → ℕ)
  | host (target : Fin G)
  | block (g : Fin G) (b : Fin (N g + 1)) (j : Fin instSize)

namespace Machine

variable {G : ℕ} {N : Fin G → ℕ}

/-- The machine before the host runs `ops`. -/
def init (ops : List (HostOp G)) : Machine N := ⟨ops, 0, fun _ => .init⟩

/-- The workers, with worker `g` replaced. -/
def setWorker (s : Machine N) (g : Fin G) (w : Worker (N g)) : (g : Fin G) → Worker (N g) :=
  Function.update s.workers g w

/-- One step of the host.  A fire of more instructions than the mailbox holds fails its
assertion. -/
def hostStep (s : Machine N) (target : Fin G) : Option (Machine N) :=
  match s.ops with
  | [] => none
  | .fire g batch :: rest =>
      let w := s.workers g
      if maxBatchInstructions < batch.insts.length then none
      else if s.stores < batch.numWords + 2 then
        some ⟨s.ops, s.stores + 1, s.setWorker g (w.store batch s.stores)⟩
      else some ⟨rest, 0, s.setWorker g (w.trigger batch)⟩
  | .wait [] :: rest => some ⟨rest, 0, s.workers⟩
  | .wait targets :: rest =>
      let w := s.workers target
      if target ∈ targets ∧ w.queue.ack = w.seqCounter then
        some ⟨.wait (targets.erase target) :: rest, 0, s.workers⟩
      else none

/-- One step of the machine. -/
def step (s : Machine N) : Act N → Option (Machine N)
  | .host target => s.hostStep target
  | .block g b j =>
      ((s.workers g).blockStep b j).map fun w => ⟨s.ops, s.stores, s.setWorker g w⟩

/-- The step relation. -/
def Step (s : Machine N) (a : Act N) (t : Machine N) : Prop := s.step a = some t

/-- The machine can reach `t` from `s`. -/
abbrev Reach (s t : Machine N) : Prop := ∃ as, Run Step s as t

end Machine

end Braidinfer.Mailbox
