/-
Trace dumps (`set_trace_dump_ptrs` and `drain_trace_dump` in `persistent_dispatch.rs`,
`enable_dump_persistent` in `megakernel/mod.rs`, `dump_instruction_output` in `kernels/dump.h`, and
the callers in `model/state.rs` and `model/decode/mod.rs`), with tracing enabled.

A program that enables its dump gets a dump buffer and a counter of its own, and its pointers are
written into the worker's queue.  The worker dumps the output of every dump-eligible instruction to
the next slot of the buffer the queue points to, whichever program the instruction belongs to; the
slot records the instruction's index in its dispatch.  After a dispatch the host drains the buffer
of the program and stores every slot whose index has a probe under the probe's name.

Prefill compiles a program a chunk, or a span of layers, and drops it after its dispatch; that of a
layer with experts stays alive until their FFN, and the final norm behind the last layer, are
through.  The decode program is compiled once.  Each writes the queue's pointers only when it
enables its own dump.

The payload of a slot is what the instruction had left in its output; here it is represented by the
dispatch, the place in it and the instruction.

* `State.step`: what a dispatch of the driver does;
* `State.Attributed`: dumps go to live buffers, and payloads are stored under their own probe;
* `History`: who wrote the queue's pointers last, and what is left in the decode program's buffer;
* `attributed_of_run`: **dumps are attributed to the program that ran**, over all runs in which no
  dispatch relies on the pointers of a dropped program and the decode program finds its buffer
  wired and empty;
* `not_attributed_second_prompt`: a second prompt, after which the decode program dumps to a
  dropped buffer and stores the embedding of the prompt as its own.
-/
import Mathlib.Data.List.Basic
import Mathlib.Data.Int.Init
import Braidinfer.Lib.Run
import Braidinfer.Mailbox.Slices

namespace Braidinfer.Engine.TraceDump

open Braidinfer.Lib Braidinfer.Mailbox

/-! ### `dump_instruction_output` -/

/-- `DUMP_MAX_FLOATS` -/
def dumpMaxFloats : ℕ := 8192

/-- Word `k` of an instruction. -/
def field (i : Instruction) (k : ℕ) : UInt64 := if h : k < instSize then i.words ⟨k, h⟩ else 0

/-- `(int) word` -/
def int (w : UInt64) : ℤ := (w.toNat : ℤ).bmod (2 ^ 32)

/-- `if (batch <= 0) batch = 1;` -/
def batchOf (w : UInt64) : ℤ := if int w ≤ 0 then 1 else int w

/-- The `switch` over the opcode: the output pointer and the size, for the dump-eligible ones. -/
def dumpOutput (i : Instruction) : Option (UInt64 × ℤ) :=
  match i.opcode with
  -- OP_RMSNORM, OP_RMSNORM_WX
  | 1 | 27 => some (field i 1, int (field i 4))
  -- OP_LINEAR_PROJ, OP_LINEAR_PROJ_RNF4, OP_LINEAR_PROJ_PCG32
  | 2 | 25 | 26 => some (field i 1, int (field i 4))
  -- OP_LINEAR_PROJ_2X
  | 43 => some (field i 1, int (field i 6) * 2)
  -- OP_RMSNORM_GATE
  | 6 => some (field i 1, int (field i 5) * int (field i 6))
  -- OP_RESIDUAL_ADD, OP_SCALE_ADD, OP_SILU_MUL, OP_EMBEDDING
  | 7 | 36 | 28 | 14 => some (field i 1, int (field i 4))
  -- OP_FFN_GATE_UP, OP_FFN_GATE_UP_WX, OP_FFN_GATE_UP_RNF4, OP_FFN_GATE_UP_RNF4_WX
  | 12 | 41 | 30 | 42 => some (field i 1, int (field i 7))
  -- OP_FFN_DOWN_RES, OP_FFN_DOWN_RES_RNF4
  | 13 | 31 => some (field i 1, int (field i 5))
  -- OP_GQA_ATTN
  | 10 => some (field i 1, int (field i 5) * int (field i 7))
  -- OP_ATTN_PAGED
  | 18 => some (field i 1, int (field i 6) * int (field i 8))
  -- OP_GDN_GATE
  | 4 => some (field i 1, int (field i 5))
  -- OP_QK_NORM
  | 8 => some (field i 1, batchOf (field i 9) * int (field i 5) * int (field i 7))
  -- OP_MROPE
  | 9 => some (field i 1, batchOf (field i 12) * int (field i 5) * int (field i 7))
  -- OP_DEINTERLEAVE
  | 20 => some (field i 1, batchOf (field i 6) * int (field i 4) * int (field i 5))
  -- OP_OUTPUT_GATE
  | 11 => some (field i 1, int (field i 4))
  -- OP_MOE_GATE
  | 23 => some (field i 3, int (field i 5))
  -- OP_MOE_FFN
  | 24 => some (field i 4, ((field i 10).toNat % 2 ^ 16 : ℕ))
  | _ => none

/-- The number of floats dumped; nothing is dumped for `0`. -/
def dumpSize (i : Instruction) : ℕ :=
  match dumpOutput i with
  | some (output, size) => if size ≤ 0 ∨ output = 0 then 0 else min size.toNat dumpMaxFloats
  | none => 0

/-! ### Programs and buffers -/

/-- The probes that the compilers put into `trace_probe_map`. -/
inductive Probe
  | embed
  | postMixer (layer : ℕ)
  | postFfn (layer : ℕ)
  | finalNorm
deriving DecidableEq, Repr

/-- `Probe::name` -/
def Probe.name : Probe → String
  | .embed => "embed"
  | .postMixer layer => "L" ++ toString layer ++ ".post_mixer"
  | .postFfn layer => "L" ++ toString layer ++ ".post_ffn"
  | .finalNorm => "final_norm"

/-- The fields of `MegakernelProgram` that tracing uses.  The compilers mark instructions they have
pushed. -/
structure Program where
  instructions : List Instruction
  traceProbeMap : List (ℕ × Probe)
  /-- `instructions.len() as i32` -/
  length_lt : instructions.length < 2 ^ 31
  marked_lt : ∀ e ∈ traceProbeMap, e.1 < instructions.length

/-- What is dispatched of a program: everything before the first `OP_HALT`. -/
def Program.sent (p : Program) : List Instruction :=
  p.instructions.takeWhile fun i => i.opcode ≠ opHalt

/-- `max_slots` -/
def Program.maxSlots (p : Program) : ℕ := min p.instructions.length 4096

/-- `dump_buffer`, `dump_counter` and `dump_capacity` of a program, the first two by their
allocation. -/
structure Dump where
  base : ℕ
  counter : ℕ
  capacity : ℕ
deriving DecidableEq, Repr

/-- How far `enable_dump_persistent` came on a program. -/
inductive Enabled
  | off
  /-- the buffer is allocated and the counter is not -/
  | bufferOnly
  | full (d : Dump)
deriving DecidableEq, Repr

/-- `dump_active` -/
def Enabled.active : Enabled → Bool
  | .off => false
  | .bufferOnly | .full _ => true

/-- The outcome of the two allocations of `enable_dump_persistent`. -/
inductive Alloc
  | ok
  | noBuffer
  | noCounter
deriving DecidableEq, Repr

/-- What an instruction has left in its output: its dispatch, its place in the dispatch, and the
instruction. -/
structure Payload where
  dispatch : ℕ
  place : ℕ
  inst : Instruction

/-- A slot of a dump buffer. -/
structure Slot where
  opcode : ℕ
  instIdx : ℕ
  size : ℕ
  payload : Payload

/-- An executed instruction: the queue's pointers and the dumps of the programs alive then. -/
structure Executed where
  queue : Option Dump
  live : List Dump
deriving DecidableEq, Repr

/-- A payload stored by `drain_trace_dump`: the program drained, the dispatch completed last, and
the probe. -/
structure Stored where
  program : Program
  dispatch : ℕ
  probe : Probe
  payload : Payload

/-- The tracing state of GPU 0's worker and of its programs. -/
structure State where
  /-- `dump_base`, `dump_count` and `dump_capacity` of the queue -/
  queue : Option Dump
  /-- the dumps of the programs that are alive -/
  live : List Dump
  /-- the dump of the decode program -/
  decode : Enabled
  /-- the slots, by allocation -/
  slots : ℕ → ℕ → Option Slot
  /-- the counters, by allocation -/
  count : ℕ → ℕ
  /-- allocations made so far -/
  fresh : ℕ
  dispatches : ℕ
  executed : List Executed
  stored : List Stored

/-- The queue's pointers are null and no program has a dump. -/
def State.init : State where
  queue := none
  live := []
  decode := .off
  slots := fun _ _ => none
  count := fun _ => 0
  fresh := 0
  dispatches := 0
  executed := []
  stored := []

/-! ### The operations -/

/-- `dump_instruction_output` for the instruction at a place of a dispatch. -/
def State.dump (s : State) (dispatch place : ℕ) (inst : Instruction) (pc : ℕ) : State :=
  match s.queue with
  | none => s
  | some d =>
      if dumpSize inst = 0 then s
      else
        -- `atomicAdd(dump_count, 1)`
        let slot := s.count d.counter
        let s := { s with count := Function.update s.count d.counter (slot + 1) }
        if d.capacity ≤ slot then s
        else { s with
          slots := Function.update s.slots d.base (Function.update (s.slots d.base) slot
            (some ⟨inst.opcode, pc, dumpSize inst, ⟨dispatch, place, inst⟩⟩)) }

/-- The worker executes an instruction. -/
def State.execute (s : State) (dispatch place : ℕ) (entry : Instruction × ℕ) : State :=
  let s : State := { s with executed := s.executed ++ [⟨s.queue, s.live⟩] }
  s.dump dispatch place entry.1 entry.2

/-- The host dispatches batches and the worker executes them. -/
def State.dispatch (s : State) (batches : List Batch) : State :=
  let n := s.dispatches + 1
  let s := (batches.flatMap Batch.entries).zipIdx.foldl (fun s e => s.execute n e.2 e.1) s
  { s with dispatches := n }

/-- `enable_dump_persistent` -/
def State.enable (s : State) (maxSlots : ℕ) : Alloc → State × Enabled
  | .ok =>
      let d : Dump := ⟨s.fresh, s.fresh + 1, maxSlots⟩
      ({ s with
        fresh := s.fresh + 2
        live := d :: s.live
        count := Function.update s.count d.counter 0 }, .full d)
  | .noBuffer => (s, .off)
  | .noCounter => ({ s with fresh := s.fresh + 1 }, .bufferOnly)

/-- `set_trace_dump_ptrs`, which is called when the dump was enabled. -/
def State.setTraceDumpPtrs (s : State) : Enabled → State
  | .full d => { s with queue := some d }
  | .off | .bufferOnly => s

variable (accepts : String → Bool)

/-- What is stored for a slot: the first probe of its index, if the filter lets it through. -/
def storedAt (p : Program) (dispatch : ℕ) (slot : Slot) : Option Stored :=
  if slot.size = 0 then none
  else (p.traceProbeMap.find? fun e => e.1 % 2 ^ 32 = slot.instIdx).bind fun e =>
    if accepts e.2.name then some ⟨p, dispatch, e.2, slot.payload⟩ else none

/-- `drain_trace_dump`; `copied` is whether the copy from the device succeeds. -/
def State.drain (s : State) (p : Program) (copied : Bool) : Enabled → State
  | .full d =>
      let numSlots := min (s.count d.counter) d.capacity
      if numSlots = 0 ∨ copied = false then s
      else { s with
        count := Function.update s.count d.counter 0
        stored := s.stored ++ (List.range numSlots).filterMap fun i =>
          (s.slots d.base i).bind (storedAt accepts p s.dispatches) }
  | .off | .bufferOnly => s

/-- A program is dropped with its dump. -/
def State.drop (s : State) : Enabled → State
  | .full d => { s with live := s.live.erase d }
  | .off | .bufferOnly => s

/-- What the driver does with GPU 0's worker. -/
inductive Event
  /-- batches that belong to no traced program: the embeddings of a chunk, the FFN of a MoE layer,
  the quantization of a chunk, the segments of a multi-GPU decode step -/
  | batches (bs : List Batch)
  /-- a prefill program: it is compiled, its dump enabled, dispatched, drained and dropped -/
  | program (p : Program) (alloc : Alloc) (copied : Bool)
  /-- the program of an attention or GDN layer with experts, which is dropped behind the FFN of the
  experts and, after the last layer, the program of the final norm and the head -/
  | layer (p : Program) (alloc : Alloc) (copied : Bool) (ffn : List Batch)
      (last : Option (Program × Alloc × Bool))
  /-- the dispatch of `decode_step_persistent`, with the program as it is patched for the step -/
  | decode (p : Program) (alloc : Alloc) (copied : Bool)

/-- A prefill program, up to its drain. -/
def State.runTraced (s : State) (p : Program) (alloc : Alloc) (copied : Bool) : State × Enabled :=
  let (s, e) := s.enable p.maxSlots alloc
  (((s.setTraceDumpPtrs e).dispatch (sliceBatches p.sent)).drain accepts p copied e, e)

/-- A prefill program. -/
def State.runProgram (s : State) (p : Program) (alloc : Alloc) (copied : Bool) : State :=
  let (s, e) := s.runTraced accepts p alloc copied
  s.drop e

/-- A layer with experts. -/
def State.runLayer (s : State) (p : Program) (alloc : Alloc) (copied : Bool) (ffn : List Batch)
    (last : Option (Program × Alloc × Bool)) : State :=
  let (s, e) := s.runTraced accepts p alloc copied
  let s := s.dispatch ffn
  let s := match last with
    | none => s
    | some (q, alloc, copied) => s.runProgram accepts q alloc copied
  s.drop e

/-- The dump of the decode program is enabled in the first step. -/
def State.enableDecode (s : State) (p : Program) (alloc : Alloc) : State :=
  if s.decode.active then s
  else
    let (s, e) := s.enable p.maxSlots alloc
    { s.setTraceDumpPtrs e with decode := e }

/-- `decode_step_persistent` -/
def State.runDecode (s : State) (p : Program) (alloc : Alloc) (copied : Bool) : State :=
  let s := (s.enableDecode p alloc).dispatch (sliceBatches p.sent)
  s.drain accepts p copied s.decode

/-- One event. -/
def State.step (s : State) : Event → State
  | .batches bs => s.dispatch bs
  | .program p alloc copied => s.runProgram accepts p alloc copied
  | .layer p alloc copied ffn last => s.runLayer accepts p alloc copied ffn last
  | .decode p alloc copied => s.runDecode accepts p alloc copied

/-! ### Calls -/

/-- A piece of a prefill chunk: a compiled program, a layer with experts, or a standalone MoE
layer. -/
inductive Piece
  | program (p : Program) (alloc : Alloc) (copied : Bool)
  | layer (p : Program) (alloc : Alloc) (copied : Bool) (ffn : List Batch)
      (last : Option (Program × Alloc × Bool))
  | moeFfn (bs : List Batch)

/-- A chunk of a prompt.  `prefill_paged` has one program a chunk, `prefill_mixed_chunk_paged` a
program a span, the layers with experts and the standalone MoE layers between them. -/
structure Chunk where
  embeddings : List Instruction
  pieces : List Piece

/-- The calls of the driver. -/
inductive Call
  | prefill (chunks : List Chunk)
  /-- a decode step with the quantization of the chunk it seals -/
  | decode (p : Program) (alloc : Alloc) (copied : Bool) (quantize : List Batch)
  /-- `decode_step_p2p`, which does not trace -/
  | decodeP2p (bs : List Batch)

def Piece.event : Piece → Event
  | .program p alloc copied => .program p alloc copied
  | .layer p alloc copied ffn last => .layer p alloc copied ffn last
  | .moeFfn bs => .batches bs

def Chunk.events (c : Chunk) : List Event :=
  .batches (sliceBatches c.embeddings) :: c.pieces.map Piece.event

def Call.events : Call → List Event
  | .prefill chunks => chunks.flatMap Chunk.events
  | .decode p alloc copied quantize => [.decode p alloc copied, .batches quantize]
  | .decodeP2p bs => [.batches bs]

/-! ### The property -/

/-- A stored payload was dumped by an instruction that its probe marks in the program drained, in
the dispatch completed last. -/
def Stored.Attributed (r : Stored) : Prop :=
  r.payload.dispatch = r.dispatch ∧ (r.payload.place, r.probe) ∈ r.program.traceProbeMap ∧
    r.program.instructions[r.payload.place]? = some r.payload.inst

/-- Instructions are executed with null pointers or those of a program that is alive, and payloads
are stored under their own probe. -/
structure State.Attributed (s : State) : Prop where
  executed : ∀ e ∈ s.executed, ∀ d, e.queue = some d → d ∈ e.live
  stored : ∀ r ∈ s.stored, r.Attributed

/-! ### The condition -/

/-- Whose pointers the queue holds: those of a prefill program, that may have been dropped or is
still alive, or of the decode program. -/
inductive Owner
  | nobody
  | prefill
  | live
  | decode
deriving DecidableEq, Repr

/-- How far the dump of the decode program is enabled. -/
inductive Wiring
  | off
  | unwired
  | wired
deriving DecidableEq, Repr

/-- What the condition looks at in the past of a run: who has wired the queue's pointers last, how
far the decode program's dump is enabled, and whether its buffer is empty. -/
structure History where
  owner : Owner
  decode : Wiring
  empty : Bool
deriving DecidableEq, Repr

def History.init : History := ⟨.nobody, .off, true⟩

/-- No instruction of the batches is dump-eligible. -/
def quiet (bs : List Batch) : Bool := (bs.flatMap Batch.entries).all fun e => dumpSize e.1 = 0

/-- A dispatch that wires nothing: it leaves dumps in the decode program's buffer if the pointers
are that program's. -/
def History.pass (h : History) (bs : List Batch) : History :=
  { h with empty := h.empty && (h.owner ≠ .decode || quiet bs) }

/-- A prefill program, up to its drain. -/
def History.opened (h : History) (p : Program) : Alloc → History
  | .ok => { h with owner := .live }
  | .noBuffer | .noCounter => h.pass (sliceBatches p.sent)

/-- A prefill program is dropped. -/
def History.closed (h : History) : Alloc → History
  | .ok => { h with owner := .prefill }
  | .noBuffer | .noCounter => h

/-- The history behind an event. -/
def History.next (h : History) : Event → History
  | .batches bs => h.pass bs
  | .program p alloc _ => (h.opened p alloc).closed alloc
  | .layer p alloc _ ffn last =>
      let h := (h.opened p alloc).pass ffn
      let h := match last with
        | none => h
        | some (q, alloc, _) => (h.opened q alloc).closed alloc
      h.closed alloc
  | .decode p alloc copied =>
      let bs := sliceBatches p.sent
      match h.decode, alloc with
      | .off, .ok => ⟨.decode, .wired, copied || quiet bs⟩
      | .off, .noBuffer => h.pass bs
      | .off, .noCounter => { h.pass bs with decode := .unwired }
      | .unwired, _ => h.pass bs
      | .wired, _ => { h with empty := copied || quiet bs }

/-- **The condition** on an event: a dispatch that wires no pointers of its own does not come behind
a prefill program that has wired its own, and the decode program finds its own pointers wired and
its buffer empty. -/
def History.Ready (h : History) : Event → Prop
  | .batches bs => bs = [] ∨ h.owner ≠ .prefill
  | .program _ alloc _ | .layer _ alloc _ _ _ => alloc = .ok ∨ h.owner ≠ .prefill
  | .decode _ alloc _ =>
      match h.decode with
      | .off => alloc = .ok ∨ h.owner ≠ .prefill
      | .unwired => h.owner ≠ .prefill
      | .wired => h.owner = .decode ∧ h.empty = true

variable {accepts}

/-! ### A dispatch -/

section Dispatch

variable {s : State} {d : Dump} {n : ℕ}

/-- What holds before a dispatch and is kept by each of its instructions holds behind it. -/
lemma dispatch_induction {P : State → Prop} {bs : List Batch} (hs : P s)
    (hstep : ∀ t e, e ∈ (bs.flatMap Batch.entries).zipIdx → P t →
      P (t.execute (s.dispatches + 1) e.2 e.1))
    (hdone : ∀ t n, P t → P { t with dispatches := n }) : P (s.dispatch bs) :=
  hdone _ _ (List.foldlRecOn _ _ hs fun t ht e he => hstep t e he ht)

/-- The fields that executing an instruction leaves alone. -/
lemma execute_frame (s : State) (n k : ℕ) (e : Instruction × ℕ) :
    (s.execute n k e).queue = s.queue ∧ (s.execute n k e).live = s.live ∧
      (s.execute n k e).decode = s.decode ∧ (s.execute n k e).fresh = s.fresh ∧
      (s.execute n k e).stored = s.stored := by
  unfold State.execute State.dump
  cases s.queue with
  | none => exact ⟨rfl, rfl, rfl, rfl, rfl⟩
  | some d =>
      simp only
      split_ifs <;> exact ⟨rfl, rfl, rfl, rfl, rfl⟩

@[simp]
lemma queue_dispatch (s : State) (bs : List Batch) : (s.dispatch bs).queue = s.queue :=
  dispatch_induction (P := fun t => t.queue = s.queue) rfl
    (fun t e _ ht => (execute_frame t _ e.2 e.1).1.trans ht) (fun _ _ ht => ht)

@[simp]
lemma live_dispatch (s : State) (bs : List Batch) : (s.dispatch bs).live = s.live :=
  dispatch_induction (P := fun t => t.live = s.live) rfl
    (fun t e _ ht => (execute_frame t _ e.2 e.1).2.1.trans ht) (fun _ _ ht => ht)

@[simp]
lemma decode_dispatch (s : State) (bs : List Batch) : (s.dispatch bs).decode = s.decode :=
  dispatch_induction (P := fun t => t.decode = s.decode) rfl
    (fun t e _ ht => (execute_frame t _ e.2 e.1).2.2.1.trans ht) (fun _ _ ht => ht)

@[simp]
lemma fresh_dispatch (s : State) (bs : List Batch) : (s.dispatch bs).fresh = s.fresh :=
  dispatch_induction (P := fun t => t.fresh = s.fresh) rfl
    (fun t e _ ht => (execute_frame t _ e.2 e.1).2.2.2.1.trans ht) (fun _ _ ht => ht)

@[simp]
lemma stored_dispatch (s : State) (bs : List Batch) : (s.dispatch bs).stored = s.stored :=
  dispatch_induction (P := fun t => t.stored = s.stored) rfl
    (fun t e _ ht => (execute_frame t _ e.2 e.1).2.2.2.2.trans ht) (fun _ _ ht => ht)

lemma executed_execute (s : State) (n k : ℕ) (e : Instruction × ℕ) :
    (s.execute n k e).executed = s.executed ++ [⟨s.queue, s.live⟩] := by
  unfold State.execute State.dump
  cases s.queue with
  | none => rfl
  | some d =>
      simp only
      split_ifs <;> rfl

/-- A dispatch executes all its instructions with the pointers the queue has. -/
lemma mem_executed_dispatch {bs : List Batch} {x : Executed}
    (h : x ∈ (s.dispatch bs).executed) :
    x ∈ s.executed ∨ bs ≠ [] ∧ x = ⟨s.queue, s.live⟩ := by
  refine (dispatch_induction (P := fun t => (t.queue = s.queue ∧ t.live = s.live) ∧
    (x ∈ t.executed → x ∈ s.executed ∨ bs ≠ [] ∧ x = ⟨s.queue, s.live⟩)) ⟨⟨rfl, rfl⟩, .inl⟩
    ?_ (fun t n ht => ht)).2 h
  rintro t e he ⟨⟨hqueue, hlive⟩, ht⟩
  obtain ⟨hq, hl, -⟩ := execute_frame t (s.dispatches + 1) e.2 e.1
  refine ⟨⟨hq.trans hqueue, hl.trans hlive⟩, fun hx => ?_⟩
  rw [executed_execute, List.mem_append, List.mem_singleton] at hx
  rcases hx with hx | rfl
  · exact ht hx
  · refine .inr ⟨?_, by rw [hqueue, hlive]⟩
    rintro rfl
    exact absurd he List.not_mem_nil

/-- Only the counter the queue points to counts. -/
lemma count_dispatch_of_ne {c : ℕ} (h : ∀ d, s.queue = some d → d.counter ≠ c)
    (bs : List Batch) : (s.dispatch bs).count c = s.count c := by
  refine (dispatch_induction (P := fun t => t.queue = s.queue ∧ t.count c = s.count c) ⟨rfl, rfl⟩
    ?_ (fun t n ht => ht)).2
  rintro t e - ⟨hqueue, hcount⟩
  refine ⟨(execute_frame t _ e.2 e.1).1.trans hqueue, ?_⟩
  unfold State.execute State.dump
  cases hq : t.queue with
  | none => exact hcount
  | some d =>
      have hne : c ≠ d.counter := fun hc => h d (hqueue.symm.trans hq) hc.symm
      simp only
      split_ifs <;> simp [hne, hcount]

/-- Batches without a dump-eligible instruction leave all counters. -/
lemma count_dispatch_of_quiet {bs : List Batch} (h : quiet bs = true) :
    (s.dispatch bs).count = s.count := by
  refine dispatch_induction (P := fun t => t.count = s.count) rfl ?_ (fun t n ht => ht)
  intro t e he ht
  have hsize : dumpSize e.1.1 = 0 := by
    simpa using List.all_eq_true.mp h e.1 (List.fst_mem_of_mem_zipIdx he)
  unfold State.execute State.dump
  cases t.queue with
  | none => exact ht
  | some d => simpa [hsize] using ht

variable (d) in
/-- No slot of the buffer is in use. -/
def State.Empty (s : State) : Prop := s.count d.counter = 0 ∨ d.capacity = 0

variable (n d) in
/-- Every slot counted in the buffer was dumped in the dispatch `n` by an entry of the list. -/
def State.Filled (s : State) (es : List ((Instruction × ℕ) × ℕ)) : Prop :=
  ∀ i < s.count d.counter, i < d.capacity → ∃ slot, s.slots d.base i = some slot ∧
    slot.payload.dispatch = n ∧ ((slot.payload.inst, slot.instIdx), slot.payload.place) ∈ es

lemma State.Filled.execute {es : List ((Instruction × ℕ) × ℕ)} (h : s.Filled d n es)
    (hqueue : s.queue = some d) {e : (Instruction × ℕ) × ℕ} (he : e ∈ es) :
    (s.execute n e.2 e.1).Filled d n es := by
  unfold State.execute State.dump
  simp only [hqueue]
  split_ifs with hsize hfull
  · exact h
  · intro i hi hcap
    simp only [Function.update_self] at hi
    exact h i (by omega) hcap
  · intro i hi hcap
    simp only [Function.update_self] at hi ⊢
    by_cases hlast : i = s.count d.counter
    · subst hlast
      exact ⟨_, Function.update_self _ _ _, rfl, he⟩
    · rw [Function.update_of_ne hlast]
      exact h i (by omega) hcap

/-- **A dispatch into an empty buffer fills it with its own dumps.** -/
lemma filled_dispatch (hqueue : s.queue = some d) (hempty : s.Empty d) (bs : List Batch) :
    (s.dispatch bs).Filled d (s.dispatches + 1) (bs.flatMap Batch.entries).zipIdx := by
  refine (dispatch_induction (P := fun t => t.queue = some d ∧ t.Filled d (s.dispatches + 1)
    (bs.flatMap Batch.entries).zipIdx) ⟨hqueue, ?_⟩ ?_ (fun t n ht => ht)).2
  · intro i hi hcap
    rcases hempty with h | h <;> omega
  · rintro t e he ⟨hq, hfilled⟩
    exact ⟨(execute_frame t _ e.2 e.1).1.trans hq, hfilled.execute hq he⟩

lemma State.Attributed.dispatch (hs : s.Attributed) {bs : List Batch}
    (h : bs = [] ∨ ∀ d, s.queue = some d → d ∈ s.live) : (s.dispatch bs).Attributed where
  executed := by
    intro x hx d hd
    rcases mem_executed_dispatch hx with hx | ⟨hne, rfl⟩
    · exact hs.executed x hx d hd
    · exact h.resolve_left hne d hd
  stored := by
    rw [stored_dispatch]
    exact hs.stored

end Dispatch

/-! ### A drain -/

section Drain

variable {s : State} {d : Dump} {p : Program} {copied : Bool}

lemma sent_getElem? {k : ℕ} {inst : Instruction} (h : p.sent[k]? = some inst) :
    p.instructions[k]? = some inst := by
  obtain ⟨rest, hrest⟩ := List.takeWhile_prefix (fun i : Instruction => decide (i.opcode ≠ opHalt))
    (l := p.instructions)
  rw [← hrest]
  exact List.getElem?_append_left (List.getElem?_eq_some_iff.mp h).1 |>.trans h

/-- The index a slot records is the place of the instruction in the program. -/
lemma mem_entries {e : (Instruction × ℕ) × ℕ}
    (h : e ∈ ((sliceBatches p.sent).flatMap Batch.entries).zipIdx) :
    p.instructions[e.2]? = some e.1.1 ∧ e.1.2 = e.2 := by
  rw [sliceBatches_entries, List.mem_zipIdx_iff_getElem?, List.getElem?_mapIdx,
    Option.map_eq_some_iff] at h
  obtain ⟨inst, hget, heq⟩ := h
  have hinst := sent_getElem? hget
  have hlt := (List.getElem?_eq_some_iff.mp hinst).1
  have hlen := p.length_lt
  rw [← heq]
  exact ⟨hinst, Nat.mod_eq_of_lt (by omega)⟩

lemma storedAt_eq_some {n : ℕ} {slot : Slot} {r : Stored}
    (h : storedAt accepts p n slot = some r) :
    r.program = p ∧ r.dispatch = n ∧ r.payload = slot.payload ∧
      ∃ idx, (idx, r.probe) ∈ p.traceProbeMap ∧ idx = slot.instIdx := by
  unfold storedAt at h
  split_ifs at h
  obtain ⟨e, hfind, hstored⟩ := Option.bind_eq_some_iff.mp h
  split_ifs at hstored
  cases hstored
  have hmem := List.mem_of_find?_eq_some hfind
  have hlt := p.marked_lt e hmem
  have hlen := p.length_lt
  have hidx := List.find?_some hfind
  rw [decide_eq_true_eq, Nat.mod_eq_of_lt (by omega)] at hidx
  exact ⟨rfl, rfl, rfl, e.1, hmem, hidx⟩

/-- **What a drain stores behind a dispatch of the program into its empty buffer.** -/
lemma attributed_of_filled {n : ℕ} {r : Stored} {slot : Slot}
    (hslot : slot.payload.dispatch = n ∧ ((slot.payload.inst, slot.instIdx), slot.payload.place) ∈
      ((sliceBatches p.sent).flatMap Batch.entries).zipIdx)
    (hr : storedAt accepts p n slot = some r) : r.Attributed := by
  obtain ⟨rfl, rfl, hpayload, idx, hmem, rfl⟩ := storedAt_eq_some hr
  obtain ⟨hinst, hidx⟩ := mem_entries hslot.2
  simp only at hinst hidx
  rw [Stored.Attributed, hpayload]
  rw [hidx] at hmem
  exact ⟨hslot.1, hmem, hinst⟩

lemma State.Attributed.drain (hs : s.Attributed) {e : Enabled}
    (h : ∀ d, e = .full d → s.Filled d s.dispatches
      ((sliceBatches p.sent).flatMap Batch.entries).zipIdx) :
    (s.drain accepts p copied e).Attributed := by
  cases e with
  | off => exact hs
  | bufferOnly => exact hs
  | full d =>
      unfold State.drain
      simp only
      split_ifs
      · exact hs
      · refine ⟨hs.executed, fun r hr => ?_⟩
        rcases List.mem_append.mp hr with hr | hr
        · exact hs.stored r hr
        · obtain ⟨i, hi, hbind⟩ := List.mem_filterMap.mp hr
          obtain ⟨slot, hslot, hstored⟩ := Option.bind_eq_some_iff.mp hbind
          have hlt := List.mem_range.mp hi
          obtain ⟨slot', hslot', hfilled⟩ := h d rfl i (by omega) (by omega)
          obtain rfl := Option.some.inj (hslot.symm.trans hslot')
          exact attributed_of_filled hfilled hstored

variable (accepts) in
/-- The fields that a drain leaves alone. -/
lemma drain_frame (s : State) (p : Program) (copied : Bool) (e : Enabled) :
    (s.drain accepts p copied e).queue = s.queue ∧ (s.drain accepts p copied e).live = s.live ∧
      (s.drain accepts p copied e).decode = s.decode ∧
      (s.drain accepts p copied e).fresh = s.fresh := by
  unfold State.drain
  cases e with
  | off => exact ⟨rfl, rfl, rfl, rfl⟩
  | bufferOnly => exact ⟨rfl, rfl, rfl, rfl⟩
  | full d =>
      simp only
      split_ifs <;> exact ⟨rfl, rfl, rfl, rfl⟩

lemma count_drain_of_ne {c : ℕ} (h : d.counter ≠ c) :
    (s.drain accepts p copied (.full d)).count c = s.count c := by
  unfold State.drain
  simp only
  split_ifs
  · rfl
  · exact Function.update_of_ne (Ne.symm h) _ _

/-- A buffer is empty behind a drain if the copy succeeds or nothing was dumped into it. -/
lemma empty_drain (h : copied = true ∨ s.Empty d) :
    (s.drain accepts p copied (.full d)).Empty d := by
  unfold State.drain State.Empty at *
  simp only
  split_ifs with hcond
  · rcases hcond with h0 | hcopied
    · omega
    · exact h.resolve_left (by simp [hcopied])
  · simp

end Drain

/-! ### The invariant -/

/-- How far a dump is enabled. -/
def Enabled.wiring : Enabled → Wiring
  | .off => .off
  | .bufferOnly => .unwired
  | .full _ => .wired

/-- **The invariant**: the history describes the state. -/
structure Inv (s : State) (h : History) : Prop where
  attributed : s.Attributed
  wiring : h.decode = s.decode.wiring
  fresh : ∀ d, s.decode = .full d → d.base < s.fresh ∧ d.counter < s.fresh
  live : ∀ d, s.decode = .full d → d ∈ s.live
  nobody : h.owner = .nobody → s.queue = none
  alive : h.owner = .live → ∃ d, s.queue = some d ∧ d ∈ s.live ∧
    ∀ d', s.decode = .full d' → d.counter ≠ d'.counter
  decode : h.owner = .decode → ∃ d, s.decode = .full d ∧ s.queue = some d
  empty : h.empty = true → ∀ d, s.decode = .full d → s.Empty d

lemma Inv.init : Inv State.init History.init where
  attributed := ⟨fun _ h => absurd h List.not_mem_nil, fun _ h => absurd h List.not_mem_nil⟩
  wiring := rfl
  fresh := fun _ h => nomatch h
  live := fun _ h => nomatch h
  nobody := fun _ => rfl
  alive := fun h => nomatch h
  decode := fun h => nomatch h
  empty := fun _ _ h => nomatch h

section Steps

variable {s : State} {h : History} {p : Program} {copied : Bool}

/-- The queue's pointers are null or those of a program that is alive, if they are not those of a
prefill program that may have been dropped. -/
lemma Inv.queue_live (hinv : Inv s h) (howner : h.owner ≠ .prefill) {d : Dump}
    (hd : s.queue = some d) : d ∈ s.live := by
  cases hown : h.owner with
  | nobody =>
      rw [hinv.nobody hown] at hd
      cases hd
  | prefill => exact absurd hown howner
  | live =>
      obtain ⟨d', hqueue, hlive, -⟩ := hinv.alive hown
      obtain rfl := Option.some.inj (hqueue.symm.trans hd)
      exact hlive
  | decode =>
      obtain ⟨d', hdecode, hqueue⟩ := hinv.decode hown
      obtain rfl := Option.some.inj (hqueue.symm.trans hd)
      exact hinv.live _ hdecode

/-- They are not those of the decode program, if these are not its own. -/
lemma Inv.queue_ne (hinv : Inv s h) (hprefill : h.owner ≠ .prefill) (hdecode : h.owner ≠ .decode)
    {d d' : Dump} (hd : s.decode = .full d) (hd' : s.queue = some d') :
    d'.counter ≠ d.counter := by
  cases hown : h.owner with
  | nobody =>
      rw [hinv.nobody hown] at hd'
      cases hd'
  | prefill => exact absurd hown hprefill
  | live =>
      obtain ⟨d'', hqueue, -, hne⟩ := hinv.alive hown
      obtain rfl := Option.some.inj (hqueue.symm.trans hd')
      exact hne d hd
  | decode => exact absurd hown hdecode

/-- A dispatch that wires no pointers. -/
lemma Inv.pass (hinv : Inv s h) {bs : List Batch} (hready : bs = [] ∨ h.owner ≠ .prefill) :
    Inv (s.dispatch bs) (h.pass bs) where
  attributed := by
    refine hinv.attributed.dispatch (hready.imp_right fun howner d hd => ?_)
    exact hinv.queue_live howner hd
  wiring := by
    rw [decode_dispatch]
    exact hinv.wiring
  fresh := by
    rw [decode_dispatch, fresh_dispatch]
    exact hinv.fresh
  live := by
    rw [decode_dispatch, live_dispatch]
    exact hinv.live
  nobody := by
    rw [queue_dispatch]
    exact hinv.nobody
  alive := by
    rw [queue_dispatch, live_dispatch, decode_dispatch]
    exact hinv.alive
  decode := by
    rw [decode_dispatch, queue_dispatch]
    exact hinv.decode
  empty := by
    intro hempty d hd
    rw [decode_dispatch] at hd
    simp only [History.pass, Bool.and_eq_true, Bool.or_eq_true, decide_eq_true_eq] at hempty
    have hold := hinv.empty hempty.1 d hd
    rw [State.Empty] at hold ⊢
    -- another buffer's counter counts, or there is nothing to dump
    rcases hempty.2 with howner | hquiet
    · rcases hready with rfl | hprefill
      · exact hold
      · rwa [count_dispatch_of_ne fun d' hd' => hinv.queue_ne hprefill howner hd hd']
    · rwa [count_dispatch_of_quiet hquiet]

/-- The failed half of an allocation. -/
lemma Inv.allocate (hinv : Inv s h) : Inv { s with fresh := s.fresh + 1 } h where
  attributed := ⟨hinv.attributed.executed, hinv.attributed.stored⟩
  wiring := hinv.wiring
  fresh := fun d hd =>
    ⟨Nat.lt_succ_of_lt (hinv.fresh d hd).1, Nat.lt_succ_of_lt (hinv.fresh d hd).2⟩
  live := hinv.live
  nobody := hinv.nobody
  alive := hinv.alive
  decode := hinv.decode
  empty := hinv.empty

/-- The dispatch and the drain of a program that finds its pointers wired and its buffer empty. -/
lemma State.Attributed.wired (hs : s.Attributed) {d : Dump} (hqueue : s.queue = some d)
    (hlive : d ∈ s.live) (hempty : s.Empty d) :
    ((s.dispatch (sliceBatches p.sent)).drain accepts p copied (.full d)).Attributed := by
  have hdispatch : (s.dispatch (sliceBatches p.sent)).Attributed := by
    refine hs.dispatch (.inr fun d' hd' => ?_)
    obtain rfl := Option.some.inj (hqueue.symm.trans hd')
    exact hlive
  refine hdispatch.drain fun d' hd' => ?_
  cases hd'
  exact filled_dispatch hqueue hempty _

variable (s p) in
/-- The dump that a successful `enable_dump_persistent` gives a program. -/
def freshDump : Dump := ⟨s.fresh, s.fresh + 1, p.maxSlots⟩

variable (s p) in
/-- A program has its dump enabled and its pointers wired; `e` is the decode program's dump then. -/
def State.wire (e : Enabled) : State :=
  { s with
    fresh := s.fresh + 2
    live := freshDump s p :: s.live
    count := Function.update s.count (s.fresh + 1) 0
    queue := some (freshDump s p)
    decode := e }

variable (accepts s p copied) in
/-- A program whose dump is wired, up to its drain. -/
def State.traced (e : Enabled) : State :=
  ((s.wire p e).dispatch (sliceBatches p.sent)).drain accepts p copied (.full (freshDump s p))

variable (accepts p copied) in
lemma Inv.attributed_traced (hinv : Inv s h) (e : Enabled) :
    (s.traced accepts p copied e).Attributed := by
  have hwire : (s.wire p e).Attributed := ⟨hinv.attributed.executed, hinv.attributed.stored⟩
  refine hwire.wired rfl List.mem_cons_self (.inl ?_)
  exact Function.update_self _ _ _

variable (accepts s p copied) in
/-- The fields that the run of a traced program leaves alone. -/
lemma traced_frame (e : Enabled) :
    (s.traced accepts p copied e).queue = some (freshDump s p) ∧
    (s.traced accepts p copied e).live = freshDump s p :: s.live ∧
    (s.traced accepts p copied e).decode = e ∧
    (s.traced accepts p copied e).fresh = s.fresh + 2 := by
  obtain ⟨hqueue, hlive, hdecode, hfresh⟩ := drain_frame accepts
    ((s.wire p e).dispatch (sliceBatches p.sent)) p copied (.full (freshDump s p))
  rw [State.traced, hqueue, hlive, hdecode, hfresh, queue_dispatch, live_dispatch, decode_dispatch,
    fresh_dispatch]
  exact ⟨rfl, rfl, rfl, rfl⟩

/-- A traced program leaves the counters of the other dumps alone. -/
lemma count_traced {e : Enabled} {c : ℕ} (hc : c < s.fresh) :
    (s.traced accepts p copied e).count c = s.count c := by
  have hne : (freshDump s p).counter ≠ c := by
    show s.fresh + 1 ≠ c
    omega
  rw [State.traced, count_drain_of_ne hne, count_dispatch_of_ne]
  · exact Function.update_of_ne hne.symm _ _
  · intro d hd
    cases hd
    exact hne

variable (accepts p copied) in
/-- A prefill program whose dump is wired, up to its drain. -/
lemma Inv.traced (hinv : Inv s h) :
    Inv (s.traced accepts p copied s.decode) { h with owner := .live } := by
  obtain ⟨hqueue, hlive, hdecode, hfresh⟩ := traced_frame accepts s p copied s.decode
  refine
    { attributed := hinv.attributed_traced accepts p copied s.decode
      wiring := by
        rw [hdecode]
        exact hinv.wiring
      fresh := ?_
      live := ?_
      nobody := fun h => nomatch h
      alive := fun _ => ⟨freshDump s p, hqueue, by rw [hlive]; exact List.mem_cons_self, ?_⟩
      decode := fun h => nomatch h
      empty := ?_ }
  all_goals rw [hdecode]
  · intro d hd
    obtain ⟨hbase, hcounter⟩ := hinv.fresh d hd
    rw [hfresh]
    omega
  · intro d hd
    rw [hlive]
    exact List.mem_cons_of_mem _ (hinv.live d hd)
  · intro d hd
    have hcounter := (hinv.fresh d hd).2
    show s.fresh + 1 ≠ d.counter
    omega
  · intro hempty d hd
    have hold := hinv.empty hempty d hd
    rw [State.Empty] at hold ⊢
    rwa [count_traced (hinv.fresh d hd).2]

variable (accepts p copied) in
/-- A prefill program, up to its drain. -/
lemma Inv.opened (hinv : Inv s h) (alloc : Alloc) (hready : alloc = .ok ∨ h.owner ≠ .prefill) :
    Inv (s.runTraced accepts p alloc copied).1 (h.opened p alloc) := by
  cases alloc with
  | noBuffer => exact hinv.pass (.inr (hready.resolve_left (by decide)))
  | noCounter => exact hinv.allocate.pass (.inr (hready.resolve_left (by decide)))
  | ok => exact hinv.traced accepts p copied

variable (accepts s p copied) in
lemma decode_runTraced (alloc : Alloc) :
    (s.runTraced accepts p alloc copied).1.decode = s.decode := by
  cases alloc with
  | noBuffer => exact decode_dispatch _ _
  | noCounter => exact decode_dispatch _ _
  | ok => exact (traced_frame accepts s p copied s.decode).2.2.1

/-- The dump of the decode program is none that is dropped. -/
lemma Inv.ne_runTraced (hinv : Inv s h) {alloc : Alloc} {d d' : Dump}
    (hd : (s.runTraced accepts p alloc copied).2 = .full d) (hd' : s.decode = .full d') :
    d' ≠ d := by
  cases alloc with
  | noBuffer => cases hd
  | noCounter => cases hd
  | ok =>
      cases hd
      intro heq
      have hbase := (hinv.fresh d' hd').1
      rw [heq] at hbase
      exact Nat.lt_irrefl _ hbase

/-- A prefill program is dropped. -/
lemma Inv.drop (hinv : Inv s h) {d : Dump} (hne : ∀ d', s.decode = .full d' → d' ≠ d) :
    Inv (s.drop (.full d)) { h with owner := .prefill } where
  attributed := ⟨hinv.attributed.executed, hinv.attributed.stored⟩
  wiring := hinv.wiring
  fresh := hinv.fresh
  live := fun d' hd' => (List.mem_erase_of_ne (hne d' hd')).mpr (hinv.live d' hd')
  nobody := fun h => nomatch h
  alive := fun h => nomatch h
  decode := fun h => nomatch h
  empty := hinv.empty

variable (accepts p copied) in
/-- The program that was opened in `t`, and whose dump is not the decode program's, is dropped. -/
lemma Inv.closed (hinv : Inv s h) (t : State) (alloc : Alloc)
    (hne : ∀ d, (t.runTraced accepts p alloc copied).2 = .full d → ∀ d', s.decode = .full d' →
      d' ≠ d) : Inv (s.drop (t.runTraced accepts p alloc copied).2) (h.closed alloc) := by
  cases alloc with
  | noBuffer => exact hinv
  | noCounter => exact hinv
  | ok => exact hinv.drop (hne _ rfl)

lemma Inv.program (hinv : Inv s h) (alloc : Alloc) (hready : alloc = .ok ∨ h.owner ≠ .prefill) :
    Inv (s.runProgram accepts p alloc copied) ((h.opened p alloc).closed alloc) := by
  refine (hinv.opened accepts p copied alloc hready).closed accepts p copied s alloc
    fun d hd d' hd' => ?_
  rw [decode_runTraced] at hd'
  exact hinv.ne_runTraced hd hd'

variable (accepts s p copied) in
lemma decode_runProgram (alloc : Alloc) :
    (s.runProgram accepts p alloc copied).decode = s.decode := by
  have hdrop : ∀ (t : State) (e : Enabled), (t.drop e).decode = t.decode := by
    intro t e
    cases e <;> rfl
  rw [State.runProgram, hdrop, decode_runTraced]

/-- Behind a program that is alive, or where no dropped one has wired its pointers, nothing else
has to wire its own. -/
lemma opened_owner (p : Program) {alloc : Alloc} (hready : alloc = .ok ∨ h.owner ≠ .prefill) :
    (h.opened p alloc).owner ≠ .prefill := by
  cases alloc with
  | ok => exact fun h => nomatch h
  | noBuffer => exact hready.resolve_left (by decide)
  | noCounter => exact hready.resolve_left (by decide)

lemma Inv.layer (hinv : Inv s h) (alloc : Alloc) {ffn : List Batch}
    {last : Option (Program × Alloc × Bool)} (hready : alloc = .ok ∨ h.owner ≠ .prefill) :
    Inv (s.runLayer accepts p alloc copied ffn last)
      (h.next (.layer p alloc copied ffn last)) := by
  have howner := opened_owner p hready
  have hffn : Inv _ ((h.opened p alloc).pass ffn) :=
    (hinv.opened accepts p copied alloc hready).pass (.inr howner)
  have hdecode : ((s.runTraced accepts p alloc copied).1.dispatch ffn).decode = s.decode := by
    rw [decode_dispatch, decode_runTraced]
  cases last with
  | none =>
      refine hffn.closed accepts p copied s alloc fun d hd d' hd' => ?_
      rw [hdecode] at hd'
      exact hinv.ne_runTraced hd hd'
  | some q =>
      obtain ⟨q, a, c⟩ := q
      refine (hffn.program a (.inr howner)).closed accepts p copied s alloc fun d hd d' hd' => ?_
      rw [decode_runProgram, hdecode] at hd'
      exact hinv.ne_runTraced hd hd'

/-- The decode program's first traced step. -/
lemma Inv.firstDecode (hinv : Inv s h) :
    Inv (s.traced accepts p copied (.full (freshDump s p)))
      ⟨.decode, .wired, copied || quiet (sliceBatches p.sent)⟩ := by
  obtain ⟨hqueue, hlive, hdecode, hfresh⟩ :=
    traced_frame accepts s p copied (.full (freshDump s p))
  refine
    { attributed := hinv.attributed_traced accepts p copied _
      wiring := by
        rw [hdecode]
        rfl
      fresh := ?_
      live := ?_
      nobody := fun h => nomatch h
      alive := fun h => nomatch h
      decode := fun _ => ⟨_, hdecode, hqueue⟩
      empty := ?_ }
  all_goals rw [hdecode]
  · intro d hd
    cases hd
    rw [hfresh]
    show s.fresh < s.fresh + 2 ∧ s.fresh + 1 < s.fresh + 2
    omega
  · intro d hd
    cases hd
    rw [hlive]
    exact List.mem_cons_self
  · intro hempty d hd
    cases hd
    refine empty_drain ?_
    rw [Bool.or_eq_true] at hempty
    refine hempty.imp_right fun hquiet => .inl ?_
    rw [count_dispatch_of_quiet hquiet]
    exact Function.update_self _ _ _

/-- A later step of the decode program, which finds its pointers wired and its buffer empty. -/
lemma Inv.nextDecode (hinv : Inv s h) {d : Dump} (hd : s.decode = .full d)
    (howner : h.owner = .decode) (hempty : h.empty = true) :
    Inv ((s.dispatch (sliceBatches p.sent)).drain accepts p copied (.full d))
      { h with empty := copied || quiet (sliceBatches p.sent) } := by
  obtain ⟨hqueue, hlive, hdecode, hfresh⟩ := drain_frame accepts
    (s.dispatch (sliceBatches p.sent)) p copied (.full d)
  obtain ⟨d', hd', hq⟩ := hinv.decode howner
  obtain rfl := Enabled.full.inj (hd.symm.trans hd')
  rw [queue_dispatch] at hqueue
  rw [live_dispatch] at hlive
  rw [decode_dispatch] at hdecode
  rw [fresh_dispatch] at hfresh
  refine
    { attributed := hinv.attributed.wired hq (hinv.live d hd) (hinv.empty hempty d hd)
      wiring := by
        rw [hdecode]
        exact hinv.wiring
      fresh := by
        rw [hdecode, hfresh]
        exact hinv.fresh
      live := by
        rw [hdecode, hlive]
        exact hinv.live
      nobody := by
        rw [hqueue]
        exact hinv.nobody
      alive := by
        rw [hdecode, hqueue, hlive]
        exact hinv.alive
      decode := by
        rw [hdecode, hqueue]
        exact hinv.decode
      empty := ?_ }
  intro hempty' d' hd'
  rw [hdecode] at hd'
  obtain rfl := Enabled.full.inj (hd.symm.trans hd')
  refine empty_drain ?_
  rw [Bool.or_eq_true] at hempty'
  refine hempty'.imp_right fun hquiet => ?_
  rw [State.Empty, count_dispatch_of_quiet hquiet]
  exact hinv.empty hempty d hd

/-- The decode program's counter could not be allocated. -/
lemma Inv.unwire (hinv : Inv s h) (hoff : s.decode = .off) :
    Inv { s with decode := .bufferOnly } { h with decode := .unwired } where
  attributed := ⟨hinv.attributed.executed, hinv.attributed.stored⟩
  wiring := rfl
  fresh := fun _ h => nomatch h
  live := fun _ h => nomatch h
  nobody := hinv.nobody
  alive := by
    intro howner
    obtain ⟨d, hqueue, hlive, -⟩ := hinv.alive howner
    exact ⟨d, hqueue, hlive, fun _ h => nomatch h⟩
  decode := by
    intro howner
    obtain ⟨d, hd, -⟩ := hinv.decode howner
    rw [hoff] at hd
    cases hd
  empty := fun _ _ h => nomatch h

lemma Inv.decodeStep (hinv : Inv s h) (alloc : Alloc)
    (hready : h.Ready (.decode p alloc copied)) :
    Inv (s.runDecode accepts p alloc copied) (h.next (.decode p alloc copied)) := by
  have hwiring := hinv.wiring
  unfold State.runDecode
  cases hdec : s.decode with
  | off =>
      rw [hdec, Enabled.wiring] at hwiring
      simp only [History.Ready, hwiring] at hready
      have hoff : ¬ s.decode.active = true := by simp [hdec, Enabled.active]
      cases alloc with
      | ok =>
          have hs : s.enableDecode p .ok = s.wire p (.full (freshDump s p)) := by
            rw [State.enableDecode, if_neg hoff]
            rfl
          simp only [History.next, hwiring, hs, decode_dispatch]
          exact hinv.firstDecode
      | noBuffer =>
          have hs : s.enableDecode p .noBuffer = s := by
            rw [State.enableDecode, if_neg hoff]
            show { s with decode := .off } = s
            rw [← hdec]
          simp only [History.next, hwiring, hs, decode_dispatch, hdec]
          exact hinv.pass (.inr (hready.resolve_left (by decide)))
      | noCounter =>
          have hs : s.enableDecode p .noCounter =
              { s with fresh := s.fresh + 1, decode := .bufferOnly } := by
            rw [State.enableDecode, if_neg hoff]
            rfl
          simp only [History.next, hwiring, hs, decode_dispatch]
          exact (hinv.allocate.unwire hdec).pass (.inr (hready.resolve_left (by decide)))
  | bufferOnly =>
      rw [hdec, Enabled.wiring] at hwiring
      simp only [History.Ready, hwiring] at hready
      have hs : s.enableDecode p alloc = s := by simp [State.enableDecode, hdec, Enabled.active]
      simp only [History.next, hwiring, hs, decode_dispatch, hdec]
      exact hinv.pass (.inr hready)
  | full d =>
      rw [hdec, Enabled.wiring] at hwiring
      simp only [History.Ready, hwiring] at hready
      have hs : s.enableDecode p alloc = s := by simp [State.enableDecode, hdec, Enabled.active]
      simp only [History.next, hwiring, hs, decode_dispatch, hdec]
      rw [← hwiring]
      exact hinv.nextDecode hdec hready.1 hready.2

/-- **What one event preserves.** -/
theorem Inv.step (hinv : Inv s h) {e : Event} (hready : h.Ready e) :
    Inv (s.step accepts e) (h.next e) := by
  cases e with
  | batches bs => exact hinv.pass hready
  | program p alloc copied => exact hinv.program alloc hready
  | layer p alloc copied ffn last => exact hinv.layer alloc hready
  | decode p alloc copied => exact hinv.decodeStep alloc hready

end Steps

/-! ### Main results -/

/-- An event, with the history of the run. -/
def Step (accepts : String → Bool) : State × History → Event → State × History → Prop :=
  tracked (fun _ e _ h => h.next e) fun s e t => t = s.step accepts e

/-- **Dumps are attributed to the program that ran**: in every run whose events meet the condition
on the history before them, instructions are executed with null pointers or those of a live
program's dump, and every stored payload was dumped by the instruction its probe marks in the
program drained, in the dispatch just completed. -/
theorem attributed_of_run (accepts : String → Bool) {events : List Event} {t : State × History}
    (hrun : Run (guarded (fun s e => s.2.Ready e) (Step accepts)) (State.init, History.init) events
      t) : t.1.Attributed := by
  have hinv : Inv t.1 t.2 := by
    refine hrun.invariant (I := fun t => Inv t.1 t.2) ?_ Inv.init
    rintro s e t hs ⟨hready, hstep, hnext⟩
    rw [hstep, hnext]
    exact hs.step hready
  exact hinv.attributed

/-! ### A second prompt -/

instance (h : History) (e : Event) : Decidable (h.Ready e) :=
  match e with
  | .batches bs => decidable_of_iff (bs.isEmpty = true ∨ h.owner ≠ .prefill)
      (or_congr_left List.isEmpty_iff)
  | .program _ alloc _ | .layer _ alloc _ _ _ =>
      inferInstanceAs (Decidable (alloc = .ok ∨ h.owner ≠ .prefill))
  | .decode _ alloc _ =>
      match hd : h.decode with
      | .off => decidable_of_iff (alloc = .ok ∨ h.owner ≠ .prefill)
          (by simp only [History.Ready, hd])
      | .unwired => decidable_of_iff (h.owner ≠ .prefill) (by simp only [History.Ready, hd])
      | .wired => decidable_of_iff (h.owner = .decode ∧ h.empty = true)
          (by simp only [History.Ready, hd])

/-- `OP_EMBEDDING` of four floats, to a buffer that is not null. -/
def embedding : Instruction :=
  ⟨fun j => if j.val = 0 then 14 else if j.val = 1 then 4096 else if j.val = 4 then 4 else 0⟩

/-- `OP_RESIDUAL_ADD` of four floats. -/
def residualAdd : Instruction :=
  ⟨fun j => if j.val = 0 then 7 else if j.val = 1 then 8192 else if j.val = 4 then 4 else 0⟩

/-- A decode program of one layer. -/
def decodeProgram : Program where
  instructions := [embedding, residualAdd, .ofOpcode 16]
  traceProbeMap := [(0, .embed), (1, .postMixer 0)]
  length_lt := by decide
  marked_lt := by decide

/-- The program of a prefill chunk. -/
def prefillProgram : Program where
  instructions := [residualAdd, .ofOpcode 16]
  traceProbeMap := [(0, .postMixer 0)]
  length_lt := by decide
  marked_lt := by decide

/-- A prompt of one chunk of one token. -/
def prompt : Call := .prefill [⟨[embedding], [.program prefillProgram .ok true]⟩]

/-- A decode step that seals no chunk. -/
def decodeCall : Call := .decode decodeProgram .ok true []

/-- An event that meets the condition. -/
def readyStep (accepts : String → Bool) (s : State × History) (e : Event) :
    Option (State × History) :=
  if s.2.Ready e then some (s.1.step accepts e, s.2.next e) else none

lemma step_of_readyStep {accepts : String → Bool} {s t : State × History} {e : Event}
    (h : readyStep accepts s e = some t) :
    guarded (fun s e => s.2.Ready e) (Step accepts) s e t := by
  unfold readyStep at h
  split_ifs at h with hready
  cases h
  exact ⟨hready, rfl, rfl⟩

/-- One prompt and two decode steps, whose five payloads are stored. -/
theorem attributed_first_prompt : ∃ t : State × History,
    Run (guarded (fun s e => s.2.Ready e) (Step fun _ => true)) (State.init, History.init)
      ([prompt, decodeCall, decodeCall].flatMap Call.events) t ∧
      t.1.stored.length = 5 ∧ t.1.Attributed := by
  have hrun : (([prompt, decodeCall, decodeCall].flatMap Call.events).foldlM
      (readyStep fun _ => true) (State.init, History.init)).map (fun t => t.1.stored.length) =
      some 5 := by
    decide +kernel
  obtain ⟨t, ht, hlen⟩ := Option.map_eq_some_iff.mp hrun
  have hrun := Run.of_foldlM (fun _ _ _ => step_of_readyStep) ht
  exact ⟨t, hrun, hlen, attributed_of_run _ hrun⟩

/-- The decode step behind the second prompt is executed with the pointers of the dropped prefill
program, and stores the embedding of the prompt as its own. -/
theorem not_attributed_second_prompt : ∃ t : State,
    t = ([prompt, decodeCall, prompt, decodeCall].flatMap Call.events).foldl
      (State.step fun _ => true) State.init ∧
    (∃ e ∈ t.executed, ∃ d, e.queue = some d ∧ d ∉ e.live) ∧
    (∃ r ∈ t.stored, r.payload.dispatch ≠ r.dispatch) ∧ ¬ t.Attributed := by
  have hexec : (([prompt, decodeCall, prompt, decodeCall].flatMap Call.events).foldl
      (State.step fun _ => true) State.init).executed.getLast? =
      some ⟨some ⟨4, 5, 2⟩, [⟨2, 3, 3⟩]⟩ := by
    decide +kernel
  have hstored : (([prompt, decodeCall, prompt, decodeCall].flatMap Call.events).foldl
      (State.step fun _ => true) State.init).stored.getLast?.map
        (fun r => (r.payload.dispatch, r.dispatch)) = some (5, 7) := by
    decide +kernel
  obtain ⟨r, hr, hval⟩ := Option.map_eq_some_iff.mp hstored
  obtain ⟨hpayload, hdispatch⟩ := Prod.mk.inj hval
  have hmem := List.mem_of_getLast? hexec
  have hdead : (⟨4, 5, 2⟩ : Dump) ∉ ([⟨2, 3, 3⟩] : List Dump) := by decide
  refine ⟨_, rfl, ⟨_, hmem, _, rfl, hdead⟩, ⟨r, List.mem_of_getLast? hr, by omega⟩, fun h => ?_⟩
  exact hdead (h.executed _ hmem _ rfl)

end Braidinfer.Engine.TraceDump
