/-
Completion of a batch at its acknowledgement (`dispatch_opcode` in
`kernels/megakernel_dispatch.hip`, `op_moe_ffn`, `op_moe_ffn_remote` and `op_moe_dispatch_post`,
`kernels/moe_expert_ops.h` and the batch loop of `persistent_worker`).

Every operator is cut into phases: the stores each wave makes, and whether a grid barrier
follows.  A worker runs the batches in order; thread 0 of block 0 writes `ack` after its own
instruction loop, with no barrier in between, not even of its own block.  The waves of all blocks
interleave in any way the grid barriers allow (`Lib.BarrierProgram`).

The host, the waits on sentinels and the in-band halt only delay or end a worker.  What an
operator reads from memory is a parameter, one value for each instruction executed.

* `completeAtAck_iff`: every store of every acknowledged batch is done at its acknowledgement
  exactly if no acknowledged batch ends with an `OP_MOE_FFN_REMOTE` that has no result sentinel
  and more than one wave with a share of the result.
-/
import Mathlib.Tactic.Common
import Mathlib.Data.Int.Basic
import Mathlib.Data.UInt
import Mathlib.Data.Finite.Prod
import Braidinfer.Lib.BarrierProgram
import Braidinfer.Mailbox.Protocol

namespace Braidinfer.Mailbox

open Braidinfer.Lib
open Braidinfer.Lib.BarrierProgram (acts program State)

/-! ### The phases of the operators -/

/-- The threads of a block. -/
def blockDim : ℕ := 256

/-- The threads of a wave, which run in lockstep. -/
def waveSize : ℕ := 32

/-- A wave of a worker with `nb` blocks: its block, and its place among the eight of the block. -/
abbrev Wave (nb : ℕ) := Fin nb × Fin 8

/-- The `(int)` of a 64-bit word. -/
def toI32 (w : ℕ) : ℤ := Int.bmod w (2 ^ 32)

namespace Instruction

/-- A word of the instruction as a number. -/
def wordNat (i : Instruction) (j : ℕ) : ℕ :=
  if h : j < instSize then (i.words ⟨j, h⟩).toNat else 0

/-- `inst_grid_x`: the high half of the first word. -/
def gridX (i : Instruction) : ℕ := i.wordNat 0 / 2 ^ 32

end Instruction

/-- What an instruction reads from memory when it is executed: the addresses the waves of a
block store to, by virtual block or (operators with their own row loop) by block, the routed
experts, and the worker's table of expert weights. -/
structure Loads where
  vblock : ℕ → Fin 8 → List ℕ
  full : ℕ → Fin 8 → List ℕ
  eids : ℕ → ℤ
  gateUpPtr : ℤ → ℕ

section Phases

variable (nb : ℕ)

/-- A phase of an operator on `nb` blocks: the addresses stored to, wave by wave. -/
abbrev OpPhase := BarrierProgram.Phase (Wave nb) ℕ

variable {nb}

/-- The indices below `size` that wave `w` visits in a loop from
`blockIdx.x * blockDim.x + threadIdx.x` in steps of `gridDim.x * blockDim.x`. -/
def gridStride (size : ℤ) (w : Wave nb) : List ℕ :=
  (List.range size.toNat).filter fun idx =>
    idx / blockDim % nb = w.1 ∧ idx % blockDim / waveSize = w.2

/-- The rows below `size` that block `b` visits in a loop from `blockIdx.x` in steps of
`gridDim.x`. -/
def gridRows (size : ℤ) (b : Fin nb) : List ℕ :=
  (List.range size.toNat).filter fun row => row % nb = b

/-- The rows of block `b` in the fused gate and up projection: half of the blocks each. -/
def halfGridRows (size : ℤ) (b : Fin nb) : List ℕ :=
  (List.range size.toNat).filter fun row =>
    b / 2 ≤ row ∧ (row - b / 2) % max (nb / 2) 1 = 0

/-- What thread 0 of each block stores. -/
def thread0 (work : Fin nb → List ℕ) (w : Wave nb) : List ℕ :=
  if w.2 = 0 then work w.1 else []

/-- Element `idx` of the floats at `base`. -/
def floatAt (base idx : ℕ) : ℕ := base + 4 * idx

/-- A phase without stores. -/
def barrierPhase : OpPhase nb := ⟨fun _ => [], true⟩

/-- One float each, over the whole grid, and a barrier (`coop_copy`, `coop_zero`,
`coop_silu_mul`, `coop_relu_squared`, `coop_weighted_acc`). -/
def coopLoop (base : ℕ) (size : ℤ) : OpPhase nb :=
  ⟨fun w => (gridStride size w).map (floatAt base), true⟩

/-- One row for each block, its total stored by thread 0, and a barrier (`coop_gemv_pcg32`,
`coop_gemv_rnf4`). -/
def coopGemv (base : ℕ) (size : ℤ) : OpPhase nb :=
  ⟨thread0 fun b => (gridRows size b).map (floatAt base), true⟩

/-- `coop_gemv_pcg32_fused_gate_up`, `coop_gemv_rnf4_fused_gate_up`: even blocks store gate rows,
odd blocks up rows. -/
def coopFusedGateUp (gate up : ℕ) (size : ℤ) : OpPhase nb :=
  ⟨thread0 fun b => (halfGridRows size b).map (floatAt (if b.val % 2 = 0 then gate else up)),
    true⟩

/-- One store by thread 0 of block 0, and a barrier. -/
def signalPhase (addr : ℕ) : OpPhase nb :=
  ⟨thread0 fun b => if b.val = 0 then [addr] else [], true⟩

/-- `op_moe_ffn`. -/
def opMoeFfn (i : Instruction) : List (OpPhase nb) :=
  let out := i.wordNat 4
  let k := toI32 (i.wordNat 9)
  let hs : ℤ := (i.wordNat 10 % 2 ^ 16 : ℕ)
  let eis : ℤ := (i.wordNat 10 / 2 ^ 16 % 2 ^ 16 : ℕ)
  let hasGateProj := i.wordNat 11 % 2 = 1
  let scratchGate := i.wordNat 12
  let scratchUp := i.wordNat 13
  let scratchAct := i.wordNat 14
  let scratchOut := i.wordNat 15
  coopLoop out hs :: (List.range k.toNat).flatMap fun _ =>
    (if hasGateProj then [coopGemv scratchGate eis, coopGemv scratchUp eis]
      else [coopGemv scratchUp eis]) ++
    [coopLoop scratchAct eis, coopGemv scratchOut hs, coopLoop out hs]

namespace Remote

variable (i : Instruction)

/-- `k`, the number of routed experts. -/
def k : ℤ := toI32 (i.wordNat 11 % 2 ^ 32)

/-- `eis`, the inner size of an expert. -/
def eis : ℤ := toI32 (i.wordNat 11 / 2 ^ 32)

/-- `gupd`, the number of floats of the activation and of the result. -/
def gupd : ℤ := toI32 (i.wordNat 12 / 2 ^ 32)

/-- Where the result of the instruction starts: the slot of `result_seq & 1`. -/
def resultBase : ℕ := floatAt (i.wordNat 2) (i.wordNat 18 % 2 * (gupd i).toNat)

/-- `result_sentinel_ptr != nullptr`. -/
def hasSentinel : Bool := i.wordNat 17 != 0

/-- The experts the worker holds, among the routed ones. -/
def localExperts (m : Loads) : List ℕ :=
  (List.range (k i).toNat).filter fun j =>
    0 ≤ m.eids j ∧ m.eids j < 512 ∧ m.gateUpPtr (m.eids j) ≠ 0

/-- The four phases of one expert. -/
def expertPhases : List (OpPhase nb) :=
  let lo := i.wordNat 7
  let sg := i.wordNat 8
  let su := i.wordNat 9
  let sa := i.wordNat 10
  [if i.wordNat 13 % 2 = 1 then coopFusedGateUp sg su (eis i) else coopGemv su (eis i),
    coopLoop sa (eis i), coopGemv sg (gupd i), coopLoop lo (gupd i)]

/-- The phases up to the accumulated result. -/
def computePhases (m : Loads) : List (OpPhase nb) :=
  coopLoop (i.wordNat 6) (gupd i) :: coopLoop (i.wordNat 7) (gupd i) ::
    (localExperts i m).flatMap fun _ => expertPhases i

/-- The stores of the result; a barrier follows only if there is a sentinel to signal. -/
def resultPhase : OpPhase nb :=
  ⟨fun w => (gridStride (gupd i) w).map (floatAt (resultBase i)), hasSentinel i⟩

end Remote

/-- `op_moe_ffn_remote`. -/
def opMoeFfnRemote (m : Loads) (i : Instruction) : List (OpPhase nb) :=
  Remote.computePhases i m ++ Remote.resultPhase i ::
    if Remote.hasSentinel i then [signalPhase (floatAt (i.wordNat 17) (i.wordNat 18 % 2))] else []

/-- `op_moe_dispatch_post`. -/
def opMoeDispatchPost (i : Instruction) : List (OpPhase nb) :=
  let hs := toI32 (i.wordNat 7 % 2 ^ 32)
  let gupd := if toI32 (i.wordNat 16) = 0 then hs else toI32 (i.wordNat 16)
  if i.wordNat 18 ≠ 0 then [barrierPhase, coopLoop (i.wordNat 3) gupd]
  else [coopLoop (i.wordNat 3) gupd]

/-- The virtual block loop. -/
def vblockPhase (m : Loads) (i : Instruction) : OpPhase nb :=
  ⟨fun w => (gridRows i.gridX w.1).flatMap fun v => m.vblock v w.2, true⟩

/-- `OP_BARRIER`. -/
def opBarrier : ℕ := 33
/-- `OP_MOE_FFN`. -/
def opMoeFfnCode : ℕ := 24
/-- `OP_MOE_FFN_REMOTE`. -/
def opMoeFfnRemoteCode : ℕ := 44
/-- `OP_MOE_DISPATCH_POST`. -/
def opMoeDispatchPostCode : ℕ := 45
/-- `OP_D2D_COPY`. -/
def opD2dCopy : ℕ := 17

/-- `dispatch_opcode`, with the trace dump off. -/
def dispatchOpcode (m : Loads) (i : Instruction) : List (OpPhase nb) :=
  if i.opcode = opBarrier then [barrierPhase]
  else if i.opcode = opMoeFfnCode then opMoeFfn i
  else if i.opcode = opMoeFfnRemoteCode then opMoeFfnRemote m i
  else if i.opcode = opMoeDispatchPostCode then opMoeDispatchPost i
  -- OP_LINEAR_PROJ_PCG32, OP_LINEAR_PROJ_RNF4 and OP_LM_HEAD have their own row loop
  else if i.opcode = 26 ∨ i.opcode = 25 ∨ i.opcode = 15 then [⟨fun w => m.full w.1 w.2, true⟩]
  -- OP_NOP
  else if i.opcode = 0 then [barrierPhase]
  else vblockPhase m i ::
    if i.opcode = opD2dCopy ∧ i.wordNat 6 ≠ 0 then [signalPhase (i.wordNat 6)] else []

end Phases

/-! ### The life of a worker -/

/-- What a wave does: a store of an instruction of batch `k`, or the acknowledgement of
batch `k`. -/
inductive Event
  | store (k addr : ℕ)
  | ack (k : ℕ)
  deriving DecidableEq

/-- Whether the event is a store of batch `k`. -/
def Event.isStoreOf (k : ℕ) : Event → Bool
  | .store k' _ => k' == k
  | .ack _ => false

-- there is a block 0
local instance (priority := 1100) neZero_blocks (n : ℕ) : NeZero (n + 1) := ⟨n.succ_ne_zero⟩

section Life

variable {n : ℕ} (loads : ℕ → ℕ → Loads)

/-- A phase of a worker with `n + 1` blocks. -/
abbrev WorkerPhase (n : ℕ) := BarrierProgram.Phase (Wave (n + 1)) Event

/-- The phase of an operator of batch `k`. -/
def OpPhase.tag (k : ℕ) (ph : OpPhase (n + 1)) : WorkerPhase n :=
  ⟨fun w => (ph.work w).map (.store k), ph.barrier⟩

/-- The wave of thread 0 of block 0. -/
def ackWave : Wave (n + 1) := (0, 0)

/-- The barrier of `persistent_iter_poll_barrier`. -/
def pollPhase : WorkerPhase n := ⟨fun _ => [], true⟩

/-- `persistent_iter_ack`: thread 0 of block 0 alone, and no barrier. -/
def ackPhase (k : ℕ) : WorkerPhase n := ⟨fun w => if w = ackWave then [.ack k] else [], false⟩

/-- The phases of the instructions of batch `k`, from index `pc` on. -/
def instPhases (k pc : ℕ) : List Instruction → List (WorkerPhase n)
  | [] => []
  | i :: is => (dispatchOpcode (loads k pc) i).map (OpPhase.tag k) ++ instPhases k (pc + 1) is

/-- Whether the batch is acknowledged: none of its instructions ends the worker. -/
def Batch.runs (b : Batch) : Bool := b.insts.all fun i => i.opcode != opHalt

/-- The phases of a worker that executes the batches `bs`, the first one being batch `k`.  On
`OP_HALT` all blocks meet at a barrier and return. -/
def life (k : ℕ) : List Batch → List (WorkerPhase n)
  | [] => []
  | b :: bs =>
      if b.runs then pollPhase :: (instPhases loads k 0 b.insts ++ ackPhase k :: life (k + 1) bs)
      else pollPhase ::
        (instPhases loads k 0 (b.insts.takeWhile fun i => i.opcode != opHalt) ++ [pollPhase])

/-- All stores of batch `k` by wave `j`. -/
def Batch.stores (b : Batch) (k : ℕ) (j : Wave (n + 1)) : List Event :=
  (instPhases loads k 0 b.insts).flatMap (·.work j)

/-- In every interleaving of the waves, block 0 has acknowledged a batch only if every wave of
every block has performed all its stores of the batch. -/
def CompleteAtAck (n : ℕ) (bs : List Batch) : Prop :=
  ∀ is (s : State (Wave (n + 1)) Event), Run State.Step (State.init (life loads 0 bs)) is s →
    ∀ k b, bs[k]? = some b → .ack k ∈ s.done ackWave →
      ∀ j, (s.done j).filter (Event.isStoreOf k) = b.stores loads k j

/-- The batch ends with an `OP_MOE_FFN_REMOTE` without result sentinel, whose result is longer
than one wave. -/
def Batch.EndsUnsealed (b : Batch) : Prop :=
  ∃ i ∈ b.insts.getLast?, i.opcode = opMoeFfnRemoteCode ∧ Remote.hasSentinel i = false ∧
    (waveSize : ℤ) < Remote.gupd i

/-- Whether the operator of the instruction ends in a grid barrier: all do, but a remote FFN
without result sentinel. -/
def Instruction.EndsInBarrier (i : Instruction) : Prop :=
  i.opcode = opMoeFfnRemoteCode → Remote.hasSentinel i = true

end Life

/-! ### Sealed phases -/

/-- After the last barrier of the phases only the wave of the acknowledgement still stores. -/
def Sealed {n : ℕ} {ε : Type*} (phs : List (BarrierProgram.Phase (Wave (n + 1)) ε)) : Prop :=
  ∃ phs₁ ph phs₂, phs = phs₁ ++ ph :: phs₂ ∧ ph.barrier = true ∧
    ∀ q ∈ phs₂, ∀ j, j ≠ ackWave → q.work j = []

section Sealed

variable {n : ℕ} {ε : Type*} {phs phs' : List (BarrierProgram.Phase (Wave (n + 1)) ε)}

lemma Sealed.append_left (h : Sealed phs') : Sealed (phs ++ phs') := by
  obtain ⟨phs₁, ph, phs₂, rfl, hb, hw⟩ := h
  exact ⟨phs ++ phs₁, ph, phs₂, by simp, hb, hw⟩

lemma Sealed.append_right (h : Sealed phs) (hw : ∀ q ∈ phs', ∀ j, j ≠ ackWave → q.work j = []) :
    Sealed (phs ++ phs') := by
  obtain ⟨phs₁, ph, phs₂, rfl, hb, hw₂⟩ := h
  refine ⟨phs₁, ph, phs₂ ++ phs', by simp, hb, fun q hq => ?_⟩
  rcases List.mem_append.mp hq with h₂ | h'
  · exact hw₂ q h₂
  · exact hw q h'

lemma sealed_concat {ph : BarrierProgram.Phase (Wave (n + 1)) ε} (hb : ph.barrier = true) :
    Sealed (phs ++ [ph]) :=
  ⟨phs, ph, [], rfl, hb, by simp⟩

/-- Phases that all end in a barrier are sealed. -/
lemma sealed_of_forall (hne : phs ≠ []) (hb : ∀ q ∈ phs, q.barrier = true) : Sealed phs := by
  rw [← List.dropLast_append_getLast hne]
  exact sealed_concat (hb _ (List.getLast_mem hne))

/-- The tag keeps barriers and shares. -/
lemma Sealed.tag {ops : List (OpPhase (n + 1))} (k : ℕ) (h : Sealed ops) :
    Sealed (ops.map (OpPhase.tag k)) := by
  obtain ⟨phs₁, ph, phs₂, rfl, hb, hw⟩ := h
  refine ⟨phs₁.map (OpPhase.tag k), OpPhase.tag k ph, phs₂.map (OpPhase.tag k), by simp, hb, ?_⟩
  intro q hq j hj
  obtain ⟨p, hp, rfl⟩ := List.mem_map.mp hq
  simp [OpPhase.tag, hw p hp j hj]

end Sealed

section Operators

variable {n : ℕ} {m : Loads} {i : Instruction}

/-- All phases of `op_moe_ffn` end in a barrier. -/
lemma opMoeFfn_barrier : ∀ q ∈ (opMoeFfn i : List (OpPhase (n + 1))), q.barrier = true := by
  intro q hq
  simp only [opMoeFfn, List.mem_cons, List.mem_flatMap] at hq
  rcases hq with rfl | ⟨-, -, hq⟩
  · rfl
  · rcases List.mem_append.mp hq with hq | hq
    · split_ifs at hq
      · simp only [List.mem_cons, List.not_mem_nil, or_false] at hq
        rcases hq with rfl | rfl <;> rfl
      · rw [List.mem_singleton.mp hq]
        rfl
    · simp only [List.mem_cons, List.not_mem_nil, or_false] at hq
      rcases hq with rfl | rfl | rfl <;> rfl

/-- So do all phases of `op_moe_ffn_remote` before the stores of the result. -/
lemma computePhases_barrier :
    ∀ q ∈ (Remote.computePhases i m : List (OpPhase (n + 1))), q.barrier = true := by
  intro q hq
  simp only [Remote.computePhases, List.mem_cons, List.mem_flatMap] at hq
  rcases hq with rfl | rfl | ⟨-, -, hq⟩
  · rfl
  · rfl
  · simp only [Remote.expertPhases, List.mem_cons, List.not_mem_nil, or_false] at hq
    rcases hq with rfl | rfl | rfl | rfl
    · split_ifs <;> rfl
    · rfl
    · rfl
    · rfl

/-- Only the first wave has a share of a grid-wide loop that is not longer than a wave. -/
lemma gridStride_eq_nil {size : ℤ} (h : size ≤ waveSize) {j : Wave (n + 1)} (hj : j ≠ ackWave) :
    gridStride size j = [] := by
  rw [gridStride, List.filter_eq_nil_iff]
  intro idx hidx
  have hlt : idx < waveSize := by
    have := List.mem_range.mp hidx
    omega
  have hdiv : idx / blockDim = 0 := Nat.div_eq_of_lt (hlt.trans (by decide))
  have hmod : idx % blockDim / waveSize = 0 := by
    rw [Nat.mod_eq_of_lt (hlt.trans (by decide)), Nat.div_eq_of_lt hlt]
  simp only [hdiv, hmod, Nat.zero_mod, decide_eq_true_eq]
  rintro ⟨hb, hw⟩
  exact hj (Prod.ext (Fin.ext hb.symm) (Fin.ext hw.symm))

/-- The second wave of block 0 has a share of every longer one. -/
lemma gridStride_one_ne_nil {size : ℤ} (h : (waveSize : ℤ) < size) :
    gridStride size ((0, 1) : Wave (n + 1)) ≠ [] := by
  have hmem : waveSize ∈ gridStride size ((0, 1) : Wave (n + 1)) := by
    rw [gridStride, List.mem_filter]
    refine ⟨List.mem_range.mpr (by omega), ?_⟩
    have hdiv : waveSize / blockDim = 0 := by decide
    have hmod : waveSize % blockDim / waveSize = 1 := by decide
    simp [hdiv, hmod]
  exact List.ne_nil_of_mem hmem

/-- Every operator is sealed, but for a remote FFN without sentinel whose result is longer than
a wave. -/
lemma sealed_dispatchOpcode
    (h : ¬ (i.opcode = opMoeFfnRemoteCode ∧ Remote.hasSentinel i = false ∧
      (waveSize : ℤ) < Remote.gupd i)) : Sealed (dispatchOpcode m i : List (OpPhase (n + 1))) := by
  unfold dispatchOpcode
  split_ifs with h₁ h₂ h₃ h₄ h₅ h₆ h₇
  · exact sealed_of_forall (by simp) (by simp [barrierPhase])
  · exact sealed_of_forall (by simp [opMoeFfn]) opMoeFfn_barrier
  · have hc : Sealed (Remote.computePhases i m : List (OpPhase (n + 1))) :=
      sealed_of_forall (by simp [Remote.computePhases]) computePhases_barrier
    cases hs : Remote.hasSentinel i with
    | true =>
        rw [opMoeFfnRemote, if_pos hs]
        exact Sealed.append_left ⟨[Remote.resultPhase i], _, [], rfl, rfl, by simp⟩
    | false =>
        rw [opMoeFfnRemote, if_neg (by simp [hs])]
        refine hc.append_right fun q hq j hj => ?_
        rw [List.mem_singleton.mp hq]
        have hle : Remote.gupd i ≤ waveSize := by
          by_contra hgt
          exact h ⟨h₃, hs, by omega⟩
        simp [Remote.resultPhase, gridStride_eq_nil hle hj]
  · by_cases hd : i.wordNat 18 = 0
    · rw [opMoeDispatchPost, if_neg (by simp [hd])]
      exact sealed_of_forall (by simp) (by simp [coopLoop])
    · rw [opMoeDispatchPost, if_pos hd]
      exact sealed_of_forall (by simp) (by simp [barrierPhase, coopLoop])
  · exact sealed_of_forall (by simp) (by simp)
  · exact sealed_of_forall (by simp) (by simp [barrierPhase])
  · exact sealed_of_forall (by simp) (by simp [vblockPhase, signalPhase])
  · exact sealed_of_forall (by simp) (by simp [vblockPhase])

end Operators

/-! ### The stores of a batch -/

section Stores

variable {n : ℕ} (loads : ℕ → ℕ → Loads) {bs bs₁ bs₂ : List Batch} {b : Batch} {k k' : ℕ}
  {j : Wave (n + 1)}

lemma instPhases_append (is is' : List Instruction) (pc : ℕ) :
    (instPhases loads k pc (is ++ is') : List (WorkerPhase n))
      = instPhases loads k pc is ++ instPhases loads k (pc + is.length) is' := by
  induction is generalizing pc with
  | nil => rfl
  | cons i is ih =>
      simp only [List.cons_append, instPhases, ih, List.append_assoc, List.length_cons]
      rw [show pc + 1 + is.length = pc + (is.length + 1) by omega]

/-- What the instructions of a batch do are stores of that batch. -/
lemma exists_of_mem_instPhases {is : List Instruction} {pc : ℕ} {ph : WorkerPhase n}
    (h : ph ∈ instPhases loads k pc is) {e : Event} (he : e ∈ ph.work j) : ∃ a, e = .store k a := by
  induction is generalizing pc with
  | nil => exact absurd h (by simp [instPhases])
  | cons i is ih =>
      rcases List.mem_append.mp h with h | h
      · obtain ⟨op, -, rfl⟩ := List.mem_map.mp h
        obtain ⟨a, -, rfl⟩ := List.mem_map.mp he
        exact ⟨a, rfl⟩
      · exact ih h

/-- Batches that run to their acknowledgement are executed one after the other. -/
lemma life_append (h : ∀ b ∈ bs₁, b.runs = true) :
    (life loads k (bs₁ ++ bs₂) : List (WorkerPhase n))
      = life loads k bs₁ ++ life loads (k + bs₁.length) bs₂ := by
  induction bs₁ generalizing k with
  | nil => rfl
  | cons b bs₁ ih =>
      have hb : b.runs = true := h b (by simp)
      have ih' := ih (k := k + 1) (fun b hb => h b (by simp [hb]))
      simp only [List.cons_append, life, hb, if_true, ih', List.append_assoc, List.length_cons]
      rw [show k + 1 + bs₁.length = k + (bs₁.length + 1) by omega]

/-- An event of a life belongs to a batch that comes after batches that run; only a batch that
runs is acknowledged. -/
lemma event_of_mem_life {e : Event} (he : e ∈ acts (program (life loads k bs) j)) :
    ∃ bs₁ b bs₂, bs = bs₁ ++ b :: bs₂ ∧ (∀ a ∈ bs₁, a.runs = true) ∧
      ((∃ a, e = .store (k + bs₁.length) a) ∨ e = .ack (k + bs₁.length) ∧ b.runs = true) := by
  induction bs generalizing k with
  | nil => exact absurd he (by simp [life, program, acts])
  | cons b bs ih =>
      have hself : ∀ is, e ∈ (instPhases loads k 0 is : List (WorkerPhase n)).flatMap (·.work j) →
          ∃ a, e = .store k a := by
        intro is hmem
        obtain ⟨ph, hph, hw⟩ := List.mem_flatMap.mp hmem
        exact exists_of_mem_instPhases loads hph hw
      rw [BarrierProgram.acts_program] at he
      unfold life at he
      split_ifs at he with hb
      · simp only [List.flatMap_cons, List.flatMap_append, pollPhase, List.nil_append,
          List.mem_append] at he
        rcases he with he | he | he
        · exact ⟨[], b, bs, rfl, by simp, .inl (hself _ he)⟩
        · refine ⟨[], b, bs, rfl, by simp, .inr ⟨?_, hb⟩⟩
          by_cases hj : j = ackWave
          · simpa [ackPhase, hj] using he
          · simp [ackPhase, hj] at he
        · rw [← BarrierProgram.acts_program] at he
          obtain ⟨bs₁, b', bs₂, rfl, hbs₁, hk⟩ := ih he
          refine ⟨b :: bs₁, b', bs₂, rfl, ?_, ?_⟩
          · intro a ha
            rcases List.mem_cons.mp ha with rfl | ha
            · exact hb
            · exact hbs₁ a ha
          · rw [List.length_cons, show k + (bs₁.length + 1) = k + 1 + bs₁.length by omega]
            exact hk
      · simp only [List.flatMap_cons, List.flatMap_append, pollPhase, List.nil_append,
          List.flatMap_nil, List.append_nil] at he
        exact ⟨[], b, bs, rfl, by simp, .inl (hself _ he)⟩

/-- No store of batch `k'` among the events of other batches. -/
lemma filter_life_eq_nil (h : k' < k ∨ k + bs.length ≤ k') :
    (acts (program (life loads k bs) j)).filter (Event.isStoreOf k') = [] := by
  rw [List.filter_eq_nil_iff]
  intro e he
  obtain ⟨bs₁, b, bs₂, rfl, -, ⟨a, rfl⟩ | ⟨rfl, -⟩⟩ := event_of_mem_life loads he
  · simp only [List.length_append, List.length_cons] at h
    simp only [Event.isStoreOf, beq_iff_eq]
    omega
  · simp [Event.isStoreOf]

lemma filter_tag {ph : OpPhase (n + 1)} :
    ((OpPhase.tag k ph).work j).filter (Event.isStoreOf k) = (OpPhase.tag k ph).work j := by
  rw [List.filter_eq_self]
  intro e he
  obtain ⟨a, -, rfl⟩ := List.mem_map.mp he
  simp [Event.isStoreOf]

/-- All stores of the instructions of a batch are stores of that batch. -/
lemma filter_instPhases (is : List Instruction) (pc : ℕ) :
    ((instPhases loads k pc is).flatMap (·.work j)).filter (Event.isStoreOf k)
      = (instPhases loads k pc is).flatMap (·.work j) := by
  rw [List.filter_eq_self]
  intro e he
  obtain ⟨ph, hph, hw⟩ := List.mem_flatMap.mp he
  obtain ⟨a, rfl⟩ := exists_of_mem_instPhases loads hph hw
  simp [Event.isStoreOf]

/-- The phases of the worker up to the acknowledgement of the batch `b` that follows `bs₁`. -/
def lifeUpTo (bs₁ : List Batch) (b : Batch) : List (WorkerPhase n) :=
  life loads 0 bs₁ ++ pollPhase :: instPhases loads bs₁.length 0 b.insts

lemma life_eq (h : ∀ a ∈ bs₁, a.runs = true) (hb : b.runs = true) :
    (life loads 0 (bs₁ ++ b :: bs₂) : List (WorkerPhase n)) =
      lifeUpTo loads bs₁ b ++ ackPhase bs₁.length :: life loads (bs₁.length + 1) bs₂ := by
  rw [life_append loads h, Nat.zero_add, lifeUpTo]
  simp [life, hb]

/-- Up to the acknowledgement of a batch, exactly its stores are stores of the batch. -/
lemma filter_lifeUpTo :
    (acts (program (lifeUpTo loads bs₁ b) j)).filter (Event.isStoreOf bs₁.length)
      = b.stores loads bs₁.length j := by
  rw [lifeUpTo, BarrierProgram.program_append, BarrierProgram.acts_append, List.filter_append,
    filter_life_eq_nil loads (.inr (by omega)), List.nil_append, BarrierProgram.acts_program,
    List.flatMap_cons, pollPhase, List.nil_append, filter_instPhases]
  rfl

/-- After its acknowledgement there are no more of them. -/
lemma filter_life (h : ∀ a ∈ bs₁, a.runs = true) (hb : b.runs = true) :
    (acts (program (life loads 0 (bs₁ ++ b :: bs₂)) j)).filter (Event.isStoreOf bs₁.length)
      = b.stores loads bs₁.length j := by
  have hack : ((ackPhase bs₁.length : WorkerPhase n).work j).filter (Event.isStoreOf bs₁.length)
      = [] := by
    by_cases hj : j = ackWave <;> simp [ackPhase, hj, Event.isStoreOf]
  rw [life_eq loads h hb, BarrierProgram.program_append, BarrierProgram.acts_append,
    List.filter_append, filter_lifeUpTo, BarrierProgram.program_cons, BarrierProgram.acts_append,
    BarrierProgram.acts_items, List.filter_append, hack,
    filter_life_eq_nil loads (.inl (Nat.lt_succ_self _)), List.append_nil, List.append_nil]

/-- The acknowledgement of a batch is not among what comes before it. -/
lemma ack_not_mem_lifeUpTo : .ack bs₁.length ∉ acts (program (lifeUpTo loads bs₁ b) j) := by
  intro he
  rw [lifeUpTo, BarrierProgram.program_append, BarrierProgram.acts_append, List.mem_append] at he
  rcases he with he | he
  · obtain ⟨bs', b', bs'', rfl, -, ⟨a, ha⟩ | ⟨ha, -⟩⟩ := event_of_mem_life loads he
    · exact absurd ha (by simp)
    · simp only [Event.ack.injEq, List.length_append, List.length_cons] at ha
      omega
  · rw [BarrierProgram.acts_program, List.flatMap_cons, pollPhase, List.nil_append] at he
    obtain ⟨ph, hph, hw⟩ := List.mem_flatMap.mp he
    obtain ⟨a, ha⟩ := exists_of_mem_instPhases loads hph hw
    exact absurd ha (by simp)

end Stores

/-! ### Completion -/

section Completion

variable {n : ℕ} {loads : ℕ → ℕ → Loads} {bs bs₁ bs₂ : List Batch} {b : Batch}

/-- A batch that does not end unsealed is sealed. -/
lemma sealed_lifeUpTo (h : ¬ b.EndsUnsealed) :
    Sealed (lifeUpTo loads bs₁ b : List (WorkerPhase n)) := by
  refine Sealed.append_left ?_
  rcases List.eq_nil_or_concat b.insts with hnil | ⟨is, i, hi⟩
  · rw [hnil]
    exact ⟨[], pollPhase, [], rfl, rfl, by simp⟩
  · rw [hi, List.concat_eq_append, instPhases_append, ← List.cons_append]
    refine Sealed.append_left ?_
    simp only [instPhases, List.append_nil]
    refine Sealed.tag _ (sealed_dispatchOpcode fun hbad => h ?_)
    exact ⟨i, by simp [hi], hbad⟩

/-- At the acknowledgement of a sealed batch every wave has got through it. -/
lemma done_of_sealed (h : ∀ a ∈ bs₁, a.runs = true) (hb : b.runs = true)
    (hs : Sealed (lifeUpTo loads bs₁ b : List (WorkerPhase n)))
    {s : State (Wave (n + 1)) Event} (hinv : s.Inv (life loads 0 (bs₁ ++ b :: bs₂)))
    (hack : .ack bs₁.length ∈ s.done ackWave) (j : Wave (n + 1)) :
    acts (program (lifeUpTo loads bs₁ b) j) <+: s.done j := by
  obtain ⟨pre, hprog, hdone, -⟩ := hinv.split ackWave
  have hlife : (life loads 0 (bs₁ ++ b :: bs₂) : List (WorkerPhase n)) = _ := life_eq loads h hb
  -- the wave has passed everything before its acknowledgement
  have hpast : program (lifeUpTo loads bs₁ b) (ackWave : Wave (n + 1)) <+: pre := by
    have hfull : program (lifeUpTo loads bs₁ b) (ackWave : Wave (n + 1))
        <+: program (life loads 0 (bs₁ ++ b :: bs₂)) (ackWave : Wave (n + 1)) := by
      rw [hlife, BarrierProgram.program_append]
      exact List.prefix_append _ _
    rcases List.prefix_or_prefix_of_prefix hfull ⟨_, hprog.symm⟩ with hp | hp
    · exact hp
    · exact absurd ((BarrierProgram.acts_mono hp).subset (hdone ▸ hack))
        (ack_not_mem_lifeUpTo loads)
  by_cases hj : j = ackWave
  · subst hj
    rw [hdone]
    exact BarrierProgram.acts_mono hpast
  · obtain ⟨phs₁, ph, phs₂, heq, hbar, hw⟩ := hs
    have hsplit : (life loads 0 (bs₁ ++ b :: bs₂) : List (WorkerPhase n)) = phs₁ ++ ph ::
        (phs₂ ++ ackPhase bs₁.length :: life loads (bs₁.length + 1) bs₂) := by
      rw [hlife, heq]
      simp
    have heq' : (lifeUpTo loads bs₁ b : List (WorkerPhase n)) = (phs₁ ++ [ph]) ++ phs₂ := by
      rw [heq]
      simp
    rw [heq', BarrierProgram.program_append] at hpast
    rw [hsplit] at hinv hprog
    have hdonej := hinv.done_of_past hbar hprog ((List.prefix_append _ _).trans hpast) j
    have hrest : acts (program phs₂ j) = [] := by
      rw [BarrierProgram.acts_program, List.flatMap_eq_nil_iff]
      exact fun q hq => hw q hq j hj
    rw [heq', BarrierProgram.program_append, BarrierProgram.acts_append, hrest, List.append_nil]
    exact hdonej

/-- A sealed batch is complete at its acknowledgement. -/
lemma filter_done_of_sealed (h : ∀ a ∈ bs₁, a.runs = true) (hb : b.runs = true)
    (hs : Sealed (lifeUpTo loads bs₁ b : List (WorkerPhase n)))
    {s : State (Wave (n + 1)) Event} (hinv : s.Inv (life loads 0 (bs₁ ++ b :: bs₂)))
    (hack : .ack bs₁.length ∈ s.done ackWave) (j : Wave (n + 1)) :
    (s.done j).filter (Event.isStoreOf bs₁.length) = b.stores loads bs₁.length j := by
  have hlower := (done_of_sealed h hb hs hinv hack j).filter (Event.isStoreOf bs₁.length)
  have hupper : s.done j <+: acts (program (life loads 0 (bs₁ ++ b :: bs₂)) j) := by
    obtain ⟨pre, hprog, hdone, -⟩ := hinv.split j
    rw [hdone, hprog]
    exact BarrierProgram.acts_mono (List.prefix_append _ _)
  have hupper' := hupper.filter (Event.isStoreOf bs₁.length)
  rw [filter_lifeUpTo] at hlower
  rw [filter_life loads h hb] at hupper'
  exact hupper'.eq_of_length_le hlower.length_le

/-- In a batch that ends unsealed, the first wave of block 0 can acknowledge while the second
one still has all its stores of the result before it. -/
lemma exists_incomplete (n : ℕ) (loads : ℕ → ℕ → Loads) (bs₂ : List Batch)
    (h : ∀ a ∈ bs₁, a.runs = true) (hb : b.runs = true) (hbad : b.EndsUnsealed) :
    ∃ is, ∃ s : State (Wave (n + 1)) Event,
      Run State.Step (State.init (life loads 0 (bs₁ ++ b :: bs₂))) is s ∧
      .ack bs₁.length ∈ s.done ackWave ∧
      (s.done (0, 1)).filter (Event.isStoreOf bs₁.length)
        ≠ b.stores loads bs₁.length ((0, 1) : Wave (n + 1)) := by
  obtain ⟨i, hi, hop, hsent, hlong⟩ := hbad
  obtain ⟨is, his⟩ : ∃ is, b.insts = is ++ [i] := by
    obtain ⟨is, his⟩ := List.getLast?_eq_some_iff.mp hi
    exact ⟨is, his⟩
  set R : WorkerPhase n := OpPhase.tag bs₁.length (Remote.resultPhase i) with hR
  obtain ⟨C, hC⟩ : ∃ C, (lifeUpTo loads bs₁ b : List (WorkerPhase n)) = C ++ [R] := by
    have hdisp : ∀ m, (dispatchOpcode m i : List (OpPhase (n + 1)))
        = Remote.computePhases i m ++ [Remote.resultPhase i] := by
      intro m
      have h33 : ¬ opMoeFfnRemoteCode = opBarrier := by decide
      have h24 : ¬ opMoeFfnRemoteCode = opMoeFfnCode := by decide
      rw [dispatchOpcode, hop, if_neg h33, if_neg h24, if_pos rfl, opMoeFfnRemote,
        if_neg (by simp [hsent])]
    rw [lifeUpTo, his, instPhases_append]
    simp only [instPhases, hdisp, List.map_append, List.map_cons, List.map_nil, List.append_nil]
    exact ⟨_, by rw [← List.append_assoc, ← List.cons_append, ← List.append_assoc]⟩
  have hlife : (life loads 0 (bs₁ ++ b :: bs₂) : List (WorkerPhase n)) =
      C ++ R :: ackPhase bs₁.length :: life loads (bs₁.length + 1) bs₂ := by
    rw [life_eq loads h hb, hC]
    simp
  have hbarrier : R.barrier = false := hsent
  -- all waves get to the stores of the result, and the first one goes on alone
  obtain ⟨is₁, c, hr₁⟩ := State.run_phases C
    (R :: ackPhase bs₁.length :: life loads (bs₁.length + 1) bs₂) (fun _ => []) 0
  obtain ⟨is₂, hr₂⟩ := State.run_work (i := ackWave) (R.work ackWave ++ [.ack bs₁.length])
    (l := program (life loads (bs₁.length + 1) bs₂) (ackWave : Wave (n + 1)))
    (s := State.level (R :: ackPhase bs₁.length :: life loads (bs₁.length + 1) bs₂)
      (fun j => [] ++ acts (program C j)) c)
    (by simp [State.level, BarrierProgram.program_cons, BarrierProgram.Phase.items, hbarrier,
      ackPhase])
  have hrun := hr₁.append hr₂
  rw [← hlife] at hrun
  refine ⟨is₁ ++ is₂, _, hrun, ?_, ?_⟩
  · simp
  · have hshare : R.work (0, 1) ≠ [] := by
      simp only [hR, OpPhase.tag, Remote.resultPhase, ne_eq, List.map_eq_nil_iff]
      exact gridStride_one_ne_nil hlong
    have hown : (R.work (0, 1)).filter (Event.isStoreOf bs₁.length) = R.work (0, 1) := filter_tag
    have hone : ((0, 1) : Wave (n + 1)) ≠ ackWave := by simp [ackWave]
    have hacts : ∀ j, acts (program [R] j) = [R].flatMap (·.work j) := fun j =>
      BarrierProgram.acts_program
    rw [← filter_lifeUpTo, hC, BarrierProgram.program_append, BarrierProgram.acts_append,
      List.filter_append, hacts]
    simp only [List.flatMap_cons, List.flatMap_nil, List.append_nil, hown, State.level,
      Function.update_of_ne hone, List.nil_append]
    intro heq
    exact hshare (List.self_eq_append_right.mp heq)

/-- When no acknowledged batch ends unsealed, every acknowledged batch is complete. -/
lemma completeAtAck_of_sealed (hcond : ∀ b ∈ bs.takeWhile Batch.runs, ¬ b.EndsUnsealed) :
    CompleteAtAck loads n bs := by
  intro is s hrun k b hk hack j
  have hinv := State.Inv.of_run hrun
  obtain ⟨bs₁, b', bs₂, rfl, hbs₁, ⟨a, ha⟩ | ⟨ha, hb'⟩⟩ :
      ∃ bs₁ b' bs₂, bs = bs₁ ++ b' :: bs₂ ∧ (∀ a ∈ bs₁, a.runs = true) ∧
        ((∃ a, Event.ack k = .store (0 + bs₁.length) a) ∨
          Event.ack k = .ack (0 + bs₁.length) ∧ b'.runs = true) := by
    refine event_of_mem_life loads (j := (ackWave : Wave (n + 1))) ?_
    obtain ⟨pre, hprog, hdone, -⟩ := hinv.split ackWave
    rw [hprog, BarrierProgram.acts_append, ← hdone]
    exact List.mem_append_left _ hack
  · exact absurd ha (by simp)
  · obtain rfl : k = bs₁.length := by simpa using ha
    obtain rfl : b' = b := by simpa using hk
    refine filter_done_of_sealed hbs₁ hb' (sealed_lifeUpTo (hcond b' ?_)) hinv hack j
    rw [List.takeWhile_append_of_pos hbs₁, List.takeWhile_cons_of_pos hb']
    simp

lemma Batch.not_endsUnsealed (h : ∀ i ∈ b.insts, i.EndsInBarrier) : ¬ b.EndsUnsealed := by
  rintro ⟨i, hi, hop, hsent, -⟩
  exact absurd (h i (List.mem_of_getLast? hi) hop) (by simp [hsent])

/-- Batches whose operators all end in a grid barrier are complete when they are acknowledged. -/
lemma completeAtAck_of_endsInBarrier (h : ∀ b ∈ bs, ∀ i ∈ b.insts, i.EndsInBarrier) :
    CompleteAtAck loads n bs :=
  completeAtAck_of_sealed fun b hb =>
    Batch.not_endsUnsealed (h b ((List.takeWhile_prefix _).subset hb))

/-- A remote FFN of the MoE prefill: hidden size 2048, eight experts and no result sentinel. -/
def prefillRemoteInst : Instruction :=
  ⟨fun j => [2 ^ 32 + 44, 4096, 16384, 32768, 36864, 40960, 45056, 57344, 65536, 73728, 81920,
    768 * 2 ^ 32 + 8, 2048 * 2 ^ 32 + 2048, 1, 0, 0, 0, 0, 0].getD j 0⟩

end Completion

end Braidinfer.Mailbox
