/-
The multi-GPU decode driver: `decode_step_p2p_inner`, `dispatch_head_parallel_attention` and
`dispatch_moe_workers_decode_async` (`model/decode/mod.rs`), as host operations.

The program of GPU 0 is cut at the MoE boundaries, at the head-parallel attention boundaries and
at its end.  An attention segment and the last one are dispatched synchronously.  A MoE segment
is fired without waiting, in chunks of at most `MAX_BATCH_INSTRUCTIONS`, together with one
instruction for each worker; the wait comes after that, and only for the last chunk.

* `P2pStep.segments`: how a step cuts the program;
* `decodeStepsP2p_no_batch_lost`: if every MoE segment fits the mailbox, no wait is switched off
  and every remote FFN has a result sentinel, no batch is overwritten before it is executed, and
  every wait returns;
* `decodeStepP2p_batch_overwritten`: a MoE segment of 257 instructions whose first chunk is
  overwritten before any block has executed anything.
-/
import Braidinfer.Mailbox.Slices
import Braidinfer.Mailbox.Completion

namespace Braidinfer.Mailbox

open Braidinfer.Lib

/-- The environment variables that switch waits of `dispatch_moe_workers_decode_async` off
(`YEF52_GPU_BP`, `YEF52_DROP_ALL_ACK`, `YEF52_DROP_ACK`), and `BRAIDINFER_RACE_PROBE`. -/
structure P2pFlags where
  gpuBp : Bool
  dropAllAck : Bool
  dropAck : Bool
  raceProbe : Bool
deriving DecidableEq, Repr

/-- Which acknowledgements a MoE boundary waits for. -/
inductive AckMode
  | full
  | gpu0Only
  | off
deriving DecidableEq, Repr

/-- The choice of `dispatch_moe_workers_decode_async`; `bpStep` counts the decode steps from
`0`. -/
def P2pFlags.ackMode (f : P2pFlags) (bpStep : ℕ) : AckMode :=
  if f.gpuBp ∧ 2 ≤ bpStep then .off
  else if f.dropAllAck then .off
  else if f.dropAck ∨ f.gpuBp then .gpu0Only
  else .full

/-- What one decode step dispatches: the patched program of GPU 0, where it is cut, and the
instructions built for the other GPUs.  GPU 0 has `W` workers, the GPUs `1, …, W`.  The
head-parallel batches pass the assertion on their length, and none of the instructions built for
a step is `OP_HALT`. -/
structure P2pStep (W : ℕ) where
  program : List Instruction
  /-- `barrier_layer_map`: the index of each `OP_MOE_DISPATCH`, with its layer. -/
  moeBoundaries : List (ℕ × ℕ)
  /-- Where a head-parallel attention layer cuts the program and where it resumes. -/
  attnBoundaries : List (ℕ × ℕ)
  hasHeadParallel : Bool
  useDistributedQkv : Bool
  /-- The batch of `dispatch_head_parallel_attention` for each GPU. -/
  attnBatch : ℕ → Fin (W + 1) → List Instruction
  /-- The gather that it returns. -/
  gather : ℕ → List Instruction
  /-- The `OP_MOE_FFN_REMOTE` of each worker. -/
  ffnRemote : ℕ → Fin W → Instruction
  flags : P2pFlags
  bpStep : ℕ
  attnBatch_proper : ∀ a g, (Batch.mk (attnBatch a g) 0).Proper
  gather_no_halt : ∀ a, ∀ i ∈ gather a, i.opcode ≠ opHalt
  ffnRemote_no_halt : ∀ l w, (ffnRemote l w).opcode ≠ opHalt

/-- A segment of the program of GPU 0, with the gather in front of it. -/
inductive Segment
  | moe (insts : List Instruction) (layer : ℕ)
  | attn (insts : List Instruction) (attnI : ℕ)
  | tail (insts : List Instruction)

/-- The instructions of a segment. -/
def Segment.insts : Segment → List Instruction
  | .moe insts _ | .attn insts _ | .tail insts => insts

namespace P2pStep

-- there is a GPU 0
local instance (priority := 1100) neZero_gpus (W : ℕ) : NeZero (W + 1) := ⟨W.succ_ne_zero⟩

variable {W : ℕ}

/-- `instructions[start..end]`. -/
def slice (p : P2pStep W) (start stop : ℕ) : List Instruction :=
  (p.program.take stop).drop start

/-- What is left at the end of the loop. -/
def tailSegment (p : P2pStep W) (i segStart : ℕ) (pending : List Instruction) : List Segment :=
  if segStart < i ∨ pending ≠ [] then [.tail (pending ++ p.slice segStart i)] else []

/-- The loop of `decode_step_p2p_inner`, at instruction `i`. -/
def cut (p : P2pStep W) (attnI moeI i segStart : ℕ) (pending : List Instruction) :
    List Segment :=
  match _hi : p.program[i]? with
  | none => p.tailSegment i segStart pending
  | some inst =>
      if inst.opcode = opHalt then p.tailSegment i segStart pending
      else
        match p.moeBoundaries[moeI]?.filter (fun m => i = m.1) with
        | some m =>
            .moe (pending ++ p.slice segStart (i + 1)) m.2 ::
              p.cut attnI (moeI + 1) (i + 1) (i + 1) []
        | none =>
            match ha : p.attnBoundaries[attnI]?.filter
                (fun a => p.hasHeadParallel ∧ i = a.1) with
            | some a =>
                let next := if p.useDistributedQkv then a.2 else a.2 + 1
                .attn (pending ++ p.slice segStart (i + 1)) attnI ::
                  p.cut (attnI + 1) moeI next next (p.gather attnI)
            | none => p.cut attnI moeI (i + 1) segStart pending
termination_by (p.attnBoundaries.length - attnI, p.program.length - i)
decreasing_by
  · have hlt := (List.getElem?_eq_some_iff.mp _hi).1
    exact Prod.Lex.right _ (by omega)
  · have hlt := (List.getElem?_eq_some_iff.mp (Option.filter_eq_some_iff.mp ha).1).1
    exact Prod.Lex.left _ _ (by omega)
  · have hlt := (List.getElem?_eq_some_iff.mp _hi).1
    exact Prod.Lex.right _ (by omega)

/-- The segments of a step. -/
def segments (p : P2pStep W) : List Segment := p.cut 0 0 0 0 []

/-- `dispatch_head_parallel_attention`: fire to every GPU, then wait for each. -/
def dispatchHeadParallelAttention (p : P2pStep W) (attnI : ℕ) : List (HostOp (W + 1)) :=
  ((List.finRange (W + 1)).flatMap fun g =>
    .fire g ⟨p.attnBatch attnI g, 0⟩ ::
      if g = 0 ∧ p.flags.raceProbe then [.wait [0]] else []) ++
  (List.finRange (W + 1)).map fun g => .wait [g]

/-- `dispatch_moe_workers_decode_async`: fire to every worker, then wait as the flags say. -/
def dispatchMoeWorkersDecodeAsync (p : P2pStep W) (layer : ℕ) : List (HostOp (W + 1)) :=
  ((List.finRange W).map fun w => .fire w.succ ⟨[p.ffnRemote layer w], 0⟩) ++
  match p.flags.ackMode p.bpStep with
  | .off => []
  | .gpu0Only => [.wait [0]]
  | .full => [.wait ((List.finRange W).map Fin.succ ++ [0])]

/-- `dispatch_batch_fire` of the chunks of a segment on GPU 0, without waiting. -/
def fireChunks (insts : List Instruction) : List (HostOp (W + 1)) :=
  (chunks insts).map fun chunk => .fire 0 ⟨chunk, 0⟩

/-- What the host does for one segment. -/
def dispatchSegment (p : P2pStep W) : Segment → List (HostOp (W + 1))
  | .moe insts layer => fireChunks insts ++ p.dispatchMoeWorkersDecodeAsync layer
  | .attn insts attnI => dispatchBatchSlice 0 insts ++ p.dispatchHeadParallelAttention attnI
  | .tail insts => (chunks insts).flatMap fun chunk => dispatchBatchWithBase 0 chunk 0

/-- `decode_step_p2p_inner`, as the mailboxes see it. -/
def decodeStepP2p (p : P2pStep W) : List (HostOp (W + 1)) :=
  p.segments.flatMap p.dispatchSegment

/-- The instructions that a step has for its GPUs. -/
inductive Dispatches (p : P2pStep W) : Instruction → Prop
  | program {i : Instruction} (h : i ∈ p.program) (hne : i.opcode ≠ opHalt) : Dispatches p i
  | attnBatch {i : Instruction} {a : ℕ} {g : Fin (W + 1)} (h : i ∈ p.attnBatch a g) :
      Dispatches p i
  | gather {i : Instruction} {a : ℕ} (h : i ∈ p.gather a) : Dispatches p i
  | ffnRemote (l : ℕ) (w : Fin W) : Dispatches p (p.ffnRemote l w)

/-- The condition under which a step is safe: every MoE segment fits the mailbox, the host
waits for all acknowledgements, and every operator ends in a grid barrier. -/
structure Fits (p : P2pStep W) : Prop where
  moe_le : ∀ insts layer, Segment.moe insts layer ∈ p.segments →
    insts.length ≤ maxBatchInstructions
  ack_full : p.flags.ackMode p.bpStep = .full
  barrier : ∀ i, p.Dispatches i → i.EndsInBarrier

end P2pStep

/-- A sequence of decode steps. -/
def decodeStepsP2p {W : ℕ} (steps : List (P2pStep W)) : List (HostOp (W + 1)) :=
  steps.flatMap P2pStep.decodeStepP2p

namespace P2pStep

variable {W : ℕ} {p : P2pStep W}

/-! ### The segments -/

/-- The instruction at the end of a slice. -/
lemma slice_succ {i segStart : ℕ} {inst : Instruction} (hi : p.program[i]? = some inst)
    (hle : segStart ≤ i) : p.slice segStart (i + 1) = p.slice segStart i ++ [inst] := by
  have hlt := (List.getElem?_eq_some_iff.mp hi).1
  rw [slice, slice, List.take_add_one, hi, Option.toList_some,
    List.drop_append_of_le_length (by rw [List.length_take]; omega)]

lemma slice_self (i : ℕ) : p.slice i i = [] := by
  rw [slice, List.drop_eq_nil_iff]
  exact List.length_take_le _ _

/-- No instruction of a step is `OP_HALT`. -/
lemma Dispatches.ne_halt {i : Instruction} (h : p.Dispatches i) : i.opcode ≠ opHalt := by
  cases h with
  | program _ hne => exact hne
  | attnBatch hi => exact (p.attnBatch_proper _ _).no_halt _ hi
  | gather hi => exact p.gather_no_halt _ _ hi
  | ffnRemote l w => exact p.ffnRemote_no_halt l w

/-- What a segment is made of has been scanned. -/
lemma dispatches_slice_succ {i segStart : ℕ} {inst : Instruction} {pending : List Instruction}
    (hi : p.program[i]? = some inst) (hle : segStart ≤ i) (hinst : inst.opcode ≠ opHalt)
    (h : ∀ x ∈ pending ++ p.slice segStart i, p.Dispatches x) :
    ∀ x ∈ pending ++ p.slice segStart (i + 1), p.Dispatches x := by
  intro x hx
  rw [slice_succ hi hle, ← List.append_assoc] at hx
  rcases List.mem_append.mp hx with hx | hx
  · exact h x hx
  · rw [List.mem_singleton.mp hx]
    exact .program (List.mem_of_getElem? hi) hinst

/-- A MoE segment has an instruction, and all segments hold instructions of the step. -/
lemma cut_spec {attnI moeI i segStart : ℕ} {pending : List Instruction} (hle : segStart ≤ i)
    (hscan : ∀ x ∈ pending ++ p.slice segStart i, p.Dispatches x) {seg : Segment}
    (h : seg ∈ p.cut attnI moeI i segStart pending) :
    (∀ insts layer, seg = .moe insts layer → insts ≠ []) ∧
      ∀ x ∈ seg.insts, p.Dispatches x := by
  have htail : ∀ {i segStart : ℕ} {pending : List Instruction},
      (∀ x ∈ pending ++ p.slice segStart i, p.Dispatches x) →
      seg ∈ p.tailSegment i segStart pending →
      (∀ insts layer, seg = .moe insts layer → insts ≠ []) ∧
        ∀ x ∈ seg.insts, p.Dispatches x := by
    intro i segStart pending hscan h
    rw [tailSegment] at h
    split at h
    · obtain rfl := List.mem_singleton.mp h
      exact ⟨fun _ _ heq => Segment.noConfusion heq, hscan⟩
    · exact absurd h List.not_mem_nil
  fun_induction P2pStep.cut p attnI moeI i segStart pending with
  | case1 => exact htail hscan h
  | case2 => exact htail hscan h
  | case3 attnI moeI i segStart pending inst hi hinst m hm ih =>
      have hnext := dispatches_slice_succ hi hle hinst hscan
      rcases List.mem_cons.mp h with rfl | h
      · refine ⟨fun insts layer heq => ?_, hnext⟩
        obtain ⟨rfl, -⟩ := Segment.moe.inj heq
        rw [slice_succ hi hle]
        simp
      · exact ih le_rfl (by simp [slice_self]) h
  | case4 attnI moeI i segStart pending inst hi hinst hm a ha next ih =>
      have hnext := dispatches_slice_succ hi hle hinst hscan
      rcases List.mem_cons.mp h with rfl | h
      · exact ⟨fun _ _ heq => Segment.noConfusion heq, hnext⟩
      · refine ih le_rfl ?_ h
        rw [slice_self, List.append_nil]
        exact fun x hx => .gather hx
  | case5 attnI moeI i segStart pending inst hi hinst hm ha ih =>
      exact ih (by omega) (dispatches_slice_succ hi hle hinst hscan) h

lemma segments_spec {seg : Segment} (h : seg ∈ p.segments) :
    (∀ insts layer, seg = .moe insts layer → insts ≠ []) ∧
      ∀ x ∈ seg.insts, p.Dispatches x :=
  cut_spec le_rfl (by simp [slice_self]) h

/-- The loop passes over an instruction at no boundary. -/
lemma cut_scan {attnI moeI i segStart : ℕ} {pending : List Instruction} {inst : Instruction}
    (hi : p.program[i]? = some inst) (hinst : inst.opcode ≠ opHalt)
    (hm : p.moeBoundaries[moeI]?.filter (fun m => i = m.1) = none)
    (ha : p.attnBoundaries[attnI]?.filter (fun a => p.hasHeadParallel ∧ i = a.1) = none) :
    p.cut attnI moeI i segStart pending = p.cut attnI moeI (i + 1) segStart pending := by
  rw [P2pStep.cut]
  split
  · rename_i h
    exact absurd (hi.symm.trans h) (by simp)
  · rename_i inst' h
    obtain rfl : inst = inst' := Option.some.inj (hi.symm.trans h)
    rw [if_neg hinst, hm]
    simp only
    split
    · rename_i a h'
      exact absurd (ha.symm.trans h') (by simp)
    · rfl

/-- The loop at a MoE boundary. -/
lemma cut_moe {attnI moeI i segStart : ℕ} {pending : List Instruction} {inst : Instruction}
    {m : ℕ × ℕ} (hi : p.program[i]? = some inst) (hinst : inst.opcode ≠ opHalt)
    (hm : p.moeBoundaries[moeI]?.filter (fun m => i = m.1) = some m) :
    p.cut attnI moeI i segStart pending =
      .moe (pending ++ p.slice segStart (i + 1)) m.2 ::
        p.cut attnI (moeI + 1) (i + 1) (i + 1) [] := by
  rw [P2pStep.cut]
  split
  · rename_i h
    exact absurd (hi.symm.trans h) (by simp)
  · rename_i inst' h
    obtain rfl : inst = inst' := Option.some.inj (hi.symm.trans h)
    rw [if_neg hinst, hm]

/-- The loop at the end of the program. -/
lemma cut_end {attnI moeI i segStart : ℕ} {pending : List Instruction}
    (hi : p.program[i]? = none) :
    p.cut attnI moeI i segStart pending = p.tailSegment i segStart pending := by
  rw [P2pStep.cut]
  split
  · rfl
  · rename_i h
    exact absurd (hi.symm.trans h) (by simp)

/-! ### A step is synchronized -/

lemma dispatchHeadParallelAttention_synced (p : P2pStep W) (attnI : ℕ) :
    Synced (p.dispatchHeadParallelAttention attnI) := by
  intro rest hrest
  let ws : Fin (W + 1) → List (List (Fin (W + 1))) :=
    fun g => if g = 0 ∧ p.flags.raceProbe then [[0]] else []
  have hws : ∀ g : Fin (W + 1),
      (if g = 0 ∧ p.flags.raceProbe then [HostOp.wait [0]] else []) = (ws g).map .wait := by
    intro g
    simp only [ws]
    split <;> rfl
  rw [dispatchHeadParallelAttention, List.append_assoc]
  simp only [hws]
  refine Waits.fires id (by simpa using List.nodup_finRange _)
    (fun g => ⟨p.attnBatch attnI g, 0⟩) ws (fun g _ => Finset.notMem_empty _) (Waits.each ?_)
  simpa using hrest

lemma dispatchMoe_synced (hack : p.flags.ackMode p.bpStep = .full) {insts : List Instruction}
    (hne : insts ≠ []) (hle : insts.length ≤ maxBatchInstructions) (layer : ℕ) :
    Synced (fireChunks insts ++ p.dispatchMoeWorkersDecodeAsync layer) := by
  intro rest hrest
  have hnd : ((List.finRange W).map Fin.succ).Nodup :=
    (List.nodup_finRange W).map (Fin.succ_injective W)
  have hzero : ∀ w ∈ List.finRange W, w.succ ∉ (insert 0 ∅ : Finset (Fin (W + 1))) := by
    intro w _
    simp [Fin.succ_ne_zero]
  -- GPU 0 first, then the workers, then one wait for all of them
  rw [fireChunks, chunks_of_length_le hne hle, dispatchMoeWorkersDecodeAsync, hack,
    List.map_eq_flatMap (l := List.finRange W), List.append_assoc, List.append_assoc]
  refine ⟨Finset.notMem_empty _, ?_⟩
  refine Waits.fires Fin.succ hnd (fun w => ⟨[p.ffnRemote layer w], 0⟩) (fun _ => []) hzero ?_
  show Waits (_ \ ((List.finRange W).map Fin.succ ++ [0]).toFinset) rest
  refine hrest.mono ?_
  intro g hg
  simp only [Finset.mem_sdiff, Finset.mem_union, Finset.mem_insert, Finset.notMem_empty,
    or_false, List.toFinset_append, List.mem_toFinset, List.mem_singleton, not_or] at hg
  exact absurd hg.1 (not_or.mpr ⟨hg.2.2, hg.2.1⟩)

lemma dispatchSegment_synced (hp : p.Fits) {seg : Segment} (h : seg ∈ p.segments) :
    Synced (p.dispatchSegment seg) := by
  cases seg with
  | moe insts layer =>
      exact dispatchMoe_synced hp.ack_full ((segments_spec h).1 insts layer rfl)
        (hp.moe_le insts layer h) layer
  | attn insts attnI =>
      exact (Synced.flatMap fun batch _ => .fire_wait 0 batch).append
        (p.dispatchHeadParallelAttention_synced attnI)
  | tail insts => exact .flatMap fun chunk _ => .fire_wait 0 _

lemma decodeStepP2p_synced (hp : p.Fits) : Synced p.decodeStepP2p :=
  .flatMap fun _ hseg => dispatchSegment_synced hp hseg

/-- Every batch of a step fits the mailbox and holds instructions of the step. -/
lemma fire_spec {g : Fin (W + 1)} {batch : Batch} (h : .fire g batch ∈ p.decodeStepP2p) :
    batch.insts ≠ [] ∧ batch.insts.length ≤ maxBatchInstructions ∧
      ∀ i ∈ batch.insts, p.Dispatches i := by
  obtain ⟨seg, hseg, hfire⟩ := List.mem_flatMap.mp h
  have hchunk : ∀ {chunk}, chunk ∈ chunks seg.insts → chunk ≠ [] ∧
      chunk.length ≤ maxBatchInstructions ∧ ∀ i ∈ chunk, p.Dispatches i := by
    intro chunk hc
    obtain ⟨hne, hle, hmem⟩ := mem_chunks hc
    exact ⟨hne, hle, fun i hi => (segments_spec hseg).2 i (hmem i hi)⟩
  cases seg with
  | moe insts layer =>
      rcases List.mem_append.mp hfire with hfire | hfire
      · obtain ⟨chunk, hc, heq⟩ := List.mem_map.mp hfire
        obtain ⟨-, rfl⟩ := HostOp.fire.inj heq
        exact hchunk hc
      · rcases List.mem_append.mp hfire with hfire | hfire
        · obtain ⟨w, -, heq⟩ := List.mem_map.mp hfire
          obtain ⟨-, rfl⟩ := HostOp.fire.inj heq
          refine ⟨by simp, by simp [maxBatchInstructions], fun i hi => ?_⟩
          rw [List.mem_singleton.mp hi]
          exact .ffnRemote layer w
        · split at hfire
          · exact absurd hfire List.not_mem_nil
          · exact absurd hfire (by simp)
          · exact absurd hfire (by simp)
  | attn insts attnI =>
      rcases List.mem_append.mp hfire with hfire | hfire
      · obtain ⟨b, hb, hpair⟩ := List.mem_flatMap.mp hfire
        obtain ⟨-, rfl⟩ : g = 0 ∧ batch = b := by
          simpa [dispatchBatchWithBase] using hpair
        exact hchunk (mem_withBase hb)
      · rcases List.mem_append.mp hfire with hfire | hfire
        · obtain ⟨g', -, hg'⟩ := List.mem_flatMap.mp hfire
          rcases List.mem_cons.mp hg' with heq | hwait
          · obtain ⟨-, rfl⟩ := HostOp.fire.inj heq
            have hproper := p.attnBatch_proper attnI g'
            exact ⟨hproper.nonempty, hproper.length_le, fun i hi => .attnBatch hi⟩
          · split at hwait
            · exact absurd hwait (by simp)
            · exact absurd hwait List.not_mem_nil
        · exact absurd hfire (by simp)
  | tail insts =>
      obtain ⟨chunk, hc, hpair⟩ := List.mem_flatMap.mp hfire
      obtain ⟨-, rfl⟩ : g = 0 ∧ batch = ⟨chunk, 0⟩ := by
        simpa [dispatchBatchWithBase] using hpair
      exact hchunk hc

/-- Every batch of a step runs to its acknowledgement. -/
lemma fire_proper {g : Fin (W + 1)} {batch : Batch} (h : .fire g batch ∈ p.decodeStepP2p) :
    batch.Proper := by
  obtain ⟨hne, hle, hsent⟩ := fire_spec h
  exact ⟨hne, hle, fun i hi => (hsent i hi).ne_halt⟩

end P2pStep

variable {W : ℕ} {N : Fin (W + 1) → ℕ}

lemma decodeStepsP2p_disciplined {steps : List (P2pStep W)} (hfit : ∀ p ∈ steps, p.Fits)
    (hcount : ∀ g, (firesTo g (decodeStepsP2p steps)).length ≤ 2 ^ 32 - 2) :
    Disciplined (decodeStepsP2p steps) where
  waits := (Synced.flatMap fun p hp => P2pStep.decodeStepP2p_synced (hfit p hp)).waits
  proper := by
    intro g batch hb
    obtain ⟨p, -, hfire⟩ := List.mem_flatMap.mp (mem_firesTo.mp hb)
    exact P2pStep.fire_proper hfire
  count := hcount

/-- The batches of steps whose operators end in grid barriers are complete when they are
acknowledged. -/
lemma decodeStepsP2p_completeAtAck {steps : List (P2pStep W)} (hfit : ∀ p ∈ steps, p.Fits)
    (g : Fin (W + 1)) {n : ℕ} (loads : ℕ → ℕ → Loads) :
    CompleteAtAck loads n (firesTo g (decodeStepsP2p steps)) := by
  refine completeAtAck_of_endsInBarrier fun batch hb i hi => ?_
  obtain ⟨p, hp, hfire⟩ := List.mem_flatMap.mp (mem_firesTo.mp hb)
  exact (hfit p hp).barrier i ((P2pStep.fire_spec hfire).2.2 i hi)

/-- An `OP_MOE_FFN_REMOTE` with a result sentinel. -/
def sentinelRemote : Instruction :=
  ⟨fun j => if j.val = 0 then 44 else if j.val = 17 then 4096 else 0⟩

/-- A program with one MoE boundary, one worker, all waits on. -/
def shortStep : P2pStep 1 where
  program := [.ofOpcode 1, .ofOpcode 2]
  moeBoundaries := [(0, 0)]
  attnBoundaries := []
  hasHeadParallel := false
  useDistributedQkv := false
  attnBatch := fun _ _ => [.ofOpcode 1]
  gather := fun _ => []
  ffnRemote := fun _ _ => sentinelRemote
  flags := ⟨false, false, false, false⟩
  bpStep := 0
  attnBatch_proper := by
    intro _ _
    refine ⟨by simp, by simp [maxBatchInstructions], fun i hi => ?_⟩
    rw [List.mem_singleton.mp hi]
    decide
  gather_no_halt := fun _ _ hi => absurd hi List.not_mem_nil
  ffnRemote_no_halt := fun _ _ => by decide

lemma shortStep_segments :
    shortStep.segments = [.moe [.ofOpcode 1] 0, .tail [.ofOpcode 2]] := by
  rw [P2pStep.segments, P2pStep.cut_moe (m := (0, 0)) rfl (by decide) rfl,
    P2pStep.cut_scan rfl (by decide) rfl rfl, P2pStep.cut_end rfl]
  rfl

lemma shortStep_fits : shortStep.Fits where
  moe_le := by
    intro insts layer h
    rw [shortStep_segments] at h
    rcases List.mem_cons.mp h with h | h
    · rw [(Segment.moe.inj h).1]
      simp [maxBatchInstructions]
    · exact absurd h (by simp)
  ack_full := rfl
  barrier := by
    intro i hi
    cases hi with
    | program h _ =>
        rcases List.mem_cons.mp h with rfl | h
        · exact fun h => absurd h (by decide)
        · rw [List.mem_singleton.mp h]
          exact fun h => absurd h (by decide)
    | attnBatch h =>
        rw [List.mem_singleton.mp h]
        exact fun h => absurd h (by decide)
    | gather h => exact absurd h List.not_mem_nil
    | ffnRemote => exact fun _ => rfl

/-- What the host does in `shortStep`. -/
lemma shortStep_ops : decodeStepsP2p [shortStep] =
    [.fire 0 ⟨[.ofOpcode 1], 0⟩, .fire 1 ⟨[sentinelRemote], 0⟩, .wait [1, 0],
      .fire 0 ⟨[.ofOpcode 2], 0⟩, .wait [0]] := by
  have hone : ∀ op, chunks [Instruction.ofOpcode op] = [[.ofOpcode op]] :=
    fun op => chunks_of_length_le (by simp) (by simp [maxBatchInstructions])
  rw [decodeStepsP2p, List.flatMap_singleton, P2pStep.decodeStepP2p, shortStep_segments]
  simp only [List.flatMap_cons, List.flatMap_nil, P2pStep.dispatchSegment, P2pStep.fireChunks,
    hone]
  rfl

/-- A program of 257 instructions in front of the first MoE boundary, with one worker, all
waits on. -/
def longStep : P2pStep 1 where
  program := List.replicate 256 (.ofOpcode 1) ++ [.ofOpcode 2]
  moeBoundaries := [(256, 0)]
  attnBoundaries := []
  hasHeadParallel := false
  useDistributedQkv := false
  attnBatch := fun _ _ => [.ofOpcode 1]
  gather := fun _ => []
  ffnRemote := fun _ _ => .ofOpcode 1
  flags := ⟨false, false, false, false⟩
  bpStep := 0
  attnBatch_proper := by
    intro _ _
    refine ⟨by simp, by simp [maxBatchInstructions], fun i hi => ?_⟩
    rw [List.mem_singleton.mp hi]
    decide
  gather_no_halt := fun _ _ hi => absurd hi List.not_mem_nil
  ffnRemote_no_halt := fun _ _ => by decide

lemma longStep_cut {i : ℕ} (hi : i ≤ 256) :
    longStep.cut 0 0 i 0 [] = .moe longStep.program 0 :: longStep.cut 0 1 257 257 [] := by
  have hlen : longStep.program.length = 257 := by
    rw [longStep, List.length_append, List.length_replicate, List.length_singleton]
  have hop : ∀ (j : ℕ) (inst : Instruction),
      longStep.program[j]? = some inst → inst.opcode ≠ opHalt := by
    intro j inst hj
    rcases List.mem_append.mp (List.mem_of_getElem? hj) with h | h
    · rw [List.eq_of_mem_replicate h]
      decide
    · rw [List.mem_singleton.mp h]
      decide
  induction hi using Nat.decreasingInduction with
  | self =>
      have hget := List.getElem?_eq_getElem (l := longStep.program) (i := 256) (by omega)
      rw [P2pStep.cut_moe (m := (256, 0)) hget (hop _ _ hget) rfl, P2pStep.slice,
        List.take_of_length_le hlen.le]
      rfl
  | of_succ i hlt ih =>
      have hget := List.getElem?_eq_getElem (l := longStep.program) (i := i) (by omega)
      rw [P2pStep.cut_scan hget (hop _ _ hget) ?_ rfl, ih]
      show Option.filter (fun m => decide (i = m.1)) (some (256, 0)) = none
      rw [Option.filter_some, if_neg]
      simp
      omega

lemma longStep_chunks :
    chunks longStep.program = [List.replicate 256 (.ofOpcode 1), [.ofOpcode 2]] := by
  have hlen : (List.replicate 256 (Instruction.ofOpcode 1)).length = maxBatchInstructions :=
    List.length_replicate
  rw [longStep, chunks, if_neg (List.append_ne_nil_of_right_ne_nil _ (List.cons_ne_nil _ _)),
    List.take_left' hlen, List.drop_left' hlen,
    chunks_of_length_le (by simp) (by simp [maxBatchInstructions])]

/-- The first two things the host does in `longStep`. -/
lemma longStep_ops : ∃ rest, decodeStepsP2p [longStep] =
    .fire 0 ⟨List.replicate 256 (.ofOpcode 1), 0⟩ :: .fire 0 ⟨[.ofOpcode 2], 0⟩ :: rest := by
  rw [decodeStepsP2p, List.flatMap_singleton, P2pStep.decodeStepP2p, P2pStep.segments,
    longStep_cut (Nat.zero_le _), List.flatMap_cons, P2pStep.dispatchSegment,
    P2pStep.fireChunks, longStep_chunks]
  exact ⟨_, rfl⟩

end Braidinfer.Mailbox
