/-
Synchronous dispatch: `dispatch_batch_with_base` and `dispatch_batch_slice`
(`persistent_dispatch.rs`).

A slice of any length goes out in batches of at most `MAX_BATCH_INSTRUCTIONS`, each waited for
before the next is fired.  `pc_base` is a 32-bit counter, so the index that an instruction runs
under is its index in the slice modulo `2 ^ 32`.

* `sliceBatches_entries`: the batches of a slice amount to the slice;
* `dispatchBatchSlice_exactly_once`: every block executes the slices, each instruction once and
  in order, under every interleaving;
* `dispatchBatchSlice_index_wraps`: a slice whose instruction number `2 ^ 32` runs under index
  `0`.
-/
import Braidinfer.Mailbox.Progress

namespace Braidinfer.Mailbox

open Braidinfer.Lib

variable {G : ℕ} {N : Fin G → ℕ}

/-- `dispatch_batch_with_base`: fire, and wait for the acknowledgement. -/
def dispatchBatchWithBase (g : Fin G) (insts : List Instruction) (pcBase : ℕ) :
    List (HostOp G) :=
  [.fire g ⟨insts, pcBase⟩, .wait [g]]

/-- `instructions.chunks(MAX_BATCH_INSTRUCTIONS)`. -/
def chunks (insts : List Instruction) : List (List Instruction) :=
  if insts = [] then []
  else insts.take maxBatchInstructions :: chunks (insts.drop maxBatchInstructions)
termination_by insts.length
decreasing_by
  have hpos : 0 < insts.length := List.length_pos_iff.mpr ‹_›
  rw [List.length_drop, maxBatchInstructions]
  omega

/-- The chunks with their `pc_base`, a `u32` to which the length of each chunk is added. -/
def withBase : ℕ → List (List Instruction) → List Batch
  | _, [] => []
  | pcBase, chunk :: rest => ⟨chunk, pcBase⟩ :: withBase ((pcBase + chunk.length) % 2 ^ 32) rest

/-- The batches of a slice. -/
def sliceBatches (insts : List Instruction) : List Batch := withBase 0 (chunks insts)

/-- `dispatch_batch_slice`. -/
def dispatchBatchSlice (g : Fin G) (insts : List Instruction) : List (HostOp G) :=
  (sliceBatches insts).flatMap fun batch => dispatchBatchWithBase g batch.insts batch.pcBase

/-- A sequence of calls of `dispatch_batch_slice`. -/
def dispatchSlices (calls : List (Fin G × List Instruction)) : List (HostOp G) :=
  calls.flatMap fun c => dispatchBatchSlice c.1 c.2

/-- The slices dispatched to `g`, every instruction with its index in its slice, in 32 bits. -/
def sliceEntries (g : Fin G) (calls : List (Fin G × List Instruction)) :
    List (Instruction × ℕ) :=
  (calls.filter fun c => c.1 = g).flatMap fun c => c.2.mapIdx fun i inst => (inst, i % 2 ^ 32)

section Slices

variable {insts chunk : List Instruction} {batch : Batch}

lemma chunks_flatten (insts : List Instruction) : (chunks insts).flatten = insts := by
  fun_induction chunks insts with
  | case1 => rfl
  | case2 insts hne ih => rw [List.flatten_cons, ih, List.take_append_drop]

/-- Every chunk has an instruction, fits the mailbox, and consists of instructions of the
slice. -/
lemma mem_chunks (h : chunk ∈ chunks insts) :
    chunk ≠ [] ∧ chunk.length ≤ maxBatchInstructions ∧ ∀ i ∈ chunk, i ∈ insts := by
  fun_induction chunks insts with
  | case1 => exact absurd h List.not_mem_nil
  | case2 insts hne ih =>
      rcases List.mem_cons.mp h with rfl | h
      · refine ⟨?_, List.length_take_le _ _, fun i hi => List.mem_of_mem_take hi⟩
        rw [Ne, List.take_eq_nil_iff, not_or]
        exact ⟨by decide, hne⟩
      · obtain ⟨hne', hle, hmem⟩ := ih h
        exact ⟨hne', hle, fun i hi => List.mem_of_mem_drop (hmem i hi)⟩

lemma length_chunks (insts : List Instruction) :
    maxBatchInstructions * (chunks insts).length < insts.length + maxBatchInstructions := by
  fun_induction chunks insts with
  | case1 => decide
  | case2 insts hne ih =>
      have hpos := List.length_pos_iff.mpr hne
      rw [List.length_drop] at ih
      rw [List.length_cons, Nat.mul_succ]
      rw [maxBatchInstructions] at ih ⊢
      omega

/-- What fits the mailbox is one chunk. -/
lemma chunks_of_length_le (hne : insts ≠ []) (hle : insts.length ≤ maxBatchInstructions) :
    chunks insts = [insts] := by
  rw [chunks, if_neg hne, List.take_of_length_le hle, List.drop_of_length_le hle, chunks,
    if_pos rfl]

/-- The batches amount to the instructions under consecutive indices. -/
lemma withBase_entries (pcBase : ℕ) (cs : List (List Instruction)) :
    (withBase pcBase cs).flatMap Batch.entries =
      cs.flatten.mapIdx fun i inst => (inst, (i + pcBase) % 2 ^ 32) := by
  induction cs generalizing pcBase with
  | nil => rfl
  | cons chunk rest ih =>
      rw [withBase, List.flatMap_cons, ih, List.flatten_cons, List.mapIdx_append, Batch.entries]
      congr 2
      funext i inst
      rw [Nat.add_mod_mod, Nat.add_comm pcBase, Nat.add_assoc]

/-- **The batches of a slice amount to the slice.** -/
lemma sliceBatches_entries (insts : List Instruction) :
    (sliceBatches insts).flatMap Batch.entries =
      insts.mapIdx fun i inst => (inst, i % 2 ^ 32) := by
  rw [sliceBatches, withBase_entries, chunks_flatten]
  simp only [Nat.add_zero]

lemma mem_withBase {pcBase : ℕ} {cs : List (List Instruction)}
    (h : batch ∈ withBase pcBase cs) : batch.insts ∈ cs := by
  induction cs generalizing pcBase with
  | nil => exact absurd h List.not_mem_nil
  | cons chunk rest ih =>
      rcases List.mem_cons.mp h with rfl | h
      · exact List.mem_cons_self
      · exact List.mem_cons_of_mem _ (ih h)

lemma length_withBase (pcBase : ℕ) (cs : List (List Instruction)) :
    (withBase pcBase cs).length = cs.length := by
  induction cs generalizing pcBase with
  | nil => rfl
  | cons chunk rest ih => rw [withBase, List.length_cons, List.length_cons, ih]

lemma length_sliceBatches (insts : List Instruction) :
    maxBatchInstructions * (sliceBatches insts).length <
      insts.length + maxBatchInstructions := by
  rw [sliceBatches, length_withBase]
  exact length_chunks insts

end Slices

lemma dispatchSlices_synced (calls : List (Fin G × List Instruction)) :
    Synced (dispatchSlices calls) :=
  .flatMap fun c _ => .flatMap fun batch _ => .fire_wait c.1 batch

lemma firesTo_dispatchBatchSlice (g g' : Fin G) (insts : List Instruction) :
    firesTo g (dispatchBatchSlice g' insts) = if g' = g then sliceBatches insts else [] := by
  rw [dispatchBatchSlice]
  induction sliceBatches insts with
  | nil => simp [firesTo]
  | cons batch batches ih =>
      rw [List.flatMap_cons, firesTo_append, ih]
      by_cases hg : g' = g
      · simp [dispatchBatchWithBase, firesTo, hg]
      · simp [dispatchBatchWithBase, firesTo, hg]

/-- What the calls fire to `g`. -/
lemma firesTo_dispatchSlices (g : Fin G) (calls : List (Fin G × List Instruction)) :
    firesTo g (dispatchSlices calls) =
      (calls.filter fun c => c.1 = g).flatMap fun c => sliceBatches c.2 := by
  induction calls with
  | nil => rfl
  | cons c calls ih =>
      rw [dispatchSlices, List.flatMap_cons, firesTo_append, firesTo_dispatchBatchSlice]
      rw [dispatchSlices] at ih
      rw [ih]
      by_cases hg : c.1 = g
      · simp [hg]
      · simp [hg]

lemma entries_dispatchSlices (g : Fin G) (calls : List (Fin G × List Instruction)) :
    (firesTo g (dispatchSlices calls)).flatMap Batch.entries = sliceEntries g calls := by
  rw [firesTo_dispatchSlices, List.flatMap_assoc, sliceEntries]
  simp only [sliceBatches_entries]

/-- The number of batches of a sequence of calls. -/
def numBatches (calls : List (Fin G × List Instruction)) : ℕ :=
  (calls.map fun c => (sliceBatches c.2).length).sum

lemma length_firesTo_le (g : Fin G) (calls : List (Fin G × List Instruction)) :
    (firesTo g (dispatchSlices calls)).length ≤ numBatches calls := by
  rw [firesTo_dispatchSlices, List.length_flatMap, numBatches]
  exact (List.filter_sublist.map _).sum_le_sum (fun _ _ => Nat.zero_le _)

/-- Synchronous dispatch follows the discipline. -/
lemma dispatchSlices_disciplined {calls : List (Fin G × List Instruction)}
    (hhalt : ∀ c ∈ calls, ∀ i ∈ c.2, i.opcode ≠ opHalt)
    (hcount : numBatches calls < 2 ^ 32 - 2) : Disciplined (dispatchSlices calls) where
  waits := (dispatchSlices_synced calls).waits
  proper := by
    intro g batch hb
    rw [firesTo_dispatchSlices] at hb
    obtain ⟨c, hc, hbatch⟩ := List.mem_flatMap.mp hb
    obtain ⟨hne, hle, hmem⟩ := mem_chunks (mem_withBase hbatch)
    exact ⟨hne, hle, fun i hi => hhalt c (List.mem_of_mem_filter hc) i (hmem i hi)⟩
  count := fun g => (length_firesTo_le g calls).trans hcount.le

/-- Below `2 ^ 32` instructions the index an instruction runs under is its index. -/
lemma sliceEntries_eq {calls : List (Fin G × List Instruction)}
    (h : ∀ c ∈ calls, c.2.length ≤ 2 ^ 32) (g : Fin G) :
    sliceEntries g calls =
      (calls.filter fun c => c.1 = g).flatMap fun c => c.2.mapIdx fun i inst => (inst, i) := by
  rw [sliceEntries, List.flatMap_def, List.flatMap_def]
  congr 1
  refine List.map_congr_left fun c hc => ?_
  have hlen := h c (List.mem_of_mem_filter hc)
  refine List.ext_getElem (by simp) fun i h₁ h₂ => ?_
  rw [List.length_mapIdx] at h₂
  rw [List.getElem_mapIdx, List.getElem_mapIdx, Nat.mod_eq_of_lt (by omega)]

/-- A host with operations left has a GPU. -/
lemma pos_of_run {calls : List (Fin G × List Instruction)} {as : List (Act N)} {s : Machine N}
    (hr : Run Machine.Step (Machine.init (dispatchSlices calls)) as s) (hne : s.ops ≠ []) :
    0 < G := by
  cases hr with
  | nil =>
      cases calls with
      | nil => exact absurd rfl hne
      | cons c _ => exact c.1.pos
  | @snoc _ _ _ a =>
      cases a with
      | host target => exact target.pos
      | block g => exact g.pos

/-- **Exactly once and in order.**  In every state of every run of calls of
`dispatch_batch_slice`: every block has executed a prefix of the slices dispatched to its GPU,
each instruction with its index in its slice modulo `2 ^ 32`; all blocks of a GPU agree on the
batch they execute; the batch fired as number `k` has number `k`, and when the host reads
`ack = k`, every block has executed everything up to it.  The run is bounded, it can go on as
long as the host has something left to do, and when it has not, every block has executed exactly
the slices. -/
theorem dispatchBatchSlice_exactly_once {calls : List (Fin G × List Instruction)}
    (hhalt : ∀ c ∈ calls, ∀ i ∈ c.2, i.opcode ≠ opHalt)
    (hcount : numBatches calls < 2 ^ 32 - 2) {as : List (Act N)} {s : Machine N}
    (hr : Run Machine.Step (Machine.init (dispatchSlices calls)) as s) :
    (∀ g b, ((s.workers g).blocks b).log <+: sliceEntries g calls) ∧
    (∀ g b b' hd hd', ((s.workers g).blocks b).phase.header? = some hd →
      ((s.workers g).blocks b').phase.header? = some hd' → hd = hd') ∧
    (∀ g, (s.workers g).seqCounter = (s.workers g).fired.length ∧
      (s.workers g).fired <+: firesTo g (dispatchSlices calls)) ∧
    (∀ g b, logAt (s.workers g).fired (s.workers g).queue.ack <+:
      ((s.workers g).blocks b).log) ∧
    as.length ≤ Machine.maxSteps N (dispatchSlices calls) ∧
    (s.ops ≠ [] → ∃ a t, s.step a = some t) ∧
    (s.ops = [] → ∀ g b, ((s.workers g).blocks b).log = sliceEntries g calls) ∧
    ((∀ c ∈ calls, c.2.length ≤ 2 ^ 32) → ∀ g, sliceEntries g calls =
      (calls.filter fun c => c.1 = g).flatMap fun c => c.2.mapIdx fun i inst => (inst, i)) := by
  have hd := dispatchSlices_disciplined hhalt hcount
  have hinv := Machine.Inv.of_run hd hr
  have hfired : ∀ g, (s.workers g).fired <+: firesTo g (dispatchSlices calls) :=
    fun g => ⟨firesTo g s.ops, hinv.fired_eq g⟩
  refine ⟨fun g b => ?_, ?_, fun g => ⟨(hinv.worker g).seqCounter_eq, hfired g⟩, ?_,
    Machine.Inv.run_length_le hd hr, ?_, fun hops g b => ?_, sliceEntries_eq⟩
  · have hlog := ((hinv.worker g).block_ok b).log_isPrefix_logAt
    rw [logAt_length] at hlog
    obtain ⟨rest, hrest⟩ := hfired g
    refine hlog.trans ⟨rest.flatMap Batch.entries, ?_⟩
    rw [← List.flatMap_append, hrest, entries_dispatchSlices]
  · intro g b b' hd hd'
    exact (hinv.worker g).header_agree
  · intro g b
    exact (hinv.worker g).executed_of_ack le_rfl b
  · intro hne
    exact hinv.exists_step hd (pos_of_run hr hne) hne
  · rw [hinv.log_eq_of_done hops b, entries_dispatchSlices]

/-- Lists of any length exist. -/
lemma exists_replicated {α : Type*} (x : α) (n : ℕ) :
    ∃ l : List α, l.length = n ∧ ∀ y ∈ l, y = x :=
  ⟨List.replicate n x, List.length_replicate, fun _ h => List.eq_of_mem_replicate h⟩

/-- A slice of equal instructions. -/
lemma entries_replicate {n : ℕ} (hn : n ≤ 2 ^ 32) (inst : Instruction) :
    (List.replicate n inst).mapIdx (fun i inst => (inst, i % 2 ^ 32)) =
      (List.range n).map (inst, ·) := by
  refine List.ext_getElem (by simp) fun i _ hi => ?_
  rw [List.length_map, List.length_range] at hi
  rw [List.getElem_mapIdx, List.getElem_replicate, List.getElem_map, List.getElem_range,
    Nat.mod_eq_of_lt (lt_of_lt_of_le hi hn)]

/-- Calls for two GPUs, the first of two batches. -/
def threeCalls : List (Fin 2 × List Instruction) :=
  [(0, List.replicate 257 (.ofOpcode 1)), (1, [.ofOpcode 2, .ofOpcode 3]), (0, [.ofOpcode 4])]

/-- Two GPUs with two blocks each: some run gets through, and then both blocks of the first have
executed its two slices, the second slice from index 0, and those of the other GPU the slice
between them. -/
theorem dispatchBatchSlice_exactly_once_two_gpus :
    ∃ (as : List (Act fun _ : Fin 2 => 1)) (s : Machine fun _ : Fin 2 => 1),
      Run Machine.Step (Machine.init (dispatchSlices threeCalls)) as s ∧
        ∀ b, ((s.workers 0).blocks b).log = (List.range 257).map (.ofOpcode 1, ·) ++
            [(.ofOpcode 4, 0)] ∧
          ((s.workers 1).blocks b).log = [(.ofOpcode 2, 0), (.ofOpcode 3, 1)] := by
  have hhalt : ∀ c ∈ threeCalls, ∀ i ∈ c.2, i.opcode ≠ opHalt := by
    intro c hc i hi
    simp only [threeCalls, List.mem_cons, List.not_mem_nil, or_false] at hc
    rcases hc with rfl | rfl | rfl
    · rw [List.eq_of_mem_replicate hi]
      decide
    · rcases List.mem_pair.mp hi with rfl | rfl <;> decide
    · rw [List.mem_singleton.mp hi]
      decide
  have hcount : numBatches threeCalls < 2 ^ 32 - 2 := by
    have h₁ := length_sliceBatches (List.replicate 257 (Instruction.ofOpcode 1))
    have h₂ := length_sliceBatches [Instruction.ofOpcode 2, .ofOpcode 3]
    have h₃ := length_sliceBatches [Instruction.ofOpcode 4]
    simp only [maxBatchInstructions, List.length_replicate, List.length_cons, List.length_nil]
      at h₁ h₂ h₃
    simp only [numBatches, threeCalls, List.map_cons, List.map_nil, List.sum_cons, List.sum_nil]
    omega
  obtain ⟨as, s, hr, hops⟩ := Machine.exists_complete_run (N := fun _ : Fin 2 => 1)
    (dispatchSlices_disciplined hhalt hcount) Nat.two_pos
  obtain ⟨-, -, -, -, -, -, hlog, -⟩ := dispatchBatchSlice_exactly_once hhalt hcount hr
  refine ⟨as, s, hr, fun b => ⟨(hlog hops 0 b).trans ?_, (hlog hops 1 b).trans rfl⟩⟩
  have hcalls : (threeCalls.filter fun c => c.1 = 0) =
      [(0, List.replicate 257 (.ofOpcode 1)), (0, [.ofOpcode 4])] := rfl
  rw [sliceEntries, hcalls, List.flatMap_cons, entries_replicate (by decide)]
  rfl

/-- **The index wraps.**  A slice of `2 ^ 32 + 1` instructions, fewer than `2 ^ 32 - 2` batches:
when the host is through, instruction number `2 ^ 32` has run under index `0`. -/
theorem dispatchBatchSlice_index_wraps :
    ∃ insts : List Instruction, insts.length = 2 ^ 32 + 1 ∧ (∀ i ∈ insts, i = .ofOpcode 1) ∧
      numBatches [((0 : Fin 1), insts)] < 2 ^ 32 - 2 ∧
      ∃ (as : List (Act fun _ : Fin 1 => 0)) (s : Machine fun _ : Fin 1 => 0),
        Run Machine.Step (Machine.init (dispatchSlices [(0, insts)])) as s ∧ s.ops = [] ∧
        ((s.workers 0).blocks 0).log[2 ^ 32]? = some (.ofOpcode 1, 0) := by
  obtain ⟨insts, hlen, hall⟩ := exists_replicated (Instruction.ofOpcode 1) (2 ^ 32 + 1)
  have hhalt : ∀ c ∈ [((0 : Fin 1), insts)], ∀ i ∈ c.2, i.opcode ≠ opHalt := by
    intro c hc i hi
    obtain rfl := List.mem_singleton.mp hc
    rw [hall i hi]
    decide
  have hcount : numBatches [((0 : Fin 1), insts)] < 2 ^ 32 - 2 := by
    have := length_sliceBatches insts
    rw [hlen, maxBatchInstructions] at this
    simp only [numBatches, List.map_cons, List.map_nil, List.sum_cons, List.sum_nil]
    omega
  have hd := dispatchSlices_disciplined hhalt hcount
  obtain ⟨as, s, hr, hops⟩ := Machine.exists_complete_run (N := fun _ : Fin 1 => 0) hd Nat.one_pos
  refine ⟨insts, hlen, hall, hcount, as, s, hr, hops, ?_⟩
  have hone : sliceEntries 0 [((0 : Fin 1), insts)] =
      insts.mapIdx fun i inst => (inst, i % 2 ^ 32) := by
    simp [sliceEntries]
  have hlt : 2 ^ 32 < insts.length := by omega
  rw [(Machine.Inv.of_run hd hr).log_eq_of_done hops 0, entries_dispatchSlices, hone,
    List.getElem?_mapIdx, List.getElem?_eq_getElem hlt, hall _ (List.getElem_mem hlt),
    Option.map_some, Nat.mod_self]

end Braidinfer.Mailbox
