/-
How long a run can get.

Every step of a block brings it one step further through the batches fired to its worker, and
every step of the host brings it one step further through its operations.  Counting both gives
the length of a run, so runs are bounded; together with `Machine.Inv.exists_step`, a run that
cannot be continued is one in which the host is through.

* `Block.work`: the steps a block has made;
* `Worker.Inv.work_blockStep`: a step of a block adds one;
* `Machine.Inv.run_length`: the steps of a run, counted;
* `Machine.Inv.run_length_le`: a bound on every run.
-/
import Mathlib.Algebra.BigOperators.Fin
import Mathlib.Algebra.Order.BigOperators.Group.Finset
import Braidinfer.Mailbox.Discipline

namespace Braidinfer.Mailbox

open Braidinfer.Lib

/-- The steps of a block for one instruction: its loads, its execution and the barrier. -/
def instSteps : ℕ := instSize + 2

/-- The steps of a block for one batch. -/
def Batch.steps (b : Batch) : ℕ := 6 + b.insts.length * instSteps

/-- The number of words of an instruction that are loaded. -/
def numLoaded (sinst : Fin instSize → Option UInt64) : ℕ :=
  (Finset.univ.filter fun j => (sinst j).isSome).card

/-- The steps a block has made with the batches `F`. -/
def Block.work (F : List Batch) (blk : Block) : ℕ :=
  match blk.phase with
  | .poll => sumAt Batch.steps F blk.lastSeq
  | .pollBarrier => sumAt Batch.steps F blk.lastSeq + 1
  | .readSeq => sumAt Batch.steps F blk.lastSeq + 2
  | .readNum _ => sumAt Batch.steps F blk.lastSeq + 3
  | .readBase _ _ => sumAt Batch.steps F blk.lastSeq + 4
  | .load _ _ _ pc sinst =>
      sumAt Batch.steps F blk.lastSeq + (5 + pc * instSteps + numLoaded sinst)
  | .opBarrier _ _ _ pc =>
      sumAt Batch.steps F blk.lastSeq + (5 + pc * instSteps + instSize + 1)
  | .writeAck seq => sumAt Batch.steps F seq - 1
  | .haltBarrier | .returned => 0

section Loading

variable {sinst : Fin instSize → Option UInt64} {j : Fin instSize} {x : UInt64}

lemma numLoaded_none : numLoaded (fun _ => none) = 0 := by
  simp [numLoaded]

lemma numLoaded_le (sinst : Fin instSize → Option UInt64) : numLoaded sinst ≤ instSize := by
  have := Finset.card_filter_le (Finset.univ : Finset (Fin instSize)) fun j => (sinst j).isSome
  simpa [numLoaded] using this

lemma numLoaded_of_loaded {inst : Instruction} (h : loaded sinst = some inst) :
    numLoaded sinst = instSize := by
  rw [loaded] at h
  split at h
  · rename_i hall
    simp [numLoaded, hall]
  · exact absurd h (by simp)

lemma numLoaded_update (h : (sinst j).isSome = false) :
    numLoaded (Function.update sinst j (some x)) = numLoaded sinst + 1 := by
  have hset : (Finset.univ.filter fun k => (Function.update sinst j (some x) k).isSome) =
      insert j (Finset.univ.filter fun k => (sinst k).isSome) := by
    ext k
    by_cases hk : k = j
    · subst hk
      simp
    · simp [hk]
  rw [numLoaded, hset, Finset.card_insert_of_notMem (by simp [h]), numLoaded]

end Loading

namespace BlockOk

variable {F : List Batch} {arr : ℕ} {blk : Block}

/-- A block has done no more than the batches ask for, and one arrival. -/
lemma work_le (h : BlockOk F arr blk) : blk.work F ≤ sumAt Batch.steps F F.length + 1 := by
  have hin : ∀ {i batch k}, F[i]? = some batch → k ≤ batch.steps →
      sumAt Batch.steps F i + k ≤ sumAt Batch.steps F F.length + 1 := by
    intro i batch k hi hk
    have hle : sumAt Batch.steps F (i + 1) ≤ sumAt Batch.steps F F.length :=
      sumAt_mono _ (List.getElem?_eq_some_iff.mp hi).1
    rw [sumAt_succ _ hi] at hle
    omega
  cases h with
  | poll hi => exact (sumAt_mono _ hi).trans (Nat.le_succ _)
  | pollBarrier hi => exact Nat.succ_le_succ (sumAt_mono _ hi)
  | readSeq hi => exact hin (List.getElem?_eq_getElem hi) (by rw [Batch.steps]; omega)
  | readNum hi => exact hin (List.getElem?_eq_getElem hi) (by rw [Batch.steps]; omega)
  | readBase hi => exact hin hi (by rw [Batch.steps]; omega)
  | @load i batch pc inst sinst hi hpc =>
      have hlt := (List.getElem?_eq_some_iff.mp hpc).1
      have hmul : (pc + 1) * instSteps ≤ batch.insts.length * instSteps :=
        Nat.mul_le_mul_right _ hlt
      have hload := numLoaded_le sinst
      rw [Nat.succ_mul, instSteps] at hmul
      show sumAt Batch.steps F i + (5 + pc * instSteps + numLoaded sinst) ≤ _
      refine hin hi ?_
      rw [Batch.steps, instSteps]
      omega
  | @opBarrier i batch pc hi hlt =>
      have hmul : (pc + 1) * instSteps ≤ batch.insts.length * instSteps :=
        Nat.mul_le_mul_right _ hlt
      rw [Nat.succ_mul, instSteps] at hmul
      show sumAt Batch.steps F i + (5 + pc * instSteps + instSize + 1) ≤ _
      refine hin hi ?_
      rw [Batch.steps, instSteps]
      omega
  | @writeAck i hi =>
      have hle : sumAt Batch.steps F (i + 1) ≤ sumAt Batch.steps F F.length := sumAt_mono _ hi
      show sumAt Batch.steps F (i + 1) - 1 ≤ _
      omega

/-- Firing another batch changes nothing about the steps made. -/
lemma work_append (h : BlockOk F arr blk) (F' : List Batch) :
    blk.work (F ++ F') = blk.work F := by
  have hsum : ∀ {i}, i ≤ F.length → sumAt Batch.steps (F ++ F') i = sumAt Batch.steps F i :=
    fun hi => sumAt_append _ F' hi
  have hle := hsum h.lastSeq_le
  cases h with
  | @writeAck i hi =>
      show sumAt Batch.steps (F ++ F') (i + 1) - 1 = _
      rw [hsum (Nat.succ_le_of_lt hi)]
      rfl
  | _ =>
      simp only [Block.work]
      rw [hle]

end BlockOk

/-- A sum in which one term changes. -/
lemma sum_eq_add {ι : Type*} [Fintype ι] [DecidableEq ι] {f f' : ι → ℕ} {c : ℕ} (i : ι)
    (hi : f' i = f i + c) (hne : ∀ j, j ≠ i → f' j = f j) :
    ∑ j, f' j = ∑ j, f j + c := by
  have hrest : ∑ j ∈ Finset.univ.erase i, f' j = ∑ j ∈ Finset.univ.erase i, f j :=
    Finset.sum_congr rfl fun j hj => hne j (Finset.ne_of_mem_erase hj)
  rw [← Finset.add_sum_erase _ f' (Finset.mem_univ i), ← Finset.add_sum_erase _ f
    (Finset.mem_univ i), hrest, hi]
  omega

namespace Worker

variable {n : ℕ} {w w' : Worker n} {b : Fin (n + 1)} {p : Phase}

lemma setBlock_self (blk : Block) : (w.setBlock b blk).blocks b = blk := by
  simp [setBlock]

lemma goto_self : (w.goto b p).blocks b = { w.blocks b with phase := p } := setBlock_self _

lemma leave_block (hs : w.leave b p = some w') :
    w'.blocks b = { w.blocks b with phase := p } := by
  rw [leave] at hs
  split at hs
  · obtain rfl := Option.some.inj hs
    exact setBlock_self _
  · exact absurd hs (by simp)

/-- The head of the instruction loop takes no step of its own. -/
lemma work_loopHead {F : List Batch} {i pc base : ℕ} {batch : Batch} {log : List (Instruction × ℕ)}
    (hi : F[i]? = some batch) (hpc : pc ≤ batch.insts.length) :
    Block.work F ⟨loopHead (i + 1) batch.insts.length base pc, i, log⟩ =
      sumAt Batch.steps F i + (5 + pc * instSteps) := by
  rw [loopHead]
  split
  · show sumAt Batch.steps F i + (5 + pc * instSteps + numLoaded fun _ => none) = _
    rw [numLoaded_none, Nat.add_zero]
  · obtain rfl : pc = batch.insts.length := by omega
    show sumAt Batch.steps F (i + 1) - 1 = _
    rw [sumAt_succ _ hi, Batch.steps]
    omega

/-- **A step of a block is one step further.** -/
theorem Inv.work_blockStep (h : w.Inv) {j : Fin instSize} (hs : w.blockStep b j = some w') :
    (w'.blocks b).work w.fired = (w.blocks b).work w.fired + 1 := by
  have hok := h.block_ok b
  unfold Worker.blockStep at hs
  generalize hblk : w.blocks b = blk at hok hs
  generalize w.gbs.arrived b = arr at hok
  cases hok with
  | poll =>
      simp only at hs
      split at hs
      · exact absurd hs (by simp)
      · obtain rfl := Option.some.inj hs
        rw [goto_self, arrive, hblk]
        rfl
  | pollBarrier =>
      rw [leave_block hs, hblk]
      rfl
  | readSeq =>
      obtain rfl := Option.some.inj hs
      rw [goto_self, hblk]
      rfl
  | readNum =>
      obtain rfl := Option.some.inj hs
      rw [goto_self, hblk]
      rfl
  | @readBase i batch hi =>
      obtain rfl := Option.some.inj hs
      rw [goto_self, hblk]
      show Block.work w.fired ⟨loopHead _ _ _ _, _, _⟩ = _
      rw [work_loopHead hi (Nat.zero_le _), Nat.zero_mul]
      rfl
  | @load i batch pc inst sinst hi hpc hsinst =>
      simp only at hs
      split at hs
      · rename_i inst' hloaded
        obtain rfl := loaded_eq hsinst hloaded
        have hnot : inst'.opcode ≠ opHalt :=
          (h.proper batch (List.mem_of_getElem? hi)).no_halt inst' (List.mem_of_getElem? hpc)
        rw [if_neg hnot] at hs
        obtain rfl := Option.some.inj hs
        rw [Worker.execute, setBlock_self, hblk]
        show _ + (5 + pc * instSteps + instSize + 1) =
          _ + (5 + pc * instSteps + numLoaded sinst) + 1
        rw [numLoaded_of_loaded hloaded]
        rfl
      · split at hs
        · exact absurd hs (by simp)
        · rename_i hj
          obtain rfl := Option.some.inj hs
          rw [goto_self, hblk]
          show _ + (5 + pc * instSteps + numLoaded _) =
            _ + (5 + pc * instSteps + numLoaded sinst) + 1
          rw [numLoaded_update (Bool.not_eq_true _ ▸ hj)]
          rfl
  | @opBarrier i batch pc hi hpc =>
      rw [leave_block hs, hblk]
      show Block.work w.fired ⟨loopHead _ _ _ _, _, _⟩ = _
      rw [work_loopHead hi hpc]
      show _ = sumAt Batch.steps w.fired i + (5 + pc * instSteps + instSize + 1) + 1
      rw [Nat.succ_mul, instSteps]
      omega
  | @writeAck i hi =>
      obtain rfl := Option.some.inj hs
      rw [Worker.finish, setBlock_self, hblk]
      show sumAt Batch.steps w.fired (i + 1) = sumAt Batch.steps w.fired (i + 1) - 1 + 1
      rw [sumAt_succ _ (List.getElem?_eq_getElem hi), Batch.steps]
      omega

/-- The steps the blocks of a worker have made. -/
def work (w : Worker n) : ℕ := ∑ b, (w.blocks b).work w.fired

lemma Inv.work_eq (h : w.Inv) {j : Fin instSize} (hs : w.blockStep b j = some w') :
    w'.work = w.work + 1 := by
  have hf := blockStep_frame hs
  rw [work, hf.fired_eq]
  refine sum_eq_add b (h.work_blockStep hs) fun b' hb' => ?_
  rw [hf.blocks_eq b' hb']

lemma work_store (w : Worker n) (batch : Batch) (k : ℕ) : (w.store batch k).work = w.work := by
  rw [store]
  split
  · rfl
  · split <;> rfl

lemma Inv.work_trigger (h : w.Inv) (batch : Batch) : (w.trigger batch).work = w.work :=
  Finset.sum_congr rfl fun b _ => (h.block_ok b).work_append [batch]

lemma Inv.work_le (h : w.Inv) :
    w.work ≤ (n + 1) * (sumAt Batch.steps w.fired w.fired.length + 1) := by
  calc w.work ≤ ∑ _b : Fin (n + 1), (sumAt Batch.steps w.fired w.fired.length + 1) :=
        Finset.sum_le_sum fun b _ => (h.block_ok b).work_le
    _ = (n + 1) * (sumAt Batch.steps w.fired w.fired.length + 1) := by simp

end Worker

/-- The steps of the host for one operation. -/
def HostOp.steps {G : ℕ} : HostOp G → ℕ
  | .fire _ batch => batch.numWords + 3
  | .wait targets => targets.length + 1

namespace Machine

variable {G : ℕ} {N : Fin G → ℕ} {ops₀ : List (HostOp G)} {s t : Machine N}

/-- The steps all blocks have made. -/
def work (s : Machine N) : ℕ := ∑ g, (s.workers g).work

/-- The steps of the host for its remaining operations. -/
def hostSteps (ops : List (HostOp G)) : ℕ := (ops.map HostOp.steps).sum

/-- A worker replaced by one that has made `c` steps more. -/
lemma work_setWorker {g : Fin G} {w : Worker (N g)} {c : ℕ} (h : w.work = (s.workers g).work + c) :
    ∑ g', (s.setWorker g w g').work = s.work + c := by
  refine sum_eq_add g ?_ fun g' hg' => ?_
  · rw [setWorker_self, h]
  · rw [setWorker_of_ne hg']

/-- **Each step counts one**, on the host's side or on a block's. -/
lemma Inv.step_count (h : s.Inv ops₀) {a : Act N} (hs : s.step a = some t) :
    1 + s.stores + s.work + hostSteps t.ops = t.stores + t.work + hostSteps s.ops := by
  cases a with
  | block g b j =>
      obtain ⟨w, hw, rfl⟩ := Option.map_eq_some_iff.mp hs
      have := work_setWorker (s := s) ((h.worker g).work_eq hw)
      show 1 + s.stores + s.work + hostSteps s.ops =
        s.stores + (∑ g', (s.setWorker g w g').work) + hostSteps s.ops
      omega
  | host target =>
      cases hostStep_cases hs with
      | @store g batch rest hops hlt =>
          have := work_setWorker (s := s) (c := 0)
            ((s.workers g).work_store batch s.stores)
          show 1 + s.stores + s.work + hostSteps s.ops =
            s.stores + 1 + (∑ g', (s.setWorker g _ g').work) + hostSteps s.ops
          omega
      | @trigger g batch rest hops hge =>
          have hwork := work_setWorker (s := s) (c := 0) ((h.worker g).work_trigger batch)
          have hle : s.stores ≤ batch.numWords + 2 := h.stores_le_of hops
          have hsum : hostSteps s.ops = batch.numWords + 3 + hostSteps rest := by
            rw [hops]
            rfl
          show 1 + s.stores + s.work + hostSteps rest =
            0 + (∑ g', (s.setWorker g _ g').work) + hostSteps s.ops
          omega
      | @ret rest hops =>
          have hle : s.stores ≤ 0 := h.stores_le_of hops
          have hsum : hostSteps s.ops = 1 + hostSteps rest := by
            rw [hops]
            rfl
          show 1 + s.stores + s.work + hostSteps rest = 0 + s.work + hostSteps s.ops
          omega
      | @seen target targets rest hops hmem =>
          have hle : s.stores ≤ 0 := h.stores_le_of hops
          have hpos := List.length_pos_of_mem hmem
          have hsum : hostSteps s.ops = targets.length + 1 + hostSteps rest := by
            rw [hops]
            rfl
          have hsum' : hostSteps (.wait (targets.erase target) :: rest) =
              targets.length - 1 + 1 + hostSteps rest := by
            rw [← List.length_erase_of_mem hmem]
            rfl
          show 1 + s.stores + s.work + hostSteps (.wait (targets.erase target) :: rest) =
            0 + s.work + hostSteps s.ops
          omega

/-- The length of a run, counted. -/
lemma Inv.run_length (hd : Disciplined ops₀) {as : List (Act N)}
    (hr : Run Step (init ops₀) as s) :
    as.length + hostSteps s.ops = s.stores + s.work + hostSteps ops₀ := by
  induction hr with
  | nil =>
      have hwork : (init ops₀ : Machine N).work = 0 :=
        Finset.sum_eq_zero fun g _ => Finset.sum_eq_zero fun b _ => rfl
      rw [hwork]
      rfl
  | snoc hr' hstep ih =>
      have := (Inv.of_run hd hr').step_count hstep
      rw [List.length_append, List.length_singleton]
      omega

/-- A bound on the length of every run of the host operations `ops`. -/
def maxSteps (N : Fin G → ℕ) (ops : List (HostOp G)) : ℕ :=
  hostSteps ops + ∑ g, (N g + 1) * (((firesTo g ops).map Batch.steps).sum + 1)

/-- **Every run is bounded.** -/
theorem Inv.run_length_le (hd : Disciplined ops₀) {as : List (Act N)}
    (hr : Run Step (init ops₀) as s) : as.length ≤ maxSteps N ops₀ := by
  have hinv := Inv.of_run hd hr
  have hcount := Inv.run_length hd hr
  have hwork : s.work ≤ ∑ g, (N g + 1) * (((firesTo g ops₀).map Batch.steps).sum + 1) := by
    refine Finset.sum_le_sum fun g _ => (hinv.worker g).work_le.trans ?_
    refine Nat.mul_le_mul_left _ (Nat.succ_le_succ ?_)
    rw [← hinv.fired_eq g, List.map_append, List.sum_append, sumAt, List.take_length]
    exact Nat.le_add_right _ _
  have hstores : s.stores ≤ hostSteps s.ops := by
    refine hinv.stores_le.trans ?_
    cases s.ops with
    | nil => exact Nat.zero_le _
    | cons op rest =>
        show op.numStores ≤ op.steps + hostSteps rest
        cases op with
        | fire g batch => exact (Nat.le_succ _).trans (Nat.le_add_right _ _)
        | wait targets => exact Nat.zero_le _
  rw [maxSteps]
  omega

/-- **The host gets through**: some run ends with nothing left to do. -/
theorem exists_complete_run (hd : Disciplined ops₀) (hG : 0 < G) :
    ∃ (as : List (Act N)) (s : Machine N), Run Step (init ops₀) as s ∧ s.ops = [] :=
  Run.exists_done (fun _ _ hr => Inv.run_length_le hd hr) fun _ _ hr hne =>
    (Inv.of_run hd hr).exists_step hd hG hne

end Machine

end Braidinfer.Mailbox
