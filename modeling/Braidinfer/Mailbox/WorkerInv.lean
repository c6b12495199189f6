/-
The invariant of one worker.

A worker that has been fired the batches `fired` has, in all blocks, executed a prefix of their
concatenation, and the number of a block's barrier arrivals says how far it has come: a batch
of `k` instructions costs `k + 1` arrivals.  The grid barrier keeps the blocks together, so
a block that is reading the mailbox reads the last batch fired, and `ack` is one behind.

* `Worker.Inv.current`: a block between the poll barrier and its last instruction works on the
  last batch fired, which the mailbox still holds;
* `Worker.Inv.blockStep`: every step of a block keeps the invariant;
* `Worker.Inv.store`, `Worker.Inv.trigger`: so do the host's stores, if nothing is outstanding;
* `Worker.Inv.executed_of_ack`: what is acknowledged has been executed by every block.
-/
import Braidinfer.Lib.RowMajor
import Mathlib.Algebra.Order.BigOperators.Group.List
import Mathlib.Algebra.GroupWithZero.Nat
import Mathlib.Algebra.Order.Group.Nat
import Mathlib.Data.Fintype.EquivFin
import Braidinfer.Mailbox.Protocol

namespace Braidinfer.Mailbox

open Braidinfer.Lib

/-! ### What a sequence of batches amounts to -/

/-- The sum of `f` over the batches before batch `i`. -/
def sumAt (f : Batch → ℕ) (F : List Batch) (i : ℕ) : ℕ := ((F.take i).map f).sum

/-- The barrier arrivals of a block before batch `i`. -/
def arrivalsAt (F : List Batch) (i : ℕ) : ℕ := sumAt (fun b => b.insts.length + 1) F i

/-- What a block has executed before batch `i`. -/
def logAt (F : List Batch) (i : ℕ) : List (Instruction × ℕ) :=
  (F.take i).flatMap Batch.entries

section Batches

variable {F : List Batch} {batch : Batch} {i j : ℕ}

@[simp] lemma Batch.length_entries : batch.entries.length = batch.insts.length := by
  simp [Batch.entries]

lemma sumAt_succ (f : Batch → ℕ) (h : F[i]? = some batch) :
    sumAt f F (i + 1) = sumAt f F i + f batch := by
  simp [sumAt, List.take_add_one, h]

lemma sumAt_append (f : Batch → ℕ) (F' : List Batch) (hi : i ≤ F.length) :
    sumAt f (F ++ F') i = sumAt f F i := by
  rw [sumAt, List.take_append_of_le_length hi, sumAt]

lemma sumAt_mono (f : Batch → ℕ) (h : i ≤ j) : sumAt f F i ≤ sumAt f F j := by
  have hsub : (F.take i).Sublist (F.take j) := List.take_sublist_take_left h
  exact (hsub.map f).sum_le_sum (fun _ _ => Nat.zero_le _)

lemma arrivalsAt_succ (h : F[i]? = some batch) :
    arrivalsAt F (i + 1) = arrivalsAt F i + (batch.insts.length + 1) :=
  sumAt_succ _ h

lemma arrivalsAt_append (F' : List Batch) (hi : i ≤ F.length) :
    arrivalsAt (F ++ F') i = arrivalsAt F i :=
  sumAt_append _ F' hi

lemma arrivalsAt_mono (h : i ≤ j) : arrivalsAt F i ≤ arrivalsAt F j := sumAt_mono _ h

lemma logAt_succ (h : F[i]? = some batch) :
    logAt F (i + 1) = logAt F i ++ batch.entries := by
  simp [logAt, List.take_add_one, h]

lemma logAt_append (F' : List Batch) (hi : i ≤ F.length) : logAt (F ++ F') i = logAt F i := by
  rw [logAt, List.take_append_of_le_length hi, logAt]

lemma logAt_mono (h : i ≤ j) : logAt F i <+: logAt F j := by
  have hpre : F.take i <+: F.take j := List.take_prefix_take_left h
  obtain ⟨rest, hrest⟩ := hpre
  exact ⟨rest.flatMap Batch.entries, by rw [logAt, logAt, ← hrest, List.flatMap_append]⟩

lemma logAt_length (F : List Batch) : logAt F F.length = F.flatMap Batch.entries := by
  rw [logAt, List.take_length]

/-- Fewer than `k + 1` batches' worth of arrivals are at most `k` batches' worth. -/
lemma le_of_arrivalsAt_le {k r : ℕ} (hi : i ≤ F.length)
    (hr : ∀ batch, F[k]? = some batch → r ≤ batch.insts.length)
    (h : arrivalsAt F i ≤ arrivalsAt F k + r) : i ≤ k := by
  by_contra hcon
  have hk : F[k]? = some (F[k]) := List.getElem?_eq_getElem (by omega)
  have hle : arrivalsAt F (k + 1) ≤ arrivalsAt F i := arrivalsAt_mono (by omega)
  have hlen := hr _ hk
  rw [arrivalsAt_succ hk] at hle
  omega

end Batches

/-- `BlockOk F arr blk`: with the batches `F` fired, a block that has arrived `arr` times at the
grid barrier is in a state it can be in. -/
inductive BlockOk (F : List Batch) : ℕ → Block → Prop
  | poll {i} (hi : i ≤ F.length) : BlockOk F (arrivalsAt F i) ⟨.poll, i, logAt F i⟩
  | pollBarrier {i} (hi : i ≤ F.length) :
      BlockOk F (arrivalsAt F i + 1) ⟨.pollBarrier, i, logAt F i⟩
  | readSeq {i} (hi : i < F.length) : BlockOk F (arrivalsAt F i + 1) ⟨.readSeq, i, logAt F i⟩
  | readNum {i} (hi : i < F.length) :
      BlockOk F (arrivalsAt F i + 1) ⟨.readNum (i + 1), i, logAt F i⟩
  | readBase {i batch} (hi : F[i]? = some batch) :
      BlockOk F (arrivalsAt F i + 1) ⟨.readBase (i + 1) batch.insts.length, i, logAt F i⟩
  | load {i batch pc inst sinst} (hi : F[i]? = some batch) (hpc : batch.insts[pc]? = some inst)
      (hs : ∀ j x, sinst j = some x → x = inst.words j) :
      BlockOk F (arrivalsAt F i + 1 + pc)
        ⟨.load (i + 1) batch.insts.length batch.pcBase pc sinst, i,
          logAt F i ++ batch.entries.take pc⟩
  | opBarrier {i batch pc} (hi : F[i]? = some batch) (hpc : pc < batch.insts.length) :
      BlockOk F (arrivalsAt F i + 1 + (pc + 1))
        ⟨.opBarrier (i + 1) batch.insts.length batch.pcBase pc, i,
          logAt F i ++ batch.entries.take (pc + 1)⟩
  | writeAck {i} (hi : i < F.length) :
      BlockOk F (arrivalsAt F (i + 1)) ⟨.writeAck (i + 1), i, logAt F (i + 1)⟩

namespace BlockOk

variable {F F' : List Batch} {arr : ℕ} {blk : Block}

lemma lastSeq_le (h : BlockOk F arr blk) : blk.lastSeq ≤ F.length := by
  cases h with
  | poll hi | pollBarrier hi => exact hi
  | readSeq hi | readNum hi | writeAck hi => exact hi.le
  | readBase hi => exact (List.getElem?_eq_some_iff.mp hi).1.le
  | load hi => exact (List.getElem?_eq_some_iff.mp hi).1.le
  | opBarrier hi => exact (List.getElem?_eq_some_iff.mp hi).1.le

/-- A block has not arrived past the batch it is at. -/
lemma arrived_le (h : BlockOk F arr blk) (hlt : blk.lastSeq < F.length) :
    arr ≤ arrivalsAt F (blk.lastSeq + 1) := by
  have hnext := arrivalsAt_succ (List.getElem?_eq_getElem hlt)
  cases h with
  | load hi hpc =>
      have := (List.getElem?_eq_some_iff.mp hpc).1
      rw [arrivalsAt_succ hi]
      omega
  | opBarrier hi hpc =>
      rw [arrivalsAt_succ hi]
      omega
  | writeAck => exact le_rfl
  | _ => dsimp only at hnext ⊢; omega

/-- Whoever has arrived anywhere after the poll barrier of its batch, and is not still standing
there, has a batch. -/
lemma lastSeq_lt (h : BlockOk F arr blk) (harr : arrivalsAt F blk.lastSeq < arr)
    (hph : blk.phase ≠ .pollBarrier) : blk.lastSeq < F.length := by
  cases h with
  | poll => exact absurd harr (lt_irrefl _)
  | pollBarrier => exact absurd rfl hph
  | readSeq hi | readNum hi | writeAck hi => exact hi
  | readBase hi => exact (List.getElem?_eq_some_iff.mp hi).1
  | load hi => exact (List.getElem?_eq_some_iff.mp hi).1
  | opBarrier hi => exact (List.getElem?_eq_some_iff.mp hi).1

/-- Firing another batch does not disturb a block. -/
lemma append (h : BlockOk F arr blk) : BlockOk (F ++ F') arr blk := by
  have hlen : F.length ≤ (F ++ F').length := by simp
  have hget : ∀ {i batch}, F[i]? = some batch →
      (F ++ F')[i]? = some batch ∧ i ≤ F.length := by
    intro i batch hi
    have hlt := (List.getElem?_eq_some_iff.mp hi).1
    exact ⟨by rw [List.getElem?_append_left hlt, hi], hlt.le⟩
  cases h with
  | poll hi =>
      rw [← arrivalsAt_append F' hi, ← logAt_append F' hi]
      exact .poll (hi.trans hlen)
  | pollBarrier hi =>
      rw [← arrivalsAt_append F' hi, ← logAt_append F' hi]
      exact .pollBarrier (hi.trans hlen)
  | readSeq hi =>
      rw [← arrivalsAt_append F' hi.le, ← logAt_append F' hi.le]
      exact .readSeq (hi.trans_le hlen)
  | readNum hi =>
      rw [← arrivalsAt_append F' hi.le, ← logAt_append F' hi.le]
      exact .readNum (hi.trans_le hlen)
  | readBase hi =>
      rw [← arrivalsAt_append F' (hget hi).2, ← logAt_append F' (hget hi).2]
      exact .readBase (hget hi).1
  | load hi hpc hs =>
      rw [← arrivalsAt_append F' (hget hi).2, ← logAt_append F' (hget hi).2]
      exact .load (hget hi).1 hpc hs
  | opBarrier hi hpc =>
      rw [← arrivalsAt_append F' (hget hi).2, ← logAt_append F' (hget hi).2]
      exact .opBarrier (hget hi).1 hpc
  | writeAck hi =>
      rw [← arrivalsAt_append F' (Nat.succ_le_of_lt hi),
        ← logAt_append F' (Nat.succ_le_of_lt hi)]
      exact .writeAck (hi.trans_le hlen)

/-- A block's log is a prefix of what the fired batches amount to. -/
lemma log_isPrefix_logAt (h : BlockOk F arr blk) : blk.log <+: logAt F F.length := by
  have hin : ∀ {i batch k}, F[i]? = some batch →
      logAt F i ++ batch.entries.take k <+: logAt F F.length := by
    intro i batch k hi
    have hnext : logAt F (i + 1) <+: logAt F F.length :=
      logAt_mono (List.getElem?_eq_some_iff.mp hi).1
    rw [logAt_succ hi] at hnext
    exact ((List.prefix_append_right_inj _).mpr (List.take_prefix _ _)).trans hnext
  cases h with
  | poll hi | pollBarrier hi => exact logAt_mono hi
  | readSeq hi | readNum hi => exact logAt_mono hi.le
  | readBase hi => exact logAt_mono (List.getElem?_eq_some_iff.mp hi).1.le
  | load hi => exact hin hi
  | opBarrier hi => exact hin hi
  | writeAck hi => exact logAt_mono hi

/-- A block that has arrived as often as the first `k` batches ask for has executed them. -/
lemma executed (hF : ∀ b ∈ F, b.insts ≠ []) (h : BlockOk F arr blk) {k : ℕ} (hk : k ≤ F.length)
    (harr : arrivalsAt F k ≤ arr) : logAt F k <+: blk.log := by
  have hone : ∀ (i : ℕ) (batch : Batch), F[i]? = some batch → 1 ≤ batch.insts.length := by
    intro i batch hi
    exact List.length_pos_iff.mpr (hF batch (List.mem_of_getElem? hi))
  cases h with
  | poll => exact logAt_mono (le_of_arrivalsAt_le (r := 0) hk (fun _ _ => Nat.zero_le _) harr)
  | pollBarrier => exact logAt_mono (le_of_arrivalsAt_le hk (hone _) harr)
  | readSeq => exact logAt_mono (le_of_arrivalsAt_le hk (hone _) harr)
  | readNum => exact logAt_mono (le_of_arrivalsAt_le hk (hone _) harr)
  | readBase => exact logAt_mono (le_of_arrivalsAt_le hk (hone _) harr)
  | @load i batch pc _ _ hi hpc =>
      have hlt := (List.getElem?_eq_some_iff.mp hpc).1
      have hle : k ≤ i := by
        refine le_of_arrivalsAt_le (r := 1 + pc) hk (fun b hb => ?_) (by omega)
        obtain rfl : batch = b := Option.some.inj (hi.symm.trans hb)
        omega
      exact (logAt_mono hle).trans (List.prefix_append _ _)
  | @opBarrier i batch pc hi hpc =>
      by_cases hlast : pc + 1 = batch.insts.length
      · -- the last instruction: the whole batch is in the log
        have hfull : batch.entries.take (pc + 1) = batch.entries := by
          rw [hlast, ← Batch.length_entries, List.take_length]
        rw [hfull, ← logAt_succ hi]
        refine logAt_mono (le_of_arrivalsAt_le (r := 0) hk (fun _ _ => Nat.zero_le _) ?_)
        rw [arrivalsAt_succ hi]
        omega
      · have hle : k ≤ i := by
          refine le_of_arrivalsAt_le (r := 1 + (pc + 1)) hk (fun b hb => ?_) (by omega)
          obtain rfl : batch = b := Option.some.inj (hi.symm.trans hb)
          omega
        exact (logAt_mono hle).trans (List.prefix_append _ _)
  | writeAck =>
      exact logAt_mono (le_of_arrivalsAt_le (r := 0) hk (fun _ _ => Nat.zero_le _) harr)

/-- A block has left every barrier of the batches before its own. -/
lemma le_passed (h : BlockOk F arr blk) :
    arrivalsAt F blk.lastSeq ≤ arr - blk.phase.waiting.toNat := by
  cases h with
  | writeAck => exact arrivalsAt_mono (Nat.le_succ _)
  | _ => simp only [Phase.waiting, Bool.toNat_true, Bool.toNat_false]; omega

/-- A block under a header works on the batch with that header, between its first and its last
barrier. -/
lemma header (h : BlockOk F arr blk) {hd : ℕ × ℕ × ℕ} (hh : blk.phase.header? = some hd) :
    ∃ batch, (F[blk.lastSeq]? = some batch ∧
        hd = (blk.lastSeq + 1, batch.insts.length, batch.pcBase)) ∧
      arrivalsAt F blk.lastSeq < arr - blk.phase.waiting.toNat ∧
      arr ≤ arrivalsAt F (blk.lastSeq + 1) := by
  cases h with
  | @load i batch pc _ _ hi hpc =>
      have := (List.getElem?_eq_some_iff.mp hpc).1
      refine ⟨batch, ⟨hi, (Option.some.inj hh).symm⟩, ?_, ?_⟩
      · simp only [Phase.waiting, Bool.toNat_false]
        omega
      · rw [arrivalsAt_succ hi]
        omega
  | @opBarrier i batch pc hi hpc =>
      refine ⟨batch, ⟨hi, (Option.some.inj hh).symm⟩, ?_, ?_⟩
      · simp only [Phase.waiting, Bool.toNat_true]
        omega
      · rw [arrivalsAt_succ hi]
        omega
  | _ => exact absurd hh (by simp [Phase.header?])

end BlockOk

/-! ### The contents of the mailbox -/

namespace WorkerQueue

variable {q : WorkerQueue} {batch : Batch} {k : ℕ}

/-- The first `k` stores of a fire of `batch` are in the mailbox. -/
def HoldsUpTo (q : WorkerQueue) (batch : Batch) (k : ℕ) : Prop :=
  (∀ x < k, x < batch.numWords → q.inst x = batch.word x) ∧
  (batch.numWords < k → q.numInstructions = batch.insts.length) ∧
  (batch.numWords + 1 < k → q.pcBase = batch.pcBase)

/-- The mailbox holds `batch`. -/
def Holds (q : WorkerQueue) (batch : Batch) : Prop := q.HoldsUpTo batch (batch.numWords + 2)

lemma holdsUpTo_zero (q : WorkerQueue) (batch : Batch) : q.HoldsUpTo batch 0 := by
  simp [HoldsUpTo]

lemma Holds.numInstructions_eq (h : q.Holds batch) :
    q.numInstructions = batch.insts.length :=
  h.2.1 (by omega)

lemma Holds.pcBase_eq (h : q.Holds batch) : q.pcBase = batch.pcBase := h.2.2 (by omega)

/-- Word `j` of instruction `pc` stands where the worker looks for it. -/
lemma Holds.inst_eq (h : q.Holds batch) {pc : ℕ} {inst : Instruction}
    (hpc : batch.insts[pc]? = some inst) (j : Fin instSize) :
    q.inst (pc * instSize + j) = inst.words j := by
  have hj : j.val < instSize := j.isLt
  have hlt : pc * instSize + j < batch.numWords := by
    have hle : (pc + 1) * instSize ≤ batch.insts.length * instSize :=
      Nat.mul_le_mul_right _ (List.getElem?_eq_some_iff.mp hpc).1
    rw [Batch.numWords]
    rw [Nat.succ_mul] at hle
    omega
  rw [h.1 _ (by omega) hlt, Batch.word]
  rw [rowMajor_div hj, hpc]
  exact congrArg inst.words (Fin.ext (rowMajor_mod hj))

end WorkerQueue

/-! ### The invariant -/

namespace Worker

variable {n : ℕ} {w w' : Worker n} {b : Fin (n + 1)} {p : Phase} {batch : Batch}

/-- The invariant of a worker. -/
structure Inv (w : Worker n) : Prop where
  seqNum_eq : w.queue.seqNum = w.fired.length
  seqCounter_eq : w.seqCounter = w.fired.length
  ack_eq : w.queue.ack = (w.blocks 0).lastSeq
  fired_le : w.fired.length ≤ w.queue.ack + 1
  proper : ∀ batch ∈ w.fired, batch.Proper
  gbs_ok : w.gbs.Ok
  waiting_eq : ∀ b, w.gbs.waiting b = (w.blocks b).phase.waiting
  block_ok : ∀ b, BlockOk w.fired (w.gbs.arrived b) (w.blocks b)
  /-- Block 0 does not arrive without a batch. -/
  leader : (w.blocks 0).phase = .pollBarrier → (w.blocks 0).lastSeq < w.fired.length
  /-- A batch that is not acknowledged is still in the mailbox. -/
  content : ∀ batch, w.fired[w.queue.ack]? = some batch → w.queue.Holds batch

lemma init_inv : (init : Worker n).Inv where
  seqNum_eq := rfl
  seqCounter_eq := rfl
  ack_eq := rfl
  fired_le := Nat.zero_le _
  proper := fun _ h => absurd h (List.not_mem_nil)
  gbs_ok := Barrier.init_ok
  waiting_eq := fun _ => rfl
  block_ok := fun _ => .poll (F := []) le_rfl
  leader := fun h => Phase.noConfusion h
  content := by
    intro batch h
    simp [init] at h

namespace Inv

lemma nonempty (h : w.Inv) : ∀ batch ∈ w.fired, batch.insts ≠ [] :=
  fun batch hb => (h.proper batch hb).nonempty

lemma ack_le (h : w.Inv) : w.queue.ack ≤ w.fired.length := by
  rw [h.ack_eq]
  exact (h.block_ok 0).lastSeq_le

/-- Where block 0 has arrived, there is a batch. -/
lemma lt_of_arrived_zero (h : w.Inv) {i : ℕ} (harr : arrivalsAt w.fired i < w.gbs.arrived 0)
    (hi : i ≤ w.fired.length) : i < w.fired.length := by
  by_contra hcon
  obtain rfl : i = w.fired.length := by omega
  have hok := h.block_ok 0
  rcases hok.lastSeq_le.lt_or_eq with hlt | heq
  · have hle := (hok.arrived_le hlt).trans (arrivalsAt_mono hlt)
    omega
  · by_cases hph : (w.blocks 0).phase = .pollBarrier
    · have := h.leader hph
      omega
    · have := hok.lastSeq_lt (heq ▸ harr) hph
      omega

/-- **A block at work is at the last batch fired.**  A block that has left the poll barrier and
not arrived at its last barrier is at the batch after `ack`, and that is the last one. -/
lemma current (h : w.Inv) (hw : (w.blocks b).phase.waiting = false)
    (hlo : arrivalsAt w.fired (w.blocks b).lastSeq < w.gbs.arrived b)
    (hhi : w.gbs.arrived b < arrivalsAt w.fired ((w.blocks b).lastSeq + 1)) :
    (w.blocks b).lastSeq = w.queue.ack ∧ w.fired.length = w.queue.ack + 1 := by
  have hle := (h.block_ok b).lastSeq_le
  have hzero : w.gbs.arrived b ≤ w.gbs.arrived 0 :=
    h.gbs_ok.opens ((h.waiting_eq b).trans hw) 0
  have hlt : (w.blocks b).lastSeq < w.fired.length := h.lt_of_arrived_zero (by omega) hle
  have hback : w.queue.ack ≤ (w.blocks b).lastSeq := by
    by_contra hcon
    have hpassed : arrivalsAt w.fired w.queue.ack ≤ w.gbs.passed 0 := by
      rw [h.ack_eq, Barrier.passed, h.waiting_eq 0]
      exact (h.block_ok 0).le_passed
    have hmono : arrivalsAt w.fired ((w.blocks b).lastSeq + 1) ≤
        arrivalsAt w.fired w.queue.ack := arrivalsAt_mono (by omega)
    have := h.gbs_ok 0 b
    omega
  have hfore : (w.blocks b).lastSeq ≤ w.queue.ack := by
    by_contra hcon
    rw [h.ack_eq] at hcon
    have hbound := (h.block_ok 0).arrived_le (by omega)
    have hmono : arrivalsAt w.fired ((w.blocks 0).lastSeq + 1) ≤
        arrivalsAt w.fired (w.blocks b).lastSeq := arrivalsAt_mono (by omega)
    omega
  have := h.fired_le
  omega

/-- What a block at work on batch `i` reads is batch `i`. -/
lemma holds_current (h : w.Inv) (pc : ℕ) {i : ℕ} {log : List (Instruction × ℕ)}
    (hblk : w.blocks b = ⟨p, i, log⟩) (hw : p.waiting = false)
    (harr : w.gbs.arrived b = arrivalsAt w.fired i + 1 + pc) (hi : w.fired[i]? = some batch)
    (hpc : pc < batch.insts.length) : w.fired.length = i + 1 ∧ w.queue.Holds batch := by
  have hhi : w.gbs.arrived b < arrivalsAt w.fired (i + 1) := by
    rw [harr, arrivalsAt_succ hi]
    omega
  have hcur := h.current (b := b)
  rw [hblk] at hcur
  replace hcur := hcur hw (by show arrivalsAt w.fired i < _; omega) hhi
  obtain ⟨rfl, hlen⟩ := hcur
  exact ⟨hlen, h.content batch hi⟩

/-! ### Steps of a block -/

/-- What a step of block `b` has to keep: it touches the block, the barrier and `ack`. -/
lemma replace (h : w.Inv) {β : Barrier (Fin (n + 1))} {blk : Block} {a : ℕ} (hβ : β.Ok)
    (hother : ∀ b', b' ≠ b → β.arrived b' = w.gbs.arrived b' ∧ β.waiting b' = w.gbs.waiting b')
    (hself : β.waiting b = blk.phase.waiting) (hok : BlockOk w.fired (β.arrived b) blk)
    (hack : a = if b = 0 then blk.lastSeq else w.queue.ack)
    (hlead : b = 0 → blk.phase = .pollBarrier → blk.lastSeq < w.fired.length)
    (hge : w.fired.length ≤ a + 1)
    (hcontent : ∀ batch, w.fired[a]? = some batch → w.queue.Holds batch) :
    ({ w with
       gbs := β
       queue.ack := a }.setBlock b blk).Inv where
  seqNum_eq := h.seqNum_eq
  seqCounter_eq := h.seqCounter_eq
  ack_eq := by
    by_cases hb : b = 0
    · subst hb
      simpa [setBlock] using hack
    · simpa [setBlock, hack, hb, Function.update_of_ne (Ne.symm hb)] using h.ack_eq
  fired_le := hge
  proper := h.proper
  gbs_ok := hβ
  waiting_eq := by
    intro b'
    by_cases hb : b' = b
    · subst hb
      simpa [setBlock] using hself
    · simpa [setBlock, Function.update_of_ne hb, (hother b' hb).2] using h.waiting_eq b'
  block_ok := by
    intro b'
    by_cases hb : b' = b
    · subst hb
      simpa [setBlock] using hok
    · simpa [setBlock, Function.update_of_ne hb, (hother b' hb).1] using h.block_ok b'
  leader := by
    by_cases hb : b = 0
    · subst hb
      simpa [setBlock] using hlead rfl
    · simpa [setBlock, Function.update_of_ne (Ne.symm hb)] using h.leader
  content := hcontent

/-- A step inside a batch leaves `ack` alone. -/
lemma replace_inside (h : w.Inv) {β : Barrier (Fin (n + 1))} {blk : Block} (hβ : β.Ok)
    (hother : ∀ b', b' ≠ b → β.arrived b' = w.gbs.arrived b' ∧ β.waiting b' = w.gbs.waiting b')
    (hself : β.waiting b = blk.phase.waiting) (hok : BlockOk w.fired (β.arrived b) blk)
    (hlast : blk.lastSeq = (w.blocks b).lastSeq)
    (hlead : b = 0 → blk.phase = .pollBarrier → blk.lastSeq < w.fired.length) :
    ({ w with gbs := β }.setBlock b blk).Inv := by
  refine h.replace (a := w.queue.ack) hβ hother hself hok ?_ hlead h.fired_le h.content
  split
  · rename_i hb
    rw [hlast, hb, h.ack_eq]
  · rfl

/-- Block `b` goes on without meeting the barrier. -/
lemma goto (h : w.Inv) (hw : (w.blocks b).phase.waiting = false) (hp : p.waiting = false)
    (hok : BlockOk w.fired (w.gbs.arrived b) { w.blocks b with phase := p }) :
    (w.goto b p).Inv := by
  refine h.replace_inside h.gbs_ok (fun _ _ => ⟨rfl, rfl⟩) ?_ hok rfl ?_
  · rw [h.waiting_eq b, hw, hp]
  · rintro - rfl
    exact Bool.noConfusion hp

/-- Block `b` arrives at the barrier. -/
lemma arriveAt (h : w.Inv) {blk : Block} (hw : (w.blocks b).phase.waiting = false)
    (hp : blk.phase.waiting = true) (hlast : blk.lastSeq = (w.blocks b).lastSeq)
    (hok : BlockOk w.fired (w.gbs.arrived b + 1) blk)
    (hlead : b = 0 → blk.phase = .pollBarrier → blk.lastSeq < w.fired.length) :
    ((w.arrive b).setBlock b blk).Inv := by
  refine h.replace_inside (h.gbs_ok.arrive ((h.waiting_eq b).trans hw)) ?_ ?_ ?_ hlast hlead
  · intro b' hb
    exact ⟨Barrier.arrive_arrived_of_ne hb, Barrier.arrive_waiting_of_ne hb⟩
  · rw [Barrier.arrive_waiting_self, hp]
  · rwa [Barrier.arrive_arrived_self]

/-- Block `b` leaves the barrier. -/
lemma leave (h : w.Inv) (hs : w.leave b p = some w') (hp : p.waiting = false)
    (hok : w.gbs.Opens b → BlockOk w.fired (w.gbs.arrived b) { w.blocks b with phase := p }) :
    w'.Inv := by
  rw [Worker.leave] at hs
  split at hs
  · rename_i hopen
    obtain rfl := Option.some.inj hs
    refine h.replace_inside (h.gbs_ok.pass hopen) ?_ ?_ ?_ rfl ?_
    · intro b' hb
      exact ⟨rfl, Barrier.pass_waiting_of_ne hb⟩
    · rw [Barrier.pass_waiting_self, hp]
    · exact hok hopen
    · rintro - rfl
      exact Bool.noConfusion hp
  · exact absurd hs (by simp)

/-- Block `b` ends its batch. -/
lemma finish (h : w.Inv) {i : ℕ} (hblk : w.blocks b = ⟨.writeAck (i + 1), i, logAt w.fired (i + 1)⟩)
    (hi : i < w.fired.length) (harr : w.gbs.arrived b = arrivalsAt w.fired (i + 1)) :
    (w.finish b (i + 1)).Inv := by
  have hok : BlockOk w.fired (w.gbs.arrived b)
      { w.blocks b with
        phase := .poll
        lastSeq := i + 1 } := by
    rw [harr, hblk]
    exact .poll hi
  have hwait : w.gbs.waiting b = false := by
    rw [h.waiting_eq b, hblk]
    rfl
  -- block 0 acknowledges the last batch, so nothing is outstanding afterwards
  have hzero : b = 0 → w.fired.length = i + 1 := by
    rintro rfl
    have hack : w.queue.ack = i := by rw [h.ack_eq, hblk]
    have := h.fired_le
    omega
  refine h.replace h.gbs_ok (fun _ _ => ⟨rfl, rfl⟩) hwait hok rfl ?_ ?_ ?_
  · intro _ hph
    exact Phase.noConfusion hph
  · split
    · rename_i hb
      rw [hzero hb]
      omega
    · exact h.fired_le
  · intro batch hget
    split at hget
    · rename_i hb
      have := (List.getElem?_eq_some_iff.mp hget).1
      rw [hzero hb] at this
      omega
    · exact h.content batch hget

/-- The head of the instruction loop, at instruction `pc` of batch `i`. -/
lemma loopHead_ok {F : List Batch} {i pc : ℕ} (hi : F[i]? = some batch)
    (hpc : pc ≤ batch.insts.length) :
    BlockOk F (arrivalsAt F i + 1 + pc)
      ⟨loopHead (i + 1) batch.insts.length batch.pcBase pc, i,
        logAt F i ++ batch.entries.take pc⟩ := by
  rw [loopHead]
  split
  · rename_i hlt
    exact .load hi (List.getElem?_eq_getElem hlt) (fun _ _ hx => absurd hx (by simp))
  · obtain rfl : pc = batch.insts.length := by omega
    have hend : arrivalsAt F i + 1 + batch.insts.length = arrivalsAt F (i + 1) := by
      rw [arrivalsAt_succ hi]
      omega
    rw [hend, ← Batch.length_entries, List.take_length, ← logAt_succ hi]
    exact .writeAck (List.getElem?_eq_some_iff.mp hi).1

lemma loopHead_waiting (seq num base pc : ℕ) :
    (loopHead seq num base pc).waiting = false := by
  rw [loopHead]
  split <;> rfl

end Inv

/-- What has been loaded of an instruction is that instruction. -/
lemma loaded_eq {sinst : Fin instSize → Option UInt64} {inst inst' : Instruction}
    (hs : ∀ j x, sinst j = some x → x = inst.words j) (h : loaded sinst = some inst') :
    inst' = inst := by
  rw [loaded] at h
  split at h
  · rename_i hall
    obtain rfl := Option.some.inj h
    have hw : ∀ j, (sinst j).get (hall j) = inst.words j :=
      fun j => hs j _ (Option.some_get (hall j)).symm
    exact congrArg Instruction.mk (funext hw)
  · exact absurd h (by simp)

/-- **Every step of a block keeps the invariant.** -/
theorem Inv.blockStep (h : w.Inv) {j : Fin instSize} (hs : w.blockStep b j = some w') :
    w'.Inv := by
  have hok := h.block_ok b
  unfold Worker.blockStep at hs
  generalize hblk : w.blocks b = blk at hok hs
  generalize harr : w.gbs.arrived b = arr at hok
  cases hok with
  | @poll i hi =>
      simp only at hs
      split at hs
      · exact absurd hs (by simp)
      · rename_i hpoll
        obtain rfl := Option.some.inj hs
        refine h.arriveAt (by rw [hblk]; rfl) rfl rfl ?_ ?_
        · show BlockOk w.fired _ { w.blocks b with phase := .pollBarrier }
          rw [harr, hblk]
          exact .pollBarrier hi
        · rintro rfl -
          show (w.blocks 0).lastSeq < _
          rw [not_and, h.seqNum_eq, not_le] at hpoll
          rw [hblk]
          exact hpoll rfl
  | @pollBarrier i hi =>
      refine h.leave hs rfl fun hopen => ?_
      have hlt : i < w.fired.length := h.lt_of_arrived_zero (by have := hopen 0; omega) hi
      rw [harr, hblk]
      exact .readSeq hlt
  | @readSeq i hi =>
      obtain rfl := Option.some.inj hs
      have hget := List.getElem?_eq_getElem hi
      have hpos := List.length_pos_iff.mpr (h.nonempty _ (List.getElem_mem hi))
      obtain ⟨hlen, -⟩ := h.holds_current 0 hblk rfl harr hget hpos
      refine h.goto (by rw [hblk]; rfl) rfl ?_
      rw [harr, hblk, h.seqNum_eq, hlen]
      exact .readNum hi
  | @readNum i hi =>
      obtain rfl := Option.some.inj hs
      have hget := List.getElem?_eq_getElem hi
      have hpos := List.length_pos_iff.mpr (h.nonempty _ (List.getElem_mem hi))
      obtain ⟨-, hq⟩ := h.holds_current 0 hblk rfl harr hget hpos
      refine h.goto (by rw [hblk]; rfl) rfl ?_
      rw [harr, hblk, hq.numInstructions_eq, if_neg hpos.ne']
      exact .readBase hget
  | @readBase i batch hi =>
      obtain rfl := Option.some.inj hs
      have hpos := List.length_pos_iff.mpr (h.nonempty _ (List.mem_of_getElem? hi))
      obtain ⟨-, hq⟩ := h.holds_current 0 hblk rfl harr hi hpos
      refine h.goto (by rw [hblk]; rfl) (loopHead_waiting ..) ?_
      rw [harr, hblk, hq.pcBase_eq]
      simpa using loopHead_ok hi (Nat.zero_le _)
  | @load i batch pc inst sinst hi hpc hsinst =>
      have hlt := (List.getElem?_eq_some_iff.mp hpc).1
      simp only at hs
      split at hs
      · rename_i inst' hloaded
        obtain rfl := loaded_eq hsinst hloaded
        have hnot : inst'.opcode ≠ opHalt :=
          (h.proper batch (List.mem_of_getElem? hi)).no_halt inst' (List.mem_of_getElem? hpc)
        rw [if_neg hnot] at hs
        obtain rfl := Option.some.inj hs
        refine h.arriveAt (by rw [hblk]; rfl) rfl rfl ?_ ?_
        · have hlog : batch.entries.take (pc + 1) =
              batch.entries.take pc ++ [(inst', (pc + batch.pcBase) % 2 ^ 32)] := by
            rw [List.take_add_one, Batch.entries, List.getElem?_mapIdx, hpc]
            rfl
          rw [harr, hblk]
          simp only [List.append_assoc, ← hlog]
          exact .opBarrier hi hlt
        · intro _ hph
          exact Phase.noConfusion hph
      · split at hs
        · exact absurd hs (by simp)
        · obtain rfl := Option.some.inj hs
          obtain ⟨-, hq⟩ := h.holds_current pc hblk rfl harr hi hlt
          refine h.goto (by rw [hblk]; rfl) rfl ?_
          rw [harr, hblk, hq.inst_eq hpc]
          refine .load hi hpc fun k x hx => ?_
          by_cases hk : k = j
          · subst hk
            rw [Function.update_self] at hx
            exact (Option.some.inj hx).symm
          · rw [Function.update_of_ne hk] at hx
            exact hsinst k x hx
  | @opBarrier i batch pc hi hpc =>
      refine h.leave hs (loopHead_waiting ..) fun _ => ?_
      rw [harr, hblk]
      exact loopHead_ok hi hpc
  | @writeAck i hi =>
      obtain rfl := Option.some.inj hs
      exact h.finish hblk hi harr

/-- A step of a block leaves the host's side alone; of the mailbox it writes only `ack`, and
only block 0 does, at the end of its batch. -/
structure Frame (w : Worker n) (b : Fin (n + 1)) (w' : Worker n) : Prop where
  fired_eq : w'.fired = w.fired
  seqCounter_eq : w'.seqCounter = w.seqCounter
  queue_eq : w'.queue = { w.queue with ack := w'.queue.ack }
  ack_eq_or : w'.queue.ack = w.queue.ack ∨
    b = 0 ∧ (w.blocks b).phase = .writeAck w'.queue.ack
  blocks_eq : ∀ b', b' ≠ b → w'.blocks b' = w.blocks b'

lemma leave_frame (hs : w.leave b p = some w') : Frame w b w' := by
  rw [leave] at hs
  split at hs
  · obtain rfl := Option.some.inj hs
    exact ⟨rfl, rfl, rfl, .inl rfl, fun _ hb => Function.update_of_ne hb _ _⟩
  · exact absurd hs (by simp)

lemma blockStep_frame {j : Fin instSize} (hs : w.blockStep b j = some w') : Frame w b w' := by
  unfold blockStep at hs
  split at hs
  case h_2 | h_7 | h_9 => exact leave_frame hs
  case h_1 =>
    split at hs
    · exact absurd hs (by simp)
    · obtain rfl := Option.some.inj hs
      exact ⟨rfl, rfl, rfl, .inl rfl, fun _ hb => Function.update_of_ne hb _ _⟩
  case h_6 =>
    split at hs <;> split at hs
    · obtain rfl := Option.some.inj hs
      exact ⟨rfl, rfl, rfl, .inl rfl, fun _ hb => Function.update_of_ne hb _ _⟩
    · obtain rfl := Option.some.inj hs
      exact ⟨rfl, rfl, rfl, .inl rfl, fun _ hb => Function.update_of_ne hb _ _⟩
    · exact absurd hs (by simp)
    · obtain rfl := Option.some.inj hs
      exact ⟨rfl, rfl, rfl, .inl rfl, fun _ hb => Function.update_of_ne hb _ _⟩
  case h_8 seq hph =>
    obtain rfl := Option.some.inj hs
    refine ⟨rfl, rfl, rfl, ?_, fun _ hb => Function.update_of_ne hb _ _⟩
    by_cases hb : b = 0
    · refine .inr ⟨hb, ?_⟩
      simp [finish, setBlock, hb, ← hph]
    · refine .inl ?_
      simp [finish, setBlock, hb]
  case h_10 => exact absurd hs (by simp)
  all_goals
    obtain rfl := Option.some.inj hs
    exact ⟨rfl, rfl, rfl, .inl rfl, fun _ hb => Function.update_of_ne hb _ _⟩

/-- `ack` never goes back. -/
lemma Inv.ack_le_of_frame (h : w.Inv) (hf : Frame w b w') : w.queue.ack ≤ w'.queue.ack := by
  rcases hf.ack_eq_or with heq | ⟨rfl, hph⟩
  · exact heq.ge
  · have hok := h.block_ok 0
    rw [h.ack_eq]
    generalize w.blocks 0 = blk at hok hph
    generalize w.gbs.arrived 0 = arr at hok
    cases hok with
    | writeAck => exact Phase.writeAck.inj hph ▸ Nat.le_succ _
    | _ => exact Phase.noConfusion hph

namespace Inv

/-! ### The host's stores -/

/-- While nothing is outstanding, the host may write the mailbox. -/
lemma store (h : w.Inv) (hack : w.queue.ack = w.fired.length) (batch : Batch) (k : ℕ) :
    (w.store batch k).Inv := by
  have hnone : ∀ q : WorkerQueue, ∀ c, w.fired[w.queue.ack]? = some c → q.Holds c := by
    intro q c hc
    rw [hack, List.getElem?_length] at hc
    exact absurd hc (by simp)
  rw [Worker.store]
  split
  · exact { h with content := hnone _ }
  · split
    · exact { h with content := hnone _ }
    · exact { h with content := hnone _ }

/-- Store number `k` adds to what the mailbox holds. -/
lemma holdsUpTo_store {k : ℕ} (h : w.queue.HoldsUpTo batch k) (hk : k < batch.numWords + 2) :
    (w.store batch k).queue.HoldsUpTo batch (k + 1) := by
  obtain ⟨hi, hn, hb⟩ := h
  rw [Worker.store]
  split
  · rename_i hlt
    refine ⟨fun x hx hxn => ?_, fun hlt' => by omega, fun hlt' => by omega⟩
    by_cases hxk : x = k
    · subst hxk
      simp
    · simpa [Function.update_of_ne hxk] using hi x (by omega) hxn
  · rename_i hge
    split
    · rename_i heq
      exact ⟨fun x _ hxn => hi x (by omega) hxn, fun _ => rfl, fun hlt' => by omega⟩
    · exact ⟨fun x _ hxn => hi x (by omega) hxn, fun _ => hn (by omega), fun _ => rfl⟩

lemma nextSeq_eq {c : ℕ} (h : c + 1 < 2 ^ 32 - 1) : nextSeq c = c + 1 := by
  have hmod : (c + 1) % 2 ^ 32 = c + 1 := Nat.mod_eq_of_lt (by omega)
  simp only [nextSeq, hmod]
  rw [if_neg (by omega)]

/-- The store of `seq_num` hands the next batch over. -/
lemma trigger (h : w.Inv) (hack : w.queue.ack = w.fired.length) (hb : batch.Proper)
    (hq : w.queue.Holds batch) (hlen : w.fired.length + 1 < 2 ^ 32 - 1) :
    (w.trigger batch).Inv := by
  have hseq : nextSeq w.seqCounter = (w.fired ++ [batch]).length := by
    rw [h.seqCounter_eq, nextSeq_eq hlen, List.length_append, List.length_singleton]
  exact
    { seqNum_eq := hseq
      seqCounter_eq := hseq
      ack_eq := h.ack_eq
      fired_le := by simp [Worker.trigger, hack]
      proper := by
        intro c hc
        rcases List.mem_append.mp hc with hc | hc
        · exact h.proper c hc
        · rwa [List.mem_singleton.mp hc]
      gbs_ok := h.gbs_ok
      waiting_eq := h.waiting_eq
      block_ok := fun b => (h.block_ok b).append
      leader := fun hph => (h.leader hph).trans_le (by simp [Worker.trigger])
      content := by
        intro c hc
        have hc' : (w.fired ++ [batch])[w.queue.ack]? = some c := hc
        rw [hack, List.getElem?_concat_length] at hc'
        rwa [← Option.some.inj hc'] }

/-! ### What the invariant says -/

/-- **Whatever is acknowledged has been executed**, by every block. -/
theorem executed_of_ack (h : w.Inv) {k : ℕ} (hk : k ≤ w.queue.ack) (b : Fin (n + 1)) :
    logAt w.fired k <+: (w.blocks b).log := by
  refine (h.block_ok b).executed h.nonempty (hk.trans h.ack_le) ?_
  calc arrivalsAt w.fired k ≤ arrivalsAt w.fired w.queue.ack := arrivalsAt_mono hk
    _ ≤ w.gbs.passed 0 := by
        rw [h.ack_eq, Barrier.passed, h.waiting_eq 0]
        exact (h.block_ok 0).le_passed
    _ ≤ w.gbs.arrived b := h.gbs_ok 0 b

/-- Once the last batch is acknowledged, every block has executed exactly what was fired. -/
lemma log_eq_of_ack (h : w.Inv) (hack : w.queue.ack = w.fired.length) (b : Fin (n + 1)) :
    (w.blocks b).log = logAt w.fired w.fired.length :=
  (h.block_ok b).log_isPrefix_logAt.eq_of_length_le (h.executed_of_ack hack.ge b).length_le

/-- **All blocks agree on the batch they execute.** -/
theorem header_agree (h : w.Inv) {b b' : Fin (n + 1)} {hd hd' : ℕ × ℕ × ℕ}
    (hb : (w.blocks b).phase.header? = some hd) (hb' : (w.blocks b').phase.header? = some hd') :
    hd = hd' := by
  -- a block that has left the poll barrier of a later batch has seen all others arrive there
  have hle : ∀ {b b' : Fin (n + 1)} {hd hd'}, (w.blocks b).phase.header? = some hd →
      (w.blocks b').phase.header? = some hd' → (w.blocks b').lastSeq ≤ (w.blocks b).lastSeq := by
    intro b b' hd hd' hb hb'
    by_contra hcon
    obtain ⟨-, -, -, hup⟩ := (h.block_ok b).header hb
    obtain ⟨-, -, hlow, -⟩ := (h.block_ok b').header hb'
    have hmono : arrivalsAt w.fired ((w.blocks b).lastSeq + 1) ≤
        arrivalsAt w.fired (w.blocks b').lastSeq := arrivalsAt_mono (by omega)
    have hpass := h.gbs_ok b' b
    rw [Barrier.passed, h.waiting_eq b'] at hpass
    omega
  have heq : (w.blocks b').lastSeq = (w.blocks b).lastSeq :=
    le_antisymm (hle hb hb') (hle hb' hb)
  obtain ⟨batch, ⟨hi, rfl⟩, -⟩ := (h.block_ok b).header hb
  obtain ⟨batch', ⟨hi', rfl⟩, -⟩ := (h.block_ok b').header hb'
  rw [heq] at hi' ⊢
  rw [Option.some.inj (hi.symm.trans hi')]

/-- An instruction that is not all loaded misses a word. -/
lemma exists_not_loaded {sinst : Fin instSize → Option UInt64} (h : loaded sinst = none) :
    ∃ j, (sinst j).isSome = false := by
  by_contra hcon
  have hall : ∀ j, (sinst j).isSome := by
    intro j
    by_contra hj
    exact hcon ⟨j, Bool.not_eq_true _ ▸ hj⟩
  rw [loaded, dif_pos hall] at h
  exact absurd h (by simp)

/-- **A worker with an unacknowledged batch can step**: a block with the fewest arrivals is not
held up by the barrier. -/
theorem exists_blockStep (h : w.Inv) (hlt : w.queue.ack < w.fired.length) :
    ∃ b j, (w.blockStep b j).isSome := by
  obtain ⟨b, hopen⟩ := w.gbs.exists_opens
  have hleave : ∀ p, (w.leave b p).isSome := by
    intro p
    rw [Worker.leave, if_pos hopen]
    rfl
  have hword : Fin instSize := ⟨0, by decide⟩
  have hok := h.block_ok b
  generalize harr : w.gbs.arrived b = arr at hok
  generalize hblk : w.blocks b = blk at hok
  cases hok with
  | @poll i hi =>
      refine ⟨b, hword, ?_⟩
      rw [Worker.blockStep, hblk]
      simp only
      rw [if_neg]
      · rfl
      · rintro ⟨rfl, hle⟩
        rw [h.ack_eq, hblk] at hlt
        rw [h.seqNum_eq] at hle
        exact absurd hlt (not_lt.mpr hle)
  | @load i batch pc inst sinst hi hpc hs =>
      cases hl : loaded sinst with
      | some inst' =>
          obtain rfl := loaded_eq hs hl
          have hnot : inst'.opcode ≠ opHalt :=
            (h.proper batch (List.mem_of_getElem? hi)).no_halt inst' (List.mem_of_getElem? hpc)
          refine ⟨b, hword, ?_⟩
          rw [Worker.blockStep, hblk]
          simp only [hl]
          rw [if_neg hnot]
          rfl
      | none =>
          obtain ⟨j, hj⟩ := exists_not_loaded hl
          refine ⟨b, j, ?_⟩
          rw [Worker.blockStep, hblk]
          simp [hl, hj]
  | pollBarrier | opBarrier =>
      refine ⟨b, hword, ?_⟩
      rw [Worker.blockStep, hblk]
      exact hleave _
  | readSeq | readNum | readBase | writeAck =>
      refine ⟨b, hword, ?_⟩
      rw [Worker.blockStep, hblk]
      rfl

end Inv

end Worker

end Braidinfer.Mailbox
