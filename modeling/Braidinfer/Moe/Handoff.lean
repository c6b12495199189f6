/-
The hand-off of the workers' results to the sum step.

A worker stores its result through `OP_MOE_FFN_REMOTE`, behind an offset that the kernel derives
from the parity of `result_seq`.  GPU 0's sum step reads the workers' slots: by default from
`output_slots`, with `YEF52_OPTION_C` from the workers' own buffers.

* `resultRange`, `postRanges`: where a worker stores and where the sum step reads;
* `opMoeDispatchPost`: the sum;
* `stepHandoff_iff`: **the sum step reads what the workers wrote** exactly with option C or in
  the steps of even `seq`.
-/
import Braidinfer.Lib.RowMem
import Braidinfer.Moe.Step

namespace Braidinfer.Moe

open Braidinfer.Lib

/-! ### The two ends of the hand-off -/

/-- The place `op_moe_ffn_remote` stores its `gupd` floats to: `out_p2p + (result_seq & 1) * gupd`. -/
def MoeFfnRemote.resultRange (r : MoeFfnRemote) : Ptr :=
  r.outputSlot.add (r.resultSeq % 2 * r.gupd)

/-- `gupd` of the sum step. -/
def MoeDispatchPost.gupd (p : MoeDispatchPost) : ℕ :=
  if p.gateUpInDim = 0 then p.hs else p.gateUpInDim

/-- The places the sum step reads, in the order of its loop over the workers. -/
def MoeDispatchPost.postRanges (p : MoeDispatchPost) : List Ptr :=
  match p.resultDescs with
  | some descs => (descs.take (p.numGpus - 1)).map fun d =>
      d.localOutputUc.add (p.seqCounter % 2 * p.gupd)
  | none => (List.range' 1 (p.numGpus - 1)).map fun g => p.outputSlots.add (g * p.hs)

section Memory

variable {F : Type}

/-- The result store of `op_moe_ffn_remote`, with the accumulated floats `lo`. -/
def storeResult (mem : RowMem Buf F) (r : MoeFfnRemote) (lo : ℕ → F) : RowMem Buf F :=
  mem.setRows r.resultRange.buf r.resultRange.off 1 r.gupd fun _ i => lo i

/-- `op_moe_dispatch_post`: the float `idx` of `final_output`. -/
def opMoeDispatchPost (zero : F) (add : F → F → F) (mem : RowMem Buf F) (p : MoeDispatchPost)
    (idx : ℕ) : F :=
  p.postRanges.foldl (fun sum q => add sum (mem q.buf (q.off + idx))) zero

end Memory

/-- The sizes `MoeP2pContext::init` allocates for the results. -/
def resultSize (p2p : P2pConfig) (m : Model) : Buf → ℕ
  | .outputSlots => maxPrefillBatch * p2p.numGpus * m.hiddenSize
  | .localOutputUc _ => 2 * m.hiddenSize
  | _ => 0

/-- Two ranges of `n` floats have no float in common. -/
def Ptr.Disjoint (n : ℕ) (p q : Ptr) : Prop :=
  p.buf = q.buf → p.off + n ≤ q.off ∨ q.off + n ≤ p.off

/-- The sum step of a layer in a step reads exactly what the workers wrote: worker by worker the
ranges are the same, distinct workers' ranges are disjoint and inside their buffers, and for all
results, stored in any order, the output is their sum. -/
structure HandoffAgrees (p2p : P2pConfig) (m : Model) (post : MoeDispatchPost)
    (remotes : List MoeFfnRemote) : Prop where
  ranges : remotes.map (·.resultRange) = post.postRanges
  lengths : ∀ r ∈ remotes, r.gupd = post.gupd
  disjoint : (remotes.map (·.resultRange)).Pairwise (Ptr.Disjoint post.gupd)
  inside : ∀ q ∈ remotes.map (·.resultRange), q.off + post.gupd ≤ resultSize p2p m q.buf
  sum : ∀ (F : Type) (zero : F) (add : F → F → F) (mem : RowMem Buf F) (lo : ℕ → ℕ → F)
    (order : List (ℕ × MoeFfnRemote)), order.Perm (remotes.zipIdx.map fun e => (e.2, e.1)) →
    ∀ idx < post.gupd,
      opMoeDispatchPost zero add (order.foldl (fun mem e => storeResult mem e.2 (lo e.1)) mem)
        post idx = (List.range remotes.length).foldl (fun s w => add s (lo w idx)) zero

/-- The sum step of a layer in a step reads what the workers wrote. -/
def StepHandoff (p2p : P2pConfig) (m : Model) (position li : ℕ) : Prop :=
  ∃ bd post remotes, stepBoundary p2p m position li = some bd ∧
    bd.resume = some (.moeDispatchPost post) ∧
    dispatchMoeWorkersDecode p2p m li position = some remotes ∧
    HandoffAgrees p2p m post remotes

/-! ### Disjoint ranges give the sum -/

lemma Ptr.Disjoint.symm {n : ℕ} {p q : Ptr} (h : p.Disjoint n q) : q.Disjoint n p :=
  fun hbuf => (h hbuf.symm).symm

section Sum

variable {F : Type} {mem : RowMem Buf F} {lo : ℕ → ℕ → F} {n idx : ℕ}
  {order : List (ℕ × MoeFfnRemote)}

/-- A store beside a range leaves it alone. -/
lemma storeResult_of_disjoint {r : MoeFfnRemote} {q : Ptr} {v : ℕ → F} (hn : r.gupd = n)
    (hd : r.resultRange.Disjoint n q) (hidx : idx < n) :
    storeResult mem r v q.buf (q.off + idx) = mem q.buf (q.off + idx) := by
  by_cases hbuf : r.resultRange.buf = q.buf
  · have hrange := hd hbuf
    refine RowMem.setRows_of_notMem ?_
    rw [hn, Nat.one_mul]
    omega
  · rw [storeResult, RowMem.setRows_of_ne fun h => hbuf h.symm]

lemma storeResult_self {r : MoeFfnRemote} {v : ℕ → F} (hidx : idx < r.gupd) :
    storeResult mem r v r.resultRange.buf (r.resultRange.off + idx) = v idx := by
  have h : storeResult mem r v r.resultRange.buf
      (r.resultRange.off + (0 * r.gupd + (⟨idx, hidx⟩ : Fin r.gupd))) = v idx :=
    RowMem.setRows_apply Nat.one_pos _
  rwa [Nat.zero_mul, Nat.zero_add] at h

lemma foldl_storeResult_of_disjoint {q : Ptr} (hn : ∀ e ∈ order, e.2.gupd = n)
    (hd : ∀ e ∈ order, e.2.resultRange.Disjoint n q) (hidx : idx < n) :
    order.foldl (fun mem e => storeResult mem e.2 (lo e.1)) mem q.buf (q.off + idx) =
      mem q.buf (q.off + idx) := by
  induction order generalizing mem with
  | nil => rfl
  | cons e order ih =>
      rw [List.foldl_cons, ih (fun e' he' => hn e' (List.mem_cons_of_mem _ he'))
        (fun e' he' => hd e' (List.mem_cons_of_mem _ he')),
        storeResult_of_disjoint (hn e List.mem_cons_self) (hd e List.mem_cons_self) hidx]

/-- After the stores of workers with disjoint ranges, each range holds its worker's result. -/
lemma foldl_storeResult {e : ℕ × MoeFfnRemote} (hn : ∀ e ∈ order, e.2.gupd = n)
    (hd : order.Pairwise fun a b => a.2.resultRange.Disjoint n b.2.resultRange)
    (he : e ∈ order) (hidx : idx < n) :
    order.foldl (fun mem e => storeResult mem e.2 (lo e.1)) mem e.2.resultRange.buf
      (e.2.resultRange.off + idx) = lo e.1 idx := by
  induction order generalizing mem with
  | nil => cases he
  | cons e' order ih =>
      rw [List.pairwise_cons] at hd
      rw [List.foldl_cons]
      rcases List.mem_cons.mp he with rfl | he
      · rw [foldl_storeResult_of_disjoint (fun e' he' => hn e' (List.mem_cons_of_mem _ he'))
          (fun e' he' => (hd.1 e' he').symm) hidx,
          storeResult_self (by rw [hn e List.mem_cons_self]; exact hidx)]
      · exact ih (fun e' he' => hn e' (List.mem_cons_of_mem _ he')) hd.2 he

end Sum

variable {p2p : P2pConfig} {m : Model} {post : MoeDispatchPost} {remotes : List MoeFfnRemote}

/-- Equal, disjoint ranges inside the buffers hand the results over. -/
lemma HandoffAgrees.of_ranges (hranges : remotes.map (·.resultRange) = post.postRanges)
    (hlen : ∀ r ∈ remotes, r.gupd = post.gupd)
    (hd : (remotes.map (·.resultRange)).Pairwise (Ptr.Disjoint post.gupd))
    (hin : ∀ q ∈ remotes.map (·.resultRange), q.off + post.gupd ≤ resultSize p2p m q.buf) :
    HandoffAgrees p2p m post remotes := by
  refine ⟨hranges, hlen, hd, hin, ?_⟩
  intro F zero add mem lo order horder idx hidx
  have hmem : ∀ e ∈ order, e.2 ∈ remotes := by
    intro e he
    obtain ⟨e', he', rfl⟩ := List.mem_map.mp (horder.mem_iff.mp he)
    exact List.fst_mem_of_mem_zipIdx he'
  have hfst : remotes.zipIdx.map Prod.fst = remotes := List.zipIdx_map_fst ..
  have hsnd : remotes.zipIdx.map Prod.snd = List.range remotes.length := by
    rw [List.zipIdx_map_snd, List.range_eq_range']
  have hpair : order.Pairwise fun a b => a.2.resultRange.Disjoint post.gupd b.2.resultRange := by
    refine (horder.pairwise_iff fun {a b} h => h.symm).mpr ?_
    rw [List.pairwise_map] at hd ⊢
    rw [← hfst, List.pairwise_map] at hd
    exact hd
  rw [opMoeDispatchPost, ← hranges, ← hsnd, List.foldl_map, List.foldl_map]
  conv_lhs => rw [← hfst, List.foldl_map]
  refine List.foldl_ext _ _ _ fun s e he => ?_
  have he' : (e.2, e.1) ∈ order := horder.mem_iff.mpr (List.mem_map_of_mem he)
  rw [foldl_storeResult (fun e he => hlen _ (hmem e he)) hpair he' hidx]

/-! ### When the two ends agree -/

variable {li position : ℕ} {moe : MoeLayer}

/-- Where worker `w` stores in a step. -/
def storedAt (p2p : P2pConfig) (m : Model) (moe : MoeLayer) (seq w : ℕ) : Ptr :=
  if p2p.optionC then (Buf.localOutputUc w).ptr.add (seq % 2 * readLen m moe)
  else Buf.outputSlots.ptr.add ((w + 1) * m.hiddenSize + seq % 2 * readLen m moe)

/-- Where the sum step reads for worker `w` in a step. -/
def readAt (p2p : P2pConfig) (m : Model) (moe : MoeLayer) (seq w : ℕ) : Ptr :=
  if p2p.optionC then (Buf.localOutputUc w).ptr.add (seq % 2 * readLen m moe)
  else Buf.outputSlots.ptr.add ((w + 1) * m.hiddenSize)

lemma resultRange_remoteInst {st : Pass1} (hst : st.Covers p2p m li moe) (seq w : ℕ) :
    (remoteInst st (decodeMoeParams m moe) li seq w).resultRange = storedAt p2p m moe seq w := by
  rw [MoeFfnRemote.resultRange, remoteInst_gupd, storedAt]
  cases hC : p2p.optionC <;>
    simp [remoteInst, hst.resultDescs, hC, decodeMoeParams, Ptr.add]

lemma gupd_stepPost (seq : ℕ) : (stepPost p2p m seq li moe).gupd = readLen m moe := rfl

lemma postRanges_stepPost (seq : ℕ) : (stepPost p2p m seq li moe).postRanges =
    (List.range p2p.numWorkers).map (readAt p2p m moe seq) := by
  have hnum : p2p.numGpus - 1 = p2p.numWorkers := rfl
  cases hC : p2p.optionC with
  | true =>
      have hdescs : (stepPost p2p m seq li moe).resultDescs = some (resultDescs p2p li) := by
        simp [stepPost, postInst, hC]
      have hseq : (stepPost p2p m seq li moe).seqCounter = seq := by simp [stepPost, hC]
      have htake : (resultDescs p2p li).take ((stepPost p2p m seq li moe).numGpus - 1) =
          resultDescs p2p li := List.take_of_length_le (by simp [resultDescs, stepPost, postInst,
            P2pConfig.numGpus])
      rw [MoeDispatchPost.postRanges, hdescs]
      dsimp only
      rw [htake, hseq, gupd_stepPost, resultDescs, List.map_map]
      exact List.map_congr_left fun w _ => by simp [readAt, hC]
  | false =>
      have hdescs : (stepPost p2p m seq li moe).resultDescs = none := by
        simp [stepPost, postInst, hC]
      rw [MoeDispatchPost.postRanges, hdescs]
      dsimp only
      rw [show (stepPost p2p m seq li moe).numGpus - 1 = p2p.numWorkers from hnum,
        List.range'_eq_map_range, List.map_map]
      refine List.map_congr_left fun w _ => ?_
      simp only [readAt, hC, Bool.false_eq_true, if_false, Function.comp_apply, Nat.add_comm 1 w]
      rfl

/-- The results of a step fit their buffers, slot by slot. -/
def HandoffFits (p2p : P2pConfig) (m : Model) (moe : MoeLayer) (position : ℕ) : Prop :=
  if p2p.optionC then
    (position + 1) % 2 * readLen m moe + readLen m moe ≤ 2 * m.hiddenSize
  else
    (readLen m moe ≤ m.hiddenSize ∨ p2p.numWorkers = 1) ∧
      p2p.numWorkers * m.hiddenSize + readLen m moe ≤
        maxPrefillBatch * p2p.numGpus * m.hiddenSize

lemma readLen_pos : 0 < readLen m moe := by
  have := m.hiddenSize_pos
  rw [readLen]
  split_ifs <;> omega

/-- Reading where the workers stored needs the first slot, or option C. -/
lemma storedAt_eq_readAt_iff (w : ℕ) :
    storedAt p2p m moe (position + 1) w = readAt p2p m moe (position + 1) w ↔
      p2p.optionC = true ∨ position % 2 = 1 := by
  have hpos : 0 < readLen m moe := readLen_pos
  cases hC : p2p.optionC with
  | true => simp [storedAt, readAt, hC]
  | false =>
      simp only [storedAt, readAt, hC, Bool.false_eq_true, if_false, Ptr.add, Buf.ptr,
        Ptr.mk.injEq, true_and, Nat.zero_add, false_or]
      constructor
      · intro h
        have hmul : (position + 1) % 2 * readLen m moe = 0 := by omega
        rcases Nat.mul_eq_zero.mp hmul with h0 | h0 <;> omega
      · intro h
        rw [show (position + 1) % 2 = 0 by omega, Nat.zero_mul, Nat.add_zero]

/-- The ranges of distinct workers are disjoint and inside their buffers. -/
def RangesApart (p2p : P2pConfig) (m : Model) (moe : MoeLayer) (position : ℕ) : Prop :=
  ((List.range p2p.numWorkers).map (storedAt p2p m moe (position + 1))).Pairwise
      (Ptr.Disjoint (readLen m moe)) ∧
    ∀ w < p2p.numWorkers, (storedAt p2p m moe (position + 1) w).off + readLen m moe ≤
      resultSize p2p m (storedAt p2p m moe (position + 1) w).buf

/-- The slots of `output_slots` are apart when a result fits a slot, or there is one worker. -/
lemma pairwise_slots_iff {n hs g : ℕ} (hn : 0 < n) :
    ((List.range n).map fun w => Buf.outputSlots.ptr.add ((w + 1) * hs)).Pairwise
      (Ptr.Disjoint g) ↔ g ≤ hs ∨ n = 1 := by
  rw [List.pairwise_map]
  constructor
  · intro h
    by_cases h1 : n = 1
    · exact Or.inr h1
    · have h01 := List.pairwise_iff_getElem.mp h 0 1 (by rw [List.length_range]; omega)
        (by rw [List.length_range]; omega) Nat.zero_lt_one
      simp only [List.getElem_range] at h01
      have hdist := h01 rfl
      simp only [Ptr.off_add, Buf.off_ptr] at hdist
      omega
  · rintro (h | rfl)
    · refine List.pairwise_lt_range.imp fun {w w'} hlt _ => Or.inl ?_
      have hle : (w + 1 + 1) * hs ≤ (w' + 1) * hs := Nat.mul_le_mul_right _ (by omega)
      rw [Nat.succ_mul] at hle
      simp only [Ptr.off_add, Buf.off_ptr]
      omega
    · exact List.pairwise_singleton _ _

/-- The workers' ranges in a step that stores into the slots the sum step reads. -/
lemma rangesApart_iff (hslot : p2p.optionC = true ∨ position % 2 = 1) :
    RangesApart p2p m moe position ↔ HandoffFits p2p m moe position := by
  cases hC : p2p.optionC with
  | true =>
      have hpair : ((List.range p2p.numWorkers).map (storedAt p2p m moe (position + 1))).Pairwise
          (Ptr.Disjoint (readLen m moe)) := by
        rw [List.pairwise_map]
        refine List.pairwise_lt_range.imp fun {w w'} hlt hbuf => ?_
        simp only [storedAt, hC, if_true, Ptr.buf_add, Buf.buf_ptr, Buf.localOutputUc.injEq]
          at hbuf
        omega
      simp only [RangesApart, hpair, true_and, HandoffFits, hC, if_true, storedAt, Ptr.off_add,
        Buf.off_ptr, Nat.zero_add, Ptr.buf_add, Buf.buf_ptr, resultSize]
      exact ⟨fun h => h 0 p2p.numWorkers_pos, fun h _ _ => h⟩
  | false =>
      have hslot0 : (position + 1) % 2 = 0 := by
        rcases hslot with h | h
        · rw [h] at hC
          cases hC
        · omega
      have hstored : storedAt p2p m moe (position + 1) = fun w =>
          Buf.outputSlots.ptr.add ((w + 1) * m.hiddenSize) := by
        funext w
        simp [storedAt, hC, hslot0]
      simp only [RangesApart, HandoffFits, hC, Bool.false_eq_true, if_false, hstored, Ptr.off_add,
        Buf.off_ptr, Nat.zero_add, Ptr.buf_add, Buf.buf_ptr, resultSize]
      refine and_congr (pairwise_slots_iff p2p.numWorkers_pos) ⟨fun h => ?_, fun h w hw => ?_⟩
      · -- the last worker's slot is the highest
        have hlast := h (p2p.numWorkers - 1) (by have := p2p.numWorkers_pos; omega)
        rwa [show p2p.numWorkers - 1 + 1 = p2p.numWorkers by
          have := p2p.numWorkers_pos; omega] at hlast
      · have hle : (w + 1) * m.hiddenSize ≤ p2p.numWorkers * m.hiddenSize :=
          Nat.mul_le_mul_right _ hw
        omega

/-- **The sum step reads exactly what the workers wrote** with option C or in the steps of even
`seq`, as far as the results fit their slots at all. -/
theorem stepHandoff_iff (p2p : P2pConfig) (hmoe : m.moeWeights li = some moe) (position : ℕ) :
    StepHandoff p2p m position li ↔
      (p2p.optionC = true ∨ position % 2 = 1) ∧ HandoffFits p2p m moe position := by
  obtain ⟨batch, hbd, -⟩ := stepBoundary_eq p2p hmoe position
  obtain ⟨st, hst, hremotes⟩ := dispatchMoeWorkersDecode_eq p2p hmoe position
  have hstored : ((List.range p2p.numWorkers).map
      (remoteInst st (decodeMoeParams m moe) li (position + 1))).map (·.resultRange) =
      (List.range p2p.numWorkers).map (storedAt p2p m moe (position + 1)) := by
    rw [List.map_map]
    exact List.map_congr_left fun w _ => resultRange_remoteInst hst _ w
  constructor
  · rintro ⟨bd, post, remotes, hbd', hpost, hremotes', h⟩
    obtain rfl := Option.some.inj (hbd.symm.trans hbd')
    obtain rfl := Option.some.inj (hremotes.symm.trans hremotes')
    obtain rfl := Inst.moeDispatchPost.inj (Option.some.inj hpost)
    have hranges := h.ranges
    rw [hstored, postRanges_stepPost] at hranges
    have hslot := (storedAt_eq_readAt_iff 0).mp (List.map_inj_left.mp hranges 0
      (List.mem_range.mpr p2p.numWorkers_pos))
    refine ⟨hslot, (rangesApart_iff hslot).mp ⟨?_, fun w hw => ?_⟩⟩
    · rw [← hstored]
      exact h.disjoint
    · exact h.inside _ (by
        rw [hstored]
        exact List.mem_map_of_mem (List.mem_range.mpr hw))
  · rintro ⟨hslot, hfits⟩
    obtain ⟨hpair, hin⟩ := (rangesApart_iff hslot).mpr hfits
    refine ⟨_, _, _, hbd, rfl, hremotes, HandoffAgrees.of_ranges ?_ ?_ ?_ ?_⟩
    · rw [hstored, postRanges_stepPost]
      exact List.map_congr_left fun w _ => (storedAt_eq_readAt_iff w).mpr hslot
    · intro r hr
      obtain ⟨w, -, rfl⟩ := List.mem_map.mp hr
      rw [remoteInst_gupd, gupd_stepPost]
    · rw [hstored]
      exact hpair
    · intro q hq
      rw [hstored] at hq
      obtain ⟨w, hw, rfl⟩ := List.mem_map.mp hq
      exact hin w (List.mem_range.mp hw)

/-- Results no longer than a hidden state fit their slots. -/
lemma handoffFits_of_le (h : readLen m moe ≤ m.hiddenSize) : HandoffFits p2p m moe position := by
  have hmod : (position + 1) % 2 * readLen m moe ≤ 1 * readLen m moe :=
    Nat.mul_le_mul_right _ (by omega)
  rw [HandoffFits]
  split_ifs
  · omega
  · have hgpus : p2p.numGpus * m.hiddenSize = p2p.numWorkers * m.hiddenSize + m.hiddenSize :=
      Nat.succ_mul ..
    refine ⟨Or.inl h, ?_⟩
    rw [maxPrefillBatch, Nat.mul_assoc]
    omega

/-- A layer without latent projections and a hidden size of 4. -/
def plainLayer : MoeLayer :=
  { latentLayer with
    fc1LatentProj := false
    fc2LatentProj := false
    gateUpInDim := 4 }

/-- A model of one plain layer. -/
def plainModel : Model := ⟨4, latentModel.hiddenSize_pos, [], [⟨[], some plainLayer⟩], []⟩

/-- In the second step (`position = 1`, `seq = 2`) the default hand-off works. -/
theorem stepHandoff_even : StepHandoff twoGpus plainModel 1 0 :=
  (stepHandoff_iff twoGpus (show plainModel.moeWeights 0 = some plainLayer from rfl) 1).mpr
    ⟨Or.inr rfl, Or.inl (by decide), by decide⟩

/-- In the first step (`position = 0`, `seq = 1`) the worker stores one slot behind the slot the
sum step reads. -/
theorem not_stepHandoff_odd : ¬ StepHandoff twoGpus plainModel 0 0 := by
  have hmoe : plainModel.moeWeights 0 = some plainLayer := rfl
  rintro ⟨bd, post, remotes, hbd', hpost, hremotes', h⟩
  obtain ⟨batch, hbd, -⟩ := stepBoundary_eq twoGpus hmoe 0
  obtain ⟨st, hst, hremotes⟩ := dispatchMoeWorkersDecode_eq twoGpus hmoe 0
  obtain rfl := Option.some.inj (hbd.symm.trans hbd')
  obtain rfl := Option.some.inj (hremotes.symm.trans hremotes')
  obtain rfl := Inst.moeDispatchPost.inj (Option.some.inj hpost)
  have hranges := h.ranges
  rw [postRanges_stepPost, List.map_map] at hranges
  have h0 := List.map_inj_left.mp hranges 0 (List.mem_range.mpr twoGpus.numWorkers_pos)
  rw [Function.comp_apply, resultRange_remoteInst hst] at h0
  have hoff : 8 = 4 := congrArg Ptr.off h0
  omega

end Braidinfer.Moe
