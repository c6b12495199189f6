/-
What the multi-GPU decode driver sends to GPU 0 (`decode_step_p2p_inner` in `model/decode/mod.rs`).

The loop walks the program once with a cursor into the MoE boundaries, a cursor into the attention
boundaries, the start of the open segment and the gather that is still to be sent.  An attention
boundary `(flush, resume)` leaves a gap, which the head-parallel dispatch works off.

* `P2pStep.sent`: what is to be sent, instruction by instruction;
* `P2pStep.At`: the invariant of the loop;
* `P2pStep.cut_covers`: what the loop sends from any point on;
* `P2pStep.executesOnce_of_ne_flush`: **the program is sent once and in order, and the workers are
  fired right behind their boundary**, if no MoE boundary is the flush of an attention boundary;
* `P2pStep.not_executesOnce_flush`: a boundary of both kinds, whose gap is not left out.
-/
import Braidinfer.Lib.Patch
import Braidinfer.Mailbox.P2p

namespace Braidinfer.Mailbox

open Braidinfer.Lib

/-- The layer at whose boundary a segment ends. -/
def Segment.moeLayer : Segment → Option ℕ
  | .moe _ layer => some layer
  | _ => none

namespace P2pStep

variable {W : ℕ} (p : P2pStep W)

/-! ### What is to be sent -/

/-- The attention boundaries that the loop looks at. -/
def gaps : List (ℕ × ℕ) := if p.hasHeadParallel then p.attnBoundaries else []

/-- Where the loop goes on behind an attention boundary. -/
def resumeAt (a : ℕ × ℕ) : ℕ := if p.useDistributedQkv then a.2 else a.2 + 1

/-- The index of the first `OP_HALT`. -/
def haltIdx : ℕ := p.program.findIdx fun inst => inst.opcode = opHalt

/-- The instruction is left to the head-parallel dispatch. -/
def InGap (j : ℕ) : Prop := ∃ a ∈ p.gaps, a.1 < j ∧ j < p.resumeAt a

instance (j : ℕ) : Decidable (p.InGap j) := inferInstanceAs (Decidable (∃ a ∈ p.gaps, _))

/-- The gather of the gap that ends before the instruction `j`. -/
def gatherBefore (j : ℕ) : List Instruction :=
  ((p.gaps.findIdx? fun a => p.resumeAt a = j).map p.gather).getD []

/-- What is sent for the index `j`: the gather of the gap that ends there, and the instruction. -/
def sentAt (j : ℕ) : List Instruction :=
  p.gatherBefore j ++ if j < p.haltIdx ∧ ¬ p.InGap j then p.program[j]?.toList else []

/-- What is sent for the indices from `a` up to `b`. -/
def sent (a b : ℕ) : List Instruction := (List.range' a (b - a)).flatMap p.sentAt

/-- A program with an `OP_HALT`, boundaries in order and apart, and MoE boundaries and the
`OP_HALT` outside the gaps. -/
structure Ordered : Prop where
  halts : p.haltIdx < p.program.length
  moe_increasing : p.moeBoundaries.Pairwise fun m m' => m.1 < m'.1
  moe_lt : ∀ m ∈ p.moeBoundaries, m.1 < p.haltIdx
  flush_lt : ∀ a ∈ p.gaps, a.1 < a.2
  gaps_apart : p.gaps.Pairwise fun a b => p.resumeAt a ≤ b.1
  moe_outside : ∀ m ∈ p.moeBoundaries, ¬ p.InGap m.1
  halt_outside : ¬ p.InGap p.haltIdx

/-- The step executes the program once: the segments are what is to be sent, every MoE boundary is
met once, and its workers are fired when everything up to the boundary and nothing behind it has
been handed to GPU 0. -/
structure ExecutesOnce : Prop where
  sent : p.segments.flatMap Segment.insts = p.sent 0 (p.haltIdx + 1)
  layers : p.segments.filterMap Segment.moeLayer = p.moeBoundaries.map Prod.snd
  fired : ∀ b ∈ p.moeBoundaries, ∃ before insts behind,
    p.segments = before ++ .moe insts b.2 :: behind ∧
    p.decodeStepP2p = before.flatMap p.dispatchSegment ++
      (fireChunks insts ++ p.dispatchMoeWorkersDecodeAsync b.2) ++
        behind.flatMap p.dispatchSegment ∧
    before.flatMap Segment.insts ++ insts = p.sent 0 (b.1 + 1) ∧
    behind.flatMap Segment.insts = p.sent (b.1 + 1) (p.haltIdx + 1)

variable {p} {a b c j attnI moeI i segStart : ℕ} {pending : List Instruction}

lemma sent_self : p.sent a a = [] := by
  rw [sent, Nat.sub_self]
  rfl

lemma sent_succ (h : a ≤ b) : p.sent a (b + 1) = p.sent a b ++ p.sentAt b := by
  have hlen : b + 1 - a = b - a + 1 := by omega
  have hlast : a + (b - a) = b := by omega
  rw [sent, sent, hlen, List.range'_concat, List.flatMap_append, List.flatMap_singleton,
    Nat.one_mul, hlast]

lemma sent_append (hab : a ≤ b) (hbc : b ≤ c) : p.sent a b ++ p.sent b c = p.sent a c := by
  induction c, hbc using Nat.le_induction with
  | base => rw [sent_self, List.append_nil]
  | succ c hbc ih => rw [sent_succ hbc, sent_succ (hab.trans hbc), ← List.append_assoc, ih]

lemma sent_eq_nil (h : ∀ j, a ≤ j → j < b → p.sentAt j = []) : p.sent a b = [] := by
  rw [sent, List.flatMap_eq_nil_iff]
  intro j hj
  rw [List.mem_range'_1] at hj
  exact h j hj.1 (by omega)

lemma lt_resumeAt (hp : p.Ordered) {g : ℕ × ℕ} (hg : g ∈ p.gaps) : g.1 < p.resumeAt g := by
  have := hp.flush_lt g hg
  rw [resumeAt]
  split_ifs <;> omega

lemma gatherBefore_eq_nil (h : ∀ g ∈ p.gaps, p.resumeAt g ≠ j) : p.gatherBefore j = [] := by
  have hnone : (p.gaps.findIdx? fun a => p.resumeAt a = j) = none := by
    rw [List.findIdx?_eq_none_iff]
    intro g hg
    simpa using h g hg
  rw [gatherBefore, hnone]
  rfl

/-- Before the `OP_HALT` every instruction is another one. -/
lemma opcode_ne_halt {inst : Instruction} (hi : p.program[i]? = some inst) (hlt : i < p.haltIdx) :
    inst.opcode ≠ opHalt := by
  obtain ⟨hlen, rfl⟩ := List.getElem?_eq_some_iff.mp hi
  simpa using List.not_of_lt_findIdx hlt

lemma opcode_halt {inst : Instruction} (hi : p.program[p.haltIdx]? = some inst) :
    inst.opcode = opHalt := by
  obtain ⟨hlen, rfl⟩ := List.getElem?_eq_some_iff.mp hi
  exact of_decide_eq_true (List.findIdx_getElem (w := hlen))

/-! ### The invariant of the loop -/

/-- The loop is at instruction `i`: behind it are the boundaries before the cursors, ahead of it
the others, and `pending` is the gather of the gap that ends at the open segment. -/
structure At (p : P2pStep W) (attnI moeI i segStart : ℕ) (pending : List Instruction) : Prop where
  segStart_le : segStart ≤ i
  le_halt : i ≤ p.haltIdx
  past : ∀ k < attnI, ∀ g, p.gaps[k]? = some g → p.resumeAt g ≤ segStart
  ahead : ∀ k ≥ attnI, ∀ g, p.gaps[k]? = some g → i ≤ g.1
  pending_eq : pending = p.gatherBefore segStart
  moe_ahead : ∀ k ≥ moeI, ∀ m, p.moeBoundaries[k]? = some m → i ≤ m.1

/-- A gap lies before the open segment or ahead of the loop. -/
lemma At.gap_cases (h : p.At attnI moeI i segStart pending) {g : ℕ × ℕ} (hg : g ∈ p.gaps) :
    p.resumeAt g ≤ segStart ∨ i ≤ g.1 := by
  obtain ⟨k, hk⟩ := List.mem_iff_getElem?.mp hg
  rcases Nat.lt_or_ge k attnI with hlt | hge
  · exact .inl (h.past k hlt g hk)
  · exact .inr (h.ahead k hge g hk)

/-- The open segment is outside the gaps. -/
lemma At.not_inGap (h : p.At attnI moeI i segStart pending) (hj : segStart ≤ j) (hji : j ≤ i) :
    ¬ p.InGap j := by
  rintro ⟨g, hg, hlt, hlt'⟩
  rcases h.gap_cases hg with hle | hle <;> omega

/-- Inside the open segment no gap ends. -/
lemma At.gatherBefore_eq_nil (hp : p.Ordered) (h : p.At attnI moeI i segStart pending)
    (hj : segStart < j) (hji : j ≤ i + 1) (hne : ∀ g ∈ p.gaps, g.1 = i → p.resumeAt g ≠ j) :
    p.gatherBefore j = [] := by
  refine P2pStep.gatherBefore_eq_nil fun g hg heq => ?_
  have hlt := lt_resumeAt hp hg
  rcases h.gap_cases hg with hle | hle
  · omega
  · exact hne g hg (by omega) heq

/-- **The open segment is what is to be sent.** -/
lemma At.sent_eq (hp : p.Ordered) (h : p.At attnI moeI i segStart pending) (hj : segStart < j)
    (hji : j ≤ i + 1) (hjh : j ≤ p.haltIdx) :
    p.sent segStart j = pending ++ p.slice segStart j := by
  have hinst : ∀ j < p.haltIdx, ∃ inst, p.program[j]? = some inst := by
    intro j hj
    exact ⟨_, List.getElem?_eq_getElem (hj.trans hp.halts)⟩
  induction j, hj using Nat.le_induction with
  | base =>
      obtain ⟨inst, hget⟩ := hinst segStart hjh
      have hgap := h.not_inGap le_rfl h.segStart_le
      rw [sent_succ le_rfl, sent_self, List.nil_append, sentAt, if_pos ⟨hjh, hgap⟩, h.pending_eq,
        slice_succ hget le_rfl, slice_self, hget]
      rfl
  | succ j hj ih =>
      obtain ⟨inst, hget⟩ := hinst j hjh
      have hgap := h.not_inGap (by omega) (by omega : j ≤ i)
      have hgather := h.gatherBefore_eq_nil hp hj (by omega) fun g hg heq => by
        have := lt_resumeAt hp hg
        omega
      rw [sent_succ (by omega), ih (by omega) (by omega), sentAt, if_pos ⟨hjh, hgap⟩, hgather,
        slice_succ hget (by omega), hget, List.append_assoc]
      rfl

/-- Passing over an instruction. -/
lemma At.scan (hp : p.Ordered) (h : p.At attnI moeI i segStart pending) (hlt : i < p.haltIdx)
    (hm : p.moeBoundaries[moeI]?.filter (fun m => i = m.1) = none)
    (hg : p.gaps[attnI]?.filter (fun g => i = g.1) = none) :
    p.At attnI moeI (i + 1) segStart pending where
  segStart_le := h.segStart_le.trans (Nat.le_succ i)
  le_halt := hlt
  past := h.past
  ahead := by
    intro k hk g hget
    have hle := h.ahead k hk g hget
    rcases Nat.eq_or_lt_of_le hk with rfl | hk
    · have hne : i ≠ g.1 := by simpa [hget] using hg
      omega
    · obtain ⟨g', hget'⟩ : ∃ g', p.gaps[attnI]? = some g' :=
        ⟨_, List.getElem?_eq_getElem (hk.trans (List.getElem?_eq_some_iff.mp hget).1)⟩
      have hle' := h.ahead attnI le_rfl g' hget'
      have hapart := pairwise_getElem? hp.gaps_apart hk hget' hget
      have := lt_resumeAt hp (List.mem_of_getElem? hget')
      omega
  pending_eq := h.pending_eq
  moe_ahead := by
    intro k hk m hget
    have hle := h.moe_ahead k hk m hget
    rcases Nat.eq_or_lt_of_le hk with rfl | hk
    · have hne : i ≠ m.1 := by simpa [hget] using hm
      omega
    · obtain ⟨m', hget'⟩ : ∃ m', p.moeBoundaries[moeI]? = some m' :=
        ⟨_, List.getElem?_eq_getElem (hk.trans (List.getElem?_eq_some_iff.mp hget).1)⟩
      have hle' := h.moe_ahead moeI le_rfl m' hget'
      have hinc := pairwise_getElem? hp.moe_increasing hk hget' hget
      omega

variable (hne : ∀ m ∈ p.moeBoundaries, ∀ g ∈ p.gaps, m.1 ≠ g.1)

include hne

/-- Passing a MoE boundary. -/
lemma At.moe (hp : p.Ordered) (h : p.At attnI moeI i segStart pending) (hlt : i < p.haltIdx)
    {m : ℕ × ℕ} (hget : p.moeBoundaries[moeI]? = some m) (hm : i = m.1) :
    p.At attnI (moeI + 1) (i + 1) (i + 1) [] where
  segStart_le := le_rfl
  le_halt := hlt
  past k hk g hg := (h.past k hk g hg).trans (h.segStart_le.trans (Nat.le_succ i))
  ahead := by
    intro k hk g hg
    have hle := h.ahead k hk g hg
    have := hne m (List.mem_of_getElem? hget) g (List.mem_of_getElem? hg)
    omega
  pending_eq := by
    refine (h.gatherBefore_eq_nil hp (Nat.lt_succ_of_le h.segStart_le) le_rfl ?_).symm
    intro g hg heq
    exact absurd (hm.symm.trans heq.symm) (hne m (List.mem_of_getElem? hget) g hg)
  moe_ahead := by
    intro k hk m' hget'
    have hinc := pairwise_getElem? hp.moe_increasing hk hget hget'
    omega

omit hne in
/-- The gather of a gap is the one that belongs before its end. -/
lemma At.gatherBefore_resumeAt (hp : p.Ordered) (h : p.At attnI moeI i segStart pending)
    {g : ℕ × ℕ} (hget : p.gaps[attnI]? = some g) (hg : i = g.1) :
    p.gatherBefore (p.resumeAt g) = p.gather attnI := by
  have hlt := lt_resumeAt hp (List.mem_of_getElem? hget)
  have hfind : (p.gaps.findIdx? fun a => p.resumeAt a = p.resumeAt g) = some attnI := by
    obtain ⟨hlen, rfl⟩ := List.getElem?_eq_some_iff.mp hget
    rw [List.findIdx?_eq_some_iff_getElem]
    refine ⟨hlen, by simp, fun k hk => ?_⟩
    have hpast := h.past k hk _ (List.getElem?_eq_getElem (hk.trans hlen))
    have := h.segStart_le
    simp only [decide_eq_true_eq]
    omega
  rw [gatherBefore, hfind]
  rfl

/-- Passing an attention boundary. -/
lemma At.attn (hp : p.Ordered) (h : p.At attnI moeI i segStart pending) (hlt : i < p.haltIdx)
    {g : ℕ × ℕ} (hget : p.gaps[attnI]? = some g) (hg : i = g.1) :
    p.At (attnI + 1) moeI (p.resumeAt g) (p.resumeAt g) (p.gather attnI) where
  segStart_le := le_rfl
  le_halt := by
    by_contra hcon
    exact hp.halt_outside ⟨g, List.mem_of_getElem? hget, by omega, by omega⟩
  past := by
    intro k hk g' hg'
    rcases Nat.eq_or_lt_of_le (Nat.le_of_lt_succ hk) with rfl | hk
    · rw [Option.some.inj (hget.symm.trans hg')]
    · have hlt' := lt_resumeAt hp (List.mem_of_getElem? hget)
      have hpast := h.past k hk g' hg'
      have := h.segStart_le
      omega
  ahead k hk g' hg' := pairwise_getElem? hp.gaps_apart hk hget hg'
  pending_eq := (h.gatherBefore_resumeAt hp hget hg).symm
  moe_ahead := by
    intro k hk m hm
    have hle := h.moe_ahead k hk m hm
    have hmem := List.mem_of_getElem? hm
    have hflush := hne m hmem g (List.mem_of_getElem? hget)
    by_contra hcon
    exact hp.moe_outside m hmem ⟨g, List.mem_of_getElem? hget, by omega, by omega⟩

omit hne in
/-- Nothing is sent for a gap. -/
lemma At.sent_gap (hp : p.Ordered) (h : p.At attnI moeI i segStart pending) {g : ℕ × ℕ}
    (hget : p.gaps[attnI]? = some g) (hg : i = g.1) : p.sent (i + 1) (p.resumeAt g) = [] := by
  have hmem := List.mem_of_getElem? hget
  refine sent_eq_nil fun j hj hlt => ?_
  have hgap : p.InGap j := ⟨g, hmem, by omega, hlt⟩
  have hgather : p.gatherBefore j = [] := by
    refine P2pStep.gatherBefore_eq_nil fun g' hg' heq => ?_
    obtain ⟨k, hk⟩ := List.mem_iff_getElem?.mp hg'
    rcases Nat.lt_trichotomy k attnI with hlt' | rfl | hgt
    · have hpast := h.past k hlt' g' hk
      have := h.segStart_le
      omega
    · rw [Option.some.inj (hget.symm.trans hk)] at hlt
      omega
    · have hapart := pairwise_getElem? hp.gaps_apart hgt hget hk
      have := lt_resumeAt hp hg'
      omega
  rw [sentAt, hgather, if_neg (fun hcon => hcon.2 hgap)]
  rfl

/-! ### What the loop sends -/

omit hne

/-- The segments send what is to be sent from `segStart` on, and meet the boundaries from `moeI`
on. -/
structure Covers (p : P2pStep W) (moeI segStart : ℕ) (segs : List Segment) : Prop where
  sent : segs.flatMap Segment.insts = p.sent segStart (p.haltIdx + 1)
  layers : segs.filterMap Segment.moeLayer = (p.moeBoundaries.drop moeI).map Prod.snd
  fired : ∀ b ∈ p.moeBoundaries.drop moeI, ∃ before insts behind,
    segs = before ++ .moe insts b.2 :: behind ∧
    before.flatMap Segment.insts ++ insts = p.sent segStart (b.1 + 1) ∧
    behind.flatMap Segment.insts = p.sent (b.1 + 1) (p.haltIdx + 1)

/-- A segment in front, from which the loop went on at `start`. -/
lemma Covers.cons_fired {segs : List Segment} {start : ℕ} (h : p.Covers moeI start segs)
    {seg : Segment} (hseg : seg.insts = p.sent segStart start) (hle : segStart ≤ start)
    (hahead : ∀ b ∈ p.moeBoundaries.drop moeI, start ≤ b.1) :
    ∀ b ∈ p.moeBoundaries.drop moeI, ∃ before insts behind,
      seg :: segs = before ++ .moe insts b.2 :: behind ∧
      before.flatMap Segment.insts ++ insts = p.sent segStart (b.1 + 1) ∧
      behind.flatMap Segment.insts = p.sent (b.1 + 1) (p.haltIdx + 1) := by
  intro b hb
  obtain ⟨before, insts, behind, hsegs, hbefore, hbehind⟩ := h.fired b hb
  refine ⟨seg :: before, insts, behind, by rw [hsegs]; rfl, ?_, hbehind⟩
  have := hahead b hb
  rw [List.flatMap_cons, List.append_assoc, hbefore, hseg, sent_append hle (by omega)]

lemma Covers.cons_sent {segs : List Segment} {start : ℕ} (h : p.Covers moeI start segs)
    {seg : Segment} (hseg : seg.insts = p.sent segStart start) (hle : segStart ≤ start)
    (hhalt : start ≤ p.haltIdx) :
    (seg :: segs).flatMap Segment.insts = p.sent segStart (p.haltIdx + 1) := by
  rw [List.flatMap_cons, h.sent, hseg, sent_append hle (by omega)]

/-- The last segment. -/
lemma At.covers_tail (hp : p.Ordered) (h : p.At attnI moeI p.haltIdx segStart pending) :
    p.Covers moeI segStart (p.tailSegment p.haltIdx segStart pending) := by
  have hnone : p.moeBoundaries.drop moeI = [] := by
    rw [List.drop_eq_nil_iff]
    by_contra hcon
    have hget := List.getElem?_eq_getElem (Nat.lt_of_not_le hcon)
    have hle := h.moe_ahead moeI le_rfl _ hget
    have := hp.moe_lt _ (List.mem_of_getElem? hget)
    omega
  have hsentAt : p.sentAt p.haltIdx = p.gatherBefore p.haltIdx := by
    rw [sentAt, if_neg (fun hcon => Nat.lt_irrefl _ hcon.1), List.append_nil]
  have hsent : pending ++ p.slice segStart p.haltIdx = p.sent segStart (p.haltIdx + 1) := by
    rw [sent_succ h.segStart_le, hsentAt]
    rcases Nat.eq_or_lt_of_le h.segStart_le with heq | hlt
    · rw [heq, sent_self, slice_self, List.append_nil, List.nil_append, h.pending_eq, heq]
    · have hgather := h.gatherBefore_eq_nil hp hlt (Nat.le_succ _) fun g hg heq => by
        have := lt_resumeAt hp hg
        omega
      rw [h.sent_eq hp hlt (Nat.le_succ _) le_rfl, hgather, List.append_nil]
  have htail : (p.tailSegment p.haltIdx segStart pending).flatMap Segment.insts =
      pending ++ p.slice segStart p.haltIdx := by
    rw [tailSegment]
    split_ifs with hcond
    · rw [List.flatMap_singleton]
      rfl
    · rw [not_or, not_not] at hcond
      have heq : segStart = p.haltIdx := Nat.le_antisymm h.segStart_le (Nat.le_of_not_lt hcond.1)
      rw [hcond.2, heq, slice_self]
      rfl
  have hlayers : (p.tailSegment p.haltIdx segStart pending).filterMap Segment.moeLayer = [] := by
    rw [tailSegment]
    split_ifs <;> rfl
  refine ⟨htail.trans hsent, by rw [hlayers, hnone]; rfl, ?_⟩
  intro b hb
  rw [hnone] at hb
  cases hb

/-- The loop sees an attention boundary only with head-parallel workers. -/
lemma filter_attnBoundaries (p : P2pStep W) (attnI i : ℕ) :
    p.attnBoundaries[attnI]?.filter (fun a => p.hasHeadParallel ∧ i = a.1) =
      p.gaps[attnI]?.filter (fun g => i = g.1) := by
  rw [gaps]
  cases p.hasHeadParallel with
  | false =>
      cases p.attnBoundaries[attnI]? <;> simp
  | true => simp

lemma At.lt_halt (h : p.At attnI moeI i segStart pending) {inst : Instruction}
    (hi : p.program[i]? = some inst) (hinst : inst.opcode ≠ opHalt) : i < p.haltIdx := by
  rcases Nat.eq_or_lt_of_le h.le_halt with rfl | hlt
  · exact absurd (opcode_halt hi) hinst
  · exact hlt

lemma At.boundary_ahead (h : p.At attnI moeI i segStart pending) {b : ℕ × ℕ}
    (hb : b ∈ p.moeBoundaries.drop moeI) : i ≤ b.1 := by
  obtain ⟨k, hk⟩ := List.mem_iff_getElem?.mp hb
  rw [List.getElem?_drop] at hk
  exact h.moe_ahead _ (Nat.le_add_right _ _) b hk

/-- **The loop sends what is to be sent**, from every point on. -/
lemma cut_covers (hp : p.Ordered) (hne : ∀ m ∈ p.moeBoundaries, ∀ g ∈ p.gaps, m.1 ≠ g.1)
    (h : p.At attnI moeI i segStart pending) :
    p.Covers moeI segStart (p.cut attnI moeI i segStart pending) := by
  fun_induction P2pStep.cut p attnI moeI i segStart pending with
  | case1 attnI moeI i segStart pending hi =>
      -- the loop stops at the `OP_HALT`, so it never reaches the end of the list
      have hlen := List.getElem?_eq_none_iff.mp hi
      have := h.le_halt
      have := hp.halts
      omega
  | case2 attnI moeI i segStart pending inst hi hinst =>
      obtain rfl : i = p.haltIdx := by
        rcases Nat.eq_or_lt_of_le h.le_halt with heq | hlt
        · exact heq
        · exact absurd hinst (opcode_ne_halt hi hlt)
      exact h.covers_tail hp
  | case3 attnI moeI i segStart pending inst hi hinst m hm ih =>
      obtain ⟨hget, hm⟩ := Option.filter_eq_some_iff.mp hm
      have hlt := h.lt_halt hi hinst
      have hnext := h.moe hne hp hlt hget (of_decide_eq_true hm)
      have hcov := ih hnext
      have hseg := h.sent_eq hp (Nat.lt_succ_of_le h.segStart_le) le_rfl hlt
      have hle : segStart ≤ i + 1 := h.segStart_le.trans (Nat.le_succ i)
      have hdrop : p.moeBoundaries.drop moeI = m :: p.moeBoundaries.drop (moeI + 1) := by
        obtain ⟨hlen, rfl⟩ := List.getElem?_eq_some_iff.mp hget
        exact List.drop_eq_getElem_cons hlen
      refine ⟨hcov.cons_sent hseg.symm hle hlt, ?_, ?_⟩
      · rw [hdrop, List.map_cons, ← hcov.layers]
        rfl
      · intro b hb
        rw [hdrop] at hb
        rcases List.mem_cons.mp hb with rfl | hb
        · have hbi : i = b.1 := of_decide_eq_true hm
          refine ⟨[], _, _, rfl, ?_, ?_⟩
          · rw [← hbi, hseg]
            rfl
          · rw [hcov.sent, hbi]
        · have hinsts : (Segment.moe (pending ++ p.slice segStart (i + 1)) m.2).insts =
              p.sent segStart (i + 1) := hseg.symm
          exact hcov.cons_fired hinsts hle (fun b hb => hnext.boundary_ahead hb) b hb
  | case4 attnI moeI i segStart pending inst hi hinst hm a ha next ih =>
      rw [filter_attnBoundaries] at ha
      obtain ⟨hget, hg⟩ := Option.filter_eq_some_iff.mp ha
      have hlt := h.lt_halt hi hinst
      have hnext := h.attn hne hp hlt hget (of_decide_eq_true hg)
      have hcov := ih hnext
      have hresume := lt_resumeAt hp (List.mem_of_getElem? hget)
      have hi : i = a.1 := of_decide_eq_true hg
      have hle : segStart ≤ p.resumeAt a := by
        have := h.segStart_le
        omega
      have hseg : pending ++ p.slice segStart (i + 1) = p.sent segStart (p.resumeAt a) := by
        rw [← h.sent_eq hp (Nat.lt_succ_of_le h.segStart_le) le_rfl hlt,
          ← sent_append (Nat.le_succ_of_le h.segStart_le) (by omega : i + 1 ≤ p.resumeAt a),
          h.sent_gap hp hget hi, List.append_nil]
      refine ⟨hcov.cons_sent hseg hle hnext.le_halt, hcov.layers, ?_⟩
      exact hcov.cons_fired hseg hle fun b hb => hnext.boundary_ahead hb
  | case5 attnI moeI i segStart pending inst hi hinst hm ha ih =>
      rw [filter_attnBoundaries] at ha
      exact ih (h.scan hp (h.lt_halt hi hinst) hm ha)

/-- The loop starts at the start. -/
lemma at_zero (hp : p.Ordered) : p.At 0 0 0 0 [] where
  segStart_le := le_rfl
  le_halt := Nat.zero_le _
  past k hk := absurd hk (Nat.not_lt_zero k)
  ahead _ _ _ _ := Nat.zero_le _
  pending_eq := by
    refine (P2pStep.gatherBefore_eq_nil fun g hg => ?_).symm
    have := lt_resumeAt hp hg
    omega
  moe_ahead _ _ _ _ := Nat.zero_le _

/-- **A decode step executes the program once.**  If no MoE boundary is the flush of an attention
boundary, the segments are the instructions before the `OP_HALT` outside the gaps, each once and
in order, with the gather of every gap before the first instruction behind it; and at every MoE
boundary the workers are fired after the boundary and before the sum step is handed to GPU 0. -/
theorem executesOnce_of_ne_flush (p : P2pStep W) (hp : p.Ordered)
    (hne : ∀ m ∈ p.moeBoundaries, ∀ g ∈ p.gaps, m.1 ≠ g.1) : p.ExecutesOnce := by
  have hcov := cut_covers hp hne (at_zero hp)
  refine ⟨hcov.sent, hcov.layers, fun b hb => ?_⟩
  obtain ⟨before, insts, behind, hsegs, hbefore, hbehind⟩ := hcov.fired b hb
  refine ⟨before, insts, behind, hsegs, ?_, hbefore, hbehind⟩
  rw [decodeStepP2p, segments, hsegs, List.flatMap_append, List.flatMap_cons, ← List.append_assoc]
  rfl

end P2pStep

/-- A program with a gap behind its first instruction and a MoE boundary at `boundary`. -/
def gapStep (boundary : ℕ) : P2pStep 1 where
  program := [.ofOpcode 1, .ofOpcode 2, .ofOpcode 3, .ofOpcode 4, .ofOpcode 16]
  moeBoundaries := [(boundary, 0)]
  attnBoundaries := [(0, 2)]
  hasHeadParallel := true
  useDistributedQkv := true
  attnBatch := fun _ _ => [.ofOpcode 5]
  gather := fun _ => [.ofOpcode 6]
  ffnRemote := fun _ _ => .ofOpcode 7
  flags := ⟨false, false, false, false⟩
  bpStep := 0
  attnBatch_proper := by
    intro _ _
    refine ⟨by simp, by simp [maxBatchInstructions], fun i hi => ?_⟩
    rw [List.mem_singleton.mp hi]
    decide
  gather_no_halt := by
    intro _ i hi
    rw [List.mem_singleton.mp hi]
    decide
  ffnRemote_no_halt := fun _ _ => by decide

lemma gapStep_ordered {boundary : ℕ} (hlt : boundary < 4) (hne : boundary ≠ 1) :
    (gapStep boundary).Ordered := by
  have hhalt : (gapStep boundary).haltIdx = 4 := rfl
  have hgap : ∀ j, (gapStep boundary).InGap j → j = 1 := by
    rintro j ⟨g, hg, hlo, hhi⟩
    obtain rfl : g = (0, 2) := List.mem_singleton.mp hg
    have : j < 2 := hhi
    omega
  refine ⟨?_, List.pairwise_singleton .., ?_, ?_, List.pairwise_singleton .., ?_, ?_⟩
  · rw [hhalt]
    exact Nat.lt_succ_self 4
  · intro m hm
    rw [List.mem_singleton.mp hm, hhalt]
    exact hlt
  · intro a ha
    rw [List.mem_singleton.mp ha]
    decide
  · intro m hm hcon
    rw [List.mem_singleton.mp hm] at hcon
    exact hne (hgap _ hcon)
  · intro hcon
    exact absurd (hgap _ hcon) (by rw [hhalt]; decide)

namespace P2pStep

/-- With the boundary at the third instruction, the gather is sent between the flush and it. -/
theorem executesOnce_gapStep : (gapStep 2).segments.flatMap Segment.insts =
    [.ofOpcode 1, .ofOpcode 6, .ofOpcode 3, .ofOpcode 4] := by
  have hne : ∀ m ∈ (gapStep 2).moeBoundaries, ∀ g ∈ (gapStep 2).gaps, m.1 ≠ g.1 := by decide
  rw [(executesOnce_of_ne_flush (gapStep 2) (gapStep_ordered (by decide) (by decide)) hne).sent]
  rfl

/-- **A MoE boundary that is a flush.**  The loop takes the MoE branch and never comes back to the
attention boundary: the gap is sent to GPU 0, and the gather is never built. -/
theorem not_executesOnce_flush : (gapStep 0).Ordered ∧ ¬ (gapStep 0).ExecutesOnce := by
  refine ⟨gapStep_ordered (by decide) (by decide), fun h => ?_⟩
  have hcut : (gapStep 0).segments = [.moe [.ofOpcode 1] 0,
      .tail [.ofOpcode 2, .ofOpcode 3, .ofOpcode 4]] := by
    rw [segments, cut_moe (m := (0, 0)) rfl (by decide) rfl, cut_scan rfl (by decide) rfl rfl,
      cut_scan rfl (by decide) rfl rfl, cut_scan rfl (by decide) rfl rfl, cut]
    rfl
  have hsecond := congrArg (fun insts => insts[1]?.map Instruction.opcode) h.sent
  rw [hcut] at hsecond
  exact absurd hsecond (by decide)

end P2pStep

end Braidinfer.Mailbox
