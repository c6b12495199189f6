/-
One decode step of the multi-GPU program.

Before a step the host rewrites the destinations of the staging copies and the sum steps through
the recorded indices (`decode_step_p2p_inner`).  At every MoE boundary it fires the GPU 0 batch up
to the boundary and one `OP_MOE_FFN_REMOTE` a worker (`dispatch_moe_workers_decode_async`), and
resumes behind the boundary with the sum step.

* `stepProgram`, `moeBoundaries`: the rewritten program and what is fired at its boundaries;
* `dispatchMoeWorkersDecode`: the workers' instructions;
* `stepBoundary_eq`: **what GPU 0 executes for a layer in a step**;
* `stagingAgrees_iff`: the workers read where GPU 0 staged, unless the layer has a latent
  projection and the slot is odd.
-/
import Braidinfer.Moe.Layout

namespace Braidinfer.Moe

/-! ### The per-step patch -/

/-- `dbuf_slot` of `seq_value`. -/
def dbufSlot (seq : ℕ) : ℕ := seq % 2

/-- `words[3]` of a copy. -/
def Inst.nElems : Inst → ℕ
  | .d2dCopy c => c.nElems
  | _ => 0

/-- `words[1] = dst` of a copy. -/
def Inst.setDst (dst : Ptr) : Inst → Inst
  | .d2dCopy c => .d2dCopy { c with dst := dst }
  | inst => inst

/-- `words[6] = signal_ptr; words[7] = signal_seq` of a copy. -/
def Inst.setSignal (sentinel : Ptr) (seq : ℕ) : Inst → Inst
  | .d2dCopy c => .d2dCopy (c.withSignal sentinel seq)
  | inst => inst

/-- `words[6] = seq_counter` of a sum step. -/
def Inst.setSeqCounter (seq : ℕ) : Inst → Inst
  | .moeDispatchPost p => .moeDispatchPost { p with seqCounter := seq }
  | inst => inst

/-- The loop body over `moe_act_d2d_indices`. -/
def patchActCopies (seq : ℕ) (insts : List Inst) (entry : ℕ × ℕ) : List Inst :=
  let rwIdx := entry.1
  let actIdx := rwIdx - 3
  let ridsIdx := rwIdx - 1
  let actN := (insts[actIdx]?.map Inst.nElems).getD 0
  let rtN := (insts[rwIdx]?.map Inst.nElems).getD 0
  let insts := insts.modify actIdx
    (.setDst (Buf.activationStagingVram.ptr.add (dbufSlot seq * actN)))
  let insts := insts.modify ridsIdx
    (.setDst (Buf.routingIdsStagingVram.ptr.add (dbufSlot seq * rtN)))
  let insts := insts.modify rwIdx
    (.setDst (Buf.routingWeightsStagingVram.ptr.add (dbufSlot seq * rtN)))
  insts.modify rwIdx (.setSignal ((Buf.moeActSentinel entry.2).ptr.add (dbufSlot seq)) seq)

/-- The program of a step: `seq_value = position + 1`. -/
def stepProgram (prog : Program) (position : ℕ) : List Inst :=
  let seq := position + 1
  let insts := prog.moeActD2dIndices.foldl (patchActCopies seq) prog.instructions
  prog.moePostSeqIndices.foldl (fun insts i => insts.modify i (.setSeqCounter seq)) insts

/-! ### The boundaries -/

/-- What happens at a MoE boundary: the batch fired on GPU 0 and the instruction at which the next
segment starts. -/
structure MoeBoundary where
  layer : ℕ
  batch : List Inst
  resume : Option Inst

/-- The walk of `decode_step_p2p_inner` over the boundaries, from `seg_start` on. -/
def moeBoundaries (insts : List Inst) : ℕ → List (ℕ × ℕ) → List MoeBoundary
  | _, [] => []
  | segStart, (i, layer) :: bs =>
      ⟨layer, (insts.take (i + 1)).drop segStart, insts[i + 1]?⟩ :: moeBoundaries insts (i + 1) bs

/-- The boundaries of a decode step. -/
def stepBoundaries (p2p : P2pConfig) (m : Model) (position : ℕ) : List MoeBoundary :=
  let prog := (compileInnerP2p p2p m).1
  moeBoundaries (stepProgram prog position) 0 prog.barrierLayerMap

/-! ### The workers -/

/-- `MoeFfnRemoteInst`, without the worker's own scratch buffers. -/
structure MoeFfnRemote where
  activation : Ptr
  outputSlot : Ptr
  expertIds : Ptr
  expertWeights : Ptr
  layerIdx : ℕ
  k : ℕ
  eis : ℕ
  hs : ℕ
  gupd : ℕ
  hasGateProj : Bool
  reluSq : Bool
  waitPtr : Option Ptr
  waitSeq : ℕ
  resultSentinel : Option Ptr
  resultSeq : ℕ
deriving DecidableEq, Repr

/-- The instruction `dispatch_moe_workers_decode_async` builds for worker `w`. -/
def remoteInst (st : Pass1) (params : DecodeMoeParams) (layerIdx seq w : ℕ) : MoeFfnRemote :=
  let slot := dbufSlot seq
  let gpuId := w + 1
  let resultSentinel := if st.resultDescs layerIdx then
    some (Buf.moeResultSentinel layerIdx w).ptr else none
  { activation := Buf.activationStagingVram.ptr.add (slot * params.hs)
    outputSlot := match resultSentinel with
      | none => params.outputSlots.add (gpuId * params.hs)
      | some _ => (Buf.localOutputUc w).ptr
    expertIds := params.expertIds.add (slot * params.k)
    expertWeights := params.expertWeights.add (slot * params.k)
    layerIdx := layerIdx
    k := params.k
    eis := params.eis
    hs := params.hs
    gupd := if params.gupd = 0 then params.hs else params.gupd
    hasGateProj := params.hasGateProj
    reluSq := params.reluSq
    waitPtr := if st.moeActSentinel layerIdx then
      some ((Buf.moeActSentinel layerIdx).ptr.add slot) else none
    waitSeq := seq
    resultSentinel := resultSentinel
    resultSeq := seq }

/-- The instructions `dispatch_moe_workers_decode_async` fires, worker by worker; without
`decode_params` of the layer the source panics. -/
def dispatchMoeWorkersDecode (p2p : P2pConfig) (m : Model) (layerIdx position : ℕ) :
    Option (List MoeFfnRemote) :=
  let st := (compileInnerP2p p2p m).2
  (st.decodeParams layerIdx).map fun params =>
    (List.range p2p.numWorkers).map (remoteInst st params layerIdx (position + 1))

/-! ### The step program, block by block -/

section Blocks

variable (p2p : P2pConfig) (m : Model) (seq li : ℕ) (moe : MoeLayer)

/-- The slot the staging copies of a layer go to: a latent layer's copies are not rewritten. -/
def stagedSlot : ℕ := if moe.fc1LatentProj then 0 else dbufSlot seq

/-- The activation staging in a step. -/
def stepActivation : Inst :=
  if moe.fc1LatentProj then stageActivation m li moe
  else .d2dCopy (.new (Buf.activationStagingVram.ptr.add (stagedSlot seq moe * m.hiddenSize))
    Buf.normed.ptr m.hiddenSize)

/-- The staged expert ids in a step. -/
def stepIdsCopy : D2dCopy :=
  .new (Buf.routingIdsStagingVram.ptr.add (stagedSlot seq moe * moe.numActive))
    Buf.moeExpertIds.ptr moe.numActive

/-- The staged expert weights in a step. -/
def stepWeightsCopy : D2dCopy :=
  let c := D2dCopy.new
    (Buf.routingWeightsStagingVram.ptr.add (stagedSlot seq moe * moe.numActive))
    Buf.moeExpertWeights.ptr moe.numActive
  if moe.fc1LatentProj then c
  else c.withSignal ((Buf.moeActSentinel li).ptr.add (dbufSlot seq)) seq

/-- The FFN code of a step, up to the boundary. -/
def stepHead : List Inst :=
  [.d2dCopy (.new Buf.residual.ptr Buf.hidden.ptr m.hiddenSize),
   .rmsNorm Buf.normed.ptr Buf.hidden.ptr ⟨li, .norm⟩ m.hiddenSize,
   .linearProj Buf.moeScores.ptr ⟨li, .gate⟩ Buf.normed.ptr moe.numExperts m.hiddenSize,
   stepActivation m seq li moe,
   .moeGate (gateInst li moe),
   .d2dCopy (stepIdsCopy seq moe),
   .d2dCopy (stepWeightsCopy seq li moe)] ++
  latentStage moe ++ [.d2dCopy (zeroSlotCopy moe)]

/-- The sum step of a layer in a step. -/
def stepPost : MoeDispatchPost :=
  { postInst p2p m li moe p2p.optionC with seqCounter := if p2p.optionC then seq else 0 }

/-- The FFN code of a step. -/
def stepFfn : List Inst :=
  stepHead m seq li moe ++ .moeDispatchPost (stepPost p2p m seq li moe) :: p2pTail m li moe

/-- The FFN code after the copies are rewritten. -/
def copiedFfn : List Inst :=
  stepHead m seq li moe ++
    .moeDispatchPost (postInst p2p m li moe p2p.optionC) :: p2pTail m li moe

end Blocks

variable {p2p : P2pConfig} {m : Model} {f g : ℕ → MoeLayer → List Inst} {e : Entry}
  {es : List Entry} {off : MoeLayer → Option ℕ} {seq li : ℕ} {moe : MoeLayer}

/-- Rewriting one place a block, through the recorded indices. -/
lemma foldl_indicesFrom (op : List Inst → ℕ × ℕ → List Inst) (off : MoeLayer → Option ℕ)
    (es : List Entry)
    (hlen : ∀ li moe, (g li moe).length = (f li moe).length)
    (hsome : ∀ done rest li moe n, off moe = some n →
      op (done ++ f li moe ++ rest) (done.length + n, li) = done ++ g li moe ++ rest)
    (hnone : ∀ li moe, off moe = none → g li moe = f li moe) (done rest : List Inst) :
    (indicesFrom f off done.length es).foldl op (done ++ es.flatMap (blockWith f) ++ rest) =
      done ++ es.flatMap (blockWith g) ++ rest := by
  induction es generalizing done with
  | nil => rfl
  | cons e es ih =>
      have hblock : (blockWith g e).length = (blockWith f e).length := by
        cases hmoe : e.2.moe <;> simp [blockWith, hmoe, hlen]
      have hstep : ((e.2.moe.bind off).map fun n =>
          (done.length + e.2.mixer.length + n, e.1)).toList.foldl op
            (done ++ (e :: es).flatMap (blockWith f) ++ rest) =
          done ++ blockWith g e ++ es.flatMap (blockWith f) ++ rest := by
        cases hmoe : e.2.moe with
        | none => simp [blockWith, hmoe]
        | some moe =>
            cases hoff : off moe with
            | none => simp [blockWith, hmoe, hoff, hnone e.1 moe hoff]
            | some n =>
                have h := hsome (done ++ e.2.mixer.map Inst.other)
                  (es.flatMap (blockWith f) ++ rest) e.1 moe n hoff
                simpa [blockWith, hmoe, hoff] using h
      have htail := ih (done ++ blockWith g e)
      rw [List.length_append, hblock] at htail
      rw [indicesFrom, List.foldl_append, hstep, htail]
      simp

lemma length_copiedFfn : (copiedFfn p2p m seq li moe).length = (p2pFfn p2p m li moe).length := by
  simp [copiedFfn, p2pFfn, stepHead, p2pHead, stagedPre]

lemma modify_append_add {α : Type*} (l l' : List α) (n : ℕ) (h : α → α) :
    (l ++ l').modify (l.length + n) h = l ++ l'.modify n h := by
  induction l with
  | nil => simp
  | cons a l ih =>
      rw [List.cons_append, List.length_cons, Nat.add_right_comm, List.modify_succ_cons, ih,
        List.cons_append]

/-- The copies of one layer, rewritten. -/
lemma patchActCopies_block (done rest : List Inst) {n : ℕ} (hoff : signalOff moe = some n) :
    patchActCopies seq (done ++ p2pFfn p2p m li moe ++ rest) (done.length + n, li) =
      done ++ copiedFfn p2p m seq li moe ++ rest := by
  have hfc1 : moe.fc1LatentProj = false := by
    cases h : moe.fc1LatentProj with
    | false => rfl
    | true => simp [signalOff, h] at hoff
  obtain rfl : n = 6 := by
    simp only [signalOff, hfc1] at hoff
    exact (Option.some.inj hoff).symm
  have h3 : done.length + 6 - 3 = done.length + 3 := by omega
  have h1 : done.length + 6 - 1 = done.length + 5 := by omega
  have hget : ∀ (l : List Inst) k, (done ++ l)[done.length + k]? = l[k]? := by
    intro l k
    rw [List.getElem?_append_right (Nat.le_add_right _ _), Nat.add_sub_cancel_left]
  simp only [patchActCopies, List.append_assoc, h3, h1, hget, modify_append_add]
  simp [p2pFfn, copiedFfn, p2pHead, stepHead, stagedPre, stageActivation, stepActivation,
    stepIdsCopy, stepWeightsCopy, routingIdsCopy, routingWeightsCopy, stagedSlot, hfc1,
    Inst.setDst, Inst.setSignal, Inst.nElems, D2dCopy.new, D2dCopy.withSignal]

lemma length_stepHead : (stepHead m seq li moe).length = postOff moe + 1 := by
  simp only [stepHead, postOff, List.length_append, List.length_cons, List.length_nil]

/-- The sum step of one layer, rewritten. -/
lemma setSeqCounter_block (done rest : List Inst) (hC : p2p.optionC = true) :
    (done ++ copiedFfn p2p m seq li moe ++ rest).modify (done.length + postOff moe + 1)
      (Inst.setSeqCounter seq) = done ++ stepFfn p2p m seq li moe ++ rest := by
  have hplace : done.length + postOff moe + 1 = (done ++ stepHead m seq li moe).length + 0 := by
    rw [List.length_append, length_stepHead]
    omega
  have hsplit : done ++ copiedFfn p2p m seq li moe ++ rest = (done ++ stepHead m seq li moe) ++
      (.moeDispatchPost (postInst p2p m li moe p2p.optionC) :: p2pTail m li moe ++ rest) := by
    simp [copiedFfn]
  rw [hsplit, hplace, modify_append_add]
  simp [stepFfn, stepPost, Inst.setSeqCounter, hC]

/-- The copies of a latent layer are not rewritten. -/
lemma copiedFfn_of_none (h : signalOff moe = none) :
    copiedFfn p2p m seq li moe = p2pFfn p2p m li moe := by
  have hfc1 : moe.fc1LatentProj = true := by
    cases hfc1 : moe.fc1LatentProj with
    | true => rfl
    | false => simp [signalOff, hfc1] at h
  simp [copiedFfn, p2pFfn, stepHead, p2pHead, stagedPre, stepActivation, stepIdsCopy,
    stepWeightsCopy, routingIdsCopy, routingWeightsCopy, stagedSlot, hfc1]

/-- Indices depend on the blocks through their lengths only. -/
lemma indicesFrom_congr {start : ℕ} (hlen : ∀ li moe, (f li moe).length = (g li moe).length) :
    indicesFrom f off start es = indicesFrom g off start es := by
  induction es generalizing start with
  | nil => rfl
  | cons e es ih =>
      have hblock : (blockWith f e).length = (blockWith g e).length := by
        cases hmoe : e.2.moe <;> simp [blockWith, hmoe, hlen]
      rw [indicesFrom, indicesFrom, hblock, ih]

/-- **The program of a step**, block by block. -/
theorem stepProgram_eq (position : ℕ) :
    stepProgram (compileInnerP2p p2p m).1 position =
      m.embedding.map .other ++
        m.enumerated.flatMap (blockWith (stepFfn p2p m (position + 1))) ++
        m.lmHead.map .other := by
  have hcopies := foldl_indicesFrom (patchActCopies (position + 1)) signalOff m.enumerated
    (f := p2pFfn p2p m) (g := copiedFfn p2p m (position + 1)) (fun _ _ => length_copiedFfn)
    (fun done rest li moe n hn => patchActCopies_block done rest hn)
    (fun li moe hnone => copiedFfn_of_none hnone)
    (m.embedding.map .other) (m.lmHead.map .other)
  rw [List.length_map] at hcopies
  rw [stepProgram, compileInnerP2p_eq]
  dsimp only
  rw [hcopies]
  cases hC : p2p.optionC with
  | false =>
      have hstep : copiedFfn p2p m (position + 1) = stepFfn p2p m (position + 1) := by
        funext li moe
        simp [copiedFfn, stepFfn, stepPost, postInst, hC]
      simp [hstep]
  | true =>
      have hposts := foldl_indicesFrom
        (fun insts n => insts.modify (n.1 + 1) (Inst.setSeqCounter (position + 1)))
        (fun moe => some (postOff moe)) m.enumerated
        (f := copiedFfn p2p m (position + 1)) (g := stepFfn p2p m (position + 1))
        (fun _ _ => by simp [copiedFfn, stepFfn])
        (fun done rest li moe n hn => by
          obtain rfl := Option.some.inj hn
          exact setSeqCounter_block done rest hC)
        (fun _ _ h => nomatch h) (m.embedding.map .other) (m.lmHead.map .other)
      rw [List.length_map] at hposts
      rw [if_pos rfl, List.foldl_map,
        ← indicesFrom_congr (f := copiedFfn p2p m (position + 1)) fun _ _ => length_copiedFfn]
      exact hposts

/-! ### The boundaries, block by block -/

section Boundaries

variable (p2p : P2pConfig) (m : Model) (seq : ℕ)

/-- The boundaries of some layers, with the instructions `pend` that wait for the first one. -/
def blockBoundaries : List Inst → List Entry → List MoeBoundary
  | _, [] => []
  | pend, e :: es =>
      match e.2.moe with
      | none => blockBoundaries (pend ++ e.2.mixer.map .other) es
      | some moe =>
          ⟨e.1, pend ++ e.2.mixer.map .other ++ stepHead m seq e.1 moe,
            some (.moeDispatchPost (stepPost p2p m seq e.1 moe))⟩ ::
          blockBoundaries (.moeDispatchPost (stepPost p2p m seq e.1 moe) :: p2pTail m e.1 moe) es

end Boundaries

variable (p2p m es seq) in
/-- The walk over the boundaries, block by block. -/
lemma moeBoundaries_eq (fired pend rest : List Inst) :
    moeBoundaries (fired ++ pend ++ es.flatMap (blockWith (stepFfn p2p m seq)) ++ rest)
      fired.length (indicesFrom (stepFfn p2p m seq) (fun moe => some (postOff moe))
        (fired.length + pend.length) es) = blockBoundaries p2p m seq pend es := by
  induction es generalizing fired pend with
  | nil => rfl
  | cons e es ih =>
      cases hmoe : e.2.moe with
      | none =>
          have h := ih fired (pend ++ e.2.mixer.map .other)
          simpa [blockBoundaries, indicesFrom, blockWith, hmoe, Nat.add_assoc] using h
      | some moe =>
          -- the batch is what waits, the mixer and the head; the sum step waits for the next one
          let batch := pend ++ e.2.mixer.map .other ++ stepHead m seq e.1 moe
          let tail := .moeDispatchPost (stepPost p2p m seq e.1 moe) :: p2pTail m e.1 moe
          have hbatch : batch.length =
              pend.length + e.2.mixer.length + postOff moe + 1 := by
            simp only [batch, List.length_append, List.length_map, length_stepHead]
            omega
          have hinsts : fired ++ pend ++ (e :: es).flatMap (blockWith (stepFfn p2p m seq)) ++
              rest = (fired ++ batch) ++ tail ++
                es.flatMap (blockWith (stepFfn p2p m seq)) ++ rest := by
            simp [batch, tail, blockWith, hmoe, stepFfn]
          have hlen : (blockWith (stepFfn p2p m seq) e).length =
              e.2.mixer.length + (postOff moe + 1) + tail.length := by
            rw [length_blockWith_of_moe hmoe, stepFfn, List.length_append, length_stepHead]
            simp only [tail]
            omega
          have hidx : fired.length + pend.length + e.2.mixer.length + postOff moe + 1 =
              (fired ++ batch).length := by
            rw [List.length_append, hbatch]
            omega
          have hnext : fired.length + pend.length + (blockWith (stepFfn p2p m seq) e).length =
              (fired ++ batch).length + tail.length := by
            rw [List.length_append, hbatch, hlen]
            omega
          have h := ih (fired ++ batch) tail
          rw [hinsts]
          simp only [indicesFrom, hmoe, Option.bind_some, Option.map_some, Option.toList_some,
            List.singleton_append, moeBoundaries, blockBoundaries, hidx, hnext, h]
          congr 1
          simp only [List.append_assoc, tail, List.cons_append]
          rw [← List.append_assoc fired batch, List.take_left, List.drop_left,
            List.getElem?_append_right (Nat.le_refl _), Nat.sub_self, List.getElem?_cons_zero]
          simp [batch]

/-- The buffers the workers read. -/
def Buf.isStaging (b : Buf) : Bool :=
  b = .activationStagingVram ∨ b = .routingIdsStagingVram ∨ b = .routingWeightsStagingVram

lemma copiesInto_other (b : Buf) (l : List ℕ) : copiesInto b (l.map .other) = [] := by
  have hnone : (l.map Inst.other).filterMap Inst.asCopy = [] := by
    rw [List.filterMap_map]
    exact List.filterMap_eq_nil_iff.mpr fun _ _ => rfl
  rw [copiesInto, hnone, List.filter_nil]

/-- Behind a boundary nothing is staged. -/
lemma copiesInto_tail {b : Buf} (p : MoeDispatchPost) (li : ℕ) (moe : MoeLayer) :
    copiesInto b (.moeDispatchPost p :: p2pTail m li moe) = [] := by
  have hnone : (Inst.moeDispatchPost p :: p2pTail m li moe).filterMap Inst.asCopy = [] := by
    rw [List.filterMap_eq_nil_iff]
    simp only [p2pTail, latentPost, latentSharedExpert, multiGpuPost, emitSharedExpertStage,
      emitSharedExpertInto]
    split_ifs <;> simp [Inst.asCopy]
  rw [copiesInto, hnone, List.filter_nil]

/-- The boundary of a layer among those of some layers. -/
lemma find?_blockBoundaries (hnd : (es.map Prod.fst).Nodup) (he : e ∈ es)
    (hmoe : e.2.moe = some moe) (pend : List Inst) (hpend : ∀ b, copiesInto b pend = []) :
    ∃ batch, (blockBoundaries p2p m seq pend es).find? (·.layer == e.1) =
        some ⟨e.1, batch, some (.moeDispatchPost (stepPost p2p m seq e.1 moe))⟩ ∧
      ∀ b, copiesInto b batch = copiesInto b (stepHead m seq e.1 moe) := by
  induction es generalizing pend with
  | nil => cases he
  | cons e' es ih =>
      rw [List.map_cons, List.nodup_cons] at hnd
      rcases List.mem_cons.mp he with rfl | he
      · refine ⟨pend ++ e.2.mixer.map .other ++ stepHead m seq e.1 moe, ?_, fun b => ?_⟩
        · simp [blockBoundaries, hmoe]
        · rw [copiesInto_append, copiesInto_append, hpend, copiesInto_other, List.nil_append,
            List.nil_append]
      · have hne : e'.1 ≠ e.1 := fun h => hnd.1 (h ▸ List.mem_map_of_mem he)
        cases hmoe' : e'.2.moe with
        | none =>
            obtain ⟨batch, hfind, hcopies⟩ := ih hnd.2 he
              (pend ++ e'.2.mixer.map .other) fun b => by
                rw [copiesInto_append, hpend, copiesInto_other, List.nil_append]
            exact ⟨batch, by simpa [blockBoundaries, hmoe'] using hfind, hcopies⟩
        | some moe' =>
            obtain ⟨batch, hfind, hcopies⟩ := ih hnd.2 he
              (.moeDispatchPost (stepPost p2p m seq e'.1 moe') :: p2pTail m e'.1 moe')
              fun b => copiesInto_tail ..
            refine ⟨batch, ?_, hcopies⟩
            simpa [blockBoundaries, hmoe', List.find?_cons, beq_eq_false_iff_ne.mpr hne]
              using hfind

/-- The boundary of a layer in a step. -/
def stepBoundary (p2p : P2pConfig) (m : Model) (position li : ℕ) : Option MoeBoundary :=
  (stepBoundaries p2p m position).find? (·.layer == li)

lemma Model.exists_entry (hmoe : m.moeWeights li = some moe) :
    ∃ e ∈ m.enumerated, e.1 = li ∧ e.2.moe = some moe := by
  rw [Model.moeWeights] at hmoe
  obtain ⟨l, hl, hmoe⟩ := Option.bind_eq_some_iff.mp hmoe
  refine ⟨(li, l), ?_, rfl, hmoe⟩
  rw [Model.enumerated, List.mem_map]
  exact ⟨(l, li), List.mem_zipIdx_iff_getElem?.mpr hl, rfl⟩

/-- The boundaries of a step, block by block. -/
lemma stepBoundaries_eq (position : ℕ) : stepBoundaries p2p m position =
    blockBoundaries p2p m (position + 1) (m.embedding.map .other) m.enumerated := by
  have hwalk := moeBoundaries_eq p2p m m.enumerated (position + 1) [] (m.embedding.map .other)
    (m.lmHead.map .other)
  rw [List.length_nil, Nat.zero_add, List.length_map, List.nil_append, ← stepProgram_eq] at hwalk
  have hlen : ∀ li moe, (p2pFfn p2p m li moe).length =
      (stepFfn p2p m (position + 1) li moe).length := by
    intro li moe
    simp [p2pFfn, stepFfn, p2pHead, stepHead, stagedPre]
  rw [stepBoundaries]
  have hmap : (compileInnerP2p p2p m).1.barrierLayerMap =
      indicesFrom (stepFfn p2p m (position + 1)) (fun moe => some (postOff moe))
        m.embedding.length m.enumerated := by
    rw [compileInnerP2p_eq]
    exact indicesFrom_congr hlen
  rw [hmap]
  exact hwalk

/-- **What GPU 0 executes for a layer in a step**: the staging copies of its batch are those of
the layer's head, and it resumes with the layer's sum step. -/
theorem stepBoundary_eq (p2p : P2pConfig) (hmoe : m.moeWeights li = some moe) (position : ℕ) :
    ∃ batch, stepBoundary p2p m position li =
        some ⟨li, batch, some (.moeDispatchPost (stepPost p2p m (position + 1) li moe))⟩ ∧
      ∀ b, copiesInto b batch = copiesInto b (stepHead m (position + 1) li moe) := by
  obtain ⟨e, he, rfl, hentry⟩ := Model.exists_entry hmoe
  rw [stepBoundary, stepBoundaries_eq]
  exact find?_blockBoundaries m.nodup_enumerated he hentry _ fun b => copiesInto_other b _

/-- The worker instructions of a layer in a step. -/
theorem dispatchMoeWorkersDecode_eq (p2p : P2pConfig) (hmoe : m.moeWeights li = some moe)
    (position : ℕ) :
    ∃ st : Pass1, st.Covers p2p m li moe ∧ dispatchMoeWorkersDecode p2p m li position =
      some ((List.range p2p.numWorkers).map
        (remoteInst st (decodeMoeParams m moe) li (position + 1))) := by
  obtain ⟨e, he, rfl, hentry⟩ := Model.exists_entry hmoe
  have hcovers : (compileInnerP2p p2p m).2.Covers p2p m e.1 moe :=
    compileInnerP2p_covers he hentry
  refine ⟨_, hcovers, ?_⟩
  rw [dispatchMoeWorkersDecode]
  simp only [hcovers.decodeParams, Option.map_some]

/-! ### Staging -/

/-- `MAX_PREFILL_BATCH` -/
def maxPrefillBatch : ℕ := 64

/-- `MAX_ACTIVE_EXPERTS` -/
def maxActiveExperts : ℕ := 32

/-- The sizes `MoeP2pContext::init` allocates, for its parameter `gate_up_in_dim`. -/
def stagingSize (gateUpInDim : ℕ) : Buf → ℕ
  | .activationStagingVram => maxPrefillBatch * gateUpInDim
  | .routingIdsStagingVram | .routingWeightsStagingVram => maxPrefillBatch * maxActiveExperts
  | _ => 0

/-- `n` elements from `p` on lie inside a staging buffer. -/
def Ptr.InStaging (gateUpInDim : ℕ) (p : Ptr) (n : ℕ) : Prop :=
  p.off + n ≤ stagingSize gateUpInDim p.buf

/-- A worker reads where GPU 0 staged: each of its three reads starts at the destination of the
one copy of the batch into that buffer, and every range lies inside its buffer. -/
def ReadsStaged (gateUpInDim : ℕ) (batch : List Inst) (r : MoeFfnRemote) : Prop :=
  ((copiesInto .activationStagingVram batch).map (·.dst) = [r.activation] ∧
    (copiesInto .routingIdsStagingVram batch).map (·.dst) = [r.expertIds] ∧
    (copiesInto .routingWeightsStagingVram batch).map (·.dst) = [r.expertWeights]) ∧
  (∀ b, b.isStaging → ∀ c ∈ copiesInto b batch, c.dst.InStaging gateUpInDim c.nElems) ∧
  (r.activation.InStaging gateUpInDim r.gupd ∧ r.expertIds.InStaging gateUpInDim r.k ∧
    r.expertWeights.InStaging gateUpInDim r.k)

/-- For a layer in a step, every worker reads where GPU 0 staged. -/
def StagingAgrees (p2p : P2pConfig) (gateUpInDim : ℕ) (m : Model) (position li : ℕ) : Prop :=
  ∃ bd remotes, stepBoundary p2p m position li = some bd ∧
    dispatchMoeWorkersDecode p2p m li position = some remotes ∧
    ∀ r ∈ remotes, ReadsStaged gateUpInDim bd.batch r

section Staging

variable (m moe)

/-- The number of floats staged for a layer. -/
def stagedLen : ℕ := if moe.fc1LatentProj then moe.gateUpInDim else m.hiddenSize

/-- The number of floats a worker reads. -/
def readLen : ℕ := if moe.gateUpInDim = 0 then m.hiddenSize else moe.gateUpInDim

/-- The slot of a step and the ranges in it fit the staging buffers. -/
def StagingFits (gateUpInDim position : ℕ) : Prop :=
  dbufSlot (position + 1) * m.hiddenSize + max (stagedLen m moe) (readLen m moe) ≤
      maxPrefillBatch * gateUpInDim ∧
    dbufSlot (position + 1) * moe.numActive + moe.numActive ≤ maxPrefillBatch * maxActiveExperts

end Staging

/-- A worker reads, and stores, this many floats. -/
lemma remoteInst_gupd (st : Pass1) (w : ℕ) :
    (remoteInst st (decodeMoeParams m moe) li seq w).gupd = readLen m moe := rfl

/-- The one copy of a layer's head into the activation staging buffer. -/
lemma copiesInto_activation : copiesInto .activationStagingVram (stepHead m seq li moe) =
    [.new (Buf.activationStagingVram.ptr.add (stagedSlot seq moe * m.hiddenSize))
      (if moe.fc1LatentProj then Buf.moeLatent.ptr else Buf.normed.ptr) (stagedLen m moe)] := by
  cases hfc1 : moe.fc1LatentProj <;>
    simp [copiesInto, stepHead, stepActivation, stageActivation, latentStage, stagedSlot,
      stagedLen, stepIdsCopy, stepWeightsCopy, zeroSlotCopy, hfc1, Inst.asCopy, D2dCopy.new,
      D2dCopy.withSignal, List.filterMap_cons]

lemma copiesInto_routingIds : copiesInto .routingIdsStagingVram (stepHead m seq li moe) =
    [stepIdsCopy seq moe] := by
  cases hfc1 : moe.fc1LatentProj <;>
    simp [copiesInto, stepHead, stepActivation, stageActivation, latentStage, stagedSlot,
      stepIdsCopy, stepWeightsCopy, zeroSlotCopy, hfc1, Inst.asCopy, D2dCopy.new,
      D2dCopy.withSignal, List.filterMap_cons]

lemma copiesInto_routingWeights : copiesInto .routingWeightsStagingVram (stepHead m seq li moe) =
    [stepWeightsCopy seq li moe] := by
  cases hfc1 : moe.fc1LatentProj <;>
    simp [copiesInto, stepHead, stepActivation, stageActivation, latentStage, stagedSlot,
      stepIdsCopy, stepWeightsCopy, zeroSlotCopy, hfc1, Inst.asCopy, D2dCopy.new,
      D2dCopy.withSignal, List.filterMap_cons]

lemma stepWeightsCopy_dst : (stepWeightsCopy seq li moe).dst =
    Buf.routingWeightsStagingVram.ptr.add (stagedSlot seq moe * moe.numActive) := by
  cases hfc1 : moe.fc1LatentProj <;>
    simp [stepWeightsCopy, hfc1, D2dCopy.new, D2dCopy.withSignal]

lemma stepWeightsCopy_nElems : (stepWeightsCopy seq li moe).nElems = moe.numActive := by
  cases hfc1 : moe.fc1LatentProj <;>
    simp [stepWeightsCopy, hfc1, D2dCopy.new, D2dCopy.withSignal]

/-- The staged slot is the slot of the step, unless the layer is latent and the slot is odd. -/
lemma stagedSlot_eq_iff (position : ℕ) : stagedSlot (position + 1) moe = dbufSlot (position + 1) ↔
    moe.fc1LatentProj = false ∨ position % 2 = 1 := by
  cases hfc1 : moe.fc1LatentProj with
  | false => simp [stagedSlot, hfc1]
  | true =>
      simp only [stagedSlot, hfc1, if_true, dbufSlot, Bool.true_eq_false, false_or]
      omega

/-- What it means for one worker to read where GPU 0 staged, as arithmetic. -/
lemma readsStaged_iff {batch : List Inst} {st : Pass1} {gateUpInDim w : ℕ}
    (hcopies : ∀ b, copiesInto b batch = copiesInto b (stepHead m seq li moe)) :
    ReadsStaged gateUpInDim batch (remoteInst st (decodeMoeParams m moe) li seq w) ↔
    (stagedSlot seq moe * m.hiddenSize = dbufSlot seq * m.hiddenSize ∧
      stagedSlot seq moe * moe.numActive = dbufSlot seq * moe.numActive) ∧
    (stagedSlot seq moe * m.hiddenSize + stagedLen m moe ≤ maxPrefillBatch * gateUpInDim ∧
      stagedSlot seq moe * moe.numActive + moe.numActive ≤ maxPrefillBatch * maxActiveExperts) ∧
    (dbufSlot seq * m.hiddenSize + readLen m moe ≤ maxPrefillBatch * gateUpInDim ∧
      dbufSlot seq * moe.numActive + moe.numActive ≤ maxPrefillBatch * maxActiveExperts) := by
  have hstaging : (∀ b, b.isStaging → ∀ c ∈ copiesInto b batch,
      c.dst.InStaging gateUpInDim c.nElems) ↔
      (stagedSlot seq moe * m.hiddenSize + stagedLen m moe ≤ maxPrefillBatch * gateUpInDim ∧
        stagedSlot seq moe * moe.numActive + moe.numActive ≤
          maxPrefillBatch * maxActiveExperts) := by
    simp only [hcopies]
    constructor
    · intro h
      have hact := h .activationStagingVram rfl
      have hids := h .routingIdsStagingVram rfl
      rw [copiesInto_activation] at hact
      rw [copiesInto_routingIds] at hids
      exact ⟨by simpa [Ptr.InStaging, stagingSize, D2dCopy.new] using hact,
        by simpa [Ptr.InStaging, stagingSize, D2dCopy.new, stepIdsCopy] using hids⟩
    · rintro ⟨hact, hk⟩ b hb c hc
      rcases of_decide_eq_true hb with rfl | rfl | rfl
      · rw [copiesInto_activation, List.mem_singleton] at hc
        subst hc
        simpa [Ptr.InStaging, stagingSize, D2dCopy.new] using hact
      · rw [copiesInto_routingIds, List.mem_singleton] at hc
        subst hc
        simpa [Ptr.InStaging, stagingSize, D2dCopy.new, stepIdsCopy] using hk
      · rw [copiesInto_routingWeights, List.mem_singleton] at hc
        subst hc
        simpa [Ptr.InStaging, stagingSize, stepWeightsCopy_dst, stepWeightsCopy_nElems] using hk
  rw [ReadsStaged, hstaging, hcopies, hcopies, hcopies, copiesInto_activation,
    copiesInto_routingIds, copiesInto_routingWeights, remoteInst_gupd]
  simp [remoteInst, decodeMoeParams, stepIdsCopy, stepWeightsCopy_dst, D2dCopy.new,
    Ptr.InStaging, stagingSize, Ptr.add]

/-- **The staging addresses agree** exactly when the layer has no latent projection or the step's
slot is the first one, as far as the ranges fit at all. -/
theorem stagingAgrees_iff (p2p : P2pConfig) (gateUpInDim : ℕ) (hmoe : m.moeWeights li = some moe)
    (position : ℕ) : StagingAgrees p2p gateUpInDim m position li ↔
      (moe.fc1LatentProj = false ∨ position % 2 = 1) ∧
        StagingFits m moe gateUpInDim position := by
  obtain ⟨batch, hbd, hcopies⟩ := stepBoundary_eq p2p hmoe position
  obtain ⟨st, -, hremotes⟩ := dispatchMoeWorkersDecode_eq p2p hmoe position
  rw [← stagedSlot_eq_iff position]
  constructor
  · rintro ⟨bd, remotes, hbd', hremotes', h⟩
    obtain rfl := Option.some.inj (hbd.symm.trans hbd')
    obtain rfl := Option.some.inj (hremotes.symm.trans hremotes')
    have hworker := h _ (List.mem_map_of_mem (List.mem_range.mpr p2p.numWorkers_pos))
    obtain ⟨⟨hact, -⟩, ⟨hlen, -⟩, hread, hk⟩ := (readsStaged_iff hcopies).mp hworker
    have hslot := Nat.eq_of_mul_eq_mul_right m.hiddenSize_pos hact
    rw [hslot] at hlen
    exact ⟨hslot, by omega, hk⟩
  · rintro ⟨hslot, hact, hk⟩
    refine ⟨_, _, hbd, hremotes, ?_⟩
    intro r hr
    obtain ⟨w, -, rfl⟩ := List.mem_map.mp hr
    rw [readsStaged_iff hcopies, hslot]
    exact ⟨⟨rfl, rfl⟩, ⟨by omega, hk⟩, by omega, hk⟩

/-- In the documented geometry the ranges fit wherever the addresses agree. -/
lemma stagingFits_of_geometry {gateUpInDim position : ℕ} (hdim : moe.gateUpInDim = gateUpInDim)
    (hpos : 0 < gateUpInDim) (hnone : moe.fc1LatentProj = false → gateUpInDim = m.hiddenSize)
    (hk : moe.numActive ≤ maxActiveExperts)
    (hslot : moe.fc1LatentProj = false ∨ position % 2 = 1) :
    StagingFits m moe gateUpInDim position := by
  have hslot' := (stagedSlot_eq_iff position).mpr hslot
  have hlt : dbufSlot (position + 1) < 2 := Nat.mod_lt _ (by decide)
  have hactive : dbufSlot (position + 1) * moe.numActive ≤ 1 * maxActiveExperts :=
    Nat.mul_le_mul (by omega) hk
  have hread : readLen m moe = gateUpInDim := by
    rw [readLen, if_neg (by omega), hdim]
  refine ⟨?_, ?_⟩
  · cases hfc1 : moe.fc1LatentProj with
    | false =>
        have hdbuf : dbufSlot (position + 1) * m.hiddenSize ≤ 1 * m.hiddenSize :=
          Nat.mul_le_mul_right _ (by omega)
        rw [hread, stagedLen, hfc1, hnone hfc1, maxPrefillBatch]
        simp only [Bool.false_eq_true, if_false, Nat.max_self]
        omega
    | true =>
        rw [← hslot', stagedSlot, hfc1, hread, stagedLen, hfc1, hdim, maxPrefillBatch]
        simp only [if_true, Nat.max_self]
        omega
  · rw [maxPrefillBatch, maxActiveExperts] at *
    omega

/-- A layer with a latent projection from 4 to 2 floats. -/
def latentLayer : MoeLayer where
  numExperts := 4
  numActive := 2
  gateType := .softmax
  expertIntermediateSize := 2
  sharedIntermediateSize := 0
  hasGateProj := false
  sharedExpert := false
  sharedExpertGate := false
  scoreCorrectionBias := false
  fc1LatentProj := true
  fc2LatentProj := true
  gateUpInDim := 2

/-- A model of one latent layer. -/
def latentModel : Model := ⟨4, Nat.succ_pos 3, [], [⟨[], some latentLayer⟩], []⟩

/-- Two GPUs in the default configuration. -/
def twoGpus : P2pConfig := ⟨1, by decide, false⟩

/-- In the second step of a latent model (`position = 1`) the addresses agree. -/
theorem stagingAgrees_latent : StagingAgrees twoGpus 2 latentModel 1 0 :=
  (stagingAgrees_iff twoGpus 2
    (show latentModel.moeWeights 0 = some latentLayer from rfl) 1).mpr
    ⟨Or.inr rfl, by decide, by decide⟩

/-- In the first step of a latent model (`position = 0`) the worker reads the second slot, and
GPU 0 staged into the first. -/
theorem not_stagingAgrees_latent : ¬ StagingAgrees twoGpus 2 latentModel 0 0 := by
  have hmoe : latentModel.moeWeights 0 = some latentLayer := rfl
  rintro ⟨bd, remotes, hbd', hremotes', h⟩
  obtain ⟨batch, hbd, hcopies⟩ := stepBoundary_eq twoGpus hmoe 0
  obtain ⟨st, -, hremotes⟩ := dispatchMoeWorkersDecode_eq twoGpus hmoe 0
  obtain rfl := Option.some.inj (hbd.symm.trans hbd')
  obtain rfl := Option.some.inj (hremotes.symm.trans hremotes')
  have hworker := h _ (List.mem_map_of_mem (List.mem_range.mpr twoGpus.numWorkers_pos))
  have hact : 0 * 4 = 1 * 4 := ((readsStaged_iff hcopies).mp hworker).1.1
  omega

end Braidinfer.Moe
