/-
Compiling the mixture-of-experts layers.

The decode program of one GPU runs the experts in one instruction (`compile_moe_ffn`).  The decode
program of several GPUs is compiled in three steps: `compile_inner` emits every MoE layer up to a
barrier (`compile_moe_ffn_multi_gpu`), a first pass patches the staging copies around the barrier,
and a second pass copies the program and inserts the sum step after the barrier.

* `compileMoeFfn`, `compileMoeFfnMultiGpu`, `compileInner`: the emitted code;
* `pass1`, `pass2`, `compileInnerP2p`: the two passes and the indices they record.
-/
import Braidinfer.Lib.Splice
import Braidinfer.Moe.Inst

namespace Braidinfer.Moe

open Braidinfer.Lib

/-! ### Emitted code -/

section Emit

variable (hs layerIdx : ℕ) (moe : MoeLayer)

/-- `emit_shared_expert` and `emit_shared_expert_stage`, with the buffer they add to. -/
def emitSharedExpertInto (out : Buf) : List Inst :=
  (if moe.hasGateProj then
    [.linearProj Buf.moeExpertGate.ptr ⟨layerIdx, .seGateProj⟩ Buf.normed.ptr moe.seIs hs,
     .linearProj Buf.moeExpertUp.ptr ⟨layerIdx, .seUpProj⟩ Buf.normed.ptr moe.seIs hs,
     .siluMul Buf.moeExpertAct.ptr Buf.moeExpertGate.ptr Buf.moeExpertUp.ptr moe.seIs]
  else
    [.linearProj Buf.moeExpertUp.ptr ⟨layerIdx, .seUpProj⟩ Buf.normed.ptr moe.seIs hs,
     .reluSq Buf.moeExpertAct.ptr Buf.moeExpertUp.ptr moe.seIs]) ++
  [.linearProj Buf.moeExpertOut.ptr ⟨layerIdx, .seDownProj⟩ Buf.moeExpertAct.ptr hs moe.seIs] ++
  (if moe.sharedExpertGate then
    [.linearProj Buf.moeScores.ptr ⟨layerIdx, .sharedExpertGate⟩ Buf.normed.ptr 1 hs,
     .sigmoidWeightedAdd out.ptr Buf.moeScores.ptr Buf.moeExpertOut.ptr hs]
  else
    [.residualAdd out.ptr out.ptr Buf.moeExpertOut.ptr hs])

/-- `emit_shared_expert` -/
def emitSharedExpert : List Inst := emitSharedExpertInto hs layerIdx moe .ffnDown

/-- `emit_shared_expert_stage` -/
def emitSharedExpertStage : List Inst := emitSharedExpertInto hs layerIdx moe .ffnDownStage

/-- The `MoeGateInst` of both compilers. -/
def gateInst : MoeGate where
  scores := Buf.moeScores.ptr
  expertIds := Buf.moeExpertIds.ptr
  expertWeights := Buf.moeExpertWeights.ptr
  ne := moe.numExperts
  k := moe.numActive
  gateMode := moe.gateType.modeAndFactor.1
  rsf := moe.gateType.modeAndFactor.2
  bias := if moe.scoreCorrectionBias then some layerIdx else none

/-- `row_byte_offset_dim` of a `PcG32Q4` tensor, the one format `compile_moe_ffn` admits. -/
def rowByteOffsetPcg32 (rows inDim : ℕ) : ℕ := rows * ((inDim + 31) / 32) * 20

/-- The `MoeFfnInst` of `compile_moe_ffn`. -/
def moeFfnInst : MoeFfn where
  expertIds := Buf.moeExpertIds.ptr
  expertWeights := Buf.moeExpertWeights.ptr
  normed := Buf.normed.ptr
  ffnDown := Buf.ffnDown.ptr
  experts := layerIdx
  gateUpExpertStride := if moe.hasGateProj then
    rowByteOffsetPcg32 (2 * moe.expertIntermediateSize) hs
    else rowByteOffsetPcg32 moe.expertIntermediateSize hs
  downExpertStride := rowByteOffsetPcg32 hs moe.expertIntermediateSize
  k := moe.numActive
  hsEis := hs ||| moe.expertIntermediateSize <<< 16
  flags := (if moe.hasGateProj then 1 else 0) ||| (if moe.hasGateProj then 0 else 2)
  expertGate := Buf.moeExpertGate.ptr
  expertUp := Buf.moeExpertUp.ptr
  expertAct := Buf.moeExpertAct.ptr
  expertOut := Buf.moeExpertOut.ptr
  gateUpRowStride := rowByteOffsetPcg32 1 hs

/-- `compile_moe_ffn` -/
def compileMoeFfn : List Inst :=
  [.d2dCopy (.new Buf.residual.ptr Buf.hidden.ptr hs),
   .rmsNorm Buf.normed.ptr Buf.hidden.ptr ⟨layerIdx, .norm⟩ hs,
   .linearProj Buf.moeScores.ptr ⟨layerIdx, .gate⟩ Buf.normed.ptr moe.numExperts hs,
   .moeGate (gateInst layerIdx moe),
   .moeFfn (moeFfnInst hs layerIdx moe)] ++
  (if moe.sharedExpert then emitSharedExpert hs layerIdx moe else []) ++
  [.residualAdd Buf.hidden.ptr Buf.residual.ptr Buf.ffnDown.ptr hs]

/-- What `compile_moe_ffn_multi_gpu` emits before the barrier. -/
def multiGpuPre : List Inst :=
  [.d2dCopy (.new Buf.residual.ptr Buf.hidden.ptr hs),
   .rmsNorm Buf.normed.ptr Buf.hidden.ptr ⟨layerIdx, .norm⟩ hs,
   .linearProj Buf.moeScores.ptr ⟨layerIdx, .gate⟩ Buf.normed.ptr moe.numExperts hs,
   .d2dCopy (.new Buf.normedStage.ptr Buf.normed.ptr hs),
   .moeGate (gateInst layerIdx moe),
   .d2dCopy (.new Buf.moeExpertIds.ptr Buf.moeExpertIds.ptr moe.numActive),
   .d2dCopy (.new Buf.moeExpertWeights.ptr Buf.moeExpertWeights.ptr moe.numActive)]

/-- What `compile_moe_ffn_multi_gpu` emits after the barrier. -/
def multiGpuPost : List Inst :=
  (if moe.sharedExpert then emitSharedExpertStage hs layerIdx moe else []) ++
  [.residualAdd Buf.hidden.ptr Buf.residual.ptr Buf.ffnDownStage.ptr hs]

/-- `compile_moe_ffn_multi_gpu`: the program and the index of the barrier. -/
def compileMoeFfnMultiGpu (instructions : List Inst) (emitPostBarrier : Bool) :
    List Inst × ℕ :=
  let instructions := instructions ++ multiGpuPre hs layerIdx moe
  let barrierInstIdx := instructions.length
  let instructions := instructions ++ [.barrier layerIdx]
  (if emitPostBarrier then instructions ++ multiGpuPost hs layerIdx moe else instructions,
    barrierInstIdx)

end Emit

/-! ### The program before the passes -/

/-- A layer: the instructions of its mixer and dense FFN, and its MoE FFN. -/
structure Layer where
  mixer : List ℕ
  moe : Option MoeLayer

/-- The fields of `MegakernelProgram` that the MoE passes touch. -/
structure Program where
  instructions : List Inst
  barrierLayerMap : List (ℕ × ℕ)
  moeActD2dIndices : List (ℕ × ℕ)
  moePostSeqIndices : List ℕ

/-- The body of the layer loop of `compile_inner` for several GPUs. -/
def compileLayer (hs : ℕ) (prog : Program) (entry : ℕ × Layer) : Program :=
  let instructions := prog.instructions ++ entry.2.mixer.map .other
  match entry.2.moe with
  | none => { prog with instructions := instructions }
  | some moe =>
      let (instructions, barrierInstIdx) :=
        compileMoeFfnMultiGpu hs entry.1 moe instructions (!moe.fc2LatentProj)
      { prog with
        instructions := instructions
        barrierLayerMap := prog.barrierLayerMap ++ [(barrierInstIdx, entry.1)] }

/-- A model: the embedding, the layers, and the final norm with the head. -/
structure Model where
  hiddenSize : ℕ
  hiddenSize_pos : 0 < hiddenSize
  embedding : List ℕ
  layers : List Layer
  lmHead : List ℕ

/-- The layers with their indices. -/
def Model.enumerated (m : Model) : List (ℕ × Layer) := m.layers.zipIdx.map fun e => (e.2, e.1)

/-- `compile_inner(model, true, true)` -/
def compileInner (m : Model) : Program :=
  let prog := m.enumerated.foldl (compileLayer m.hiddenSize)
    ⟨m.embedding.map .other, [], [], []⟩
  { prog with instructions := prog.instructions ++ m.lmHead.map .other }

/-- `model.moe_weights[layer_idx]` -/
def Model.moeWeights (m : Model) (layerIdx : ℕ) : Option MoeLayer :=
  m.layers[layerIdx]?.bind (·.moe)

/-! ### The two passes -/

/-- The part of `MoeP2pContext` the compiler reads; the p2p program is compiled only for more
than one GPU. -/
structure P2pConfig where
  /-- `workers.len()` -/
  numWorkers : ℕ
  numWorkers_pos : 0 < numWorkers
  /-- whether `YEF52_OPTION_C` is set -/
  optionC : Bool

/-- `num_gpus` -/
def P2pConfig.numGpus (p2p : P2pConfig) : ℕ := p2p.numWorkers + 1

/-- `DecodeMoeParams` -/
structure DecodeMoeParams where
  outputSlots : Ptr
  expertIds : Ptr
  expertWeights : Ptr
  hs : ℕ
  gupd : ℕ
  k : ℕ
  eis : ℕ
  hasGateProj : Bool
  reluSq : Bool
deriving DecidableEq, Repr

/-- What the first pass writes: the program and the tables of `MoeP2pContext`. -/
structure Pass1 where
  instructions : List Inst
  moeActD2dIndices : List (ℕ × ℕ)
  /-- `moe_act_sentinel[layer]` is allocated -/
  moeActSentinel : ℕ → Bool
  /-- `result_descs_by_layer[layer]` and `moe_result_sentinel[layer]` are filled -/
  resultDescs : ℕ → Bool
  decodeParams : ℕ → Option DecodeMoeParams

section Passes

variable (p2p : P2pConfig) (m : Model)

/-- The activation staging at `barrier_idx - 4`: the latent projection, or the copy. -/
def stageActivation (layerIdx : ℕ) (moe : MoeLayer) : Inst :=
  if moe.fc1LatentProj then
    .linearProj Buf.moeLatent.ptr ⟨layerIdx, .fc1LatentProj⟩ Buf.normed.ptr moe.gateUpInDim
      m.hiddenSize
  else .d2dCopy (.new Buf.activationStagingVram.ptr Buf.normed.ptr m.hiddenSize)

/-- The routing copy at `barrier_idx - 2`. -/
def routingIdsCopy (moe : MoeLayer) : D2dCopy :=
  .new Buf.routingIdsStagingVram.ptr Buf.moeExpertIds.ptr moe.numActive

/-- The routing copy at `barrier_idx - 1`, with the sentinel if it is allocated. -/
def routingWeightsCopy (layerIdx : ℕ) (moe : MoeLayer) (sentinel : Bool) : D2dCopy :=
  let c := D2dCopy.new Buf.routingWeightsStagingVram.ptr Buf.moeExpertWeights.ptr moe.numActive
  if sentinel then c.withSignal (Buf.moeActSentinel layerIdx).ptr 1 else c

/-- `D2D_COPY(output_slots[0] ← gpu0_zero_buffer, gupd)` in the place of the barrier. -/
def zeroSlotCopy (moe : MoeLayer) : D2dCopy :=
  .new Buf.outputSlots.ptr Buf.gpu0ZeroBuffer.ptr moe.gateUpInDim

/-- The entry of `decode_params`. -/
def decodeMoeParams (moe : MoeLayer) : DecodeMoeParams where
  outputSlots := Buf.outputSlots.ptr
  expertIds := Buf.routingIdsStagingVram.ptr
  expertWeights := Buf.routingWeightsStagingVram.ptr
  hs := m.hiddenSize
  gupd := moe.gateUpInDim
  k := moe.numActive
  eis := moe.expertIntermediateSize
  hasGateProj := moe.hasGateProj
  reluSq := !moe.hasGateProj

/-- `prev4_opcode == OP_D2D_COPY && prev4.words[1] == normed_stage_ptr` -/
def isNormedStageCopy : Option Inst → Bool
  | some (.d2dCopy c) => c.dst == Buf.normedStage.ptr
  | _ => false

/-- The body of the first pass for one barrier. -/
def pass1Layer (st : Pass1) (entry : ℕ × ℕ) : Pass1 :=
  match m.moeWeights entry.2 with
  | none => st
  | some moe =>
      let barrierIdx := entry.1
      let layerIdx := entry.2
      let st :=
        if barrierIdx ≥ 4 ∧ isNormedStageCopy st.instructions[barrierIdx - 4]? then
          let sentinels := if moe.fc1LatentProj then st.moeActSentinel
            else Function.update st.moeActSentinel layerIdx true
          let insts := st.instructions.set (barrierIdx - 4) (stageActivation m layerIdx moe)
          let insts := insts.set (barrierIdx - 2) (.d2dCopy (routingIdsCopy moe))
          let insts := insts.set (barrierIdx - 1)
            (.d2dCopy (routingWeightsCopy layerIdx moe (sentinels layerIdx)))
          { st with
            instructions := insts
            moeActSentinel := sentinels
            moeActD2dIndices := if sentinels layerIdx then
              st.moeActD2dIndices ++ [(barrierIdx - 1, layerIdx)] else st.moeActD2dIndices
            resultDescs := if p2p.optionC then Function.update st.resultDescs layerIdx true
              else st.resultDescs }
        else st
      { st with
        instructions := st.instructions.set barrierIdx (.d2dCopy (zeroSlotCopy moe))
        decodeParams := Function.update st.decodeParams layerIdx (some (decodeMoeParams m moe)) }

/-- Pass 1: patch the barriers and the instructions around them in place. -/
def pass1 (prog : Program) : Pass1 :=
  prog.barrierLayerMap.foldl (pass1Layer p2p m)
    ⟨prog.instructions, [], fun _ => false, fun _ => false, fun _ => none⟩

/-- The latent staging copy inserted before the barrier's place. -/
def latentStage (moe : MoeLayer) : List Inst :=
  if moe.fc1LatentProj then
    [.d2dCopy (.new Buf.activationStagingVram.ptr Buf.moeLatent.ptr moe.gateUpInDim)]
  else []

/-- The descriptor array of a layer. -/
def resultDescs (layerIdx : ℕ) : List MoeResultDesc :=
  (List.range p2p.numWorkers).map fun w =>
    ⟨(Buf.moeResultSentinel layerIdx w).ptr, (Buf.localOutputUc w).ptr⟩

/-- The `OP_MOE_DISPATCH_POST` of a layer. -/
def postInst (layerIdx : ℕ) (moe : MoeLayer) (descsFilled : Bool) : MoeDispatchPost where
  outputSlots := Buf.outputSlots.ptr
  finalOutput := if moe.fc2LatentProj then Buf.moeLatent.ptr else Buf.ffnDownStage.ptr
  seqCounter := 0
  hs := m.hiddenSize
  numGpus := p2p.numGpus
  gateUpInDim := moe.gateUpInDim
  resultDescs := if p2p.optionC && descsFilled then some (resultDescs p2p layerIdx) else none

/-- The shared expert of a layer with `fc2_latent_proj`: only the path without `gate_proj`. -/
def latentSharedExpert (layerIdx : ℕ) (moe : MoeLayer) : List Inst :=
  if moe.sharedExpert && !moe.hasGateProj then
    [.linearProj Buf.moeExpertUp.ptr ⟨layerIdx, .seUpProj⟩ Buf.normed.ptr moe.seIs m.hiddenSize,
     .reluSq Buf.moeExpertAct.ptr Buf.moeExpertUp.ptr moe.seIs,
     .linearProj Buf.moeExpertOut.ptr ⟨layerIdx, .seDownProj⟩ Buf.moeExpertAct.ptr m.hiddenSize
      moe.seIs] ++
    (if moe.sharedExpertGate then
      [.linearProj Buf.moeScores.ptr ⟨layerIdx, .sharedExpertGate⟩ Buf.normed.ptr 1
        m.hiddenSize,
       .sigmoidWeightedAdd Buf.ffnDownStage.ptr Buf.moeScores.ptr Buf.moeExpertOut.ptr
        m.hiddenSize]
    else
      [.residualAdd Buf.ffnDownStage.ptr Buf.ffnDownStage.ptr Buf.moeExpertOut.ptr
        m.hiddenSize])
  else []

/-- The insertions after the sum step of a layer with `fc2_latent_proj`. -/
def latentPost (layerIdx : ℕ) (moe : MoeLayer) : List Inst :=
  if moe.fc2LatentProj then
    [.linearProj Buf.ffnDownStage.ptr ⟨layerIdx, .fc2LatentProj⟩ Buf.moeLatent.ptr m.hiddenSize
      moe.gateUpInDim] ++
    latentSharedExpert m layerIdx moe ++
    [.residualAdd Buf.hidden.ptr Buf.residual.ptr Buf.ffnDownStage.ptr m.hiddenSize]
  else []

/-- `barrier_map.get(&i)`, with the layer's weights. -/
def barrierAt (barrierMap : List (ℕ × ℕ)) (i : ℕ) : Option (ℕ × MoeLayer) :=
  (barrierMap.find? (·.1 == i)).bind fun e => (m.moeWeights e.2).map fun moe => (e.2, moe)

/-- What the second pass inserts before the instruction `i`. -/
def insertBefore (barrierMap : List (ℕ × ℕ)) (i : ℕ) : List Inst :=
  match barrierAt m barrierMap i with
  | some (_, moe) => latentStage moe
  | none => []

/-- What the second pass inserts after the instruction `i`. -/
def insertAfter (st : Pass1) (barrierMap : List (ℕ × ℕ)) (i : ℕ) : List Inst :=
  match barrierAt m barrierMap i with
  | some (layerIdx, moe) =>
      .moeDispatchPost (postInst p2p m layerIdx moe (st.resultDescs layerIdx)) ::
        latentPost m layerIdx moe
  | none => []

/-- Pass 2: copy the program with the insertions and shift the recorded indices. -/
def pass2 (st : Pass1) (barrierMap : List (ℕ × ℕ)) : Program :=
  let pre := insertBefore m barrierMap
  let post := insertAfter p2p m st barrierMap
  let moved := splicedAt pre post 0 st.instructions
  { instructions := splice pre post 0 st.instructions
    barrierLayerMap := barrierMap.map fun e => (moved e.1, e.2)
    moeActD2dIndices := st.moeActD2dIndices.map fun e => (moved e.1, e.2)
    -- the sum step stands right after the copy of the barrier's place
    moePostSeqIndices := if p2p.optionC then barrierMap.map fun e => moved e.1 + 1 else [] }

/-- `compile_inner_p2p`: the program, and the tables of `MoeP2pContext` it fills. -/
def compileInnerP2p : Program × Pass1 :=
  let prog := compileInner m
  let st := pass1 p2p m prog
  (pass2 p2p m st prog.barrierLayerMap, st)

end Passes

end Braidinfer.Moe
