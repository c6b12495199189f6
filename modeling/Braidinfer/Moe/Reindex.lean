/-
The instruction indices of the multi-GPU decode program (`compile_inner` for several GPUs and the
second pass of `compile_inner_p2p` in `megakernel/megakernel_compile.rs`).

While it emits code, `compile_inner` records the indices of the instructions that are patched at
every step, of the barriers, and of the instructions whose output the tracer dumps.  The second
pass inserts instructions around the barriers and then shifts the recorded indices by
`inserted_before`, but for two of the vectors.

* `compileRecorded`, `pass2Recorded`: the compiler with every index it keeps;
* `toProgram_compileRecorded`: without the indices it is `compileInner`;
* `shift_eq`: an index shifted by `inserted_before` is the place of the copy;
* `reindexed_iff`: **every index denotes the copy of its instruction exactly if no layer has a MoE
  FFN**, since `_mrope_inst_indices` and `trace_probe_map` are never shifted.
-/
import Braidinfer.Megakernel.KvExec
import Braidinfer.Moe.Layout

namespace Braidinfer.Moe

open Braidinfer.Lib Braidinfer.Megakernel

/-! ### The compiler with its indices -/

/-- The mixer of a layer; the code of a GDN or Mamba2 layer is opaque. -/
inductive Mixer
  | attention
  | recurrent (code : List ℕ)
  | moeFfn

/-- The FFN of a layer; the code of a dense FFN is opaque. -/
inductive Ffn
  | dense (code : List ℕ)
  | moe (moe : MoeLayer)
  | none

/-- A layer of the model. -/
structure P2pLayer where
  mixer : Mixer
  ffn : Ffn

/-- A model, with the instructions around its layers. -/
structure P2pModel where
  cfg : AttnConfig
  hiddenSize_pos : 0 < cfg.hiddenSize
  layers : List P2pLayer
  embedding : ℕ
  finalCopy : ℕ
  finalNorm : ℕ
  lmHead : ℕ
  halt : ℕ
  /-- the words of an instruction of an attention layer -/
  words : Megakernel.Inst → ℕ

/-- `Probe`, the cases `compile_inner` records. -/
inductive Probe
  | embed
  | postMixer (layer : ℕ)
  | postFfn (layer : ℕ)
  | finalNorm
deriving DecidableEq, Repr

/-- The instructions of a `MegakernelProgram` and every index into them that it keeps. -/
structure Recorded extends Program where
  embeddingInstIdx : ℕ
  mropeInstIndices : List ℕ
  gqaAttnInstIndices : List ℕ
  kvWriteIndices : List (List (ℕ × ℕ))
  attnPagedInstIndices : List ℕ
  attnQuantInstIndices : List ℕ
  multiGpuAttnBoundaries : List (ℕ × ℕ)
  traceProbeMap : List (ℕ × Probe)

/-- Append opaque instructions. -/
def Recorded.push (prog : Recorded) (code : List ℕ) : Recorded :=
  { prog with instructions := prog.instructions ++ code.map .other }

/-- `trace_probe_map.push((instructions.len() - 1, probe))` -/
def Recorded.probe (prog : Recorded) (probe : Probe) : Recorded :=
  { prog with traceProbeMap := prog.traceProbeMap ++ [(prog.instructions.length - 1, probe)] }

section Compile

variable (m : P2pModel)

/-- The vectors handed to `compile_attention_layer_paged`, which reads no more of the program so
far than its length. -/
def Recorded.emitted (prog : Recorded) : Emitted where
  instructions := List.replicate prog.instructions.length (.other 0)
  mropeIndices := prog.mropeInstIndices
  kvWriteIndices := prog.kvWriteIndices
  attnPagedIndices := prog.attnPagedInstIndices
  attnQuantIndices := prog.attnQuantInstIndices

/-- `compile_attention_layer_paged` -/
def compileAttentionLayerPaged (attnLayerCount : ℕ) (prog : Recorded) : Recorded :=
  let e := emitAttentionLayer m.cfg attnLayerCount .act 1 (.pagedKv attnLayerCount) prog.emitted
  { prog with
    instructions := prog.instructions ++
      (e.instructions.drop prog.instructions.length).map fun i => .other (m.words i)
    mropeInstIndices := e.mropeIndices
    kvWriteIndices := e.kvWriteIndices
    attnPagedInstIndices := e.attnPagedIndices
    attnQuantInstIndices := e.attnQuantIndices }

/-- The match on `layer_type`, with `attn_layer_count`. -/
def compileMixer (layerI : ℕ) (st : Recorded × ℕ) : Mixer → Recorded × ℕ
  | .attention =>
      ((compileAttentionLayerPaged m st.2 st.1).probe (.postMixer layerI), st.2 + 1)
  | .recurrent code => ((st.1.push code).probe (.postMixer layerI), st.2)
  | .moeFfn => st

/-- The match on `ffn_type`, for several GPUs. -/
def compileFfnMultiGpu (layerI : ℕ) (prog : Recorded) : Ffn → Recorded
  | .dense code => (prog.push code).probe (.postFfn layerI)
  | .moe moe =>
      let (instructions, barrierInstIdx) := compileMoeFfnMultiGpu m.cfg.hiddenSize layerI moe
        prog.instructions (!moe.fc2LatentProj)
      { prog with
        instructions := instructions
        barrierLayerMap := prog.barrierLayerMap ++ [(barrierInstIdx, layerI)] }
  | .none => prog

/-- The body of the layer loop. -/
def recordLayer (st : Recorded × ℕ) (entry : P2pLayer × ℕ) : Recorded × ℕ :=
  let st := compileMixer m entry.2 st entry.1.mixer
  (compileFfnMultiGpu m entry.2 st.1 entry.1.ffn, st.2)

/-- The embedding, with its probe. -/
def recordEmbedding : Recorded :=
  { instructions := [.other m.embedding], barrierLayerMap := [], moeActD2dIndices := [],
    moePostSeqIndices := [], embeddingInstIdx := 0, mropeInstIndices := [],
    gqaAttnInstIndices := [], kvWriteIndices := [], attnPagedInstIndices := [],
    attnQuantInstIndices := [], multiGpuAttnBoundaries := [], traceProbeMap := [(0, .embed)] }

/-- The layer loop. -/
def recordLayers : Recorded × ℕ := m.layers.zipIdx.foldl (recordLayer m) (recordEmbedding m, 0)

/-- `compile_inner(model, true, true)` -/
def compileRecorded : Recorded :=
  let prog := ((recordLayers m).1.push [m.finalCopy, m.finalNorm]).probe .finalNorm
  prog.push [m.lmHead, m.halt]

end Compile

/-! ### Without the indices -/

section Erase

variable (m : P2pModel)

/-- The code of an attention layer. -/
def attentionCode (count : ℕ) : List ℕ :=
  (decodeLayer m.cfg count count (layerCopies m.cfg fun _ => (0, 0)) .none).map m.words

/-- The code of a mixer, after `count` attention layers. -/
def Mixer.code (count : ℕ) : Mixer → List ℕ
  | .attention => attentionCode m count
  | .recurrent code => code
  | .moeFfn => []

/-- The code of an FFN that is no MoE. -/
def Ffn.code : Ffn → List ℕ
  | .dense code => code
  | _ => []

/-- The MoE layer an FFN is, if it is one. -/
def Ffn.asMoe : Ffn → Option MoeLayer
  | .moe layer => some layer
  | _ => Option.none

/-- A layer without what the recording needs, after `count` attention layers. -/
def P2pLayer.erase (count : ℕ) (l : P2pLayer) : Layer :=
  ⟨l.mixer.code m count ++ l.ffn.code, l.ffn.asMoe⟩

/-- `attn_layer_count` after a layer. -/
def P2pLayer.countAfter (count : ℕ) (l : P2pLayer) : ℕ :=
  match l.mixer with
  | .attention => count + 1
  | _ => count

/-- The layers without what the recording needs. -/
def eraseLayers : ℕ → List P2pLayer → List Layer
  | _, [] => []
  | count, l :: ls => l.erase m count :: eraseLayers (l.countAfter count) ls

/-- The model without what the recording needs. -/
def P2pModel.toModel : Model where
  hiddenSize := m.cfg.hiddenSize
  hiddenSize_pos := m.hiddenSize_pos
  embedding := [m.embedding]
  layers := eraseLayers m 0 m.layers
  lmHead := [m.finalCopy, m.finalNorm, m.lmHead, m.halt]

end Erase

/-! ### The second pass -/

/-- The variables of the loop of the second pass. -/
structure Pass2Walk where
  newInstructions : List Inst
  insertedBefore : List ℕ
  postSeqIndices : List ℕ

section Pass2Recorded

variable (p2p : P2pConfig) (m : Model) (st : Pass1) (barrierMap : List (ℕ × ℕ))

/-- The body of the loop of the second pass. -/
def pass2Step (w : Pass2Walk) (entry : Inst × ℕ) : Pass2Walk :=
  let new := w.newInstructions ++ insertBefore m barrierMap entry.2
  let insertedBefore := w.insertedBefore ++ [new.length - entry.2]
  let new := new ++ [entry.1]
  let postSeqIndices := if p2p.optionC && (barrierAt m barrierMap entry.2).isSome then
    w.postSeqIndices ++ [new.length] else w.postSeqIndices
  ⟨new ++ insertAfter p2p m st barrierMap entry.2, insertedBefore, postSeqIndices⟩

/-- The loop of the second pass. -/
def pass2Walk : Pass2Walk :=
  st.instructions.zipIdx.foldl (pass2Step p2p m st barrierMap) ⟨[], [], []⟩

/-- `inserted_before`, with its last entry. -/
def insertedBefore : List ℕ :=
  (pass2Walk p2p m st barrierMap).insertedBefore ++
    [(pass2Walk p2p m st barrierMap).newInstructions.length - st.instructions.length]

/-- `idx + inserted_before[idx]` -/
def shift (idx : ℕ) : ℕ := idx + (insertedBefore p2p m st barrierMap).getD idx 0

/-- The second pass on the indices: the vectors that are not named stay as they are. -/
def pass2Recorded (prog : Recorded) : Recorded :=
  let shift := shift p2p m st barrierMap
  { prog with
    instructions := (pass2Walk p2p m st barrierMap).newInstructions
    moePostSeqIndices := (pass2Walk p2p m st barrierMap).postSeqIndices
    multiGpuAttnBoundaries := prog.multiGpuAttnBoundaries.map fun e => (shift e.1, shift e.2)
    barrierLayerMap := prog.barrierLayerMap.map fun e => (shift e.1, e.2)
    embeddingInstIdx := shift prog.embeddingInstIdx
    gqaAttnInstIndices := prog.gqaAttnInstIndices.map shift
    kvWriteIndices := prog.kvWriteIndices.map fun layer =>
      layer.map fun e => (shift e.1, shift e.2)
    attnPagedInstIndices := prog.attnPagedInstIndices.map shift
    attnQuantInstIndices := prog.attnQuantInstIndices.map shift
    moeActD2dIndices := st.moeActD2dIndices.map fun e => (shift e.1, e.2) }

end Pass2Recorded

/-- The state after the first pass. -/
def P2pModel.staged (p2p : P2pConfig) (m : P2pModel) : Pass1 :=
  pass1 p2p m.toModel (compileRecorded m).toProgram

/-- `compile_inner_p2p` -/
def P2pModel.compileInnerP2p (p2p : P2pConfig) (m : P2pModel) : Recorded :=
  pass2Recorded p2p m.toModel (m.staged p2p) (compileRecorded m).barrierLayerMap
    (compileRecorded m)

/-! ### The recorded program is the program -/

section ToProgram

variable {m : P2pModel}

lemma drop_emitted (count : ℕ) (prog : Recorded) :
    (emitAttentionLayer m.cfg count .act 1 (.pagedKv count) prog.emitted).instructions.drop
      prog.instructions.length =
        decodeLayer m.cfg count count (layerCopies m.cfg fun _ => (0, 0)) .none := by
  rw [emitAttentionLayer_decode]
  exact List.drop_left' (List.length_replicate ..)

/-- A mixer appends its code. -/
lemma toProgram_compileMixer (prog : Recorded) (count i : ℕ) (mixer : Mixer) :
    (compileMixer m i (prog, count) mixer).1.toProgram = { prog.toProgram with
      instructions := prog.instructions ++ (mixer.code m count).map .other } := by
  cases mixer with
  | attention =>
      simp only [compileMixer, Recorded.probe, compileAttentionLayerPaged, drop_emitted, Mixer.code,
        attentionCode, List.map_map]
      rfl
  | recurrent code => rfl
  | moeFfn => simp [compileMixer, Mixer.code]

/-- One layer of the recording compiler is one layer of the compiler. -/
lemma toProgram_recordLayer (prog : Recorded) (count i : ℕ) (l : P2pLayer) :
    (recordLayer m (prog, count) (l, i)).1.toProgram =
      compileLayer m.cfg.hiddenSize prog.toProgram (i, l.erase m count) := by
  have hmixer := toProgram_compileMixer (m := m) prog count i l.mixer
  simp only [recordLayer, P2pLayer.erase]
  generalize (compileMixer m i (prog, count) l.mixer).1 = prog' at hmixer
  cases l.ffn with
  | dense code =>
      simp [compileFfnMultiGpu, Recorded.push, Recorded.probe, hmixer, compileLayer, Ffn.code,
        Ffn.asMoe]
  | moe moe => simp [compileFfnMultiGpu, hmixer, compileLayer, Ffn.code, Ffn.asMoe]
  | none => simp [compileFfnMultiGpu, hmixer, compileLayer, Ffn.code, Ffn.asMoe]

lemma count_recordLayer (prog : Recorded) (count i : ℕ) (l : P2pLayer) :
    (recordLayer m (prog, count) (l, i)).2 = l.countAfter count := by
  obtain ⟨mixer, ffn⟩ := l
  cases mixer <;> rfl

lemma toProgram_foldl_recordLayer (ls : List P2pLayer) (prog : Recorded) (count i : ℕ) :
    ((ls.zipIdx i).foldl (recordLayer m) (prog, count)).1.toProgram =
      (((eraseLayers m count ls).zipIdx i).map fun e => (e.2, e.1)).foldl
        (compileLayer m.cfg.hiddenSize) prog.toProgram := by
  induction ls generalizing prog count i with
  | nil => rfl
  | cons l ls ih =>
      have hstep : recordLayer m (prog, count) (l, i) =
          ((recordLayer m (prog, count) (l, i)).1, l.countAfter count) := by
        rw [← count_recordLayer prog count i l]
      rw [List.zipIdx_cons, List.foldl_cons, hstep, ih, toProgram_recordLayer, eraseLayers,
        List.zipIdx_cons, List.map_cons, List.foldl_cons]

variable (m) in
/-- **Without its indices the recording compiler is the compiler.** -/
theorem toProgram_compileRecorded : (compileRecorded m).toProgram = compileInner m.toModel := by
  have hlayers : (recordLayers m).1.toProgram = m.toModel.enumerated.foldl
      (compileLayer m.cfg.hiddenSize) (recordEmbedding m).toProgram :=
    toProgram_foldl_recordLayer m.layers (recordEmbedding m) 0 0
  have hcompile : (compileRecorded m).toProgram = { (recordLayers m).1.toProgram with
      instructions := (recordLayers m).1.instructions ++
        [.other m.finalCopy, .other m.finalNorm, .other m.lmHead, .other m.halt] } := by
    simp [compileRecorded, Recorded.push, Recorded.probe]
  rw [hcompile, hlayers]
  rfl

end ToProgram

/-! ### Recorded indices are in range -/

section Bounded

/-- The indices that an attention layer records are below `n`. -/
structure EmittedBelow (n : ℕ) (e : Emitted) : Prop where
  mrope : ∀ i ∈ e.mropeIndices, i < n
  kvWrite : ∀ layer ∈ e.kvWriteIndices, ∀ k ∈ layer, k.1 < n ∧ k.2 < n
  attnPaged : ∀ i ∈ e.attnPagedIndices, i < n
  attnQuant : ∀ i ∈ e.attnQuantIndices, i < n

variable {n n' : ℕ} {e : Emitted} (cfg : AttnConfig)

lemma EmittedBelow.mono (h : EmittedBelow n e) (hn : n ≤ n') : EmittedBelow n' e where
  mrope i hi := (h.mrope i hi).trans_le hn
  kvWrite layer hl k hk :=
    ⟨(h.kvWrite layer hl k hk).1.trans_le hn, (h.kvWrite layer hl k hk).2.trans_le hn⟩
  attnPaged i hi := (h.attnPaged i hi).trans_le hn
  attnQuant i hi := (h.attnQuant i hi).trans_le hn

lemma EmittedBelow.push (h : EmittedBelow e.instructions.length e) (is : List Megakernel.Inst) :
    EmittedBelow (e.push is).instructions.length (e.push is) := by
  have hlen : e.instructions.length ≤ (e.push is).instructions.length := by simp [Emitted.push]
  exact ⟨(h.mono hlen).mrope, (h.mono hlen).kvWrite, (h.mono hlen).attnPaged,
    (h.mono hlen).attnQuant⟩

/-- The loop over the KV heads. -/
lemma EmittedBelow.foldl_kvCopy (hs : List ℕ) (acc : Emitted × List (ℕ × ℕ))
    (h : EmittedBelow acc.1.instructions.length acc.1)
    (hacc : ∀ k ∈ acc.2, k.1 < acc.1.instructions.length ∧ k.2 < acc.1.instructions.length) :
    let acc' := hs.foldl (emitKvCopy cfg .act) acc
    EmittedBelow acc'.1.instructions.length acc'.1 ∧
      ∀ k ∈ acc'.2, k.1 < acc'.1.instructions.length ∧ k.2 < acc'.1.instructions.length := by
  induction hs generalizing acc with
  | nil => exact ⟨h, hacc⟩
  | cons head hs ih =>
      refine ih (emitKvCopy cfg .act acc head) ((h.push _).push _) ?_
      intro k hk
      simp only [emitKvCopy, Emitted.push, List.length_append, List.length_singleton] at hk ⊢
      rcases List.mem_append.mp hk with hk | hk
      · have := hacc k hk
        omega
      · rw [List.mem_singleton.mp hk]
        omega

lemma EmittedBelow.kvWrites (h : EmittedBelow e.instructions.length e) :
    EmittedBelow (emitKvWrites cfg .act e).instructions.length (emitKvWrites cfg .act e) := by
  obtain ⟨hfold, hacc⟩ := EmittedBelow.foldl_kvCopy cfg (List.range cfg.numKvHeads)
    (e, []) h (fun k hk => nomatch hk)
  refine ⟨hfold.mrope, ?_, hfold.attnPaged, hfold.attnQuant⟩
  intro layer hl
  rcases List.mem_append.mp hl with hl | hl
  · exact hfold.kvWrite layer hl
  · rw [List.mem_singleton.mp hl]
    exact hacc

lemma EmittedBelow.variant (h : EmittedBelow e.instructions.length e) (layer count : ℕ) :
    let e' := emitVariant cfg layer .act 1 (.pagedKv count) e
    EmittedBelow e'.instructions.length e' := by
  have hlen : (emitVariant cfg layer .act 1 (.pagedKv count) e).instructions.length =
      e.instructions.length + 3 := by
    simp [emitVariant, Emitted.push]
  have hmono := h.mono (Nat.le_add_right _ 3)
  dsimp only
  rw [hlen]
  refine ⟨?_, hmono.kvWrite, ?_, ?_⟩
  · intro i hi
    rcases List.mem_append.mp hi with hi | hi
    · exact hmono.mrope i hi
    · rw [List.mem_singleton.mp hi]
      omega
  · intro i hi
    rcases List.mem_append.mp hi with hi | hi
    · exact hmono.attnPaged i hi
    · rw [List.mem_singleton.mp hi]
      simp [Emitted.push]
  · intro i hi
    rcases List.mem_append.mp hi with hi | hi
    · exact hmono.attnQuant i hi
    · rw [List.mem_singleton.mp hi]
      simp [Emitted.push]

/-- The indices of an attention layer are in range. -/
lemma EmittedBelow.attentionLayer (h : EmittedBelow e.instructions.length e)
    (layer count : ℕ) :
    let e' := emitAttentionLayer cfg layer .act 1 (.pagedKv count) e
    EmittedBelow e'.instructions.length e' := by
  have hproj := h.push (projections cfg layer .act 1)
  have hkv := (hproj.kvWrites cfg).push (qkNormInsts cfg layer .act 1)
  exact (hkv.variant cfg layer count).push (outputInsts cfg layer .act 1)

/-- Every index that the program keeps is below `n`; the two vectors of the other attention
compiler are empty. -/
structure Recorded.Below (n : ℕ) (prog : Recorded) : Prop where
  embedding : prog.embeddingInstIdx < n
  attention : EmittedBelow n prog.emitted
  gqaAttn : prog.gqaAttnInstIndices = []
  attnBoundaries : prog.multiGpuAttnBoundaries = []
  barriers : ∀ e ∈ prog.barrierLayerMap, e.1 < n
  probes : ∀ e ∈ prog.traceProbeMap, e.1 < n

variable {m : P2pModel} {prog : Recorded}

lemma Recorded.Below.mono (h : prog.Below n) (hn : n ≤ n') : prog.Below n' where
  embedding := h.embedding.trans_le hn
  attention := h.attention.mono hn
  gqaAttn := h.gqaAttn
  attnBoundaries := h.attnBoundaries
  barriers e he := (h.barriers e he).trans_le hn
  probes e he := (h.probes e he).trans_le hn

/-- All indices of the program are in range. -/
def Recorded.InRange (prog : Recorded) : Prop := prog.Below prog.instructions.length

lemma Recorded.InRange.push (h : prog.InRange) (code : List ℕ) : (prog.push code).InRange := by
  have hlen : prog.instructions.length ≤ (prog.push code).instructions.length := by
    simp [Recorded.push]
  have hbelow := h.mono hlen
  exact ⟨hbelow.embedding, ⟨hbelow.attention.mrope, hbelow.attention.kvWrite,
    hbelow.attention.attnPaged, hbelow.attention.attnQuant⟩, hbelow.gqaAttn,
    hbelow.attnBoundaries, hbelow.barriers, hbelow.probes⟩

/-- A probe marks the last instruction so far. -/
lemma Recorded.InRange.probe (h : prog.InRange) (probe : Probe) : (prog.probe probe).InRange := by
  refine ⟨h.embedding, h.attention, h.gqaAttn, h.attnBoundaries, h.barriers, ?_⟩
  intro e he
  rcases List.mem_append.mp he with he | he
  · exact h.probes e he
  · rw [List.mem_singleton.mp he]
    -- the embedding is always there, so the program is not empty
    have := h.embedding
    simp only [Recorded.probe]
    omega

lemma Recorded.InRange.attentionLayer (h : prog.InRange) (count : ℕ) :
    (compileAttentionLayerPaged m count prog).InRange := by
  have hemit : EmittedBelow prog.emitted.instructions.length prog.emitted := by
    have hlen : prog.emitted.instructions.length = prog.instructions.length :=
      List.length_replicate ..
    rw [hlen]
    exact h.attention
  have hattn := hemit.attentionLayer m.cfg count count
  have hlen : (emitAttentionLayer m.cfg count .act 1 (.pagedKv count)
      prog.emitted).instructions.length =
        (compileAttentionLayerPaged m count prog).instructions.length := by
    simp only [compileAttentionLayerPaged, List.length_append, List.length_map, List.length_drop,
      emitAttentionLayer_decode, Recorded.emitted, List.length_replicate]
    omega
  dsimp only at hattn
  rw [hlen] at hattn
  have hle : prog.instructions.length ≤
      (compileAttentionLayerPaged m count prog).instructions.length := by
    simp [compileAttentionLayerPaged]
  have hbelow := h.mono hle
  exact ⟨hbelow.embedding, ⟨hattn.mrope, hattn.kvWrite, hattn.attnPaged, hattn.attnQuant⟩,
    hbelow.gqaAttn, hbelow.attnBoundaries, hbelow.barriers, hbelow.probes⟩

lemma Recorded.InRange.mixer (h : prog.InRange) (count i : ℕ) (mixer : Mixer) :
    (compileMixer m i (prog, count) mixer).1.InRange := by
  cases mixer with
  | attention => exact (h.attentionLayer count).probe _
  | recurrent code => exact (h.push code).probe _
  | moeFfn => exact h

lemma Recorded.InRange.ffn (h : prog.InRange) (i : ℕ) (ffn : Ffn) :
    (compileFfnMultiGpu m i prog ffn).InRange := by
  cases ffn with
  | dense code => exact (h.push code).probe _
  | moe moe =>
      have hbarrier : (prog.instructions ++ multiGpuPre m.cfg.hiddenSize i moe).length =
          prog.instructions.length + 7 := by
        simp [multiGpuPre]
      have hlen : prog.instructions.length + 7 <
          (compileMoeFfnMultiGpu m.cfg.hiddenSize i moe prog.instructions
            (!moe.fc2LatentProj)).1.length := by
        cases hfc2 : moe.fc2LatentProj
        · simp [compileMoeFfnMultiGpu, multiGpuPre]
        · simp [compileMoeFfnMultiGpu, multiGpuPre]
      have hbelow : prog.Below (compileFfnMultiGpu m i prog (.moe moe)).instructions.length :=
        h.mono (by dsimp only [compileFfnMultiGpu]; omega)
      refine ⟨hbelow.embedding, ⟨hbelow.attention.mrope, hbelow.attention.kvWrite,
        hbelow.attention.attnPaged, hbelow.attention.attnQuant⟩, hbelow.gqaAttn,
        hbelow.attnBoundaries, ?_, hbelow.probes⟩
      intro e he
      rcases List.mem_append.mp he with he | he
      · exact hbelow.barriers e he
      · rw [List.mem_singleton.mp he, hbarrier]
        exact hlen
  | none => exact h

/-- **The indices recorded in the layer loop are in range.** -/
lemma inRange_foldl_recordLayer (entries : List (P2pLayer × ℕ)) (st : Recorded × ℕ)
    (h : st.1.InRange) : (entries.foldl (recordLayer m) st).1.InRange := by
  induction entries generalizing st with
  | nil => exact h
  | cons entry entries ih => exact ih _ ((h.mixer st.2 entry.2 entry.1.mixer).ffn _ _)

variable (m) in
lemma inRange_recordLayers : (recordLayers m).1.InRange := by
  refine inRange_foldl_recordLayer _ _ ⟨Nat.one_pos, ⟨?_, ?_, ?_, ?_⟩, rfl, rfl, ?_, ?_⟩
  all_goals simp [recordEmbedding, Recorded.emitted]

variable (m) in
lemma inRange_compileRecorded : (compileRecorded m).InRange :=
  (((inRange_recordLayers m).push _).probe _).push _

end Bounded

/-! ### Shifted indices -/

section Shift

variable (p2p : P2pConfig) (m : Model) (st : Pass1) (map : List (ℕ × ℕ))

/-- The place of the copy of the instruction `i` after the second pass. -/
def copyPlace (i : ℕ) : ℕ :=
  splicedAt (insertBefore m map) (insertAfter p2p m st map) 0 st.instructions i

/-- What the loop of the second pass has done after the instructions `l`, the first of which has
index `i`. -/
lemma foldl_pass2Step (l : List Inst) (i : ℕ) (w : Pass2Walk) :
    let pre := insertBefore m map
    let post := insertAfter p2p m st map
    let w' := (l.zipIdx i).foldl (pass2Step p2p m st map) w
    w'.newInstructions = w.newInstructions ++ splice pre post i l ∧
      w'.insertedBefore = w.insertedBefore ++ (List.range l.length).map (fun n =>
        w.newInstructions.length + splicedAt pre post i l n - (i + n)) ∧
      ∀ p ∈ w'.postSeqIndices, p ∈ w.postSeqIndices ∨
        ∃ n < l.length, (barrierAt m map (i + n)).isSome ∧
          p = w.newInstructions.length + splicedAt pre post i l n + 1 := by
  intro pre post
  induction l generalizing i w with
  | nil => exact ⟨by simp [splice], by simp, fun p hp => .inl hp⟩
  | cons a l ih =>
      obtain ⟨hnew, hins, hpost⟩ := ih (i + 1) (pass2Step p2p m st map w (a, i))
      have hlen : (pass2Step p2p m st map w (a, i)).newInstructions.length =
          w.newInstructions.length + ((pre i).length + 1 + (post i).length) := by
        simp only [pass2Step, List.length_append, List.length_singleton, pre, post]
        omega
      refine ⟨?_, ?_, ?_⟩
      · rw [List.zipIdx_cons, List.foldl_cons, hnew, splice]
        simp [pass2Step, pre, post]
      · rw [List.zipIdx_cons, List.foldl_cons, hins, List.length_cons, List.range_succ_eq_map,
          List.map_cons, List.map_map, hlen]
        simp only [pass2Step, List.append_assoc, List.singleton_append, List.length_append,
          splicedAt, Nat.add_zero]
        refine congrArg₂ (fun x xs => w.insertedBefore ++ x :: xs) rfl ?_
        refine List.map_congr_left fun n _ => ?_
        simp only [Function.comp_apply, Nat.succ_eq_add_one, splicedAt]
        omega
      · intro p hp
        rw [List.zipIdx_cons, List.foldl_cons] at hp
        rcases hpost p hp with hp | ⟨n, hn, hat, rfl⟩
        · simp only [pass2Step] at hp
          split_ifs at hp with hbar
          · rcases List.mem_append.mp hp with hp | hp
            · exact .inl hp
            · refine .inr ⟨0, Nat.succ_pos _, ?_, ?_⟩
              · rw [Bool.and_eq_true] at hbar
                exact hbar.2
              · rw [List.mem_singleton.mp hp]
                simp [splicedAt, pre, Nat.add_assoc]
          · exact .inl hp
        · refine .inr ⟨n + 1, Nat.succ_lt_succ hn, ?_, ?_⟩
          · rwa [show i + (n + 1) = i + 1 + n by omega]
          · rw [hlen, splicedAt]
            omega

lemma newInstructions_pass2Walk : (pass2Walk p2p m st map).newInstructions =
    splice (insertBefore m map) (insertAfter p2p m st map) 0 st.instructions := by
  obtain ⟨hnew, -, -⟩ := foldl_pass2Step p2p m st map st.instructions 0 ⟨[], [], []⟩
  rw [pass2Walk, hnew, List.nil_append]

/-- **An index shifted by `inserted_before` is the place of the copy.** -/
lemma shift_eq {i : ℕ} (hi : i < st.instructions.length) :
    shift p2p m st map i = copyPlace p2p m st map i := by
  obtain ⟨-, hins, -⟩ := foldl_pass2Step p2p m st map st.instructions 0 ⟨[], [], []⟩
  have hle : i ≤ copyPlace p2p m st map i := le_splicedAt ..
  have hget : (insertedBefore p2p m st map).getD i 0 = copyPlace p2p m st map i - i := by
    rw [insertedBefore, pass2Walk, hins, List.nil_append,
      List.getD_append _ _ _ _ (by simpa using hi), List.getD_eq_getElem?_getD, List.getElem?_map,
      List.getElem?_range hi]
    simp [copyPlace]
  rw [shift, hget]
  omega

/-- The indices recorded for `OP_MOE_DISPATCH_POST` are the places behind barriers. -/
lemma mem_postSeqIndices {p : ℕ} (hp : p ∈ (pass2Walk p2p m st map).postSeqIndices) :
    ∃ i < st.instructions.length, (barrierAt m map i).isSome ∧
      p = copyPlace p2p m st map i + 1 := by
  obtain ⟨-, -, hpost⟩ := foldl_pass2Step p2p m st map st.instructions 0 ⟨[], [], []⟩
  rcases hpost p hp with hp | ⟨i, hi, hat, hpi⟩
  · cases hp
  · rw [Nat.zero_add] at hat
    refine ⟨i, hi, hat, ?_⟩
    rw [hpi, List.length_nil, Nat.zero_add]
    rfl

end Shift

/-! ### Every index denotes the copy of its instruction -/

section Reindexed

variable (p2p : P2pConfig) (m : P2pModel)

/-- The index `i'` into the program denotes the copy of the instruction that the index `i` denoted
before the second pass. -/
structure P2pModel.Denotes (i i' : ℕ) : Prop where
  inRange : i < (m.staged p2p).instructions.length
  place : i' = copyPlace p2p m.toModel (m.staged p2p) (compileRecorded m).barrierLayerMap i
  same : (m.compileInnerP2p p2p).instructions[i']? = (m.staged p2p).instructions[i]?

/-- Around a recorded copy of the routing weights stand the staging copies of its layer. -/
def P2pModel.StagedAt (e : ℕ × ℕ) : Prop :=
  ∃ moe before behind, m.toModel.moeWeights e.2 = some moe ∧
    (m.compileInnerP2p p2p).instructions =
      before ++ stagedPre m.toModel e.2 moe ++ behind ∧ e.1 = before.length + 6 ∧
    (m.compileInnerP2p p2p).instructions[e.1]? =
      some (.d2dCopy (routingWeightsCopy e.2 moe true)) ∧
    (m.compileInnerP2p p2p).instructions[e.1 - 3]? =
      some (.d2dCopy (.new Buf.activationStagingVram.ptr Buf.normed.ptr m.cfg.hiddenSize)) ∧
    (m.compileInnerP2p p2p).instructions[e.1 - 1]? = some (.d2dCopy (routingIdsCopy moe))

/-- The indices that the second pass shifts. -/
structure P2pModel.Shifted : Prop where
  embedding : m.Denotes p2p (compileRecorded m).embeddingInstIdx
    (m.compileInnerP2p p2p).embeddingInstIdx
  kvWrite : List.Forall₂ (List.Forall₂ fun a b => m.Denotes p2p a.1 b.1 ∧ m.Denotes p2p a.2 b.2)
    (compileRecorded m).kvWriteIndices (m.compileInnerP2p p2p).kvWriteIndices
  attnPaged : List.Forall₂ (m.Denotes p2p) (compileRecorded m).attnPagedInstIndices
    (m.compileInnerP2p p2p).attnPagedInstIndices
  attnQuant : List.Forall₂ (m.Denotes p2p) (compileRecorded m).attnQuantInstIndices
    (m.compileInnerP2p p2p).attnQuantInstIndices
  gqaAttn : List.Forall₂ (m.Denotes p2p) (compileRecorded m).gqaAttnInstIndices
    (m.compileInnerP2p p2p).gqaAttnInstIndices
  attnBoundaries : List.Forall₂ (fun a b => m.Denotes p2p a.1 b.1 ∧ m.Denotes p2p a.2 b.2)
    (compileRecorded m).multiGpuAttnBoundaries (m.compileInnerP2p p2p).multiGpuAttnBoundaries
  barrierLayerMap : List.Forall₂ (fun a b => m.Denotes p2p a.1 b.1 ∧ a.2 = b.2)
    (compileRecorded m).barrierLayerMap (m.compileInnerP2p p2p).barrierLayerMap
  moeActD2d : List.Forall₂ (fun a b => m.Denotes p2p a.1 b.1 ∧ a.2 = b.2)
    (m.staged p2p).moeActD2dIndices (m.compileInnerP2p p2p).moeActD2dIndices
  moePostSeq : ∀ i ∈ (m.compileInnerP2p p2p).moePostSeqIndices,
    ∃ post, (m.compileInnerP2p p2p).instructions[i]? = some (.moeDispatchPost post)
  staged : ∀ e ∈ (m.compileInnerP2p p2p).moeActD2dIndices, m.StagedAt p2p e

/-- Every index that the program keeps is right after the second pass. -/
structure P2pModel.Reindexed : Prop extends m.Shifted p2p where
  mrope : List.Forall₂ (m.Denotes p2p) (compileRecorded m).mropeInstIndices
    (m.compileInnerP2p p2p).mropeInstIndices
  probes : List.Forall₂ (fun a b => m.Denotes p2p a.1 b.1 ∧ a.2 = b.2)
    (compileRecorded m).traceProbeMap (m.compileInnerP2p p2p).traceProbeMap

lemma staged_eq : m.staged p2p = pass1 p2p m.toModel (compileInner m.toModel) := by
  rw [P2pModel.staged, toProgram_compileRecorded]

lemma instructions_compileRecorded :
    (compileRecorded m).instructions = (compileInner m.toModel).instructions :=
  congrArg Program.instructions (toProgram_compileRecorded m)

lemma barrierLayerMap_compileRecorded : (compileRecorded m).barrierLayerMap =
    barrierIndices m.toModel 1 m.toModel.enumerated := by
  rw [show (compileRecorded m).barrierLayerMap = (compileInner m.toModel).barrierLayerMap from
    congrArg Program.barrierLayerMap (toProgram_compileRecorded m), compileInner_eq]
  rfl

/-- The first pass patches in place. -/
lemma length_staged :
    (m.staged p2p).instructions.length = (compileRecorded m).instructions.length := by
  rw [staged_eq, (pass1_eq p2p m.toModel).instructions, instructions_compileRecorded,
    compileInner_eq]
  simp only [List.length_append, length_flatMap_stagedFfn]

lemma instructions_compileInnerP2p : (m.compileInnerP2p p2p).instructions =
    splice (insertBefore m.toModel (compileRecorded m).barrierLayerMap)
      (insertAfter p2p m.toModel (m.staged p2p) (compileRecorded m).barrierLayerMap) 0
      (m.staged p2p).instructions :=
  newInstructions_pass2Walk ..

variable {p2p m}

variable (p2p) in
/-- A place in range denotes its copy. -/
lemma denotes_copyPlace {i : ℕ} (hi : i < (compileRecorded m).instructions.length) :
    m.Denotes p2p i
      (copyPlace p2p m.toModel (m.staged p2p) (compileRecorded m).barrierLayerMap i) := by
  rw [← length_staged p2p m] at hi
  refine ⟨hi, rfl, ?_⟩
  rw [instructions_compileInnerP2p]
  exact getElem?_splice hi

/-- **A shifted index denotes the copy.** -/
lemma denotes_shift {i : ℕ} (hi : i < (compileRecorded m).instructions.length) :
    m.Denotes p2p i
      (shift p2p m.toModel (m.staged p2p) (compileRecorded m).barrierLayerMap i) := by
  rw [shift_eq _ _ _ _ (by rw [length_staged]; exact hi)]
  exact denotes_copyPlace p2p hi

lemma forall₂_map_of_mem {α β : Type*} {R : α → β → Prop} {l : List α} {f : α → β}
    (h : ∀ a ∈ l, R a (f a)) : List.Forall₂ R l (l.map f) :=
  List.forall₂_map_right_iff.mpr (List.forall₂_same.mpr h)

/-- The indices of the routing-weights copies before the second pass. -/
lemma moeActD2dIndices_staged : (m.staged p2p).moeActD2dIndices =
    indicesFrom (rawFfn m.toModel) signalOff 1 m.toModel.enumerated := by
  rw [staged_eq, (pass1_eq p2p m.toModel).moeActD2dIndices]
  rfl

lemma signalOff_eq_some {moe : MoeLayer} {k : ℕ} (h : signalOff moe = some k) :
    moe.fc1LatentProj = false ∧ k = 6 := by
  rw [signalOff] at h
  split_ifs at h with hfc1
  exact ⟨by simpa using hfc1, (Option.some.inj h).symm⟩

lemma lt_of_mem_moeActD2dIndices {e : ℕ × ℕ} (he : e ∈ (m.staged p2p).moeActD2dIndices) :
    e.1 < (compileRecorded m).instructions.length := by
  rw [moeActD2dIndices_staged] at he
  obtain ⟨e', -, moe, k, before, behind, -, hoff, rfl, heq⟩ := mem_indicesFrom he
  obtain ⟨-, rfl⟩ := signalOff_eq_some hoff
  have hlen := congrArg List.length heq
  have hraw := length_rawFfn (m := m.toModel) e'.1 moe
  rw [instructions_compileRecorded, compileInner_eq]
  simp only [List.length_append, List.length_map, P2pModel.toModel, List.length_singleton] at hlen ⊢
  simp only [P2pModel.toModel] at hraw
  omega

variable (p2p m) in
/-- The recording compiler and the compiler agree on the copies of the routing weights. -/
lemma moeActD2dIndices_compileInnerP2p : (m.compileInnerP2p p2p).moeActD2dIndices =
    (Moe.compileInnerP2p p2p m.toModel).1.moeActD2dIndices := by
  have hshift : ∀ e ∈ (m.staged p2p).moeActD2dIndices,
      (shift p2p m.toModel (m.staged p2p) (compileRecorded m).barrierLayerMap e.1, e.2) =
      (copyPlace p2p m.toModel (m.staged p2p) (compileRecorded m).barrierLayerMap e.1, e.2) := by
    intro e he
    have hlt := lt_of_mem_moeActD2dIndices he
    rw [shift_eq _ _ _ _ (by rw [length_staged]; exact hlt)]
  have hmap := List.map_congr_left hshift
  have hbar : (compileRecorded m).barrierLayerMap = (compileInner m.toModel).barrierLayerMap :=
    congrArg Program.barrierLayerMap (toProgram_compileRecorded m)
  rw [staged_eq, hbar] at hmap
  rw [P2pModel.compileInnerP2p, staged_eq, hbar]
  exact hmap

variable (p2p m) in
lemma instructions_eq : (m.compileInnerP2p p2p).instructions =
    (Moe.compileInnerP2p p2p m.toModel).1.instructions := by
  have hbar : (compileRecorded m).barrierLayerMap = (compileInner m.toModel).barrierLayerMap :=
    congrArg Program.barrierLayerMap (toProgram_compileRecorded m)
  rw [instructions_compileInnerP2p, staged_eq, hbar]
  rfl

/-- **The staging copies of a layer stand together.** -/
lemma stagedAt {e : ℕ × ℕ} (he : e ∈ (m.compileInnerP2p p2p).moeActD2dIndices) :
    m.StagedAt p2p e := by
  rw [moeActD2dIndices_compileInnerP2p, compileInnerP2p_eq] at he
  obtain ⟨e', he', moe, k, before, behind, hmoe, hoff, rfl, heq⟩ := mem_indicesFrom he
  obtain ⟨hfc1, rfl⟩ := signalOff_eq_some hoff
  have hweights : m.toModel.moeWeights e'.1 = some moe :=
    (m.toModel.holds_enumerated e' he').trans hmoe
  have hinsts : (m.compileInnerP2p p2p).instructions =
      (m.toModel.embedding.map .other ++ before) ++ stagedPre m.toModel e'.1 moe ++
        (latentStage moe ++ [.d2dCopy (zeroSlotCopy moe)] ++
          .moeDispatchPost (postInst p2p m.toModel e'.1 moe p2p.optionC) ::
            p2pTail m.toModel e'.1 moe ++ behind ++ m.toModel.lmHead.map .other) := by
    rw [instructions_eq, compileInnerP2p_eq, heq]
    simp [p2pFfn, p2pHead]
  have hlen : m.toModel.embedding.length + before.length =
      (m.toModel.embedding.map Inst.other ++ before).length := by
    rw [List.length_append, List.length_map]
  have hget : ∀ k < 7, (m.compileInnerP2p p2p).instructions[m.toModel.embedding.length +
      before.length + k]? = (stagedPre m.toModel e'.1 moe)[k]? := by
    intro k hk
    have hpre : k < (stagedPre m.toModel e'.1 moe).length := hk
    rw [hinsts, hlen, List.append_assoc, List.getElem?_append_right (Nat.le_add_right _ _),
      Nat.add_sub_cancel_left, List.getElem?_append_left hpre]
  refine ⟨moe, m.toModel.embedding.map .other ++ before, _, hweights, hinsts, ?_, ?_, ?_, ?_⟩
  · dsimp only
    rw [hlen]
  · rw [hget 6 (by omega)]
    simp [stagedPre, hfc1]
  · dsimp only
    rw [show m.toModel.embedding.length + before.length + 6 - 3 =
      m.toModel.embedding.length + before.length + 3 by omega, hget 3 (by omega)]
    simp [stagedPre, stageActivation, hfc1, P2pModel.toModel]
  · dsimp only
    rw [show m.toModel.embedding.length + before.length + 6 - 1 =
      m.toModel.embedding.length + before.length + 5 by omega, hget 5 (by omega)]
    simp [stagedPre]

/-- Behind the copy of a barrier's place stands the sum step. -/
lemma exists_moeDispatchPost {i : ℕ} (hi : i ∈ (m.compileInnerP2p p2p).moePostSeqIndices) :
    ∃ post, (m.compileInnerP2p p2p).instructions[i]? = some (.moeDispatchPost post) := by
  obtain ⟨n, hn, hat, rfl⟩ := mem_postSeqIndices _ _ _ _ hi
  obtain ⟨⟨li, moe⟩, hbar⟩ := Option.isSome_iff_exists.mp hat
  refine ⟨postInst p2p m.toModel li moe ((m.staged p2p).resultDescs li), ?_⟩
  have hpost : insertAfter p2p m.toModel (m.staged p2p) (compileRecorded m).barrierLayerMap
      (0 + n) = .moeDispatchPost (postInst p2p m.toModel li moe ((m.staged p2p).resultDescs li)) ::
        latentPost m.toModel li moe := by
    rw [Nat.zero_add, insertAfter, hbar]
  rw [instructions_compileInnerP2p]
  exact getElem?_splice_succ hn hpost

variable (p2p m) in
/-- **The indices that the second pass shifts are right, for every model.** -/
theorem shifted : m.Shifted p2p := by
  have hrange := inRange_compileRecorded m
  refine ⟨denotes_shift hrange.embedding, ?_, ?_, ?_, ?_, ?_, ?_, ?_, ?_, fun e => stagedAt⟩
  · refine forall₂_map_of_mem fun layer hl => forall₂_map_of_mem fun k hk => ?_
    have hlt := hrange.attention.kvWrite layer hl k hk
    exact ⟨denotes_shift hlt.1, denotes_shift hlt.2⟩
  · exact forall₂_map_of_mem fun i hi => denotes_shift (hrange.attention.attnPaged i hi)
  · exact forall₂_map_of_mem fun i hi => denotes_shift (hrange.attention.attnQuant i hi)
  · refine forall₂_map_of_mem fun i hi => ?_
    rw [hrange.gqaAttn] at hi
    cases hi
  · refine forall₂_map_of_mem fun e he => ?_
    rw [hrange.attnBoundaries] at he
    cases he
  · exact forall₂_map_of_mem fun e he => ⟨denotes_shift (hrange.barriers e he), rfl⟩
  · exact forall₂_map_of_mem fun e he => ⟨denotes_shift (lt_of_mem_moeActD2dIndices he), rfl⟩
  · exact fun i => exists_moeDispatchPost

/-! ### The vectors that are not shifted -/

lemma mem_eraseLayers {ls : List P2pLayer} {count : ℕ} {layer : Layer}
    (h : layer ∈ eraseLayers m count ls) : ∃ l ∈ ls, layer.moe = l.ffn.asMoe := by
  induction ls generalizing count with
  | nil => cases h
  | cons l ls ih =>
      rcases List.mem_cons.mp h with rfl | h
      · exact ⟨l, List.mem_cons_self, rfl⟩
      · obtain ⟨l', hl', heq⟩ := ih h
        exact ⟨l', List.mem_cons_of_mem _ hl', heq⟩

lemma exists_mem_eraseLayers {ls : List P2pLayer} (count : ℕ) {l : P2pLayer} (h : l ∈ ls) :
    ∃ layer ∈ eraseLayers m count ls, layer.moe = l.ffn.asMoe := by
  induction ls generalizing count with
  | nil => cases h
  | cons l' ls ih =>
      rcases List.mem_cons.mp h with rfl | h
      · exact ⟨_, List.mem_cons_self, rfl⟩
      · obtain ⟨layer, hl, heq⟩ := ih (l'.countAfter count) h
        exact ⟨layer, List.mem_cons_of_mem _ hl, heq⟩

lemma Model.exists_mem_enumerated {m : Model} {layer : Layer} (h : layer ∈ m.layers) :
    ∃ i, (i, layer) ∈ m.enumerated := by
  obtain ⟨i, hi⟩ := List.mem_iff_getElem?.mp h
  exact ⟨i, List.mem_map.mpr ⟨(layer, i), List.mem_zipIdx_iff_getElem?.mpr hi, rfl⟩⟩

lemma Model.mem_layers_of_mem_enumerated {m : Model} {e : Entry} (h : e ∈ m.enumerated) :
    e.2 ∈ m.layers := by
  obtain ⟨⟨layer, i⟩, hmem, rfl⟩ := List.mem_map.mp h
  exact List.mem_iff_getElem?.mpr ⟨i, List.mem_zipIdx_iff_getElem?.mp hmem⟩

/-- A recorded barrier belongs to a MoE layer. -/
lemma isSome_barrierAt {e : ℕ × ℕ} (he : e ∈ (compileRecorded m).barrierLayerMap) :
    (barrierAt m.toModel (compileRecorded m).barrierLayerMap e.1).isSome := by
  have hfind : ((compileRecorded m).barrierLayerMap.find? (·.1 == e.1)).isSome :=
    List.find?_isSome.mpr ⟨e, he, by simp⟩
  obtain ⟨e', he'⟩ := Option.isSome_iff_exists.mp hfind
  have hmem := List.mem_of_find?_eq_some he'
  rw [barrierLayerMap_compileRecorded] at hmem
  obtain ⟨entry, hentry, moe, k, before, behind, hmoe, -, rfl, -⟩ := mem_indicesFrom hmem
  rw [barrierAt, he', Option.bind_some, m.toModel.holds_enumerated entry hentry, hmoe]
  rfl

/-- The instructions of the final norm stand behind the layers. -/
lemma mem_traceProbeMap : ((recordLayers m).1.instructions.length + 1, Probe.finalNorm) ∈
    (compileRecorded m).traceProbeMap := by
  simp [compileRecorded, Recorded.push, Recorded.probe]

variable (p2p) in
/-- A MoE layer moves the final norm. -/
lemma lt_copyPlace_finalNorm {l : P2pLayer} (hl : l ∈ m.layers) {moe : MoeLayer}
    (hmoe : l.ffn = .moe moe) : (recordLayers m).1.instructions.length + 1 <
      copyPlace p2p m.toModel (m.staged p2p) (compileRecorded m).barrierLayerMap
        ((recordLayers m).1.instructions.length + 1) := by
  obtain ⟨layer, hlayer, heq⟩ := exists_mem_eraseLayers (m := m) 0 hl
  obtain ⟨li, hli⟩ := Model.exists_mem_enumerated (m := m.toModel) hlayer
  have hsome : layer.moe = some moe := by rw [heq, hmoe]; rfl
  obtain ⟨i, hi⟩ : ∃ i, (i, li) ∈ barrierIndices m.toModel 1 m.toModel.enumerated :=
    exists_mem_indicesFrom hli hsome rfl
  rw [← barrierLayerMap_compileRecorded] at hi
  have hlt : i < (recordLayers m).1.instructions.length := (inRange_recordLayers m).barriers _ hi
  obtain ⟨⟨li', moe'⟩, hbar⟩ := Option.isSome_iff_exists.mp (isSome_barrierAt hi)
  refine lt_splicedAt (k := i) (by omega) ?_ ?_
  · rw [length_staged]
    simp [compileRecorded, Recorded.push, Recorded.probe]
  · rw [Nat.zero_add, insertAfter, hbar]
    exact List.cons_ne_nil _ _

/-- Without MoE layers nothing is inserted. -/
lemma copyPlace_of_not_moe (hm : ∀ l ∈ m.layers, l.ffn.asMoe = none) {i : ℕ}
    (hi : i < (compileRecorded m).instructions.length) :
    copyPlace p2p m.toModel (m.staged p2p) (compileRecorded m).barrierLayerMap i = i := by
  have hnil : (compileRecorded m).barrierLayerMap = [] := by
    rw [barrierLayerMap_compileRecorded, List.eq_nil_iff_forall_not_mem]
    intro e he
    obtain ⟨entry, hentry, moe, k, before, behind, hmoe, -⟩ := mem_indicesFrom he
    obtain ⟨l, hl, heq⟩ := mem_eraseLayers (Model.mem_layers_of_mem_enumerated hentry)
    rw [heq, hm l hl] at hmoe
    cases hmoe
  rw [← length_staged p2p m] at hi
  rw [hnil]
  refine splicedAt_of_nil (fun n _ => ?_) (fun n _ => ?_) hi
  · simp [insertBefore, barrierAt]
  · simp [insertAfter, barrierAt]

/-- With a MoE layer the probe of the final norm is wrong. -/
lemma not_reindexed {l : P2pLayer} (hl : l ∈ m.layers) {moe : MoeLayer} (hmoe : l.ffn = .moe moe) :
    ¬ m.Reindexed p2p := by
  intro h
  have hsame : ∀ e ∈ (compileRecorded m).traceProbeMap, m.Denotes p2p e.1 e.1 ∧ e.2 = e.2 :=
    List.forall₂_same.mp h.probes
  have hplace := (hsame _ mem_traceProbeMap).1.place
  exact absurd hplace (Nat.ne_of_lt (lt_copyPlace_finalNorm p2p hl hmoe))

variable (p2p m) in
/-- **Every index that the program keeps denotes the copy of its instruction exactly if the model
has no MoE layer.**  A MoE layer moves the final norm, whose probe is never shifted. -/
theorem reindexed_iff : m.Reindexed p2p ↔ ∀ l ∈ m.layers, l.ffn.asMoe = none := by
  constructor
  · intro h l hl
    cases hffn : l.ffn with
    | dense code => rfl
    | none => rfl
    | moe moe => exact absurd h (not_reindexed hl hffn)
  · intro hm
    have hrange := inRange_compileRecorded m
    have hstay : ∀ i < (compileRecorded m).instructions.length, m.Denotes p2p i i := by
      intro i hi
      have h := denotes_copyPlace p2p hi
      rwa [copyPlace_of_not_moe hm hi] at h
    refine ⟨shifted p2p m, ?_, ?_⟩
    · exact List.forall₂_same.mpr fun i hi => hstay i (hrange.attention.mrope i hi)
    · exact List.forall₂_same.mpr fun e he => ⟨hstay e.1 (hrange.probes e he), rfl⟩

end Reindexed

/-- A GDN layer with a MoE FFN, on two GPUs. -/
def gdnMoeModel : P2pModel where
  cfg := ⟨4, 1, 1, 4, 4, false, false, (1, 1, 0), 0x358637bd⟩
  hiddenSize_pos := by decide
  layers := [⟨.recurrent [20], .moe ⟨2, 1, .softmax, 4, 4, true, false, false, false, false, false,
    4⟩⟩]
  embedding := 10
  finalCopy := 11
  finalNorm := 12
  lmHead := 13
  halt := 14
  words := fun _ => 0

/-- The probe of the final norm marks the copy that stands before it. -/
theorem finalNorm_probe_stale :
    (12, Probe.finalNorm) ∈ (gdnMoeModel.compileInnerP2p ⟨1, by decide, false⟩).traceProbeMap ∧
    (gdnMoeModel.staged ⟨1, by decide, false⟩).instructions[12]? = some (.other 12) ∧
    (gdnMoeModel.compileInnerP2p ⟨1, by decide, false⟩).instructions[12]? = some (.other 11) ∧
    ¬ gdnMoeModel.Reindexed ⟨1, by decide, false⟩ := by
  refine ⟨by decide, by decide, by decide, ?_⟩
  exact not_reindexed (List.mem_cons_self ..) rfl

end Braidinfer.Moe
