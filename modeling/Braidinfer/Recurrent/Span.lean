/-
Spans of blocks without attention: prefill and decoding leave the same.

A block is a transducer of rows.  Decoding takes a token through all blocks; prefill takes a slab
through one block after the other.

* `LayerRows`, `layerRowsAt`: what the blocks keep; `layerStep`: **a block on a row**;
* `stateBlocks`: the memory that a block keeps its rows in; `effects_blocks`: blocks one after the
  other, when these are disjoint;
* `effects_decodeInsts`, `effects_prefillInsts`: what the two programs leave;
* `Decodes`, `Prefills`: a token and a slab, in any orders of blocks and threads;
* `prefill_eq_decode`: **a prompt in slabs and the same tokens one at a time leave the same states
  and the same hidden rows**.
-/
import Braidinfer.Recurrent.FfnLayer
import Braidinfer.Recurrent.Mamba2Layer

namespace Braidinfer.Recurrent

open Braidinfer.Lib RowMem Transducer
open Braidinfer.Engine (MixedPrefill.Block)

variable {V : Type*} [Add V] [Sub V] [Mul V] [Div V] [Neg V] [Zero V] [One V] [NatCast V] [LT V]
  [DecidableLT V] [FloatFns V]

set_option linter.unusedSectionVars false

/-! ### Blocks -/

/-- What a block keeps. -/
inductive LayerRows (V : Type*)
  | gdn (s : GdnRows V)
  | mamba2 (s : Mamba2Rows V)
  | none

section Step

variable (M : Matrices V) (model : Model V)

/-- What a block keeps in memory. -/
def layerRowsAt (m : Mem V) : MixedPrefill.Block → LayerRows V
  | .gdn _ idx => .gdn (gdnRowsAt model.config idx m)
  | .mamba2 _ idx => .mamba2 (mamba2RowsAt model.config idx m)
  | _ => .none

/-- **A block on a row.** -/
def layerStep : MixedPrefill.Block → Transducer (LayerRows V) (ℕ → V) (ℕ → V)
  | .gdn layer _, .gdn s, x =>
      (.gdn (gdnLayer M model.config (model.gdn layer) s x).1,
        (gdnLayer M model.config (model.gdn layer) s x).2)
  | .mamba2 layer _, .mamba2 s, x =>
      (.mamba2 (mamba2Layer M model.config (model.mamba2 layer) s x).1,
        (mamba2Layer M model.config (model.mamba2 layer) s x).2)
  | .denseFfn layer, s, x => (s, ffnRow M model.config (model.gdn layer).toFfnWeights x)
  | _, s, x => (s, x)

end Step

/-- The memory that a block keeps its rows in. -/
def stateBlocks : MixedPrefill.Block → List Block
  | .gdn _ idx => [.gdnConv idx, .gdnRecurrent idx]
  | .mamba2 _ idx => [.mamba2Conv idx, .mamba2Ssm idx]
  | _ => []

/-- Activations are not kept. -/
def IsState (block : Block) : Prop := ∀ b, block ≠ .act b ∧ block ≠ .prefill b

lemma isState_of_mem {b : MixedPrefill.Block} {block : Block} (h : block ∈ stateBlocks b) :
    IsState block := by
  cases b <;> simp only [stateBlocks, List.mem_cons, List.not_mem_nil, or_false] at h
  all_goals
    rcases h with rfl | rfl <;> exact fun _ => ⟨Block.noConfusion, Block.noConfusion⟩

section Blocks

variable {M : Matrices V} {model : Model V} {m m' : Mem V} {gridDim numBlocks n : ℕ}
  {blocks : List MixedPrefill.Block}

lemma layerRowsAt_congr {b : MixedPrefill.Block} (h : ∀ block ∈ stateBlocks b, m' block = m block) :
    layerRowsAt model m' b = layerRowsAt model m b := by
  cases b with
  | gdn layer idx =>
      exact congrArg LayerRows.gdn (gdnRowsAt_congr (h _ (by simp [stateBlocks]))
        (h _ (by simp [stateBlocks])))
  | mamba2 layer idx =>
      exact congrArg LayerRows.mamba2 (mamba2RowsAt_congr (h _ (by simp [stateBlocks]))
        (h _ (by simp [stateBlocks])))
  | _ => rfl

/-! ### Blocks one after the other -/

variable {α : Type*} {insts : MixedPrefill.Block → List (Inst V)}
  {f : MixedPrefill.Block → Transducer (LayerRows V) α α} {read : Mem V → α}

/-- Instructions of blocks leave the memory of other blocks alone. -/
def Keeps (insts : MixedPrefill.Block → List (Inst V)) : Prop :=
  ∀ b block, IsState block → block ∉ stateBlocks b → ∀ i ∈ insts b, block ∉ i.writes

lemma Keeps.effects_of_notMem (h : Keeps insts) {block : Block} (hstate : IsState block)
    (hblock : block ∉ blocks.flatMap stateBlocks) :
    effects M (blocks.flatMap insts) m block = m block := by
  refine Recurrent.effects_of_notMem fun i hi => ?_
  obtain ⟨b, hb, hi⟩ := List.mem_flatMap.mp hi
  exact h b block hstate (fun hmem => hblock (List.mem_flatMap.mpr ⟨b, hb, hmem⟩)) i hi

/-- **Blocks one after the other**, that keep their rows in memory of their own. -/
theorem effects_blocks (hkeeps : Keeps insts) (hnodup : (blocks.flatMap stateBlocks).Nodup)
    (hstep : ∀ b ∈ blocks, ∀ m, f b (layerRowsAt model m b) (read m) =
      (layerRowsAt model (effects M (insts b) m) b, read (effects M (insts b) m))) :
    let m' := effects M (blocks.flatMap insts) m
    tokenStep (blocks.map f) (blocks.map (layerRowsAt model m)) (read m) =
      (blocks.map (layerRowsAt model m'), read m') := by
  induction blocks generalizing m with
  | nil => rfl
  | cons b bs ih =>
      intro m'
      let m₁ := effects M (insts b) m
      have hm' : m' = effects M (bs.flatMap insts) m₁ := by
        simp only [m', m₁, List.flatMap_cons, effects_append]
      rw [List.flatMap_cons, List.nodup_append'] at hnodup
      obtain ⟨-, hnodup, hdisj⟩ := hnodup
      -- the first block leaves the rows of the others, and they leave its rows
      have hrest : bs.map (layerRowsAt model m) = bs.map (layerRowsAt model m₁) :=
        List.map_congr_left fun b' hb' => (layerRowsAt_congr fun block hblock =>
          effects_of_notMem (hkeeps b block (isState_of_mem hblock) fun hmem =>
            hdisj hmem (List.mem_flatMap.mpr ⟨b', hb', hblock⟩))).symm
      have hfirst : layerRowsAt model m' b = layerRowsAt model m₁ b := by
        rw [hm']
        exact layerRowsAt_congr fun block hblock =>
          hkeeps.effects_of_notMem (isState_of_mem hblock) (hdisj hblock)
      have htail : tokenStep (bs.map f) (bs.map (layerRowsAt model m₁)) (read m₁) =
          (bs.map (layerRowsAt model m'), read m') := by
        rw [hm']
        exact ih hnodup fun b' hb' => hstep b' (List.mem_cons_of_mem _ hb')
      have hstates := congrArg Prod.fst htail
      have hout := congrArg Prod.snd htail
      rw [List.map_cons, List.map_cons, tokenStep, hstep b List.mem_cons_self, hrest]
      exact Prod.ext (congrArg₂ List.cons hfirst.symm hstates) hout

end Blocks

/-! ### What the programs write -/

section Writes

variable {model : Model V} {cfg : ModelConfig V} {numBlocks idx n : ℕ} {block : Block}

lemma writes_gdnTail {w : GdnLayerWeights V} {a b z : FPtr} (hb : IsState block)
    (hrec : block ≠ .gdnRecurrent idx) :
    ∀ i ∈ gdnTail cfg w idx numBlocks a b z, block ∉ i.writes := by
  rw [gdnTail]
  have hact : ∀ b, block ≠ .act b := fun b => (hb b).1
  simp [Inst.writes, linearProj, hact, hrec]

lemma writes_compileGdnLayer {w : GdnLayerWeights V} (hb : IsState block)
    (hconv : block ≠ .gdnConv idx) (hrec : block ≠ .gdnRecurrent idx) :
    ∀ i ∈ compileGdnLayer cfg w idx numBlocks, block ∉ i.writes := by
  have hact : ∀ b, block ≠ .act b := fun b => (hb b).1
  rw [compileGdnLayer]
  simp only [List.forall_mem_append]
  refine ⟨⟨⟨⟨?_, ?_⟩, ?_⟩, writes_gdnTail hb hrec⟩, ?_⟩
  · simp [hact]
  · split_ifs <;> simp [Inst.writes, linearProj, hact]
  · simp [Inst.writes, linearProj, Conv1d3xInst.new, hact, hconv]
  · simp [Inst.writes, hact]

lemma writes_prefillGdnLayer {w : GdnLayerWeights V} (hb : IsState block)
    (hconv : block ≠ .gdnConv idx) (hrec : block ≠ .gdnRecurrent idx) :
    ∀ i ∈ prefillGdnLayer cfg w idx numBlocks n, block ∉ i.writes := by
  have hact : ∀ b, block ≠ .act b := fun b => (hb b).1
  have hprefill : ∀ b, block ≠ .prefill b := fun b => (hb b).2
  rw [prefillGdnLayer]
  simp only [List.forall_mem_append]
  refine ⟨by simp [hprefill], fun i hi => ?_⟩
  obtain ⟨t, -, hi⟩ := List.mem_flatMap.mp hi
  rw [prefillGdnToken, List.mem_append, List.mem_append] at hi
  rcases hi with (hi | hi) | hi
  · simp only [List.mem_cons, List.not_mem_nil, or_false] at hi
    rcases hi with rfl | rfl | rfl <;> simp [Inst.writes, hact, hconv]
  · exact writes_gdnTail hb hrec i hi
  · rw [List.mem_singleton] at hi
    subst hi
    simp [Inst.writes, hprefill]

lemma writes_prefillMamba2Layer {w : Mamba2LayerWeights V} (hb : IsState block)
    (hconv : block ≠ .mamba2Conv idx) (hssm : block ≠ .mamba2Ssm idx) :
    ∀ i ∈ prefillMamba2Layer cfg w idx n, block ∉ i.writes := by
  intro i hi
  obtain ⟨t, -, hi⟩ := List.mem_flatMap.mp hi
  rw [List.mem_append, List.mem_cons, List.mem_singleton] at hi
  rcases hi with (rfl | hi) | rfl
  · simp [(hb _).1]
  · exact writes_compileMamba2Layer (fun b => (hb b).1) hconv hssm i hi
  · simp [(hb _).2]

lemma writes_compileFfn {w : FfnWeights V} (hb : IsState block) :
    ∀ i ∈ compileFfn cfg w, block ∉ i.writes := by
  have hact : ∀ b, block ≠ .act b := fun b => (hb b).1
  rw [compileFfn]
  split_ifs <;> simp [fusedFfn, unfusedFfn, Inst.writes, copyRow, normRows, linearProj, hact]

lemma writes_compileFfnBatched {w : FfnWeights V} (hb : IsState block) :
    ∀ i ∈ compileFfnBatched cfg w n, block ∉ i.writes := by
  have hprefill : ∀ b, block ≠ .prefill b := fun b => (hb b).2
  rw [compileFfnBatched]
  split_ifs
  · simp [fusedFfn, Inst.writes, hprefill]
  · simp [fusedFfn, Inst.writes, hprefill]
  · intro i hi
    obtain ⟨t, -, hi⟩ := List.mem_flatMap.mp hi
    simp only [unfusedFfn, List.mem_cons, List.not_mem_nil, or_false] at hi
    rcases hi with rfl | rfl | rfl | rfl | rfl | rfl | rfl <;>
      simp [Inst.writes, copyRow, normRows, linearProj, hprefill]

lemma keeps_decodeBlock : Keeps (decodeBlock model numBlocks) := by
  intro b block hb hblock
  cases b <;> simp only [stateBlocks, List.mem_cons, List.not_mem_nil, or_false, not_or] at hblock
  case gdn => exact writes_compileGdnLayer hb hblock.1 hblock.2
  case mamba2 => exact writes_compileMamba2Layer (fun b => (hb b).1) hblock.1 hblock.2
  case denseFfn => exact writes_compileFfn hb
  all_goals exact fun i hi => absurd hi List.not_mem_nil

lemma keeps_prefillBlock : Keeps (prefillBlock model numBlocks n) := by
  intro b block hb hblock
  cases b <;> simp only [stateBlocks, List.mem_cons, List.not_mem_nil, or_false, not_or] at hblock
  case gdn => exact writes_prefillGdnLayer hb hblock.1 hblock.2
  case mamba2 => exact writes_prefillMamba2Layer hb hblock.1 hblock.2
  case denseFfn => exact writes_compileFfnBatched hb
  all_goals exact fun i hi => absurd hi List.not_mem_nil

end Writes

/-! ### Programs -/

section Programs

variable {M : Matrices V} {model : Model V} {m : Mem V} {gridDim numBlocks n : ℕ}
  {blocks : List MixedPrefill.Block}

/-- **Decoding a token** takes it through the blocks. -/
theorem effects_decodeInsts (h : ∀ b ∈ blocks, BlockValid model gridDim numBlocks b)
    (hnodup : (blocks.flatMap stateBlocks).Nodup) (hres : ∀ x y : V, x + 1 * y = y + x) :
    let m' := effects M (decodeInsts model numBlocks blocks) m
    tokenStep (blocks.map (layerStep M model)) (blocks.map (layerRowsAt model m))
        (hiddenRow model.config act 0 m) =
      (blocks.map (layerRowsAt model m'), hiddenRow model.config act 0 m') := by
  refine effects_blocks keeps_decodeBlock hnodup fun b hb m => ?_
  have hvalid := h b hb
  cases b with
  | gdn layer idx =>
      have hlayer := effects_compileGdnLayer (M := M) (m := m) (w := model.gdn layer) idx
        hvalid.1 hres
      have hstate := congrArg Prod.fst hlayer
      have hout := congrArg Prod.snd hlayer
      exact Prod.ext (congrArg LayerRows.gdn hstate) hout
  | mamba2 layer idx =>
      have hlayer := effects_compileMamba2Layer (M := M) (m := m) (w := model.mamba2 layer) idx
        hvalid.1
      have hstate := congrArg Prod.fst hlayer
      have hout := congrArg Prod.snd hlayer
      exact Prod.ext (congrArg LayerRows.mamba2 hstate) hout
  | denseFfn layer => exact Prod.ext rfl effects_compileFfn.symm
  | _ => exact absurd hvalid id

/-- **A slab** goes through one block after the other. -/
theorem effects_prefillInsts (hn : 0 < n)
    (h : ∀ b ∈ blocks, BlockValid model gridDim numBlocks b)
    (hnodup : (blocks.flatMap stateBlocks).Nodup) :
    let m' := effects M (prefillInsts model numBlocks n blocks) m
    layerwise (blocks.map (layerStep M model)) (blocks.map (layerRowsAt model m))
        (hiddenRows model.config n m) =
      (blocks.map (layerRowsAt model m'), hiddenRows model.config n m') := by
  rw [layerwise_eq, List.map_map]
  refine effects_blocks keeps_prefillBlock hnodup fun b hb m => ?_
  have hvalid := h b hb
  cases b with
  | gdn layer idx =>
      have hlayer := effects_prefillGdnLayer (M := M) (m := m) (w := model.gdn layer) (n := n)
        idx hvalid.1 hn
      have hstate := congrArg Prod.fst hlayer
      have hout := congrArg Prod.snd hlayer
      exact (run_lift (e := LayerRows.gdn) fun _ _ => rfl).trans
        (Prod.ext (congrArg LayerRows.gdn hstate) hout)
  | mamba2 layer idx =>
      have hlayer := effects_prefillMamba2Layer (M := M) (m := m) (w := model.mamba2 layer) (n := n)
        idx hvalid.1
      have hstate := congrArg Prod.fst hlayer
      have hout := congrArg Prod.snd hlayer
      exact (run_lift (e := LayerRows.mamba2) fun _ _ => rfl).trans
        (Prod.ext (congrArg LayerRows.mamba2 hstate) hout)
  | denseFfn layer =>
      have hrows : hiddenRows model.config n (effects M (compileFfnBatched model.config
          (model.gdn layer).toFfnWeights n) m) = _ := effects_compileFfnBatched hn
      exact (run_stateless (h := ffnRow M model.config (model.gdn layer).toFfnWeights)
        fun _ => rfl).trans (Prod.ext rfl hrows.symm)
  | _ => exact absurd hvalid id

end Programs

/-! ### Prompts -/

section Prompt

variable (M : Matrices V) (model : Model V) (blocks : List MixedPrefill.Block)

/-- What the blocks of a span keep. -/
def spanRows (m : Mem V) : List (LayerRows V) := blocks.map (layerRowsAt model m)

/-- A token goes through the span in decoding, in some orders: its hidden state before, and after. -/
def Decodes (gridDim numBlocks : ℕ) (m : Mem V) (x : ℕ → V) (m' : Mem V) (y : ℕ → V) : Prop :=
  x = hiddenRow model.config act 0 m ∧ y = hiddenRow model.config act 0 m' ∧
    Runs M gridDim (decodeInsts model numBlocks blocks) m m'

/-- A slab goes through the span in prefill, in some orders: its rows before, and after. -/
def Prefills (gridDim numBlocks : ℕ) (m : Mem V) (xs : List (ℕ → V)) (m' : Mem V)
    (ys : List (ℕ → V)) : Prop :=
  0 < xs.length ∧ xs = hiddenRows model.config xs.length m ∧
    ys = hiddenRows model.config xs.length m' ∧
    Runs M gridDim (prefillInsts model numBlocks xs.length blocks) m m'

variable {M model blocks} {gridDim numBlocks gridDim' numBlocks' : ℕ}

lemma decodes_realises (h : ∀ b ∈ blocks, BlockValid model gridDim numBlocks b)
    (hnodup : (blocks.flatMap stateBlocks).Nodup) (hres : ∀ x y : V, x + 1 * y = y + x) :
    Realises (spanRows model blocks) (Decodes M model blocks gridDim numBlocks)
      (tokenStep (blocks.map (layerStep M model))) := by
  rintro m x m' y ⟨rfl, rfl, hrun⟩
  rw [hrun.eq_effects (sound_decodeInsts h)]
  exact effects_decodeInsts h hnodup hres

lemma prefills_realises (h : ∀ b ∈ blocks, BlockValid model gridDim numBlocks b)
    (hnodup : (blocks.flatMap stateBlocks).Nodup) :
    Realises (spanRows model blocks) (Prefills M model blocks gridDim numBlocks)
      (layerwise (blocks.map (layerStep M model))) := by
  rintro m xs m' ys ⟨hpos, hxs, rfl, hrun⟩
  rw [hrun.eq_effects (sound_prefillInsts hpos h)]
  generalize xs.length = n at hpos hxs ⊢
  subst hxs
  exact effects_prefillInsts hpos h hnodup

/-- **A prompt in slabs, and the same tokens one at a time**: the blocks keep the same rows, and the
hidden states are the same. -/
theorem prefill_eq_decode (h : ∀ b ∈ blocks, BlockValid model gridDim numBlocks b)
    (h' : ∀ b ∈ blocks, BlockValid model gridDim' numBlocks' b)
    (hnodup : (blocks.flatMap stateBlocks).Nodup)
    (hres : ∀ x y : V, x + 1 * y = y + x) {s s₁ s₂ : List (LayerRows V)} {xs ys : List (ℕ → V)}
    {slabs outs : List (List (ℕ → V))}
    (hdec : Trace (spanRows model blocks) (Decodes M model blocks gridDim numBlocks) s xs s₁ ys)
    (hpre : Trace (spanRows model blocks) (Prefills M model blocks gridDim' numBlocks') s slabs s₂
      outs) (hslabs : slabs.flatten = xs) :
    s₁ = s₂ ∧ ys = outs.flatten :=
  trace_eq_trace (decodes_realises h hnodup hres) (prefills_realises h' hnodup) hdec hpre hslabs

end Prompt

section OneCell

/-- One head with one cell, in both kinds of layers. -/
def oneConfig : ModelConfig ℝ where
  hiddenSize := 1
  intermediateSize := 1
  linearNumHeads := 1
  linearNumValueHeads := 1
  linearKeyHeadDim := 1
  linearValueHeadDim := 1
  linearConvKernelDim := 2
  mamba2 := ⟨1, 1, 1, 2, 1, 3⟩
  rmsNormEps := 1
  rmsNormOnePlusW := true
  vocabSize := 1

/-- Its model. -/
def oneModel : Model ℝ where
  config := oneConfig
  embedWeight k := k
  gdn _ := ⟨⟨fun _ => 1, .bf16 [], .bf16 [], .bf16 []⟩, fun _ => 1, .bf16 [], .bf16 [], .bf16 [],
    .bf16 [], fun _ => 1, fun _ => 1, fun _ => 1, fun _ => 0, fun _ => 0, fun _ => 1, .bf16 []⟩
  mamba2 _ := ⟨fun _ => 1, .bf16 [], fun _ => 1, fun _ => 0, fun _ => 0, fun _ => 0, fun _ => 1,
    fun _ => 1, .bf16 []⟩
  finalNormWeight _ := 1
  lmHeadWeight := []

/-- A GDN layer with its FFN, and a Mamba2 layer. -/
def oneSpan : List MixedPrefill.Block := [.gdn 0 0, .denseFfn 0, .mamba2 1 0]

lemma oneSpan_valid : ∀ b ∈ oneSpan, BlockValid oneModel 1 1 b := by
  have hgdn : oneConfig.GdnValid 1 1 :=
    ⟨le_rfl, Nat.one_pos, Nat.one_pos, dvd_rfl,
      Megakernel.GdnPartition.updatesOnce_gdnRecur_iff.mpr (by decide), by decide⟩
  have hmamba2 : oneConfig.mamba2.Valid := ⟨le_rfl, Nat.one_pos, dvd_rfl, rfl⟩
  simp only [oneSpan, List.forall_mem_cons, List.not_mem_nil, false_imp_iff, implies_true, and_true]
  exact ⟨⟨hgdn, rfl, rfl, rfl, rfl, rfl⟩, ⟨rfl, rfl, rfl⟩, hmamba2, rfl, rfl⟩

lemma oneModel_headFits : oneModel.HeadFits := show 1 ≤ lmHeadInputFloats by decide

/-- Matrices of ones. -/
def oneMatrices : Matrices ℝ := ⟨fun _ _ => 1, fun _ _ _ _ => 0⟩

/-- A token whose hidden state is `1`. -/
noncomputable def oneMem : Mem ℝ := fun b _ => if b = .act .hidden then 1 else 0

/-- A slab of two tokens whose hidden states are `1` and `y`. -/
noncomputable def slabMem (y : ℝ) : Mem ℝ := fun b j =>
  if b = .prefill .hidden then if j = 0 then 1 else y else 0

/-- The tokens of the slab, and the state it finds. -/
lemma slabMem_first (y : ℝ) :
    hiddenRow oneConfig prefill 0 (slabMem y) = hiddenRow oneConfig act 0 oneMem :=
  pad_congr fun j hj => by
    obtain rfl : j = 0 := Nat.lt_one_iff.mp hj
    simp [slabMem, oneMem, RowMem.cell, act, prefill, DevPtr.add]

lemma slabMem_second (m : Mem ℝ) :
    hiddenRow oneConfig prefill 1 (slabMem (hiddenRow oneConfig act 0 m 0)) =
      hiddenRow oneConfig act 0 m := by
  have hy : hiddenRow oneConfig act 0 m 0 = m.cell (act .hidden) := by
    simp [hiddenRow, RowMem.slice, pad, oneConfig, RowMem.cell, act, DevPtr.add]
  rw [hy]
  refine pad_congr fun j hj => ?_
  obtain rfl : j = 0 := Nat.lt_one_iff.mp hj
  simp [slabMem, RowMem.cell, act, prefill, DevPtr.add, oneConfig]

lemma slabMem_spanRows (y : ℝ) :
    spanRows oneModel oneSpan (slabMem y) = spanRows oneModel oneSpan oneMem :=
  List.map_congr_left fun b hb => layerRowsAt_congr fun block hblock => by
    have hstate : block ∈ [Block.gdnConv 0, .gdnRecurrent 0, .mamba2Conv 0, .mamba2Ssm 0] :=
      List.mem_flatMap.mpr ⟨b, hb, hblock⟩
    simp only [List.mem_cons, List.not_mem_nil, or_false] at hstate
    funext j
    rcases hstate with rfl | rfl | rfl | rfl <;> simp [slabMem, oneMem]

/-- A token is decoded. -/
lemma oneDecodes (m : Mem ℝ) : Decodes oneMatrices oneModel oneSpan 1 1 m
    (hiddenRow oneConfig act 0 m) (effects oneMatrices (decodeInsts oneModel 1 oneSpan) m)
    (hiddenRow oneConfig act 0 (effects oneMatrices (decodeInsts oneModel 1 oneSpan) m)) :=
  ⟨rfl, rfl, runs_effects (sound_decodeInsts oneSpan_valid)⟩

/-- A slab of two tokens. -/
lemma onePrefills (m : Mem ℝ) : Prefills oneMatrices oneModel oneSpan 1 1 m
    (hiddenRows oneConfig 2 m) (effects oneMatrices (prefillInsts oneModel 1 2 oneSpan) m)
    (hiddenRows oneConfig 2 (effects oneMatrices (prefillInsts oneModel 1 2 oneSpan) m)) :=
  ⟨Nat.two_pos, rfl, rfl, runs_effects (sound_prefillInsts Nat.two_pos oneSpan_valid)⟩

end OneCell

end Braidinfer.Recurrent
