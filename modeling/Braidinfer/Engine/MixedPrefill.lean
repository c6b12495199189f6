/-
Prefill of a model with MoE layers (`prefill_mixed_chunk_paged` in `model/state.rs`,
`compile_prefill_segment_paged` and `compile_inner` in `megakernel/megakernel_compile.rs`, and the
layer patterns of `from_config_value` in `config.rs`).

The driver splits the layers into spans: layers without a MoE FFN are compiled into one program a
span, an attention or GDN layer with a MoE FFN into a program of its own mixer, and the MoE FFN is
dispatched by the host.  What a program or a dispatch applies to the hidden state is a list of
blocks, one for the code of a mixer, an FFN or the head.  A dispatch that fails ends the call; here
they all succeed.

* `fromConfigValue`: the layer patterns, with the pairs of mixer and FFN that occur (`Parsed`);
* `prefillMixedChunkPaged`: the driver; `compileInner`: the decode program;
* `layerBlocks`: every layer's mixer and FFN, with the number of earlier layers of its type;
* `prefill_applies_each_layer_once`: **prefill applies what the decode program applies**.
-/
import Braidinfer.Moe.Inst

namespace Braidinfer.Engine.MixedPrefill

/-! ### The configuration -/

/-- `LayerType` -/
inductive LayerType
  | attention | gdn | mamba2 | moeFfn | lfmConv
deriving DecidableEq, Repr

/-- The fields of `FfnType::MoE`. -/
structure MoeConfig where
  numExperts : ℕ
  numActive : ℕ
  numShared : ℕ
  expertIntermediateSize : ℕ
  sharedIntermediateSize : ℕ
  gateType : Moe.GateType
deriving DecidableEq, Repr

/-- `FfnType` -/
inductive FfnType
  | none
  | dense
  | moe (cfg : MoeConfig)
deriving DecidableEq, Repr

/-- `LayerConfig` -/
structure LayerConfig where
  layerType : LayerType
  ffnType : FfnType
deriving DecidableEq, Repr

/-- The keys of the configuration that decide the layer pattern; a value that is no string reads as
the empty string. -/
structure RawConfig where
  numLayers : ℕ
  moe : MoeConfig
  layerTypes : Option (List String)
  hybridOverridePattern : Option String
  layersBlockType : Option (List String)
  fullAttentionInterval : Option ℕ

/-- The fields of `ModelConfig` that the compilers read here. -/
structure ModelConfig where
  numLayers : ℕ
  layers : List LayerConfig

namespace RawConfig

variable (r : RawConfig)

/-- `moe_ffn` -/
def moeFfn : FfnType := if 0 < r.moe.numExperts then .moe r.moe else .dense

/-- An entry of `layer_types`. -/
def layerOfType (ts : String) : LayerConfig :=
  ⟨match ts with
    | "full_attention" | "attention" => .attention
    | "linear_attention" => .gdn
    | "conv" => .lfmConv
    | "sliding_attention" => .attention
    | _ => .attention,
   if 0 < r.moe.numExperts then r.moeFfn else .dense⟩

/-- A letter of `hybrid_override_pattern`. -/
def layerOfChar : Char → LayerConfig
  | 'M' => ⟨.mamba2, .none⟩
  | 'E' => ⟨.moeFfn, r.moeFfn⟩
  | '*' => ⟨.attention, .none⟩
  | _ => ⟨.attention, .none⟩

/-- An entry of `layers_block_type`. -/
def layerOfBlock : String → LayerConfig
  | "mamba" => ⟨.mamba2, .none⟩
  | "moe" => ⟨.moeFfn, r.moeFfn⟩
  | "attention" => ⟨.attention, .none⟩
  | _ => ⟨.attention, .dense⟩

/-- The layer with index `i` under `full_attention_interval`. -/
def layerOfInterval (interval i : ℕ) : LayerConfig :=
  ⟨if (i + 1) % interval = 0 then .attention else .gdn,
   if 0 < r.moe.numExperts then r.moeFfn else .dense⟩

/-- The layer pattern; the remainder by an interval of zero panics. -/
def layers : Option (List LayerConfig) :=
  match r.layerTypes, r.hybridOverridePattern, r.layersBlockType, r.fullAttentionInterval with
  | some lt, _, _, _ => some (lt.map r.layerOfType)
  | none, some pattern, _, _ => some (pattern.toList.map r.layerOfChar)
  | none, none, some lbt, _ => some (lbt.map r.layerOfBlock)
  | none, none, none, some interval =>
      if interval = 0 ∧ 0 < r.numLayers then none
      else some ((List.range r.numLayers).map (r.layerOfInterval interval))
  | none, none, none, none =>
      some ((List.range r.numLayers).map fun _ =>
        ⟨.attention, if 0 < r.moe.numExperts then r.moeFfn else .dense⟩)

/-- `from_config_value`, as far as the layers go. -/
def fromConfigValue : Option ModelConfig := r.layers.map fun layers => ⟨r.numLayers, layers⟩

end RawConfig

/-! ### Blocks -/

/-- The code of one layer function, with the index of the state it works on. -/
inductive Block
  | embedding
  | attention (layer attnLayerIdx : ℕ)
  | gdn (layer gdnIdx : ℕ)
  | mamba2 (layer mamba2Idx : ℕ)
  | denseFfn (layer : ℕ)
  | moeFfn (layer : ℕ)
  | finalNorm
  | lmHead
  | halt
deriving DecidableEq, Repr

/-- The counters that both compilers carry through the layers. -/
structure Counters where
  attn : ℕ
  gdn : ℕ
  mamba2 : ℕ
deriving DecidableEq, Repr

/-- The counters behind a layer. -/
def Counters.after (c : Counters) : LayerType → Counters
  | .attention => { c with attn := c.attn + 1 }
  | .gdn => { c with gdn := c.gdn + 1 }
  | .mamba2 => { c with mamba2 := c.mamba2 + 1 }
  | .moeFfn | .lfmConv => c

namespace ModelConfig

variable (cfg : ModelConfig)

/-! ### Prefill -/

/-- `compile_ffn_batched` -/
def compileFfnBatched (layerI : ℕ) : FfnType → List Block
  | .moe _ | .none => []
  | .dense => [.denseFfn layerI]

/-- The match on `layer_type` in `compile_prefill_segment_paged`; `LfmConv` panics. -/
def segmentLayer (c : Counters) (layerI : ℕ) (l : LayerConfig) : Option (List Block) :=
  match l.layerType with
  | .attention => some (.attention layerI c.attn :: compileFfnBatched layerI l.ffnType)
  | .gdn => some (.gdn layerI c.gdn :: compileFfnBatched layerI l.ffnType)
  | .mamba2 => some [.mamba2 layerI c.mamba2]
  | .moeFfn => some []
  | .lfmConv => none

/-- The loop over the layers of a segment. -/
def segmentLayers : List ℕ → Counters → Option (List Block)
  | [], _ => some []
  | i :: is, c => do
      let l ← cfg.layers[i]?
      let blocks ← segmentLayer c i l
      let rest ← segmentLayers is (c.after l.layerType)
      return blocks ++ rest

/-- The counters, seeded by walking `0..layer_start`. -/
def seed (layerStart : ℕ) : Counters :=
  (cfg.layers.take layerStart).foldl (fun c l => c.after l.layerType) ⟨0, 0, 0⟩

/-- The final norm and the head on row `n - 1`, which does not exist for an empty chunk. -/
def head (n : ℕ) : Option (List Block) := if n = 0 then none else some [.finalNorm, .lmHead]

/-- `compile_prefill_segment_paged` -/
def compilePrefillSegmentPaged (n layerStart layerEnd : ℕ) (isLastSegment : Bool) :
    Option (List Block) := do
  let blocks ← cfg.segmentLayers (List.range' layerStart (layerEnd - layerStart))
    (cfg.seed layerStart)
  let last ← (if isLastSegment then head n else some [])
  return blocks ++ last ++ [.halt]

/-- `compile_final_norm_lm_head` -/
def compileFinalNormLmHead (n : ℕ) : Option (List Block) := do
  let last ← head n
  return last ++ [.halt]

/-- `dispatch_via_worker`: everything before the `OP_HALT`. -/
def dispatchViaWorker (program : List Block) : List Block := program.takeWhile (· ≠ .halt)

/-- `matches!(ffn_type, FfnType::MoE { .. })` -/
def isMoe : FfnType → Bool
  | .moe _ => true
  | _ => false

@[simp] lemma isMoe_moe (moe : MoeConfig) : isMoe (.moe moe) = true := rfl

@[simp] lemma isMoe_dense : isMoe .dense = false := rfl

@[simp] lemma isMoe_none : isMoe .none = false := rfl

/-- An attention or GDN layer with a MoE FFN. -/
def mixerWithMoe (l : LayerConfig) : Bool :=
  isMoe l.ffnType && (l.layerType = .attention || l.layerType = .gdn)

/-- Where the span ends that the inner loop has reached layer `i` of. -/
def spanEnd (i : ℕ) : ℕ :=
  if i < cfg.numLayers then
    match cfg.layers[i]? with
    | none => i
    | some l => if l.layerType = .moeFfn || mixerWithMoe l then i else spanEnd (i + 1)
  else i
termination_by cfg.numLayers - i

lemma le_spanEnd (i : ℕ) : i ≤ cfg.spanEnd i := by
  fun_induction ModelConfig.spanEnd cfg i <;> omega

lemma lt_spanEnd {i : ℕ} {l : LayerConfig} (hi : i < cfg.numLayers) (hl : cfg.layers[i]? = some l)
    (h : ¬ (l.layerType = .moeFfn || mixerWithMoe l) = true) : i < cfg.spanEnd i := by
  rw [spanEnd, if_pos hi, hl]
  dsimp only
  rw [if_neg h]
  exact Nat.lt_of_succ_le (cfg.le_spanEnd (i + 1))

/-- The layer walk of `prefill_mixed_chunk_paged`, at `layer_i`: what is dispatched, in order.  The
host's own dispatch is `moe_ffn_forward_prefill_batched`. -/
def layerWalk (n layerI : ℕ) : Option (List Block) :=
  if _hlt : layerI < cfg.numLayers then
    match _hl : cfg.layers[layerI]? with
    | none => none
    | some l =>
        if h₁ : l.layerType = .moeFfn then do
          let rest ← layerWalk n (layerI + 1)
          return .moeFfn layerI :: rest
        else if _h₂ : mixerWithMoe l then do
          let mixer ← cfg.compilePrefillSegmentPaged n layerI (layerI + 1) false
          let last ← (if layerI + 1 = cfg.numLayers then compileFinalNormLmHead n else some [])
          let rest ← layerWalk n (layerI + 1)
          return dispatchViaWorker mixer ++ .moeFfn layerI :: (dispatchViaWorker last ++ rest)
        else do
          let stop := cfg.spanEnd layerI
          let span ← cfg.compilePrefillSegmentPaged n layerI stop (stop = cfg.numLayers)
          let rest ← layerWalk n stop
          return dispatchViaWorker span ++ rest
  else some []
termination_by cfg.numLayers - layerI
decreasing_by
  · omega
  · omega
  · have hlt' := cfg.lt_spanEnd _hlt _hl (by simp [h₁, _h₂])
    omega

/-- `prefill_mixed_chunk_paged` on a chunk of `n` tokens. -/
def prefillMixedChunkPaged (n : ℕ) : Option (List Block) := do
  let blocks ← cfg.layerWalk n 0
  let final ← cfg.layers[cfg.numLayers - 1]?
  let last ← (if final.layerType = .moeFfn then compileFinalNormLmHead n else some [])
  return .embedding :: (blocks ++ dispatchViaWorker last)

/-! ### Decode -/

/-- The match on `layer_type` in `compile_inner`, paged; `LfmConv` panics. -/
def decodeMixer (c : Counters) (layerI : ℕ) : LayerType → Option (List Block)
  | .attention => some [.attention layerI c.attn]
  | .gdn => some [.gdn layerI c.gdn]
  | .mamba2 => some [.mamba2 layerI c.mamba2]
  | .moeFfn => some []
  | .lfmConv => none

/-- The match on `ffn_type` in `compile_inner`; on one GPU the MoE code is emitted if the experts
are loaded. -/
def decodeFfn (multiGpu expertsLoaded : Bool) (layerI : ℕ) : FfnType → List Block
  | .dense => [.denseFfn layerI]
  | .moe _ =>
      if multiGpu then [.moeFfn layerI] else if expertsLoaded then [.moeFfn layerI] else []
  | .none => []

/-- The layer loop of `compile_inner`. -/
def decodeLayers (multiGpu expertsLoaded : Bool) : List ℕ → Counters → Option (List Block)
  | [], _ => some []
  | i :: is, c => do
      let l ← cfg.layers[i]?
      let mixer ← decodeMixer c i l.layerType
      let rest ← decodeLayers multiGpu expertsLoaded is (c.after l.layerType)
      return mixer ++ decodeFfn multiGpu expertsLoaded i l.ffnType ++ rest

/-- `compile_inner(model, true, multi_gpu)` -/
def compileInner (multiGpu expertsLoaded : Bool) : Option (List Block) := do
  let blocks ← cfg.decodeLayers multiGpu expertsLoaded (List.range cfg.numLayers) ⟨0, 0, 0⟩
  return .embedding :: (blocks ++ [.finalNorm, .lmHead, .halt])

/-! ### Every layer once -/

/-- The number of layers of a type before layer `i`. -/
def countBefore (t : LayerType) (i : ℕ) : ℕ := (cfg.layers.take i).countP (·.layerType = t)

/-- The mixer of a layer, on the state of its type. -/
def mixerBlocks (i : ℕ) : LayerType → List Block
  | .attention => [.attention i (cfg.countBefore .attention i)]
  | .gdn => [.gdn i (cfg.countBefore .gdn i)]
  | .mamba2 => [.mamba2 i (cfg.countBefore .mamba2 i)]
  | .moeFfn | .lfmConv => []

/-- The FFN of a layer. -/
def ffnBlocks (i : ℕ) : FfnType → List Block
  | .dense => [.denseFfn i]
  | .moe _ => [.moeFfn i]
  | .none => []

/-- The mixer and the FFN of layer `i`. -/
def blocksAt (i : ℕ) : List Block :=
  match cfg.layers[i]? with
  | some l => cfg.mixerBlocks i l.layerType ++ ffnBlocks i l.ffnType
  | none => []

/-- The layers from `a` up to `b`, each once and in order. -/
def layerBlocks (a b : ℕ) : List Block := (List.range' a (b - a)).flatMap cfg.blocksAt

/-- A pair of mixer and FFN that the configuration of a MoE model yields. -/
def Parsed (l : LayerConfig) : Prop :=
  ((l.layerType = .attention ∨ l.layerType = .gdn ∨ l.layerType = .moeFfn) ∧
    isMoe l.ffnType = true) ∨
  (l.layerType = .attention ∧ isMoe l.ffnType = false) ∨
  (l.layerType = .mamba2 ∧ l.ffnType = .none) ∨ l.layerType = .lfmConv

end ModelConfig

/-- The patterns of `from_config_value` with experts. -/
lemma RawConfig.parsed {r : RawConfig} (hr : 0 < r.moe.numExperts) {cfg : ModelConfig}
    (h : r.fromConfigValue = some cfg) : ∀ l ∈ cfg.layers, ModelConfig.Parsed l := by
  have hmoe : ModelConfig.isMoe r.moeFfn = true := by rw [RawConfig.moeFfn, if_pos hr]; rfl
  have htype : ∀ ts, ModelConfig.Parsed (r.layerOfType ts) := by
    intro ts
    rw [RawConfig.layerOfType.eq_def, if_pos hr]
    split <;> simp [ModelConfig.Parsed, hmoe]
  have hchar : ∀ c, ModelConfig.Parsed (r.layerOfChar c) := by
    intro c
    rw [RawConfig.layerOfChar.eq_def]
    split <;> simp [ModelConfig.Parsed, hmoe]
  have hblock : ∀ ts, ModelConfig.Parsed (r.layerOfBlock ts) := by
    intro ts
    rw [RawConfig.layerOfBlock.eq_def]
    split <;> simp [ModelConfig.Parsed, hmoe]
  have hinterval : ∀ interval i, ModelConfig.Parsed (r.layerOfInterval interval i) := by
    intro interval i
    rw [RawConfig.layerOfInterval, if_pos hr]
    split_ifs <;> simp [ModelConfig.Parsed, hmoe]
  obtain ⟨layers, hlayers, rfl⟩ := Option.map_eq_some_iff.mp h
  intro l hl
  rw [RawConfig.layers.eq_def] at hlayers
  split at hlayers
  · obtain rfl := Option.some.inj hlayers
    obtain ⟨ts, -, rfl⟩ := List.mem_map.mp hl
    exact htype ts
  · obtain rfl := Option.some.inj hlayers
    obtain ⟨c, -, rfl⟩ := List.mem_map.mp hl
    exact hchar c
  · obtain rfl := Option.some.inj hlayers
    obtain ⟨ts, -, rfl⟩ := List.mem_map.mp hl
    exact hblock ts
  · split_ifs at hlayers
    obtain rfl := Option.some.inj hlayers
    obtain ⟨i, -, rfl⟩ := List.mem_map.mp hl
    exact hinterval _ i
  · obtain rfl := Option.some.inj hlayers
    obtain ⟨i, -, rfl⟩ := List.mem_map.mp hl
    rw [if_pos hr]
    simp [ModelConfig.Parsed, hmoe]

namespace ModelConfig

variable {cfg : ModelConfig} {i j k n : ℕ}

/-! ### Counters -/

/-- The counters at layer `i`. -/
def countersAt (cfg : ModelConfig) (i : ℕ) : Counters :=
  ⟨cfg.countBefore .attention i, cfg.countBefore .gdn i, cfg.countBefore .mamba2 i⟩

lemma countersAt_succ {l : LayerConfig} (hl : cfg.layers[i]? = some l) :
    (cfg.countersAt i).after l.layerType = cfg.countersAt (i + 1) := by
  have hcount : ∀ t, cfg.countBefore t (i + 1) =
      cfg.countBefore t i + if l.layerType = t then 1 else 0 := by
    intro t
    rw [countBefore, countBefore, List.take_add_one, hl, Option.toList_some, List.countP_append,
      List.countP_singleton]
    simp only [decide_eq_true_eq]
  rw [countersAt, countersAt, hcount, hcount, hcount]
  cases l.layerType <;> rfl

/-- The seeded counters are those of the walk. -/
lemma seed_eq (hi : i ≤ cfg.layers.length) : cfg.seed i = cfg.countersAt i := by
  induction i with
  | zero => rfl
  | succ i ih =>
      have hget := List.getElem?_eq_getElem (Nat.lt_of_succ_le hi)
      rw [seed, List.take_add_one, hget, Option.toList_some, List.foldl_append]
      show (cfg.seed i).after _ = _
      rw [ih (Nat.le_of_succ_le hi), countersAt_succ hget]

lemma layerBlocks_self : cfg.layerBlocks i i = [] := by
  rw [layerBlocks, Nat.sub_self]
  rfl

lemma layerBlocks_cons (h : i < j) :
    cfg.layerBlocks i j = cfg.blocksAt i ++ cfg.layerBlocks (i + 1) j := by
  have hlen : j - i = j - (i + 1) + 1 := by omega
  rw [layerBlocks, layerBlocks, hlen, List.range'_succ, List.flatMap_cons]

lemma layerBlocks_append (hij : i ≤ j) (hjk : j ≤ k) :
    cfg.layerBlocks i j ++ cfg.layerBlocks j k = cfg.layerBlocks i k := by
  have hlen : k - i = (j - i) + (k - j) := by omega
  have hstart : i + 1 * (j - i) = j := by omega
  rw [layerBlocks, layerBlocks, layerBlocks, hlen, ← List.range'_append, List.flatMap_append,
    hstart]

/-! ### Segments -/

/-- A configuration that both compilers accept. -/
structure Walkable (cfg : ModelConfig) : Prop where
  length_eq : cfg.layers.length = cfg.numLayers
  parsed : ∀ l ∈ cfg.layers, Parsed l
  no_lfmConv : ∀ l ∈ cfg.layers, l.layerType ≠ .lfmConv

/-- A layer that the driver compiles as part of a span. -/
def Plain (l : LayerConfig) : Prop := ¬ (l.layerType = .moeFfn || mixerWithMoe l) = true

lemma Walkable.exists_layer (h : cfg.Walkable) (hi : i < cfg.numLayers) :
    ∃ l, cfg.layers[i]? = some l ∧ Parsed l ∧ l.layerType ≠ .lfmConv := by
  have hlt : i < cfg.layers.length := h.length_eq ▸ hi
  exact ⟨cfg.layers[i], List.getElem?_eq_getElem hlt, h.parsed _ (List.getElem_mem hlt),
    h.no_lfmConv _ (List.getElem_mem hlt)⟩

lemma blocksAt_eq {l : LayerConfig} (hl : cfg.layers[i]? = some l) :
    cfg.blocksAt i = cfg.mixerBlocks i l.layerType ++ ffnBlocks i l.ffnType := by
  rw [blocksAt, hl]

/-- A plain layer is compiled with its FFN. -/
lemma segmentLayer_plain {l : LayerConfig} (hl : cfg.layers[i]? = some l) (hparsed : Parsed l)
    (hconv : l.layerType ≠ .lfmConv) (hplain : Plain l) :
    segmentLayer (cfg.countersAt i) i l = some (cfg.blocksAt i) := by
  rw [blocksAt_eq hl]
  obtain ⟨lt, ffn⟩ := l
  cases lt <;> cases ffn <;>
    simp_all [Parsed, Plain, mixerWithMoe, segmentLayer, mixerBlocks, ffnBlocks,
      compileFfnBatched, countersAt]

/-- A mixer with a MoE FFN is compiled without it. -/
lemma segmentLayer_mixer {l : LayerConfig} (hmoe : mixerWithMoe l = true) :
    segmentLayer (cfg.countersAt i) i l = some (cfg.mixerBlocks i l.layerType) := by
  obtain ⟨lt, ffn⟩ := l
  cases lt <;> cases ffn <;>
    simp_all [mixerWithMoe, segmentLayer, mixerBlocks, compileFfnBatched, countersAt]

/-- **A span of plain layers.** -/
lemma segmentLayers_eq (h : cfg.Walkable) (hk : i + k ≤ cfg.numLayers)
    (hplain : ∀ j, i ≤ j → j < i + k → ∀ l, cfg.layers[j]? = some l → Plain l) :
    cfg.segmentLayers (List.range' i k) (cfg.countersAt i) =
      some (cfg.layerBlocks i (i + k)) := by
  induction k generalizing i with
  | zero => rw [Nat.add_zero, layerBlocks_self]; rfl
  | succ k ih =>
      obtain ⟨l, hl, hparsed, hconv⟩ := h.exists_layer (by omega : i < cfg.numLayers)
      have hlayer := segmentLayer_plain hl hparsed hconv (hplain i (Nat.le_refl i) (by omega) l hl)
      have hrest := ih (i := i + 1) (by omega) fun j hj hjk => hplain j (by omega) (by omega)
      simp only [List.range'_succ, segmentLayers, hl, hlayer, countersAt_succ hl, hrest,
        Option.bind_eq_bind, Option.bind_some]
      rw [layerBlocks_cons (by omega : i < i + (k + 1)), show i + 1 + k = i + (k + 1) by omega]
      rfl

lemma halt_notMem_mixerBlocks (t : LayerType) : Block.halt ∉ cfg.mixerBlocks i t := by
  cases t <;> simp [mixerBlocks]

lemma halt_notMem_layerBlocks : Block.halt ∉ cfg.layerBlocks i j := by
  intro hmem
  obtain ⟨k, -, hk⟩ := List.mem_flatMap.mp hmem
  rw [blocksAt.eq_def] at hk
  split at hk
  · rename_i l hl
    rcases List.mem_append.mp hk with hk | hk
    · exact halt_notMem_mixerBlocks _ hk
    · cases hffn : l.ffnType <;> simp [hffn, ffnBlocks] at hk
  · cases hk

/-- Everything before the `OP_HALT` is dispatched. -/
lemma dispatchViaWorker_append_halt {blocks : List Block} (h : Block.halt ∉ blocks) :
    dispatchViaWorker (blocks ++ [.halt]) = blocks := by
  rw [dispatchViaWorker, List.takeWhile_append_of_pos]
  · simp
  · intro b hb
    have hne : b ≠ .halt := fun heq => h (heq ▸ hb)
    simpa using hne

lemma head_eq (hn : 0 < n) : head n = some [.finalNorm, .lmHead] := by
  rw [head, if_neg (by omega)]

/-- The program of a segment, given the code of its layers. -/
lemma exists_segment {stop : ℕ} (isLast : Bool) {blocks : List Block} (hn : 0 < n)
    (hi : i ≤ cfg.layers.length)
    (hblocks : cfg.segmentLayers (List.range' i (stop - i)) (cfg.countersAt i) = some blocks)
    (hhalt : Block.halt ∉ blocks) :
    ∃ program, cfg.compilePrefillSegmentPaged n i stop isLast = some program ∧
      dispatchViaWorker program =
        blocks ++ if isLast then [.finalNorm, .lmHead] else [] := by
  refine ⟨blocks ++ (if isLast then [.finalNorm, .lmHead] else []) ++ [.halt], ?_, ?_⟩
  · rw [compilePrefillSegmentPaged, seed_eq hi, hblocks, head_eq hn]
    cases isLast <;> rfl
  · refine dispatchViaWorker_append_halt ?_
    cases isLast <;> simp [hhalt]

/-- The program of the final norm and the head alone. -/
lemma exists_head (hn : 0 < n) : ∃ program, compileFinalNormLmHead n = some program ∧
    dispatchViaWorker program = [.finalNorm, .lmHead] := by
  refine ⟨[.finalNorm, .lmHead, .halt], ?_, by decide⟩
  rw [compileFinalNormLmHead, head_eq hn]
  rfl

/-! ### Spans -/

lemma spanEnd_le (hi : i ≤ cfg.numLayers) : cfg.spanEnd i ≤ cfg.numLayers := by
  fun_induction ModelConfig.spanEnd cfg i <;> omega

/-- The layers of a span are plain. -/
lemma plain_of_lt_spanEnd {l : LayerConfig} (hij : i ≤ j) (hj : j < cfg.spanEnd i)
    (hl : cfg.layers[j]? = some l) : Plain l := by
  fun_induction ModelConfig.spanEnd cfg i with
  | case1 i hi hnone => omega
  | case2 i hi l' hl' hbreak => omega
  | case3 i hi l' hl' hbreak ih =>
      rcases Nat.eq_or_lt_of_le hij with rfl | hlt
      · obtain rfl := Option.some.inj (hl'.symm.trans hl)
        exact hbreak
      · exact ih hlt hj
  | case4 i hi => omega

/-! ### The walk -/

/-- The last layer is a MoE layer of its own. -/
def endsInMoeFfn (cfg : ModelConfig) : Bool :=
  cfg.layers[cfg.numLayers - 1]?.any (·.layerType = .moeFfn)

/-- The head that the walk emits from layer `i` on. -/
def walkHead (cfg : ModelConfig) (i : ℕ) : List Block :=
  if i < cfg.numLayers ∧ cfg.endsInMoeFfn = false then [.finalNorm, .lmHead] else []

lemma walkHead_numLayers : cfg.walkHead cfg.numLayers = [] := by
  rw [walkHead, if_neg (fun h => Nat.lt_irrefl _ h.1)]

/-- The head stays ahead of the walk until the last layer. -/
lemma walkHead_succ (hi : i + 1 < cfg.numLayers) : cfg.walkHead i = cfg.walkHead (i + 1) := by
  simp only [walkHead, hi, Nat.lt_of_succ_lt hi]

/-- The head behind a last layer. -/
lemma walkHead_last {l : LayerConfig} (hi : i < cfg.numLayers)
    (hl : cfg.layers[cfg.numLayers - 1]? = some l) :
    cfg.walkHead i = if l.layerType = .moeFfn then [] else [.finalNorm, .lmHead] := by
  simp only [walkHead, endsInMoeFfn, hl, hi, Option.any_some, true_and, decide_eq_false_iff_not]
  split_ifs <;> rfl

/-- What the walk is to dispatch from layer `i` on. -/
def walkBlocks (cfg : ModelConfig) (i : ℕ) : List Block :=
  cfg.layerBlocks i cfg.numLayers ++ cfg.walkHead i

/-- The walk at a layer. -/
lemma layerWalk_of_lt {l : LayerConfig} (hlt : i < cfg.numLayers) (hl : cfg.layers[i]? = some l) :
    cfg.layerWalk n i =
      if l.layerType = .moeFfn then
        (cfg.layerWalk n (i + 1)).bind fun rest => some (.moeFfn i :: rest)
      else if mixerWithMoe l then
        (cfg.compilePrefillSegmentPaged n i (i + 1) false).bind fun mixer =>
          (if i + 1 = cfg.numLayers then compileFinalNormLmHead n else some []).bind fun last =>
            (cfg.layerWalk n (i + 1)).bind fun rest =>
              some (dispatchViaWorker mixer ++ .moeFfn i :: (dispatchViaWorker last ++ rest))
      else
        (cfg.compilePrefillSegmentPaged n i (cfg.spanEnd i) (cfg.spanEnd i = cfg.numLayers)).bind
          fun span => (cfg.layerWalk n (cfg.spanEnd i)).bind fun rest =>
            some (dispatchViaWorker span ++ rest) := by
  rw [layerWalk, dif_pos hlt]
  split
  · rename_i hnone
    exact absurd (hl.symm.trans hnone) (by simp)
  · rename_i l' hl'
    obtain rfl := Option.some.inj (hl.symm.trans hl')
    by_cases ht : l.layerType = .moeFfn
    · rw [dif_pos ht, if_pos ht]
      rfl
    · by_cases hmoe : mixerWithMoe l = true
      · rw [dif_neg ht, if_neg ht, dif_pos hmoe, if_pos hmoe]
        rfl
      · rw [dif_neg ht, if_neg ht, dif_neg hmoe, if_neg hmoe]
        rfl

/-- A MoE layer of its own: only the host's dispatch. -/
lemma layerWalk_moeFfn {l : LayerConfig} (hlt : i < cfg.numLayers) (hl : cfg.layers[i]? = some l)
    (hparsed : Parsed l) (ht : l.layerType = .moeFfn)
    (hnext : cfg.layerWalk n (i + 1) = some (cfg.walkBlocks (i + 1))) :
    cfg.layerWalk n i = some (cfg.walkBlocks i) := by
  have hblock : cfg.blocksAt i = [.moeFfn i] := by
    have hffn : isMoe l.ffnType = true := by simpa [Parsed, ht] using hparsed
    rw [blocksAt_eq hl, ht]
    cases hf : l.ffnType <;> simp_all [mixerBlocks, ffnBlocks]
  have hhead : cfg.walkHead i = cfg.walkHead (i + 1) := by
    by_cases hlast : i + 1 = cfg.numLayers
    · have hi : cfg.numLayers - 1 = i := by omega
      rw [walkHead_last hlt (by rw [hi]; exact hl), if_pos ht, hlast, walkHead_numLayers]
    · exact walkHead_succ (by omega)
  rw [layerWalk_of_lt hlt hl, if_pos ht, hnext, walkBlocks, walkBlocks, layerBlocks_cons hlt,
    hblock, hhead]
  rfl

/-- A mixer with a MoE FFN: its own program, the host's dispatch, and the head if it is last. -/
lemma layerWalk_mixer {l : LayerConfig} (h : cfg.Walkable) (hn : 0 < n) (hlt : i < cfg.numLayers)
    (hl : cfg.layers[i]? = some l) (ht : l.layerType ≠ .moeFfn) (hmoe : mixerWithMoe l = true)
    (hnext : cfg.layerWalk n (i + 1) = some (cfg.walkBlocks (i + 1))) :
    cfg.layerWalk n i = some (cfg.walkBlocks i) := by
  have hffn : ffnBlocks i l.ffnType = [.moeFfn i] := by
    cases hf : l.ffnType <;> simp_all [mixerWithMoe, ffnBlocks]
  have hlayer : cfg.segmentLayers (List.range' i (i + 1 - i)) (cfg.countersAt i) =
      some (cfg.mixerBlocks i l.layerType) := by
    rw [Nat.add_sub_cancel_left]
    simp only [List.range'_one, segmentLayers, hl, segmentLayer_mixer hmoe, Option.bind_eq_bind,
      Option.bind_some, Option.pure_def, List.append_nil]
  obtain ⟨mixer, hmixer, hdispatch⟩ := exists_segment false hn
    (h.length_eq ▸ Nat.le_of_lt hlt) hlayer (halt_notMem_mixerBlocks _)
  have hhead : ∃ last, (if i + 1 = cfg.numLayers then compileFinalNormLmHead n else some []) =
      some last ∧ dispatchViaWorker last ++ cfg.walkBlocks (i + 1) =
        cfg.layerBlocks (i + 1) cfg.numLayers ++ cfg.walkHead i := by
    by_cases hlast : i + 1 = cfg.numLayers
    · obtain ⟨last, hlast', hdisp⟩ := exists_head hn
      have hi : cfg.numLayers - 1 = i := by omega
      refine ⟨last, by rw [if_pos hlast, hlast'], ?_⟩
      rw [hdisp, walkBlocks, hlast, layerBlocks_self, walkHead_numLayers,
        walkHead_last hlt (by rw [hi]; exact hl), if_neg ht]
      rfl
    · refine ⟨[], by rw [if_neg hlast], ?_⟩
      rw [walkBlocks, ← walkHead_succ (by omega : i + 1 < cfg.numLayers)]
      rfl
  obtain ⟨last, hlast, hrest⟩ := hhead
  rw [layerWalk_of_lt hlt hl, if_neg ht, if_pos hmoe, hmixer, hlast, hnext, Option.bind_some,
    Option.bind_some, Option.bind_some, hdispatch, hrest, walkBlocks, layerBlocks_cons hlt,
    blocksAt_eq hl, hffn]
  simp

/-- A span of plain layers: one program, with the head if it reaches the end. -/
lemma layerWalk_span {l : LayerConfig} (h : cfg.Walkable) (hn : 0 < n) (hlt : i < cfg.numLayers)
    (hl : cfg.layers[i]? = some l) (ht : l.layerType ≠ .moeFfn) (hmoe : ¬ mixerWithMoe l = true)
    (hnext : cfg.layerWalk n (cfg.spanEnd i) = some (cfg.walkBlocks (cfg.spanEnd i))) :
    cfg.layerWalk n i = some (cfg.walkBlocks i) := by
  have hstop := spanEnd_le (Nat.le_of_lt hlt)
  have hgt := cfg.lt_spanEnd hlt hl (by simp [ht, hmoe])
  have hlen : i + (cfg.spanEnd i - i) = cfg.spanEnd i := by omega
  have hplain : ∀ j, i ≤ j → j < i + (cfg.spanEnd i - i) → ∀ l, cfg.layers[j]? = some l →
      Plain l :=
    fun j hj hjk l hl => plain_of_lt_spanEnd hj (hlen ▸ hjk) hl
  have hlayers := segmentLayers_eq h (by omega) hplain
  rw [hlen] at hlayers
  obtain ⟨span, hspan, hdispatch⟩ := exists_segment
    (decide (cfg.spanEnd i = cfg.numLayers)) hn (h.length_eq ▸ Nat.le_of_lt hlt) hlayers
    halt_notMem_layerBlocks
  have hhead : (if decide (cfg.spanEnd i = cfg.numLayers) = true then
      [Block.finalNorm, .lmHead] else []) ++ cfg.walkBlocks (cfg.spanEnd i) =
        cfg.layerBlocks (cfg.spanEnd i) cfg.numLayers ++ cfg.walkHead i := by
    by_cases hlast : cfg.spanEnd i = cfg.numLayers
    · obtain ⟨l', hl', -, -⟩ := h.exists_layer (by omega : cfg.numLayers - 1 < cfg.numLayers)
      have hplain' : Plain l' := plain_of_lt_spanEnd (i := i) (by omega) (by omega) hl'
      have ht' : l'.layerType ≠ .moeFfn := fun heq => hplain' (by simp [heq])
      rw [if_pos (by simpa using hlast), walkBlocks, hlast, layerBlocks_self, walkHead_numLayers,
        walkHead_last hlt hl', if_neg ht']
      rfl
    · rw [if_neg (by simpa using hlast), walkBlocks]
      simp only [walkHead, hlt, (by omega : cfg.spanEnd i < cfg.numLayers), List.nil_append]
  rw [layerWalk_of_lt hlt hl, if_neg ht, if_neg hmoe, hspan, hnext, Option.bind_some,
    Option.bind_some, hdispatch, List.append_assoc, hhead, walkBlocks,
    ← layerBlocks_append (Nat.le_of_lt hgt) hstop, List.append_assoc]

/-- **The walk dispatches every layer once, in order**, and the head unless the last layer is a MoE
layer of its own. -/
lemma layerWalk_eq (h : cfg.Walkable) (hn : 0 < n) (hi : i ≤ cfg.numLayers) :
    cfg.layerWalk n i = some (cfg.walkBlocks i) := by
  induction hd : cfg.numLayers - i using Nat.strongRecOn generalizing i with
  | ind d ih =>
      rcases Nat.eq_or_lt_of_le hi with rfl | hlt
      · rw [layerWalk, dif_neg (Nat.lt_irrefl _), walkBlocks, layerBlocks_self, walkHead_numLayers]
        rfl
      obtain ⟨l, hl, hparsed, hconv⟩ := h.exists_layer hlt
      have hnext := ih (cfg.numLayers - (i + 1)) (by omega) (i := i + 1) hlt rfl
      by_cases ht : l.layerType = .moeFfn
      · exact layerWalk_moeFfn hlt hl hparsed ht hnext
      by_cases hmoe : mixerWithMoe l = true
      · exact layerWalk_mixer h hn hlt hl ht hmoe hnext
      have hgt := cfg.lt_spanEnd hlt hl (by simp [ht, hmoe])
      have hstop := spanEnd_le hi
      exact layerWalk_span h hn hlt hl ht hmoe
        (ih (cfg.numLayers - cfg.spanEnd i) (by omega) hstop rfl)

/-- What both programs apply: the embedding, every layer, the final norm and the head. -/
def modelBlocks (cfg : ModelConfig) : List Block :=
  .embedding :: (cfg.layerBlocks 0 cfg.numLayers ++ [.finalNorm, .lmHead])

/-- The driver applies the model. -/
lemma prefillMixedChunkPaged_eq (h : cfg.Walkable) (hlayers : 0 < cfg.numLayers) (hn : 0 < n) :
    cfg.prefillMixedChunkPaged n = some cfg.modelBlocks := by
  obtain ⟨l, hl, -, -⟩ := h.exists_layer (by omega : cfg.numLayers - 1 < cfg.numLayers)
  have hlast : ∃ last, (if l.layerType = .moeFfn then compileFinalNormLmHead n else some []) =
      some last ∧ cfg.walkHead 0 ++ dispatchViaWorker last = [.finalNorm, .lmHead] := by
    rw [walkHead_last hlayers hl]
    by_cases ht : l.layerType = .moeFfn
    · obtain ⟨last, hlast, hdisp⟩ := exists_head hn
      exact ⟨last, by rw [if_pos ht, hlast], by rw [if_pos ht, hdisp]; rfl⟩
    · exact ⟨[], by rw [if_neg ht], by rw [if_neg ht]; rfl⟩
  obtain ⟨last, hlast, hhead⟩ := hlast
  simp only [prefillMixedChunkPaged, layerWalk_eq h hn (Nat.zero_le _), hl, hlast,
    Option.bind_eq_bind, Option.bind_some]
  rw [walkBlocks, List.append_assoc, hhead]
  rfl

/-! ### The decode program -/

/-- The layer loop of the decode compiler. -/
lemma decodeLayers_eq (h : cfg.Walkable) {multiGpu expertsLoaded : Bool}
    (hloaded : multiGpu = true ∨ expertsLoaded = true) (hk : i + k ≤ cfg.numLayers) :
    cfg.decodeLayers multiGpu expertsLoaded (List.range' i k) (cfg.countersAt i) =
      some (cfg.layerBlocks i (i + k)) := by
  have hffn : ∀ j ffn, decodeFfn multiGpu expertsLoaded j ffn = ffnBlocks j ffn := by
    intro j ffn
    rcases hloaded with rfl | rfl
    · cases ffn <;> rfl
    · cases ffn <;> cases multiGpu <;> rfl
  induction k generalizing i with
  | zero => rw [Nat.add_zero, layerBlocks_self]; rfl
  | succ k ih =>
      obtain ⟨l, hl, -, hconv⟩ := h.exists_layer (by omega : i < cfg.numLayers)
      have hmixer : decodeMixer (cfg.countersAt i) i l.layerType =
          some (cfg.mixerBlocks i l.layerType) := by
        cases ht : l.layerType with
        | lfmConv => exact absurd ht hconv
        | attention => rfl
        | gdn => rfl
        | mamba2 => rfl
        | moeFfn => rfl
      have hrest := ih (i := i + 1) (by omega)
      simp only [List.range'_succ, decodeLayers, hl, hmixer, countersAt_succ hl, hrest, hffn,
        Option.bind_eq_bind, Option.bind_some]
      rw [layerBlocks_cons (by omega : i < i + (k + 1)), blocksAt_eq hl,
        show i + 1 + k = i + (k + 1) by omega]
      rfl

lemma compileInner_eq (h : cfg.Walkable) {multiGpu expertsLoaded : Bool}
    (hloaded : multiGpu = true ∨ expertsLoaded = true) :
    cfg.compileInner multiGpu expertsLoaded = some (cfg.modelBlocks ++ [.halt]) := by
  have hlayers := decodeLayers_eq (i := 0) h hloaded
    (show 0 + cfg.numLayers ≤ cfg.numLayers by omega)
  rw [Nat.zero_add] at hlayers
  rw [compileInner, List.range_eq_range', show (⟨0, 0, 0⟩ : Counters) = cfg.countersAt 0 from rfl,
    hlayers, Option.bind_eq_bind, Option.bind_some, modelBlocks]
  simp

end ModelConfig

open ModelConfig in
/-- **Prefill applies each layer once.**  For every configuration of a MoE model without `LfmConv`
layers and every chunk, the driver applies the embedding, each layer's mixer and FFN in layer
order, on the state whose index is the number of earlier layers of its type, and the final norm and
the head; the decode program of `compile_inner` applies the same.  The experts are loaded on one
GPU and distributed over several. -/
theorem prefill_applies_each_layer_once (r : RawConfig) (hr : 0 < r.moe.numExperts)
    (cfg : ModelConfig) (hcfg : r.fromConfigValue = some cfg)
    (hlen : cfg.layers.length = cfg.numLayers) (hlayers : 0 < cfg.numLayers)
    (hconv : ∀ l ∈ cfg.layers, l.layerType ≠ .lfmConv) (n : ℕ) (hn : 0 < n) (multiGpu : Bool) :
    cfg.prefillMixedChunkPaged n =
      some (.embedding :: ((List.range cfg.numLayers).flatMap cfg.blocksAt ++
        [.finalNorm, .lmHead])) ∧
    cfg.compileInner multiGpu (!multiGpu) =
      some (.embedding :: ((List.range cfg.numLayers).flatMap cfg.blocksAt ++
        [.finalNorm, .lmHead]) ++ [.halt]) := by
  have hwalk : cfg.Walkable := ⟨hlen, r.parsed hr hcfg, hconv⟩
  have hblocks : cfg.modelBlocks = .embedding ::
      ((List.range cfg.numLayers).flatMap cfg.blocksAt ++ [.finalNorm, .lmHead]) := by
    rw [modelBlocks, layerBlocks, Nat.sub_zero, ← List.range_eq_range']
  rw [← hblocks]
  exact ⟨prefillMixedChunkPaged_eq hwalk hlayers hn,
    compileInner_eq hwalk (by cases multiGpu <;> simp)⟩

/-- A pattern with a span of two layers between two MoE layers. -/
def mambaMoe : RawConfig where
  numLayers := 4
  moe := ⟨8, 2, 0, 16, 0, .softmax⟩
  layerTypes := none
  hybridOverridePattern := none
  layersBlockType := some ["moe", "mamba", "attention", "moe"]
  fullAttentionInterval := none

/-- The layers of `mambaMoe`. -/
def mambaMoeLayers : ModelConfig :=
  ⟨4, [⟨.moeFfn, .moe mambaMoe.moe⟩, ⟨.mamba2, .none⟩, ⟨.attention, .none⟩,
    ⟨.moeFfn, .moe mambaMoe.moe⟩]⟩

/-- Prefill of `mambaMoe`, for three tokens on one GPU. -/
theorem prefill_applies_each_layer_once_mambaMoe :
    mambaMoe.fromConfigValue = some mambaMoeLayers ∧
    mambaMoeLayers.prefillMixedChunkPaged 3 =
      some [.embedding, .moeFfn 0, .mamba2 1 0, .attention 2 0, .moeFfn 3, .finalNorm, .lmHead] :=
  ⟨rfl, (prefill_applies_each_layer_once mambaMoe (by decide) mambaMoeLayers rfl rfl (by decide)
    (by decide) 3 (by decide) false).1⟩


end Braidinfer.Engine.MixedPrefill
