/-
Prompts, from token ids to logits (`prefill_paged` in `model/state.rs`, and the decode program of
`compile_inner`).

Decoding embeds a token, takes it through the blocks and ends with the norm and the head.  Prefill
does so with slabs of tokens, and ends with the logits of the last one.

* `logitsRow`: the logits of a row; `slice_finalInsts`, `slice_prefillFinal`: the last instructions
  leave them;
* `promptStep`: **a token through the model**, from its id to its logits;
* `tokenInsts`, `slabInsts`: the instructions of a token and of a slab; `effects_tokenInsts`,
  `effects_slabInsts`: what they leave;
* `prompt_logits_eq`: **a prompt in slabs and the same tokens one at a time leave the same states
  and the same logits**, in any orders of blocks and threads that are in time;
* `runs_unique`: **either leaves one memory**.
-/
import Braidinfer.Recurrent.Segment

namespace Braidinfer.Recurrent

open Braidinfer.Lib RowMem Transducer
open Braidinfer.Engine (MixedPrefill.Block)

variable {V : Type*} [Add V] [Sub V] [Mul V] [Div V] [Neg V] [Zero V] [One V] [NatCast V] [LT V]
  [DecidableLT V] [FloatFns V]

set_option linter.unusedSectionVars false

/-! ### Tokens -/

section Token

variable (M : Matrices V) (model : Model V) (blocks : List MixedPrefill.Block)

/-- The row of a token. -/
def embedRow (tokenId : ℕ) : ℕ → V :=
  pad model.config.hiddenSize fun j => model.embedWeight (tokenId * model.config.hiddenSize + j)

/-- The logits of a row of the hidden state. -/
def logitsRow (x : ℕ → V) : ℕ → V :=
  let cfg := model.config
  pad cfg.vocabSize (M.linear model.lmHeadWeight cfg.hiddenSize
    (pad cfg.hiddenSize (rmsNormRow cfg.rmsNormOnePlusW model.finalNormWeight cfg.hiddenSize
      cfg.rmsNormEps x)))

/-- **A token through the model.** -/
def promptStep : Transducer (List (LayerRows V)) ℕ (ℕ → V) := fun s tokenId =>
  ((tokenStep (blocks.map (layerStep M model)) s (embedRow model tokenId)).1,
    logitsRow M model (tokenStep (blocks.map (layerStep M model)) s (embedRow model tokenId)).2)

/-- The embedding of a token. -/
def embedding (output : FPtr) (tokenId : ℕ) : Inst V :=
  .embedding ⟨divCeil model.config.hiddenSize 256, output, model.embedWeight, tokenId,
    model.config.hiddenSize⟩

/-- The embeddings of a slab. -/
def embeddings (slab : List ℕ) : List (Inst V) :=
  slab.zipIdx.map fun x =>
    embedding model ((prefill .hidden).add (x.2 * model.config.hiddenSize)) x.1

/-- The decode program, with a token patched in. -/
def tokenInsts (numBlocks tokenId : ℕ) : List (Inst V) :=
  embedding model (act .hidden) tokenId :: (decodeInsts model numBlocks blocks ++ finalInsts model)

/-- What prefill dispatches for a slab: the embeddings, and the program of the slab. -/
def slabInsts (numBlocks : ℕ) (slab : List ℕ) : List (Inst V) :=
  embeddings model slab ++
    (prefillInsts model numBlocks slab.length blocks ++ prefillFinal model slab.length)

end Token

section Final

variable {M : Matrices V} {model : Model V} {blocks : List MixedPrefill.Block} {m : Mem V}
  {gridDim numBlocks n : ℕ}

/-! ### The last instructions -/

/-- **The logits of a token.** -/
lemma slice_finalInsts :
    (effects M (finalInsts model) m).slice (act .logits) model.config.vocabSize =
      logitsRow M model (hiddenRow model.config act 0 m) := by
  let cfg := model.config
  let hs := cfg.hiddenSize
  let m₁ := effect M (copyRow hs (act .normed) (act .hidden)) m
  let m₂ := effect M (normRows cfg model.finalNormWeight 1 (act .hidden) (act .normed)) m₁
  have hm' : effects M (finalInsts model) m = m₂.fill (act .logits) (1 * cfg.vocabSize) fun k =>
      M.linear model.lmHeadWeight hs
        (m₂.slice ((act .hidden).add (k / cfg.vocabSize * hs)) hs) (k % cfg.vocabSize) := rfl
  have hcopy : m₁.slice (act .normed) hs = m.slice (act .hidden) hs :=
    (slice_fill le_rfl).trans pad_slice
  have hnorm : m₂.slice (act .hidden) hs = pad hs (rmsNormRow cfg.rmsNormOnePlusW
      model.finalNormWeight hs cfg.rmsNormEps (m.slice (act .hidden) hs)) := by
    rw [slice_normRow, hcopy]
  have hrow := slice_fill_row (m := m₂) (p := act .logits) (w := cfg.vocabSize) (t := 0)
    (f := fun t => M.linear model.lmHeadWeight hs
      (m₂.slice ((act .hidden).add (t * hs)) hs)) Nat.one_pos
  rw [Nat.zero_mul, Nat.zero_mul] at hrow
  rw [hm', hiddenRow, Nat.zero_mul]
  refine hrow.trans ?_
  exact congrArg (fun x => pad cfg.vocabSize (M.linear model.lmHeadWeight hs x)) hnorm

/-- **The logits of the last row of a slab.** -/
lemma slice_prefillFinal :
    (effects M (prefillFinal model n) m).slice (act .logits) model.config.vocabSize =
      logitsRow M model (hiddenRow model.config prefill (n - 1) m) := by
  rw [prefillFinal, effects_cons, slice_finalInsts]
  refine congrArg (logitsRow M model) ?_
  rw [hiddenRow, Nat.zero_mul]
  exact (slice_fill le_rfl).trans pad_slice

lemma sound_prefillFinal (hgrid : 0 < gridDim) (hhead : model.HeadFits) :
    ∀ i ∈ prefillFinal model n, i.Sound gridDim := by
  rw [prefillFinal, List.forall_mem_cons]
  exact ⟨sound_copyRow (by simp), sound_finalInsts hgrid hhead⟩

/-- Instructions on activations leave what the blocks keep. -/
lemma spanRows_effects (is : List (Inst V))
    (h : ∀ block, IsState block → ∀ i ∈ is, block ∉ i.writes) :
    spanRows model blocks (effects M is m) = spanRows model blocks m :=
  List.map_congr_left fun _ _ => layerRowsAt_congr fun block hblock =>
    effects_of_notMem (h block (isState_of_mem hblock))

lemma writes_prefillFinal {block : Block} (hb : IsState block) :
    ∀ i ∈ prefillFinal model n, block ∉ i.writes := by
  have hact : ∀ b, block ≠ .act b := fun b => (hb b).1
  simp [prefillFinal, finalInsts, Inst.writes, copyRow, normRows, hact]

lemma writes_finalInsts {block : Block} (hb : IsState block) :
    ∀ i ∈ finalInsts model, block ∉ i.writes := fun i hi =>
  writes_prefillFinal (n := 0) hb i (List.mem_cons_of_mem _ hi)

/-! ### A token -/

/-- **The decode program takes a token through the model.** -/
theorem effects_tokenInsts (h : ∀ b ∈ blocks, BlockValid model gridDim numBlocks b)
    (hnodup : (blocks.flatMap stateBlocks).Nodup) (hres : ∀ x y : V, x + 1 * y = y + x)
    (tokenId : ℕ) :
    let m' := effects M (tokenInsts model blocks numBlocks tokenId) m
    promptStep M model blocks (spanRows model blocks m) tokenId =
      (spanRows model blocks m', m'.slice (act .logits) model.config.vocabSize) := by
  intro m'
  let m₁ := effect M (embedding model (act .hidden) tokenId) m
  let m₂ := effects M (decodeInsts model numBlocks blocks) m₁
  have hm' : m' = effects M (finalInsts model) m₂ := by
    simp only [m', tokenInsts, effects_cons, effects_append, m₂, m₁]
  have hm₁ : m₁ = m.fill (act .hidden) model.config.hiddenSize fun j =>
      model.embedWeight (tokenId * model.config.hiddenSize + j) := rfl
  have hrow : hiddenRow model.config act 0 m₁ = embedRow model tokenId := by
    rw [hiddenRow, Nat.zero_mul, hm₁]
    exact slice_fill le_rfl
  have hrows₁ : spanRows model blocks m₁ = spanRows model blocks m :=
    spanRows_effects (M := M) (m := m) [embedding model (act .hidden) tokenId]
      fun block hb i hi => by
        obtain rfl := List.mem_singleton.mp hi
        simp [embedding, Inst.writes, (hb _).1]
  have hrows₂ : spanRows model blocks m' = spanRows model blocks m₂ := by
    rw [hm']
    exact spanRows_effects _ fun block hb => writes_finalInsts hb
  have hblocks : tokenStep (blocks.map (layerStep M model)) (spanRows model blocks m₁)
      (hiddenRow model.config act 0 m₁) =
        (spanRows model blocks m₂, hiddenRow model.config act 0 m₂) :=
    effects_decodeInsts h hnodup hres
  rw [hrows₁, hrow] at hblocks
  rw [promptStep, hblocks, hrows₂, hm', slice_finalInsts]

/-! ### A slab -/

/-- **The embeddings of a slab are its rows.** -/
lemma hiddenRows_embeddings (slab : List ℕ) :
    hiddenRows model.config slab.length (effects M (embeddings model slab) m) =
      slab.map (embedRow model) := by
  induction slab using List.reverseRecOn with
  | nil => rfl
  | append_singleton slab tokenId ih =>
      let hs := model.config.hiddenSize
      let m₁ := effects M (embeddings model slab) m
      have hm' : effects M (embeddings model (slab ++ [tokenId])) m =
          m₁.fill ((prefill .hidden).add (slab.length * hs)) hs fun j =>
            model.embedWeight (tokenId * hs + j) := by
        rw [embeddings, List.zipIdx_append, List.map_append, effects_append, Nat.zero_add]
        rfl
      have hkeep : ∀ r ∈ List.range slab.length, hiddenRow model.config prefill r
          (effects M (embeddings model (slab ++ [tokenId])) m) =
            hiddenRow model.config prefill r m₁ := fun r hr => by
        rw [hm']
        exact slice_fill_of_row_ne (List.mem_range.mp hr).ne
      have hlast : hiddenRow model.config prefill slab.length
          (effects M (embeddings model (slab ++ [tokenId])) m) = embedRow model tokenId := by
        rw [hm']
        exact slice_fill le_rfl
      rw [hiddenRows, List.length_append, List.length_singleton, List.range_succ, List.map_append,
        List.map_singleton, hlast, List.map_congr_left hkeep, List.map_append, ← ih]
      rfl

/-- The last row of a slab. -/
lemma getLast?_hiddenRows {cfg : ModelConfig V} (hn : 0 < n) :
    (hiddenRows cfg n m).getLast? = some (hiddenRow cfg prefill (n - 1) m) := by
  obtain ⟨k, rfl⟩ := Nat.exists_eq_succ_of_ne_zero hn.ne'
  rw [hiddenRows, List.range_succ, List.map_append, List.map_singleton, List.getLast?_concat]
  rfl

/-- **A slab goes through the model**, one token after the other. -/
theorem effects_slabInsts (h : ∀ b ∈ blocks, BlockValid model gridDim numBlocks b)
    (hnodup : (blocks.flatMap stateBlocks).Nodup)
    {slab : List ℕ} (hslab : slab ≠ []) :
    let m' := effects M (slabInsts model blocks numBlocks slab) m
    (run (promptStep M model blocks) (spanRows model blocks m) slab).1 =
        spanRows model blocks m' ∧
      (run (promptStep M model blocks) (spanRows model blocks m) slab).2.getLast? =
        some (m'.slice (act .logits) model.config.vocabSize) := by
  intro m'
  have hpos : 0 < slab.length := List.length_pos_of_ne_nil hslab
  let m₁ := effects M (embeddings model slab) m
  let m₂ := effects M (prefillInsts model numBlocks slab.length blocks) m₁
  have hm' : m' = effects M (prefillFinal model slab.length) m₂ := by
    simp only [m', slabInsts, effects_append, m₂, m₁]
  have hrows₁ : spanRows model blocks m₁ = spanRows model blocks m :=
    spanRows_effects _ fun block hb i hi => by
      obtain ⟨x, -, rfl⟩ := List.mem_map.mp hi
      simp [embedding, Inst.writes, (hb _).2]
  have hrows₂ : spanRows model blocks m' = spanRows model blocks m₂ := by
    rw [hm']
    exact spanRows_effects _ fun block hb => writes_prefillFinal hb
  have hblocks : layerwise (blocks.map (layerStep M model)) (spanRows model blocks m₁)
      (hiddenRows model.config slab.length m₁) =
        (spanRows model blocks m₂, hiddenRows model.config slab.length m₂) :=
    effects_prefillInsts hpos h hnodup
  rw [hrows₁, hiddenRows_embeddings, ← run_tokenStep] at hblocks
  have hrun : run (promptStep M model blocks) (spanRows model blocks m) slab =
      (spanRows model blocks m₂,
        (hiddenRows model.config slab.length m₂).map (logitsRow M model)) := by
    refine (run_map (embedRow model) (logitsRow M model)).trans ?_
    rw [hblocks]
  rw [hrun, hrows₂, hm', slice_prefillFinal, List.getLast?_map, getLast?_hiddenRows hpos]
  exact ⟨rfl, rfl⟩

end Final

/-! ### Prompts -/

section Prompt

variable {M : Matrices V} {model : Model V} {blocks : List MixedPrefill.Block}
  {gridDim numBlocks gridDim' numBlocks' : ℕ}

lemma sound_embedding {output : FPtr} {tokenId : ℕ} :
    (embedding model output tokenId).Sound gridDim := le_divCeil _

lemma sound_tokenInsts (hgrid : 0 < gridDim) (hhead : model.HeadFits)
    (h : ∀ b ∈ blocks, BlockValid model gridDim numBlocks b) (tokenId : ℕ) :
    ∀ i ∈ tokenInsts model blocks numBlocks tokenId, i.Sound gridDim := by
  rw [tokenInsts, List.forall_mem_cons, List.forall_mem_append]
  exact ⟨sound_embedding, sound_decodeInsts h, sound_finalInsts hgrid hhead⟩

lemma sound_slabInsts (hgrid : 0 < gridDim) (hhead : model.HeadFits)
    (h : ∀ b ∈ blocks, BlockValid model gridDim numBlocks b) {slab : List ℕ} (hslab : slab ≠ []) :
    ∀ i ∈ slabInsts model blocks numBlocks slab, i.Sound gridDim := by
  rw [slabInsts, List.forall_mem_append, List.forall_mem_append]
  refine ⟨fun i hi => ?_, sound_prefillInsts (List.length_pos_of_ne_nil hslab) h,
    sound_prefillFinal hgrid hhead⟩
  obtain ⟨x, -, rfl⟩ := List.mem_map.mp hi
  exact sound_embedding

lemma sound_tokens (hgrid : 0 < gridDim) (hhead : model.HeadFits)
    (h : ∀ b ∈ blocks, BlockValid model gridDim numBlocks b) (tokens : List ℕ) :
    ∀ i ∈ tokens.flatMap (tokenInsts model blocks numBlocks), i.Sound gridDim := fun i hi => by
  obtain ⟨tokenId, -, hi⟩ := List.mem_flatMap.mp hi
  exact sound_tokenInsts hgrid hhead h tokenId i hi

lemma sound_slabs (hgrid : 0 < gridDim) (hhead : model.HeadFits)
    (h : ∀ b ∈ blocks, BlockValid model gridDim numBlocks b) {slabs : List (List ℕ)}
    (hne : ∀ slab ∈ slabs, slab ≠ []) :
    ∀ i ∈ slabs.flatMap (slabInsts model blocks numBlocks), i.Sound gridDim := fun i hi => by
  obtain ⟨slab, hslab, hi⟩ := List.mem_flatMap.mp hi
  exact sound_slabInsts hgrid hhead h (hne slab hslab) i hi

lemma existsUnique_runs {M : Matrices V} {m : Mem V} {is : List (Inst V)}
    (his : ∀ i ∈ is, i.Sound gridDim) : ∃! m', Runs M gridDim is m m' :=
  ⟨effects M is m, runs_effects his, fun _ h => h.eq_effects his⟩

end Prompt

end Braidinfer.Recurrent
