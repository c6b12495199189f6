/-
The loop of `bqnt_quantize.rs` over the shards of a model directory.

* `quantizeTensor`, `quantizeAll`: what is written, tensor by tensor;
* `AllFaithful`: every tensor is read faithfully; `SameFiles`: two directories give the same;
* `quantizeFrom_spec`: **the bytes under a name are those of the tensor with that name**;
* `sourceTensors_iff`: **two directories of the same tensors are read faithfully, and give the same
  bytes, exactly if every tensor in both is of the kind that is**.
-/
import Braidinfer.Bqnt.Representable
import Braidinfer.Quant.PackedSizes
import Braidinfer.Quant.SourceTensors

namespace Braidinfer.Quant

open Braidinfer.Lib
open Braidinfer.Bqnt (Tensor StorageDtype lastWritten)
open Braidinfer.Loader (StTensor Shard fromWeightFormat)
open Braidinfer.Moe (WeightFormat ModelError)
open BinaryFormat (binary32 bfloat16 e4m3)

/-! ### The loop -/

/-- `BF16_PATTERNS` -/
def bf16Patterns : List String :=
  ["gate.weight", "e_score_correction_bias", "embed_tokens.weight", "lm_head.weight"]

/-- `SKIP_PATTERNS` -/
def skipPatterns : List String :=
  ["layernorm.weight", "norm.weight", "A_log", "dt_bias", "in_proj_a.weight", "in_proj_b.weight",
    "conv1d.weight", "conv1d.bias", "qscale_weight", "qscale_act", "weight_scale_inv",
    "activation_scale"]

/-- `should_skip` -/
def shouldSkip (name : String) : Bool := skipPatterns.any fun p => Text.contains name p

/-- `should_bf16` -/
def shouldBf16 (name : String) : Bool := bf16Patterns.any fun p => Text.contains name p

/-- `default_format` and `is_mixed` -/
structure QuantizeArgs where
  defaultFormat : WeightFormat
  isMixed : Bool

/-- `fmt` -/
def tensorFormat (args : QuantizeArgs) (name : String) (nonQuantized : Bool) : WeightFormat :=
  if shouldBf16 name || nonQuantized then .bf16
  else if args.isMixed then
    if Text.contains name "experts." || Text.contains name "shared_expert" ||
        Text.contains name "mlp." then .pcG32Q4
    else .rnf4G128
  else args.defaultFormat

section Loop

/- The pattern of a product that is no number is left open. -/
variable (nan : ℕ → ℕ → ℕ) (arith : GroupArith) (args : QuantizeArgs)

/-- `non_quantized` -/
def nonQuantized (name : String) (t : StTensor) : Bool := t.shape.length < 2 || shouldSkip name

/-- The arguments of `write_tensor`. -/
def outTensor (name : String) (t : StTensor) (format : StorageDtype) (data : List UInt8) :
    Tensor where
  name := name
  format := format
  outFeatures := .ofNat (outDim t.shape)
  inFeatures := .ofNat (inDim t.shape)
  ndim := .ofNat t.shape.length
  data := data

/-- One turn of the loop: what is written, if anything. -/
def quantizeTensor (safetensors : Shard) (name : String) (t : StTensor) :
    Except ModelError (Option Tensor) :=
  if t.shape.length = 0 then .ok none
  else if nonQuantized name t && t.dtype = .f32 then
    .ok (some (outTensor name t .f32 (t.data.take (nElements t.shape * 4))))
  else
    match bf16Matrix nan safetensors name t with
    | .error e => .error e
    | .ok none => .ok none
    | .ok (some bf16Slice) =>
        let fmt := tensorFormat args name (nonQuantized name t)
        match quantize arith fmt (bf16Slice.getD · 0) (outDim t.shape) (inDim t.shape) with
        | none => .error .panicked
        | some packed => .ok (some (outTensor name t (fromWeightFormat fmt) packed))

/-- The tensors of a directory, each with its shard. -/
def tensorsOf (dir : List Shard) : List (Shard × Sigma fun _ : String => StTensor) :=
  dir.flatMap fun shard => shard.entries.map fun e => (shard, e)

/-- The loop over tensors: what is written, in order. -/
def quantizeFrom : List (Shard × Sigma fun _ : String => StTensor) → Except ModelError (List Tensor)
  | [] => .ok []
  | (shard, ⟨name, t⟩) :: rest => do
      let written ← quantizeTensor nan arith args shard name t
      return written.toList ++ (← quantizeFrom rest)

/-- The loop over the shards. -/
def quantizeAll (dir : List Shard) : Except ModelError (List Tensor) :=
  quantizeFrom nan arith args (tensorsOf dir)

end Loop

/-! ### Directories -/

/-- Every tensor with a shape that is read from the directory is read faithfully. -/
def AllFaithful (nan : ℕ → ℕ → ℕ) (dir : List Shard) : Prop :=
  ∀ shard ∈ dir, ∀ e ∈ shard.entries, e.2.shape ≠ [] → ∀ g, Source dir e.1 e.2 g →
    Faithful nan dir shard e.1 e.2 g

/-- Every such tensor is one that is. -/
def AllReadRight (nan : ℕ → ℕ → ℕ) (dir : List Shard) : Prop :=
  ∀ shard ∈ dir, ∀ e ∈ shard.entries, e.2.shape ≠ [] → ∀ g, Source dir e.1 e.2 g →
    ReadsRight nan dir shard e.1 e.2 g

/-- The tensors of a directory, without their shards. -/
def sources (dir : List Shard) : List (Sigma fun _ : String => StTensor) :=
  dir.flatMap fun shard => shard.entries

/-- What is written is the same: the bytes of every tensor, but for fp8 tensors that are no such
source, and whether the loop ends, if there are none of these. -/
structure SameFiles (nan : ℕ → ℕ → ℕ) (arith : GroupArith) (args : QuantizeArgs)
    (dir dir' : List Shard) : Prop where
  bytes : ∀ ts ts', quantizeAll nan arith args dir = .ok ts →
    quantizeAll nan arith args dir' = .ok ts' → ∀ e ∈ sources dir,
      (IsFp8 e.2 → ∃ g, Source dir e.1 e.2 g) → lastWritten ts e.1 = lastWritten ts' e.1
  ends : (∀ e ∈ sources dir, IsFp8 e.2 → ∃ g, Source dir e.1 e.2 g) →
    ((∃ ts, quantizeAll nan arith args dir = .ok ts) ↔
      ∃ ts', quantizeAll nan arith args dir' = .ok ts')

section Directories

variable {nan : ℕ → ℕ → ℕ} {arith : GroupArith} {args : QuantizeArgs} {dir dir' : List Shard}
  {shard shard' : Shard} {name : String} {t : StTensor} {g : BinaryFormat}

lemma allFaithful_iff : AllFaithful nan dir ↔ AllReadRight nan dir :=
  forall₂_congr fun _ hshard => forall₂_congr fun _ _ => forall_congr' fun hne =>
    forall₂_congr fun _ h => h.faithful_iff nan hne hshard

/-- The scales are those of the same tensors. -/
lemma Source.scalesOf_eq (h : Source dir name t g) (hsame : (sources dir).Perm (sources dir'))
    (hfp8 : IsFp8 t) : scalesOf dir' name = scalesOf dir name := by
  have hperm : (scalesOf dir name).Perm (scalesOf dir' name) := (hsame.filter _).map _
  rcases h.scale hfp8 with hs | ⟨s, hs, -⟩
  · rw [hs] at hperm ⊢
    exact hperm.symm.eq_nil
  · rw [hs] at hperm ⊢
    exact List.perm_singleton.mp hperm.symm

lemma Source.of_perm (h : Source dir name t g) (hsame : (sources dir).Perm (sources dir')) :
    Source dir' name t g := by
  refine ⟨h.format, h.finite, h.memory, fun hfp8 => ?_⟩
  rw [h.scalesOf_eq hsame hfp8]
  exact h.scale hfp8

/-- Only fp8 tensors look at their shard. -/
lemma bf16Matrix_of_not_fp8 (hnot : ¬ IsFp8 t) :
    bf16Matrix nan shard name t = bf16Matrix nan shard' name t := by
  rw [bf16Matrix, bf16Matrix]
  split
  · rfl
  · rfl
  · rename_i hd
    exact absurd (.inl hd) hnot
  · rename_i hd
    exact absurd (.inr hd) hnot
  · rfl

/-- There is one faithful entry. -/
lemma EntryFaithful.unique {r x y y' : ℕ} (hscales : scalesOf dir' name = scalesOf dir name)
    (h : EntryFaithful nan dir name t g r x y) (h' : EntryFaithful nan dir' name t g r x y') :
    y = y' := by
  rw [EntryFaithful] at h h'
  split_ifs at h h' with hd
  · obtain ⟨c, rfl, hc⟩ := h
    obtain ⟨c', rfl, hc'⟩ := h'
    rw [hc.unique hc']
  · rw [hscales] at h'
    exact h.unique h'

/-- **There is one faithful matrix.** -/
lemma Faithful.unique (hscales : scalesOf dir' name = scalesOf dir name)
    (h : Faithful nan dir shard name t g) (h' : Faithful nan dir' shard' name t g) :
    bf16Matrix nan shard name t = bf16Matrix nan shard' name t := by
  obtain ⟨m, hm, hlen, hall⟩ := h
  obtain ⟨m', hm', hlen', hall'⟩ := h'
  rw [hm, hm']
  congr 2
  refine List.ext_getElem (hlen.trans hlen'.symm) fun i hi hi' => ?_
  have hin : 0 < inDim t.shape := Nat.pos_of_ne_zero fun h0 => by
    rw [hlen, h0, Nat.mul_zero] at hi
    cases hi
  have hrow : i / inDim t.shape < outDim t.shape :=
    Nat.div_lt_of_lt_mul (by rwa [Nat.mul_comm, ← hlen])
  have heq := (hall _ hrow _ (Nat.mod_lt i hin)).unique hscales
    (hall' _ hrow _ (Nat.mod_lt i hin))
  rwa [Nat.div_add_mod', List.getD_eq_getElem _ _ hi, List.getD_eq_getElem _ _ hi'] at heq

/-- **What is written for a tensor does not depend on the split.** -/
lemma quantizeTensor_eq (hsame : (sources dir).Perm (sources dir'))
    (hfaithful : AllFaithful nan dir) (hfaithful' : AllFaithful nan dir') (hshard : shard ∈ dir)
    (hshard' : shard' ∈ dir')
    {e : Sigma fun _ : String => StTensor} (he : e ∈ shard.entries) (he' : e ∈ shard'.entries)
    (hsource : IsFp8 e.2 → ∃ g, Source dir e.1 e.2 g) :
    quantizeTensor nan arith args shard e.1 e.2 = quantizeTensor nan arith args shard' e.1 e.2 := by
  rw [quantizeTensor, quantizeTensor]
  split_ifs with hrank
  · rfl
  · rfl
  have hne : e.2.shape ≠ [] := fun hnil => hrank (by rw [hnil]; rfl)
  have hmatrix : bf16Matrix nan shard e.1 e.2 = bf16Matrix nan shard' e.1 e.2 := by
    by_cases hfp8 : IsFp8 e.2
    · obtain ⟨g, h⟩ := hsource hfp8
      exact (hfaithful shard hshard e he hne g h).unique (h.scalesOf_eq hsame hfp8)
        (hfaithful' shard' hshard' e he' hne g (h.of_perm hsame))
    · exact bf16Matrix_of_not_fp8 hfp8
  rw [hmatrix]

lemma mem_sources {e : Sigma fun _ : String => StTensor} :
    e ∈ sources dir ↔ ∃ shard ∈ dir, e ∈ shard.entries := List.mem_flatMap

lemma mem_tensorsOf {p : Shard × Sigma fun _ : String => StTensor} :
    p ∈ tensorsOf dir ↔ p.1 ∈ dir ∧ p.2 ∈ p.1.entries := by
  obtain ⟨shard, e⟩ := p
  simp only [tensorsOf, List.mem_flatMap, List.mem_map, Prod.mk.injEq]
  constructor
  · rintro ⟨shard, hshard, e, he, rfl, rfl⟩
    exact ⟨hshard, he⟩
  · rintro ⟨hshard, he⟩
    exact ⟨shard, hshard, e, he, rfl, rfl⟩

lemma map_snd_tensorsOf (dir : List Shard) : (tensorsOf dir).map Prod.snd = sources dir := by
  rw [tensorsOf, sources, List.map_flatMap]
  refine congrArg (dir.flatMap ·) (funext fun shard => ?_)
  rw [List.map_map]
  exact List.map_id _

/-- What is written for a tensor has its name. -/
lemma quantizeTensor_name {T : Tensor}
    (h : quantizeTensor nan arith args shard name t = .ok (some T)) : T.name = name := by
  rw [quantizeTensor] at h
  split_ifs at h
  · cases h
  · obtain rfl := Option.some.inj (Except.ok.inj h)
    rfl
  split at h
  · cases h
  · cases h
  dsimp only at h
  split at h
  · cases h
  · obtain rfl := Option.some.inj (Except.ok.inj h)
    rfl

lemma lastWritten_append (ts ts' : List Tensor) (name : String) :
    lastWritten (ts ++ ts') name = (lastWritten ts' name).or (lastWritten ts name) := by
  rw [lastWritten, List.reverse_append, List.find?_append, Option.map_or]
  rfl

lemma lastWritten_of_not_mem {ts : List Tensor} (h : ∀ T ∈ ts, T.name ≠ name) :
    lastWritten ts name = none := by
  rw [lastWritten, Option.map_eq_none_iff, List.find?_eq_none]
  intro T hT
  rw [decide_eq_true_eq]
  exact h T (List.mem_reverse.mp hT)

/-- **The loop**: it ends if every turn does, and the bytes under a name are those of the tensor
with that name. -/
lemma quantizeFrom_spec {l : List (Shard × Sigma fun _ : String => StTensor)} {ts : List Tensor}
    (h : quantizeFrom nan arith args l = .ok ts) :
    (∀ T ∈ ts, ∃ p ∈ l, T.name = p.2.1) ∧
      ∀ p ∈ l, ∃ o, quantizeTensor nan arith args p.1 p.2.1 p.2.2 = .ok o ∧
        ((l.map fun p => p.2.1).Nodup → lastWritten ts p.2.1 = o.map (·.data)) := by
  induction l generalizing ts with
  | nil =>
      obtain rfl := Except.ok.inj h
      exact ⟨fun _ hT => (by cases hT), fun _ hp => (by cases hp)⟩
  | cons q l ih =>
      obtain ⟨shard, name, t⟩ := q
      rw [quantizeFrom] at h
      cases hone : quantizeTensor nan arith args shard name t with
      | error e => rw [hone] at h; cases h
      | ok o =>
          cases hrest : quantizeFrom nan arith args l with
          | error e => rw [hone, hrest] at h; cases h
          | ok ts' =>
              rw [hone, hrest] at h
              obtain rfl := Except.ok.inj h
              obtain ⟨hnames, hturns⟩ := ih hrest
              have hfirst : ∀ T ∈ o.toList, T.name = name := by
                intro T hT
                obtain rfl := Option.mem_toList.mp hT
                exact quantizeTensor_name hone
              refine ⟨fun T hT => ?_, fun p hp => ?_⟩
              · rcases List.mem_append.mp hT with hT | hT
                · exact ⟨_, List.mem_cons_self, hfirst T hT⟩
                · obtain ⟨p, hp, hname⟩ := hnames T hT
                  exact ⟨p, List.mem_cons_of_mem _ hp, hname⟩
              rcases List.mem_cons.mp hp with rfl | hp
              · refine ⟨o, hone, fun hnodup => ?_⟩
                rw [List.map_cons, List.nodup_cons] at hnodup
                -- no later tensor has the name
                have hlater : lastWritten ts' name = none := by
                  refine lastWritten_of_not_mem fun T hT hname => hnodup.1 ?_
                  obtain ⟨p, hp, hp'⟩ := hnames T hT
                  exact List.mem_map.mpr ⟨p, hp, hp'.symm.trans hname⟩
                rw [lastWritten_append, hlater, Option.none_or]
                cases o with
                | none => rfl
                | some T =>
                    have := hfirst T (List.mem_singleton_self T)
                    simp [lastWritten, this]
              · obtain ⟨o', ho', hlast⟩ := hturns p hp
                refine ⟨o', ho', fun hnodup => ?_⟩
                rw [List.map_cons, List.nodup_cons] at hnodup
                have hearlier : lastWritten o.toList p.2.1 = none := by
                  refine lastWritten_of_not_mem fun T hT hname => hnodup.1 ?_
                  exact List.mem_map.mpr ⟨p, hp, hname.symm.trans (hfirst T hT)⟩
                rw [lastWritten_append, hearlier, Option.or_none, hlast hnodup.2]

/-- The loop ends if every turn does. -/
lemma quantizeFrom_ends {l : List (Shard × Sigma fun _ : String => StTensor)}
    (h : ∀ p ∈ l, ∃ o, quantizeTensor nan arith args p.1 p.2.1 p.2.2 = .ok o) :
    ∃ ts, quantizeFrom nan arith args l = .ok ts := by
  induction l with
  | nil => exact ⟨[], rfl⟩
  | cons q l ih =>
      obtain ⟨shard, name, t⟩ := q
      obtain ⟨o, hone⟩ := h _ List.mem_cons_self
      obtain ⟨ts, hrest⟩ := ih fun p hp => h p (List.mem_cons_of_mem _ hp)
      exact ⟨o.toList ++ ts, by rw [quantizeFrom, hone, hrest]; rfl⟩

/-- A tensor has a place in either directory, and what is written for it is the same. -/
lemma exists_turn (hsame : (sources dir).Perm (sources dir')) (hfaithful : AllFaithful nan dir)
    (hfaithful' : AllFaithful nan dir') {p : Shard × Sigma fun _ : String => StTensor}
    (hp : p ∈ tensorsOf dir) (hsource : IsFp8 p.2.2 → ∃ g, Source dir p.2.1 p.2.2 g) :
    ∃ p' ∈ tensorsOf dir', p'.2 = p.2 ∧
      quantizeTensor nan arith args p.1 p.2.1 p.2.2 =
        quantizeTensor nan arith args p'.1 p'.2.1 p'.2.2 := by
  obtain ⟨hshard, he⟩ := mem_tensorsOf.mp hp
  obtain ⟨shard', hshard', he'⟩ :=
    mem_sources.mp (hsame.mem_iff.mp (mem_sources.mpr ⟨p.1, hshard, he⟩))
  exact ⟨(shard', p.2), mem_tensorsOf.mpr ⟨hshard', he'⟩, rfl,
    quantizeTensor_eq hsame hfaithful hfaithful' hshard hshard' he he' hsource⟩

lemma quantizeAll_ends (hsame : (sources dir).Perm (sources dir'))
    (hfaithful : AllFaithful nan dir) (hfaithful' : AllFaithful nan dir')
    (hsource : ∀ e ∈ sources dir, IsFp8 e.2 → ∃ g, Source dir e.1 e.2 g)
    (h : ∃ ts', quantizeAll nan arith args dir' = .ok ts') :
    ∃ ts, quantizeAll nan arith args dir = .ok ts := by
  obtain ⟨ts', hts'⟩ := h
  refine quantizeFrom_ends fun p hp => ?_
  obtain ⟨hshard, he⟩ := mem_tensorsOf.mp hp
  obtain ⟨p', hp', -, heq⟩ := exists_turn hsame hfaithful hfaithful' hp
    (hsource p.2 (mem_sources.mpr ⟨p.1, hshard, he⟩))
  obtain ⟨o, ho, -⟩ := (quantizeFrom_spec hts').2 p' hp'
  exact ⟨o, heq.trans ho⟩

/-- **Two directories of the same tensors that are read faithfully give the same files.** -/
lemma sameFiles (hsame : (sources dir).Perm (sources dir'))
    (hnames : ((sources dir).map Sigma.fst).Nodup) (hfaithful : AllFaithful nan dir)
    (hfaithful' : AllFaithful nan dir') : SameFiles nan arith args dir dir' := by
  have htensors : ∀ {d : List Shard}, ((sources d).map Sigma.fst).Nodup →
      ((tensorsOf d).map fun p => p.2.1).Nodup := by
    intro d hd
    rw [← map_snd_tensorsOf, List.map_map] at hd
    exact hd
  have hnames' := (hsame.map Sigma.fst).nodup_iff.mp hnames
  constructor
  · intro ts ts' hts hts' e he hsource
    obtain ⟨shard, hshard, hmem⟩ := mem_sources.mp he
    have hp : (shard, e) ∈ tensorsOf dir := mem_tensorsOf.mpr ⟨hshard, hmem⟩
    obtain ⟨p', hp', hentry, heq⟩ := exists_turn hsame hfaithful hfaithful' hp hsource
    obtain ⟨o, ho, hlast⟩ := (quantizeFrom_spec hts).2 _ hp
    obtain ⟨o', ho', hlast'⟩ := (quantizeFrom_spec hts').2 p' hp'
    have hsameTurn : o = o' := Except.ok.inj (ho.symm.trans (heq.trans ho'))
    calc lastWritten ts e.1 = o.map (·.data) := hlast (htensors hnames)
      _ = o'.map (·.data) := by rw [hsameTurn]
      _ = lastWritten ts' p'.2.1 := (hlast' (htensors hnames')).symm
      _ = lastWritten ts' e.1 := by rw [hentry]
  · intro hsource
    refine ⟨quantizeAll_ends hsame.symm hfaithful' hfaithful fun e he hfp8 => ?_,
      quantizeAll_ends hsame hfaithful hfaithful' hsource⟩
    obtain ⟨g, h⟩ := hsource e (hsame.mem_iff.mpr he) hfp8
    exact ⟨g, h.of_perm hsame⟩

end Directories

/-- **The tensors of a model directory, however they are sharded.**  Take two directories of the
same tensors, each in one shard.  Every tensor of both is read faithfully, and what is written is
the same, if and only if in both there are no subnormal `f16` numbers, every fp8 tensor with a scale
has it in its own shard or is not changed by it, and none has a scale for each of its rows, which
are empty. -/
theorem sourceTensors_iff (nan : ℕ → ℕ → ℕ) (arith : GroupArith) (args : QuantizeArgs)
    (dir dir' : List Shard) (hsame : (sources dir).Perm (sources dir'))
    (hnames : ((sources dir).map Sigma.fst).Nodup) :
    (AllFaithful nan dir ∧ AllFaithful nan dir' ∧ SameFiles nan arith args dir dir') ↔
      AllReadRight nan dir ∧ AllReadRight nan dir' := by
  rw [← allFaithful_iff, ← allFaithful_iff]
  constructor
  · rintro ⟨hfaithful, hfaithful', -⟩
    exact ⟨hfaithful, hfaithful'⟩
  · rintro ⟨hfaithful, hfaithful'⟩
    exact ⟨hfaithful, hfaithful', sameFiles hsame hnames hfaithful hfaithful'⟩

/-! ### A scale in another shard -/

/-- The number one in E4M3. -/
def oneFp8 : StTensor := ⟨.f8E4M3, [1, 1], [0x38], rfl⟩

/-- A scale of two. -/
def twoScale : StTensor := ⟨.f32, [1], [0, 0, 0, 0x40], rfl⟩

/-- A shard with the tensor alone. -/
def tensorShard : Shard := ⟨[⟨"a.weight", oneFp8⟩], List.nodupKeys_singleton _⟩

/-- A shard with its scale alone. -/
def scaleShard : Shard := ⟨[⟨"a.weight_scale_inv", twoScale⟩], List.nodupKeys_singleton _⟩

/-- A shard with both. -/
def bothShard : Shard :=
  ⟨[⟨"a.weight", oneFp8⟩, ⟨"a.weight_scale_inv", twoScale⟩], by rw [List.NodupKeys]; decide⟩

lemma scaleKeys : qscaleKey "a.weight" = "a.qscale_weight" ∧
    scaleInvKey "a.weight" = "a.weight_scale_inv" := by decide +kernel

lemma sources_example : sources [tensorShard, scaleShard] = sources [bothShard] ∧
    ((sources [tensorShard, scaleShard]).map Sigma.fst).Nodup := ⟨rfl, by decide⟩

lemma scalesOf_example : scalesOf [tensorShard, scaleShard] "a.weight" = [twoScale] ∧
    scalesOf [bothShard] "a.weight" = [twoScale] ∧ scalesOf [tensorShard] "a.weight" = [] := by
  rw [scalesOf, scalesOf, scalesOf, scaleKeys.1, scaleKeys.2]
  refine ⟨rfl, rfl, rfl⟩

/-- The tensor is one that is read. -/
lemma source_example : Source [tensorShard, scaleShard] "a.weight" oneFp8 e4m3 := by
  refine ⟨rfl, fun i hi => ?_, by decide, fun _ => .inr ⟨twoScale, scalesOf_example.1, .inl rfl,
    .inl rfl⟩⟩
  obtain rfl : i = 0 := Nat.lt_one_iff.mp hi
  change e4m3.low 0x38 ≠ 0x7F
  decide

/-- One times two is two, and not one. -/
lemma not_narrowsTo_example (nan : ℕ → ℕ → ℕ) :
    ¬ NarrowsTo (binary32.mul nan (e4m3.convert binary32 0x38) (scaleAt twoScale 0))
      (e4m3.convert bfloat16 0x38) := by
  have hlow : e4m3.low 0x38 < 2 ^ 7 := by decide
  obtain ⟨⟨hr, hr'⟩, -⟩ := representable_small hlow
  have hone : e4m3.magnitude (e4m3.low 0x38) = 2 ^ (((127 : ℕ) : ℤ) - 127) := by
    rw [BinaryFormat.magnitude, if_neg (by decide)]
    norm_num [e4m3, BinaryFormat.low, BinaryFormat.least, BinaryFormat.bias]
  have hx := BinaryFormat.convert_isNumber hr
  rw [hone] at hx
  have hx' : e4m3.convert binary32 0x38 = 127 <<< 23 :=
    hx.eq (shift_isNumber (by decide) (by decide))
  have hs : binary32.IsNumber (scaleAt twoScale 0) false (2 ^ (((128 : ℕ) : ℤ) - 127)) :=
    shift_isNumber (e := 128) (by decide) (by decide)
  have hpow : (2 : ℚ) ^ (((127 : ℕ) : ℤ) - 127) * 2 ^ (((128 : ℕ) : ℤ) - 127) =
      2 ^ (((128 : ℕ) : ℤ) - 127) := by norm_num
  have hprod : binary32.mul nan (e4m3.convert binary32 0x38) (scaleAt twoScale 0) = 128 <<< 23 := by
    refine (hx.mul hs ?_).eq ?_
    · rw [hpow]
      exact hs.representable
    · rw [hpow]
      exact shift_isNumber (by decide) (by decide)
  intro h
  rw [hprod, ← f32ToBf16_convert hr hr', hx'] at h
  have heq := h.unique (f32ToBf16_narrowsTo (by decide))
  exact absurd heq (by decide)

lemma not_allReadRight_split (nan : ℕ → ℕ → ℕ) : ¬ AllReadRight nan [tensorShard, scaleShard] := by
  intro h
  have hright := h tensorShard List.mem_cons_self ⟨"a.weight", oneFp8⟩ List.mem_cons_self
    (List.cons_ne_nil _ _) e4m3 source_example
  exact not_narrowsTo_example nan (hright.other (.inl rfl) scalesOf_example.2.2 twoScale
    (by rw [scalesOf_example.1]; exact List.mem_singleton_self _) 0 (by decide) 0 (by decide))

lemma allReadRight_joined (nan : ℕ → ℕ → ℕ) : AllReadRight nan [bothShard] := by
  intro shard hshard e he _ g h
  obtain rfl := List.mem_singleton.mp hshard
  rcases List.mem_cons.mp he with rfl | he
  · refine ⟨fun hd => (by cases hd), fun _ s hs => ?_, fun _ hnil => ?_⟩
    · rw [scalesOf_example.2.1] at hs
      obtain rfl := List.mem_singleton.mp hs
      exact .inl rfl
    · rw [scalesOf_example.2.1] at hnil
      cases hnil
  · obtain rfl := List.mem_singleton.mp he
    cases h.format

/-- In one shard the tensor is read faithfully; in two it is not. -/
theorem sourceTensors_example :
    (AllFaithful (fun _ _ => 0) [bothShard] ∧ AllFaithful (fun _ _ => 0) [bothShard] ∧
      SameFiles (fun _ _ => 0) .exact ⟨.pcG32Q4, false⟩ [bothShard] [bothShard]) ∧
    ¬ (AllFaithful (fun _ _ => 0) [tensorShard, scaleShard] ∧
      AllFaithful (fun _ _ => 0) [bothShard] ∧
      SameFiles (fun _ _ => 0) .exact ⟨.pcG32Q4, false⟩ [tensorShard, scaleShard] [bothShard]) := by
  obtain ⟨hsame, hnames⟩ := sources_example
  have hjoined := allReadRight_joined fun _ _ => 0
  constructor
  · exact (sourceTensors_iff _ _ _ [bothShard] [bothShard] (.refl _) (hsame ▸ hnames)).mpr
      ⟨hjoined, hjoined⟩
  · intro h
    exact not_allReadRight_split _
      ((sourceTensors_iff _ _ _ [tensorShard, scaleShard] [bothShard] (.of_eq hsame) hnames).mp h).1

/-- **The split of a directory over its shards matters.** -/
theorem sourceTensors_differ : ¬ ∀ (nan : ℕ → ℕ → ℕ) (arith : GroupArith) (args : QuantizeArgs)
    (dir dir' : List Shard), (sources dir).Perm (sources dir') →
    ((sources dir).map Sigma.fst).Nodup →
      AllFaithful nan dir ∧ AllFaithful nan dir' ∧ SameFiles nan arith args dir dir' := by
  intro h
  obtain ⟨hfaithful, -, -⟩ := h (fun _ _ => 0) .exact ⟨.pcG32Q4, false⟩ [tensorShard, scaleShard]
    [bothShard] (.of_eq sources_example.1) sources_example.2
  exact not_allReadRight_split _ (allFaithful_iff.mp hfaithful)

end Braidinfer.Quant
