/-
The cache file of a load that quantizes (`model_load.rs`), and the load that finds it.

A load with `WEIGHT_QUANT` and without a file writes what it quantizes to a file, "to cache for
next launch".  The names of a model are then discovered from the name table of that file, which
has only the linear weights of the layers.

* `CachesLayers`: only matrices of layers are cached (`written_ofLayer`);
* `Reopens`: the tensors whose cache file opens (`opens_iff`);
* `load_ne_ok`: a load from a file whose names are all of layers fails;
* `OneChoice`: the tensors among which a load finds the same ones in every order of their names
  (`reordered_iff`);
* `reload_iff`: **the load that finds the cache yields the same model, in every order of the names,
  exactly if the file does not open and there is one choice**.
-/
import Mathlib.Data.Set.Image
import Braidinfer.Bqnt.Representable
import Braidinfer.Loader.Discovery
import Braidinfer.Loader.Layers

namespace Braidinfer.Loader

open Braidinfer.Lib
open Braidinfer.Bqnt
open Engine (ConfigParse.Number)
open Engine.ConfigParse (WeightQuantMode ModelConfig)

/-! ### What a load caches -/

/-- Only matrices of layers were cached. -/
def CachesLayers (cache : Option CacheWriter) : Prop :=
  ∀ c, cache = some c → ∀ t ∈ c.written, OfLayer t.name ∧ t.ndim = 2

lemma keptByLayers_cachesLayers : KeptByLayers CachesLayers := by
  intro name fmt outDim inDim packed hname s a s' hs h
  unfold cacheTensor at h
  cases s with
  | none =>
      cases h
      exact hs
  | some c =>
      simp only at h
      split at h
      · cases h
        rintro c' hc' t ht
        obtain rfl := Option.some.inj hc'
        rcases List.mem_append.mp ht with ht | ht
        · exact hs c rfl t ht
        · obtain rfl := List.mem_singleton.mp ht
          exact ⟨hname, rfl⟩
      · cases h

/-! ### The load that finds the file -/

section

variable {env : Env} {st : SafeTensorSet} {file : Option (List UInt8)} {m : LoadedModel}
  {cache : Option CacheWriter} {c : CacheWriter}

/-- The parts of a load that returns. -/
lemma load_ok : env.load file st = .ok (m, cache) ↔ ¬ (env.kvQuant ∧ env.multiGpu) ∧
    ∃ config, env.loadConfig (env.openBqnt file) = .ok config ∧
      env.loadWeights st (env.openBqnt file) config (env.bqntWriter (env.openBqnt file)) =
        .ok (m, cache) := by
  rw [Env.load]
  split_ifs with hkv
  · exact ⟨fun h => (by cases h), fun h => absurd hkv h.1⟩
  · cases hconfig : env.loadConfig (env.openBqnt file) with
    | error e =>
        simp only [hconfig, bind, Except.bind]
        exact ⟨fun h => (by cases h), fun ⟨_, _, h, _⟩ => (by cases h)⟩
    | ok config =>
        simp only [hconfig, bind, Except.bind, Except.ok.injEq]
        exact ⟨fun h => ⟨hkv, config, rfl, h⟩, fun ⟨_, _, hc, h⟩ => by rw [hc]; exact h⟩

/-- A load depends on its file as far as that opens. -/
lemma load_eq_of_openBqnt {file' : Option (List UInt8)}
    (h : env.openBqnt file = env.openBqnt file') : env.load file st = env.load file' st := by
  rw [Env.load, Env.load, h]

lemma written_ofLayer (h : env.load file st = .ok (m, some c)) :
    ∀ t ∈ c.written, OfLayer t.name ∧ t.ndim = 2 := by
  obtain ⟨-, config, -, hload⟩ := load_ok.mp h
  refine loadWeights_keeps keptByLayers_cachesLayers env st _ config _ m (some c) ?_ hload c rfl
  intro c' hc' t ht
  rw [Env.bqntWriter] at hc'
  split_ifs at hc'
  obtain rfl := Option.some.inj hc'
  cases ht

/-- **There is no final norm among tensors of layers.** -/
lemma normName_ne_ok {pfx n : String} {names : List String} (h : ∀ n ∈ names, OfLayer n) :
    normName pfx names ≠ .ok n := by
  have hnone : ∀ p q : String → Bool,
      names.find? (fun n => p n && !Text.contains n "layers." && q n) = none := by
    intro p q
    rw [List.find?_eq_none]
    intro n hn
    have hlayer : Text.contains n "layers." = true := h n hn
    simp [hlayer]
  have hfirst := hnone (fun n => Text.startsWith n pfx && (Text.endsWith n "norm.weight" ||
    Text.endsWith n "ln_f.weight" || Text.endsWith n "norm_f.weight")) fun _ => true
  have hsecond := hnone (fun n => Text.contains n "norm.weight" ||
    Text.contains n "ln_f.weight" || Text.contains n "norm_f.weight")
      fun n => !Text.contains n "visual" && !Text.contains n "mtp"
  simp only [Bool.and_true, ← Bool.and_assoc] at hfirst hsecond
  rw [normName]
  simp only [hfirst, hsecond, Option.or_none]
  exact fun hok => by cases hok

/-- **A load from a file whose names are all of layers fails.** -/
lemma load_ne_ok {f : MmapBqnt} (hopen : env.openBqnt file = some f) (hne : env.listed f ≠ [])
    (hnames : ∀ n ∈ env.listed f, OfLayer n) : env.load file st ≠ .ok (m, cache) := by
  intro h
  obtain ⟨-, config, -, hload⟩ := load_ok.mp h
  have hlist : env.names st (env.openBqnt file) = env.listed f := by
    rw [Env.names, hopen, Option.map_some, Option.filter_some, if_pos (by simpa using hne),
      Option.getD_some]
  rw [Env.loadWeights] at hload
  obtain ⟨pfx, _, -, hload⟩ := Program.bind_ok.mp hload
  obtain ⟨embed, _, -, hload⟩ := Program.bind_ok.mp hload
  obtain ⟨norm, _, hnorm, -⟩ := Program.bind_ok.mp hload
  rw [hlist] at hnorm
  exact normName_ne_ok hnames (Program.liftM_ok.mp hnorm).1

/-- The tensors make up a file that opens: there are some, no two have names with one hash, and
each has as many bytes as its features say. -/
structure Reopens (ts : List Tensor) : Prop where
  nonempty : ts ≠ []
  hashes : (ts.map fun t => fnv1a64 t.name).Nodup
  size : ∀ t ∈ ts, t.data.length = packedSize t.format t.outFeatures.toNat t.inFeatures.toNat

/-- **What a cache file holds, if it opens**, and the tensors for which it does. -/
lemma opens_iff (hiter : ∀ names, (env.iter names).Perm names.entries)
    (hrank : ∀ t ∈ c.written, t.ndim = 2) (hcount : c.written.length ≤ 65536)
    (hobject : env.json.fromStr "\x7b\x7d" = some (.object []))
    (hempty : env.json.fromStr "" = none)
    (hparse : env.json.fromStr (env.json.toString (fileMetadata env.iter c.written [])) =
      some (fileMetadata env.iter c.written []))
    (hfits : fileEnd 65536 c.written
      (utf8 (env.json.toString (fileMetadata env.iter c.written []))) < 2 ^ 63) :
    (∀ f, MmapBqnt.openMmap env.json (env.cacheFile c) = .ok f → Reopens c.written) ∧
      (Reopens c.written → ∃ f, MmapBqnt.openMmap env.json (env.cacheFile c) = .ok f ∧
        Opened (placed (dataStart 65536) c.written) f) := by
  have hmeta := augmentedMetadata_eq env.iter c.wrote hobject
  have hne : env.json.toString (fileMetadata env.iter c.written []) ≠ "" := fun hnil => by
    rw [hnil, hempty] at hparse
    cases hparse
  constructor
  · intro f hopen
    have htable : 32 + c.written.length * 48 < 2 ^ 63 := by omega
    have htext : (utf8 (env.json.toString (fileMetadata env.iter c.written []))).length <
        2 ^ 63 := by
      rw [fileEnd] at hfits
      omega
    have hts : Writable 65536 c.written := by
      refine writable_of_open c.wrote hcount (by decide) (by rw [hmeta]; exact hne)
        (by rw [hmeta]; exact ⟨fun _ => hfits, htable, htext⟩) (openMmap_ok hopen).1
    exact ⟨hts.nonempty, hts.hashes, hts.size⟩
  · intro h
    have hts : Writable 65536 c.written := by
      refine ⟨h.nonempty, h.hashes, fun t ht => ?_, h.size, hcount, by decide⟩
      rw [hrank t ht]
      decide
    obtain ⟨f, hopen, hopened, -⟩ := opened_of_writable hiter c.wrote hts hobject hparse hne
      (lt_trans hfits (by decide))
    exact ⟨f, hopen, hopened⟩

end

/-- **The load that finds a cache file which opens fails.** -/
lemma reload_ne_ok {env : Env} {st : SafeTensorSet} {m m' : LoadedModel} {c : CacheWriter}
    {cache : Option CacheWriter} {f : MmapBqnt}
    (hlisted : ∀ f, (env.listed f).Perm f.tensorNames)
    (hfirst : env.load none st = .ok (m, some c))
    (hopen : MmapBqnt.openMmap env.json (env.cacheFile c) = .ok f)
    (hopened : Opened (placed (dataStart 65536) c.written) f) (hne : c.written ≠ []) :
    env.load (some (env.cacheFile c)) st ≠ .ok (m', cache) := by
  have hperm := (hlisted f).trans hopened.tensorNames
  have hwritten : (placed (dataStart 65536) c.written).map (fun p => p.2.name) =
      c.written.map (·.name) := by
    rw [← congrArg (List.map (·.name)) (placed_map_snd (dataStart 65536) c.written),
      List.map_map]
    rfl
  rw [hwritten] at hperm
  refine load_ne_ok (f := f) ?_ ?_ fun n hn => ?_
  · rw [Env.openBqnt, Option.bind_some, hopen]
    rfl
  · intro hnil
    rw [hnil] at hperm
    exact hne (List.map_eq_nil_iff.mp hperm.nil_eq.symm)
  · obtain ⟨t, ht, rfl⟩ := List.mem_map.mp (hperm.mem_iff.mp hn)
    exact (written_ofLayer hfirst t ht).1

/-! ### The order of the names -/

/-- The environment of another launch: the maps of names are iterated in other orders. -/
def Env.reordered (env : Env) (listed : MmapBqnt → List String)
    (listedSt : SafeTensorSet → List String) : Env := { env with listed, listedSt }

/-- **One choice**: wherever a load without a file takes the first of several names, all of them
are the same prefix, or name tensors with the same data. -/
structure OneChoice (tie : Bool) (st : SafeTensorSet) (names : List String) : Prop where
  pfx : {p | p ∈ prefixTier names}.Subsingleton
  embed : ∀ p ∈ prefixTier names, (st.tensorData '' {n | n ∈ embedTier p names}).Subsingleton
  norm : ∀ p ∈ prefixTier names, (st.tensorData '' {n | n ∈ normTier p names}).Subsingleton
  lmHead : tie = false → (st.tensorData '' {n | n ∈ lmHeadTier names}).Subsingleton

lemma OneChoice.perm {tie : Bool} {st : SafeTensorSet} {names names' : List String}
    (h : OneChoice tie st names) (hperm : names'.Perm names) : OneChoice tie st names' := by
  have hset : ∀ {l l' : List String}, l'.Perm l → {n | n ∈ l'} = {n | n ∈ l} :=
    fun hp => Set.ext fun n => hp.mem_iff
  refine ⟨?_, fun p hp => ?_, fun p hp => ?_, fun htie => ?_⟩
  · rw [hset (prefixTier_perm hperm)]
    exact h.pfx
  · rw [hset (embedTier_perm hperm p)]
    exact h.embed p ((prefixTier_perm hperm).mem_iff.mp hp)
  · rw [hset (normTier_perm hperm p)]
    exact h.norm p ((prefixTier_perm hperm).mem_iff.mp hp)
  · rw [hset (lmHeadTier_perm hperm)]
    exact h.lmHead htie

section Order

variable {env : Env} {st : SafeTensorSet} {m m' : LoadedModel} {config : ModelConfig}
  {s s' cache : Option CacheWriter} {listed : MmapBqnt → List String}
  {listedSt : SafeTensorSet → List String} {names names' : List String}

/-- Without a file a tensor is what the data of its name says. -/
lemma loadBf16First_none_ok {n : String} {len : ℕ} {w : List UInt8} :
    loadBf16First st none n len = .ok w ↔ st.tensorData n = some w ∧ w.length = len * 2 := by
  change loadWeightBf16 st n len = .ok w ↔ _
  rw [loadWeightBf16, requireData]
  cases st.tensorData n with
  | none => exact ⟨fun h => (by cases h), fun h => (by cases h.1)⟩
  | some raw =>
      simp only [assertEq, bind, Except.bind, pure, Except.pure, Option.some.injEq]
      split_ifs with hlen
      · exact ⟨fun h => (by cases h; exact ⟨rfl, hlen⟩), fun h => by rw [h.1]⟩
      · exact ⟨fun h => (by cases h), fun h => absurd (h.1 ▸ h.2) hlen⟩

/-- The parts of a load from safetensors that returns. -/
structure Loaded (env : Env) (st : SafeTensorSet) (config : ModelConfig)
    (s : Option CacheWriter) (m : LoadedModel) (s' : Option CacheWriter)
    (embed norm : String) (layers : List (LayerWeights × Option MoeWeights)) : Prop where
  pfx : discoverPrefix (env.listedSt st) = .ok m.weightPrefix
  config_eq : m.config = env.discover st none config m.weightPrefix
  embed_eq : embedName m.weightPrefix (env.listedSt st) = .ok embed
  norm_eq : normName m.weightPrefix (env.listedSt st) = .ok norm
  embedWeight : loadBf16First st none embed (m.config.vocabSize * m.config.hiddenSize) =
    .ok m.embedWeight
  lmHead : env.loadLmHead st none m.config = .ok m.lmHeadWeight
  finalNorm : loadBf16First st none norm m.config.hiddenSize = .ok m.finalNormWeight
  run : (List.range m.config.numLayers).mapM
    (loadLayer env.packing st none env.multiGpu m.config env.quantLayers m.weightPrefix) s =
      .ok (layers, s')
  layers_eq : m.layers = layers.map Prod.fst
  moe_eq : m.moeWeights = layers.map Prod.snd

lemma loadWeights_none_ok : env.loadWeights st none config s = .ok (m, s') ↔
    ∃ embed norm layers, Loaded env st config s m s' embed norm layers := by
  constructor
  · intro h
    rw [Env.loadWeights] at h
    obtain ⟨pfx, _, hpfx, h₁⟩ := Program.bind_ok.mp h
    obtain ⟨embed, _, hembed, h₂⟩ := Program.bind_ok.mp h₁
    obtain ⟨norm, _, hnorm, h₃⟩ := Program.bind_ok.mp h₂
    obtain ⟨embedWeight, _, hembedW, h₄⟩ := Program.bind_ok.mp h₃
    obtain ⟨lmHead, _, hhead, h₅⟩ := Program.bind_ok.mp h₄
    obtain ⟨finalNorm, _, hnormW, h₆⟩ := Program.bind_ok.mp h₅
    obtain ⟨layers, _, hlayers, h₇⟩ := Program.bind_ok.mp h₆
    obtain ⟨hpfx', rfl⟩ := Program.liftM_ok.mp hpfx
    obtain ⟨hembed', rfl⟩ := Program.liftM_ok.mp hembed
    obtain ⟨hnorm', rfl⟩ := Program.liftM_ok.mp hnorm
    obtain ⟨hembedW', rfl⟩ := Program.liftM_ok.mp hembedW
    obtain ⟨hhead', rfl⟩ := Program.liftM_ok.mp hhead
    obtain ⟨hnormW', rfl⟩ := Program.liftM_ok.mp hnormW
    cases h₇
    exact ⟨embed, norm, layers, hpfx', rfl, hembed', hnorm', hembedW', hhead', hnormW', hlayers,
      rfl, rfl⟩
  · rintro ⟨embed, norm, layers, h⟩
    obtain ⟨config', weightPrefix, embedWeight, lmHead, finalNorm, layersW, moeW⟩ := m
    obtain ⟨hpfx, hconfig, hembed, hnorm, hembedW, hhead, hnormW, hlayers, hl, hm⟩ := h
    simp only at hpfx hconfig hembed hnorm hembedW hhead hnormW hlayers hl hm
    subst hconfig hl hm
    rw [Env.loadWeights]
    refine Program.bind_ok.mpr ⟨_, _, Program.liftM_ok.mpr ⟨hpfx, rfl⟩, ?_⟩
    refine Program.bind_ok.mpr ⟨_, _, Program.liftM_ok.mpr ⟨hembed, rfl⟩, ?_⟩
    refine Program.bind_ok.mpr ⟨_, _, Program.liftM_ok.mpr ⟨hnorm, rfl⟩, ?_⟩
    refine Program.bind_ok.mpr ⟨_, _, Program.liftM_ok.mpr ⟨hembedW, rfl⟩, ?_⟩
    refine Program.bind_ok.mpr ⟨_, _, Program.liftM_ok.mpr ⟨hhead, rfl⟩, ?_⟩
    refine Program.bind_ok.mpr ⟨_, _, Program.liftM_ok.mpr ⟨hnormW, rfl⟩, ?_⟩
    exact Program.bind_ok.mpr ⟨_, _, hlayers, rfl⟩

/-- Another order finds a tensor with the same data. -/
lemma exists_same {tier tier' : List String} {msg n : String} (hperm : tier'.Perm tier)
    (hone : (st.tensorData '' {n | n ∈ tier}).Subsingleton)
    (hn : chosen msg tier.head? = .ok n) :
    ∃ n', chosen msg tier'.head? = .ok n' ∧ st.tensorData n' = st.tensorData n := by
  have hmem := List.mem_of_head? (chosen_ok.mp hn)
  obtain ⟨n', hn'⟩ := exists_head? (List.ne_nil_of_mem (hperm.mem_iff.mpr hmem))
  have hmem' := hperm.mem_iff.mp (List.mem_of_head? hn')
  exact ⟨n', chosen_ok.mpr hn', hone ⟨n', hmem', rfl⟩ ⟨n, hmem, rfl⟩⟩

/-- Another order finds the same lm_head. -/
lemma loadLmHead_reorder {w : List UInt8}
    (hone : config.tieWordEmbeddings = false →
      (st.tensorData '' {n | n ∈ lmHeadTier (env.listedSt st)}).Subsingleton)
    (hperm : (listedSt st).Perm (env.listedSt st)) (h : env.loadLmHead st none config = .ok w) :
    (env.reordered listed listedSt).loadLmHead st none config = .ok w := by
  rw [Env.loadLmHead] at h ⊢
  cases htie : config.tieWordEmbeddings with
  | true =>
      rw [htie] at h
      exact h
  | false =>
      simp only [htie, Bool.false_eq_true, if_false] at h ⊢
      change (lmHeadName (env.listedSt st) >>= _) = _ at h
      change (lmHeadName (listedSt st) >>= _) = _
      cases hname : lmHeadName (env.listedSt st) with
      | error e =>
          rw [hname] at h
          cases h
      | ok n =>
          rw [hname] at h
          rw [lmHeadName_eq] at hname
          obtain ⟨n', hname', hsame⟩ := exists_same (lmHeadTier_perm hperm) (hone htie) hname
          rw [← lmHeadName_eq] at hname'
          rw [hname']
          change loadBf16First st none n' _ = _
          rw [loadBf16First_none_ok, hsame]
          exact loadBf16First_none_ok.mp h

/-- **One choice, one model**: a load without a file builds the same model in every order. -/
lemma Loaded.reorder {embed norm : String} {layers : List (LayerWeights × Option MoeWeights)}
    (h : Loaded env st config s m s' embed norm layers)
    (hone : OneChoice m.config.tieWordEmbeddings st (env.listedSt st))
    (hperm : (listedSt st).Perm (env.listedSt st)) :
    ∃ embed' norm',
      Loaded (env.reordered listed listedSt) st config s m s' embed' norm' layers := by
  have hpfx := h.pfx
  rw [discoverPrefix_eq] at hpfx
  have hmem := List.mem_of_head? (chosen_ok.mp hpfx)
  have hpfx' : discoverPrefix (listedSt st) = .ok m.weightPrefix := by
    rw [discoverPrefix_eq, ← head?_perm (prefixTier_perm hperm).symm hone.pfx]
    exact hpfx
  have hembed := h.embed_eq
  have hnorm := h.norm_eq
  rw [embedName_eq] at hembed
  rw [normName_eq] at hnorm
  obtain ⟨embed', hembed', hsame⟩ := exists_same (embedTier_perm hperm _) (hone.embed _ hmem) hembed
  obtain ⟨norm', hnorm', hsame'⟩ := exists_same (normTier_perm hperm _) (hone.norm _ hmem) hnorm
  rw [← embedName_eq] at hembed'
  rw [← normName_eq] at hnorm'
  refine ⟨embed', norm', hpfx', ?_, hembed', hnorm', ?_, ?_, ?_, h.run, h.layers_eq, h.moe_eq⟩
  · rw [h.config_eq, Env.discover, Env.discover]
    exact congrArg (fun b => ({ config with
      hasQkNorm := b
      hasOutputGate := discoverOutputGate st none m.weightPrefix config } : ModelConfig))
        (discoverQkNorm_perm hperm).symm
  · rw [loadBf16First_none_ok, hsame]
    exact loadBf16First_none_ok.mp h.embedWeight
  · exact loadLmHead_reorder hone.lmHead hperm h.lmHead
  · rw [loadBf16First_none_ok, hsame']
    exact loadBf16First_none_ok.mp h.finalNorm

/-- **One choice is needed**: where every order builds the same model, all of a tier are alike. -/
lemma oneChoice_of_reorder
    (h : ∀ names', names'.Perm (env.listedSt st) → ∃ config s s' embed norm layers,
      Loaded (env.reordered listed fun _ => names') st config s m s' embed norm layers) :
    OneChoice m.config.tieWordEmbeddings st (env.listedSt st) := by
  have hpfx : ∀ p ∈ prefixTier (env.listedSt st), p = m.weightPrefix := by
    intro p hp
    obtain ⟨names', hperm, hhead⟩ := exists_prefix_first hp
    obtain ⟨_, _, _, _, _, _, hload⟩ := h names' hperm
    have hfound := hload.pfx
    change discoverPrefix names' = _ at hfound
    rw [discoverPrefix_eq, hhead] at hfound
    exact Except.ok.inj hfound
  have hembed : ∀ n ∈ embedTier m.weightPrefix (env.listedSt st),
      st.tensorData n = some m.embedWeight := by
    intro n hn
    obtain ⟨names', hperm, hhead⟩ := exists_name_first hn
    obtain ⟨_, _, _, embed, _, _, hload⟩ := h names' hperm
    have hfound := hload.embed_eq
    change embedName _ names' = _ at hfound
    rw [embedName_eq, embedTier, hhead] at hfound
    obtain rfl := Except.ok.inj hfound
    exact (loadBf16First_none_ok.mp hload.embedWeight).1
  have hnorm : ∀ n ∈ normTier m.weightPrefix (env.listedSt st),
      st.tensorData n = some m.finalNormWeight := by
    intro n hn
    obtain ⟨names', hperm, hhead⟩ := exists_name_first hn
    obtain ⟨_, _, _, _, norm, _, hload⟩ := h names' hperm
    have hfound := hload.norm_eq
    change normName _ names' = _ at hfound
    rw [normName_eq, normTier, hhead] at hfound
    obtain rfl := Except.ok.inj hfound
    exact (loadBf16First_none_ok.mp hload.finalNorm).1
  have hlmHead : m.config.tieWordEmbeddings = false → ∀ n ∈ lmHeadTier (env.listedSt st),
      st.tensorData n = some m.lmHeadWeight := by
    intro htie n hn
    obtain ⟨names', hperm, hhead⟩ := exists_name_first hn
    obtain ⟨_, _, _, _, _, _, hload⟩ := h names' hperm
    have hfound := hload.lmHead
    have hname : lmHeadName names' = .ok n := by
      rw [lmHeadName_eq, lmHeadTier, hhead]
      rfl
    rw [Env.loadLmHead, htie] at hfound
    change (lmHeadName names' >>= _) = _ at hfound
    rw [hname] at hfound
    exact (loadBf16First_none_ok.mp hfound).1
  refine ⟨fun p hp q hq => (hpfx p hp).trans (hpfx q hq).symm, ?_, ?_, ?_⟩
  · intro p hp
    obtain rfl := hpfx p hp
    rintro _ ⟨n, hn, rfl⟩ _ ⟨n', hn', rfl⟩
    rw [hembed n hn, hembed n' hn']
  · intro p hp
    obtain rfl := hpfx p hp
    rintro _ ⟨n, hn, rfl⟩ _ ⟨n', hn', rfl⟩
    rw [hnorm n hn, hnorm n' hn']
  · intro htie
    rintro _ ⟨n, hn, rfl⟩ _ ⟨n', hn', rfl⟩
    rw [hlmHead htie n hn, hlmHead htie n' hn']

/-- **The order of the names**: a load without a file builds the same model in every order
exactly if there is one choice. -/
lemma reordered_iff (hlistedSt : (env.listedSt st).Perm st.tensorNames)
    (hfirst : env.load none st = .ok (m, cache)) :
    (∀ listed listedSt, (∀ f : MmapBqnt, (listed f).Perm f.tensorNames) →
      (listedSt st).Perm st.tensorNames →
        ∃ cache, (env.reordered listed listedSt).load none st = .ok (m, cache)) ↔
      OneChoice m.config.tieWordEmbeddings st st.tensorNames := by
  constructor
  · intro hall
    have hloads : ∀ names', names'.Perm (env.listedSt st) → ∃ config s s' embed norm layers,
        Loaded (env.reordered MmapBqnt.tensorNames fun _ => names') st config s m s' embed norm
          layers := fun names' hperm => by
      obtain ⟨cache', hload⟩ := hall MmapBqnt.tensorNames (fun _ => names') (fun _ => .refl _)
        (hperm.trans hlistedSt)
      obtain ⟨-, config, -, hload⟩ := load_ok.mp hload
      exact ⟨config, _, _, loadWeights_none_ok.mp hload⟩
    exact (oneChoice_of_reorder hloads).perm hlistedSt.symm
  · intro hone listed listedSt _ hperm
    obtain ⟨hkv, config, hconfig, hload⟩ := load_ok.mp hfirst
    obtain ⟨embed, norm, layers, hloaded⟩ := loadWeights_none_ok.mp hload
    obtain ⟨embed', norm', hloaded'⟩ : ∃ embed' norm',
        Loaded (env.reordered listed listedSt) st config _ m _ embed' norm' layers :=
      hloaded.reorder (hone.perm hlistedSt) (hperm.trans hlistedSt.symm)
    exact ⟨cache, load_ok.mpr ⟨hkv, config, hconfig,
      loadWeights_none_ok.mpr ⟨embed', norm', layers, hloaded'⟩⟩⟩

end Order

/-- **The cache and the load that finds it.**  Take any model whose first load succeeds without a
file and caches what it quantizes.  The load that finds the cache file at the automatic path
yields the same model, in whatever orders the maps of names are iterated, if and only if the
tensors cached do not make up a file that opens and there is one choice among the names. -/
theorem reload_iff (env : Env) (st : SafeTensorSet) (m : LoadedModel) (c : CacheWriter)
    (hiter : ∀ names, (env.iter names).Perm names.entries)
    (hlisted : ∀ f, (env.listed f).Perm f.tensorNames)
    (hlistedSt : (env.listedSt st).Perm st.tensorNames)
    (hfirst : env.load none st = .ok (m, some c))
    (hcount : c.written.length ≤ 65536)
    (hobject : env.json.fromStr "\x7b\x7d" = some (.object []))
    (hempty : env.json.fromStr "" = none)
    (hparse : env.json.fromStr (env.json.toString (fileMetadata env.iter c.written [])) =
      some (fileMetadata env.iter c.written []))
    (hfits : fileEnd 65536 c.written
      (utf8 (env.json.toString (fileMetadata env.iter c.written []))) < 2 ^ 63) :
    (∀ listed listedSt, (∀ f, (listed f).Perm f.tensorNames) →
      (listedSt st).Perm st.tensorNames →
        ∃ cache, (env.reordered listed listedSt).load (some (env.cacheFile c)) st =
          .ok (m, cache)) ↔
      ¬ Reopens c.written ∧ OneChoice m.config.tieWordEmbeddings st st.tensorNames := by
  obtain ⟨hreopens, hopens⟩ := opens_iff hiter (fun t ht => (written_ofLayer hfirst t ht).2) hcount
    hobject hempty hparse hfits
  -- a file that does not open is no file
  have hnone : ¬ Reopens c.written → ∀ {listed listedSt},
      (env.reordered listed listedSt).load (some (env.cacheFile c)) st =
        (env.reordered listed listedSt).load none st := by
    intro hrefused listed listedSt
    refine load_eq_of_openBqnt ?_
    change ((some (env.cacheFile c)).bind fun bytes =>
      (MmapBqnt.openMmap env.json bytes).toOption) = none
    cases hopen : MmapBqnt.openMmap env.json (env.cacheFile c) with
    | error e => rw [Option.bind_some, hopen]; rfl
    | ok f => exact absurd (hreopens f hopen) hrefused
  constructor
  · intro hall
    have hrefused : ¬ Reopens c.written := by
      intro h
      obtain ⟨f, hopen, hopened⟩ := hopens h
      obtain ⟨cache, hload⟩ := hall env.listed env.listedSt hlisted hlistedSt
      exact reload_ne_ok hlisted hfirst hopen hopened h.nonempty hload
    refine ⟨hrefused, (reordered_iff hlistedSt hfirst).mp fun listed listedSt hl hs => ?_⟩
    rw [← hnone hrefused]
    exact hall listed listedSt hl hs
  · rintro ⟨hrefused, hone⟩ listed listedSt hl hs
    rw [hnone hrefused]
    exact (reordered_iff hlistedSt hfirst).mpr hone listed listedSt hl hs

/-! ### A model of one layer -/

/-- The compact text of a value, up to a depth. -/
def compact : ℕ → Json ConfigParse.Number → String
  | d + 1, .object members => "\x7b" ++ ",".intercalate
      (members.map fun m => "\"" ++ m.1 ++ "\":" ++ compact d m.2) ++ "\x7d"
  | d + 1, .array values => "[" ++ ",".intercalate (values.map (compact d)) ++ "]"
  | _, .string s => "\"" ++ s ++ "\""
  | _, .number (.posInt n) => toString n.toNat
  | _, .bool b => toString b
  | _, _ => "null"

/-- One layer with attention, every size one. -/
def tinyConfig : Json ConfigParse.Number :=
  .object [("hidden_size", .number (.posInt 1)), ("num_hidden_layers", .number (.posInt 1)),
    ("vocab_size", .number (.posInt 1)), ("num_attention_heads", .number (.posInt 1)),
    ("head_dim", .number (.posInt 1)), ("intermediate_size", .number (.posInt 1)),
    ("layer_types", .array [.string "full_attention"])]

/-- The linear weights of the layer. -/
def tinyLinears : List String :=
  ["self_attn.q_proj", "self_attn.k_proj", "self_attn.v_proj", "self_attn.o_proj",
    "mlp.gate_proj", "mlp.up_proj", "mlp.down_proj"].map fun n => s!"model.layers.0.{n}.weight"

/-- The tensors of the model. -/
def tinyNames : List String :=
  ["model.embed_tokens.weight", "model.norm.weight", "model.layers.0.input_layernorm.weight"] ++
    tinyLinears

/-- The shard of the model. -/
def tinySt : SafeTensorSet where
  shards := [(tinyNames.map fun n => ⟨n, ⟨.bf16, [1, 1], [0, 0], by decide⟩⟩).toAList]
  index := (tinyNames.map fun n => ⟨n, 0⟩).toAList
  past := fun _ _ => 0

/-- The metadata of the cache file. -/
def tinyMeta : Json ConfigParse.Number :=
  fileMetadata (·.entries) (tinyLinears.map fun name => { oneTensor with name }) []

/-- `serde_json` on the three texts that are read. -/
def tinyJson : SerdeJson ConfigParse.Number where
  fromStr s := [.object [], tinyConfig, tinyMeta].find? fun v => compact 3 v = s
  toString := compact 3

/-- The environment. -/
def tinyEnv : Env where
  json := tinyJson
  packing := ⟨fun _ => [], fun _ => []⟩
  listed := (·.tensorNames)
  listedSt := (·.tensorNames)
  iter := (·.entries)
  maxLayers := 1
  kvQuant := false
  multiGpu := false
  weightQuant := .rnf4
  quantLayers := none
  bqntPathSet := false
  dirHasName := true
  creates := true
  configJson := some (compact 3 tinyConfig)
  maxSeqLen := none

lemma tinyEnv_fromStr (s : String) : tinyEnv.json.fromStr s =
    [.object [], tinyConfig, tinyMeta].find? fun v => compact 3 v = s := rfl

lemma tinyEnv_toString (v : Json ConfigParse.Number) : tinyEnv.json.toString v = compact 3 v := rfl

/-- What the first load of the model caches. -/
structure TinyCache (c : CacheWriter) : Prop where
  names : c.written.map (·.name) = tinyLinears
  size : ∀ t ∈ c.written,
    t.data.length = packedSize t.format t.outFeatures.toNat t.inFeatures.toNat
  fits : fileEnd 65536 c.written (utf8 (compact 3 tinyMeta)) < 2 ^ 63

/-- Whether a load has written such a cache. -/
def tinyWritten : Except ModelError (LoadedModel × Option CacheWriter) → Bool
  | .ok (_, some c) =>
      c.written.map (·.name) = tinyLinears ∧
      (∀ t ∈ c.written,
        t.data.length = packedSize t.format t.outFeatures.toNat t.inFeatures.toNat) ∧
      fileEnd 65536 c.written (utf8 (compact 3 tinyMeta)) < 2 ^ 63
  | _ => false

/-- The first load of the model. -/
lemma tiny_first : ∃ m c, tinyEnv.load none tinySt = .ok (m, some c) ∧ TinyCache c := by
  have hrun : tinyWritten (tinyEnv.load none tinySt) = true := by decide +kernel
  rcases hload : tinyEnv.load none tinySt with e | ⟨m, _ | c⟩ <;> rw [hload] at hrun
  · cases hrun
  · cases hrun
  · obtain ⟨hnames, hsize, hfits⟩ := of_decide_eq_true hrun
    exact ⟨m, c, rfl, hnames, hsize, hfits⟩

namespace TinyCache

variable {c : CacheWriter}

lemma metadata (h : TinyCache c) : fileMetadata tinyEnv.iter c.written [] = tinyMeta := by
  have hnames : addNames ∅ c.written =
      addNames ∅ (tinyLinears.map fun name => { oneTensor with name }) := by
    have hfold : ∀ ts : List Tensor, addNames ∅ ts =
        (ts.map (·.name)).foldl (fun names n => names.insert (fnv1a64 n) n) ∅ := fun ts => by
      rw [List.foldl_map]
      rfl
    rw [hfold, hfold, h.names, List.map_map]
    rfl
  rw [fileMetadata, hnames]
  rfl

lemma parse (h : TinyCache c) :
    tinyEnv.json.fromStr (tinyEnv.json.toString (fileMetadata tinyEnv.iter c.written [])) =
      some (fileMetadata tinyEnv.iter c.written []) := by
  have hother : ∀ v ∈ [.object [], tinyConfig], compact 3 v ≠ compact 3 tinyMeta := by
    intro v hv
    simp only [List.mem_cons, List.not_mem_nil, or_false] at hv
    rcases hv with rfl | rfl
    · decide +kernel
    · decide +kernel
  rw [h.metadata, tinyEnv_toString, tinyEnv_fromStr,
    List.find?_cons_of_neg (by simpa using hother _ (by simp)),
    List.find?_cons_of_neg (by simpa using hother _ (by simp)),
    List.find?_cons_of_pos (by simp)]

lemma fileEnd_lt (h : TinyCache c) : fileEnd 65536 c.written
    (utf8 (tinyEnv.json.toString (fileMetadata tinyEnv.iter c.written []))) < 2 ^ 63 := by
  rw [h.metadata]
  exact h.fits

lemma length_eq (h : TinyCache c) : c.written.length = 7 := by
  rw [← List.length_map (·.name), h.names]
  rfl

lemma reopens (h : TinyCache c) : Reopens c.written := by
  refine ⟨fun hnil => ?_, ?_, h.size⟩
  · have hlen := h.length_eq
    rw [hnil] at hlen
    cases hlen
  · have hmap : c.written.map (fun t => fnv1a64 t.name) = tinyLinears.map fnv1a64 := by
      rw [← h.names, List.map_map]
      rfl
    rw [hmap]
    decide +kernel

end TinyCache

lemma tinyJson_object : tinyEnv.json.fromStr "\x7b\x7d" = some (.object []) := by
  have htext : compact 3 (.object []) = "\x7b\x7d" := by decide +kernel
  rw [tinyEnv_fromStr, List.find?_cons_of_pos (by simpa using htext)]

lemma tinyJson_empty : tinyEnv.json.fromStr "" = none := by
  have hnone : (tinyEnv.json.fromStr "").isNone = true := by decide +kernel
  exact Option.isNone_iff_eq_none.mp hnone

/-- The model of one layer is not loaded from its cache, in some orders of the names. -/
theorem not_reload_tiny : ∃ m c, tinyEnv.load none tinySt = .ok (m, some c) ∧
    ¬ ∀ listed listedSt, (∀ f : MmapBqnt, (listed f).Perm f.tensorNames) →
      (listedSt tinySt).Perm tinySt.tensorNames →
        ∃ cache, (tinyEnv.reordered listed listedSt).load (some (tinyEnv.cacheFile c)) tinySt =
          .ok (m, cache) := by
  obtain ⟨m, c, hfirst, h⟩ := tiny_first
  refine ⟨m, c, hfirst, fun hload => ?_⟩
  have hiff := reload_iff tinyEnv tinySt m c (fun _ => .refl _) (fun _ => .refl _) (.refl _) hfirst
    (by rw [h.length_eq]; decide) tinyJson_object tinyJson_empty h.parse h.fileEnd_lt
  exact (hiff.mp hload).1 h.reopens

/-- The cache does not reproduce every first load. -/
theorem not_reload : ¬ ∀ (env : Env) (st : SafeTensorSet) (m : LoadedModel) (c : CacheWriter),
    env.load none st = .ok (m, some c) →
      ∃ cache, env.load (some (env.cacheFile c)) st = .ok (m, cache) := by
  intro hall
  obtain ⟨m, c, hfirst, h⟩ := tiny_first
  have hiter : ∀ names, (tinyEnv.iter names).Perm names.entries := fun _ => .refl _
  obtain ⟨-, hopens⟩ := opens_iff hiter (fun t ht => (written_ofLayer hfirst t ht).2)
    (by rw [h.length_eq]; decide) tinyJson_object tinyJson_empty h.parse h.fileEnd_lt
  obtain ⟨f, hopen, hopened⟩ := hopens h.reopens
  obtain ⟨cache, hload⟩ := hall tinyEnv tinySt m c hfirst
  exact reload_ne_ok (fun _ => .refl _) hfirst hopen hopened h.reopens.nonempty hload

end Braidinfer.Loader
