/-
What a load does with the writer of the cache file (`model_load.rs`, `moe_weights.rs`).

Every tensor is cached under a name of its layer, so an invariant that caching such a tensor keeps
is kept by all of a load.

* `KeptByLayers`: such an invariant;
* `loadMoeWeightsInner_keeps`, `loadLayer_keeps`, `loadWeights_keeps`: **it is kept** by the
  experts of a layer, by a layer and by a load.
-/
import Braidinfer.Lib.Program
import Braidinfer.Loader.Load

namespace Braidinfer.Loader

open Braidinfer.Lib
open Braidinfer.Bqnt
open Moe (WeightFormat LinearWeight ModelError)
open Engine.ConfigParse (WeightQuantMode ModelConfig)
open Engine.MixedPrefill (FfnType)

/-! ### What a load writes -/

/-- The name of a tensor of a layer. -/
def OfLayer (name : String) : Prop := Text.contains name "layers." = true

/-- Caching a tensor of a layer keeps the invariant. -/
def KeptByLayers (I : Option CacheWriter → Prop) : Prop :=
  ∀ name fmt outDim inDim packed, OfLayer name →
    Preserves I (cacheTensor name fmt outDim inDim packed)

lemma OfLayer.append {s : String} (h : OfLayer s) (t : String) : OfLayer (s ++ t) :=
  Text.contains_append_left t h

section

variable {I : Option CacheWriter → Prop} (hI : KeptByLayers I) {pk : Packing} {st : SafeTensorSet}
  {bqnt : Option MmapBqnt} {wq : WeightQuantMode} {name pfx : String}

include hI

lemma hostBf16QuantizeUploadCache_keeps (hname : OfLayer name) (hostBuf : List UInt8)
    (outDim inDim : ℕ) (fmt : WeightFormat) :
    Preserves I (hostBf16QuantizeUploadCache pk hostBuf outDim inDim fmt name) :=
  .lift_bind fun _ _ => .bind (hI _ _ _ _ _ hname) fun _ => .pure _

lemma loadLinearWeightCached_keeps (hname : OfLayer name) (outDim inDim : ℕ) :
    Preserves I (loadLinearWeightCached pk st name outDim inDim wq) := by
  rw [loadLinearWeightCached]
  split
  · exact .lift_bind fun _ _ => .pure _
  · exact .lift_bind fun _ _ => .lift_bind fun _ _ =>
      .bind (hI _ _ _ _ _ hname) fun _ => .pure _

lemma loadFusedSt_keeps (hname : OfLayer name) (outDim inDim : ℕ) :
    Preserves I (loadFusedSt pk st wq name outDim inDim) := by
  refine .get_bind fun s => ?_
  split
  · exact loadLinearWeightCached_keeps hI hname outDim inDim
  · exact .lift _

lemma loadLwMoe_keeps (hname : OfLayer name) (outDim inDim : ℕ) :
    Preserves I (loadLwMoe pk st bqnt wq name outDim inDim) := by
  rw [loadLwMoe]
  split
  · exact .pure _
  · exact loadFusedSt_keeps hI hname outDim inDim

lemma loadGateUp_keeps (hpfx : OfLayer pfx) (ne eis hs : ℕ) (hasGateProj : Bool) :
    Preserves I (loadGateUp pk st bqnt wq pfx ne eis hs hasGateProj) := by
  have hname : OfLayer (fusedName pfx) := hpfx.append _
  rw [loadGateUp]
  split
  · exact .pure _
  split
  · exact loadFusedSt_keeps hI hname _ _
  split
  · exact .lift_bind fun _ _ => hostBf16QuantizeUploadCache_keeps hI hname _ _ _ _
  refine .lift_bind fun r _ => ?_
  split
  · exact .pure _
  · exact .lift_bind fun _ _ => hostBf16QuantizeUploadCache_keeps hI hname _ _ _ _

lemma loadDown_keeps (hpfx : OfLayer pfx) (ne eis hs : ℕ) (hasGateProj : Bool) :
    Preserves I (loadDown pk st bqnt wq pfx ne eis hs hasGateProj) := by
  have hname : OfLayer (downName pfx) := hpfx.append _
  rw [loadDown]
  split
  · exact .pure _
  split
  · exact loadFusedSt_keeps hI hname _ _
  refine .lift_bind fun r _ => ?_
  split
  · exact .pure _
  · exact .lift_bind fun _ _ => hostBf16QuantizeUploadCache_keeps hI hname _ _ _ _

lemma loadExperts_keeps (hpfx : OfLayer pfx) (skipExperts : Bool) (ne eis hs : ℕ)
    (hasGateProj : Bool) :
    Preserves I (loadExperts pk st bqnt wq pfx skipExperts ne eis hs hasGateProj) := by
  rw [loadExperts]
  split
  · exact .pure _
  · exact .bind (loadGateUp_keeps hI hpfx _ _ _ _) fun _ =>
      .bind (loadDown_keeps hI hpfx _ _ _ _) fun _ => .pure _

omit hI in
/-- A name that is found is one of the candidates. -/
lemma mem_of_findWeightName {candidates : List String}
    (h : findWeightName st bqnt candidates = .ok name) : name ∈ candidates := by
  rw [findWeightName] at h
  split at h
  · rename_i n hn
    obtain rfl := Except.ok.inj h
    exact List.mem_of_find?_eq_some hn
  · cases h

omit hI in
/-- A name that is found among two names of a layer is one. -/
lemma ofLayer_of_findWeightName {a b : String} (ha : OfLayer a) (hb : OfLayer b)
    (h : findWeightName st bqnt [a, b] = .ok name) : OfLayer name := by
  have hmem := mem_of_findWeightName h
  simp only [List.mem_cons, List.not_mem_nil, or_false] at hmem
  rcases hmem with rfl | rfl
  · exact ha
  · exact hb

lemma loadSharedGateProj_keeps (hpfx : OfLayer pfx) (sis hs : ℕ) :
    Preserves I (loadSharedGateProj pk st bqnt wq pfx sis hs) := by
  rw [loadSharedGateProj]
  split
  · rename_i n hn
    exact loadLwMoe_keeps hI (ofLayer_of_findWeightName (hpfx.append _) (hpfx.append _) hn) _ _
  · exact .pure _

lemma loadSharedExpert_keeps (hpfx : OfLayer pfx) (m : Engine.MixedPrefill.MoeConfig) (hs : ℕ) :
    Preserves I (loadSharedExpert pk st bqnt wq pfx m hs) := by
  rw [loadSharedExpert]
  split
  · exact .pure _
  refine .lift_bind fun upName hup => .lift_bind fun downName hdown => ?_
  have hupL := ofLayer_of_findWeightName (hpfx.append _) (hpfx.append _) hup
  have hdownL := ofLayer_of_findWeightName (hpfx.append _) (hpfx.append _) hdown
  exact .bind (loadSharedGateProj_keeps hI hpfx _ _) fun _ =>
    .bind (loadLwMoe_keeps hI hupL _ _) fun _ =>
      .bind (loadLwMoe_keeps hI hdownL _ _) fun _ => .pure _

lemma loadMoeWeightsInner_keeps (hpfx : OfLayer pfx) (config : ModelConfig) (ffnType : FfnType)
    (skipExperts : Bool) :
    Preserves I (loadMoeWeightsInner pk st bqnt wq pfx config ffnType skipExperts) := by
  unfold loadMoeWeightsInner
  split
  · refine .lift_bind fun _ _ => .bind (loadExperts_keeps hI hpfx _ _ _ _ _) fun experts => ?_
    refine .bind (loadSharedExpert_keeps hI hpfx _ _) fun _ => .lift_bind fun _ _ =>
      .lift_bind fun _ _ => .lift_bind fun _ _ => .lift_bind fun _ _ => .pure _
  · exact .throw _

/-! ### Layers -/

variable {config : ModelConfig} {useQuant multiGpu : Bool} {p : String}

lemma loadLw_keeps (hname : OfLayer name) (outDim inDim : ℕ) :
    Preserves I (loadLw pk st bqnt config useQuant name outDim inDim) := by
  rw [loadLw]
  split
  · split
    · exact .pure _
    · refine .get_bind fun s => ?_
      split
      · exact loadLinearWeightCached_keeps hI hname _ _
      · exact .lift _
  · exact .lift _

lemma loadLwIf_keeps (hname : OfLayer name) (cond : Bool) (outDim inDim : ℕ) :
    Preserves I (loadLwIf pk st bqnt config useQuant cond name outDim inDim) := by
  rw [loadLwIf]
  split
  · exact loadLw_keeps hI hname _ _
  · exact .pure _

lemma loadAttnProj_keeps (hp : OfLayer p) (proj : String) (outDim inDim : ℕ) :
    Preserves I (loadAttnProj pk st bqnt config useQuant p proj outDim inDim) :=
  .lift_bind fun _ hn => loadLw_keeps hI (ofLayer_of_findWeightName
    (((hp.append _).append _).append _) (((hp.append _).append _).append _) hn) _ _

lemma loadMoeIf_keeps (hp : OfLayer p) (ffnType : FfnType) :
    Preserves I (loadMoeIf pk st bqnt multiGpu config p ffnType) := by
  rw [loadMoeIf]
  split
  · exact .bind (loadMoeWeightsInner_keeps hI hp _ _ _) fun _ => .pure _
  · exact .pure _

lemma loadMamba2_keeps (hp : OfLayer p) :
    Preserves I (loadMamba2 pk st bqnt config useQuant p) := by
  rw [loadMamba2]
  split
  · refine .lift_bind fun _ _ => .lift_bind fun _ _ => ?_
    refine .bind (loadLw_keeps hI (hp.append _) _ _) fun _ => ?_
    refine .lift_bind fun _ _ => .lift_bind fun _ _ => .lift_bind fun _ _ => .lift_bind fun _ _ =>
      .lift_bind fun _ _ => .lift_bind fun _ _ => ?_
    exact .bind (loadLw_keeps hI (hp.append _) _ _) fun _ => .pure _
  · exact .throw _

lemma loadAttention_keeps (hp : OfLayer p) (hasQkNorm hasOutputGate : Bool) (ffnType : FfnType) :
    Preserves I
      (loadAttention pk st bqnt config useQuant hasQkNorm hasOutputGate p ffnType) := by
  refine .lift_bind fun _ _ => .lift_bind fun _ _ => ?_
  refine .bind (loadAttnProj_keeps hI hp _ _ _) fun _ =>
    .bind (loadAttnProj_keeps hI hp _ _ _) fun _ => ?_
  refine .bind (loadAttnProj_keeps hI hp _ _ _) fun _ =>
    .bind (loadAttnProj_keeps hI hp _ _ _) fun _ => ?_
  refine .lift_bind fun _ _ => .lift_bind fun _ _ => .lift_bind fun _ _ => ?_
  refine .bind (loadLwIf_keeps hI (hp.append _) _ _ _) fun _ => ?_
  refine .bind (loadLwIf_keeps hI (hp.append _) _ _ _) fun _ => ?_
  exact .bind (loadLwIf_keeps hI (hp.append _) _ _ _) fun _ => .pure _

lemma loadGdn_keeps (hp : OfLayer p) (ffnType : FfnType) :
    Preserves I (loadGdn pk st bqnt config useQuant p ffnType) := by
  have hlw : ∀ s outDim inDim, Preserves I
      (loadLw pk st bqnt config useQuant (toString p ++ s) outDim inDim) :=
    fun s outDim inDim => loadLw_keeps hI (hp.append _) outDim inDim
  refine .lift_bind fun _ _ => .lift_bind fun _ _ => ?_
  refine .bind (hlw _ _ _) fun _ => .bind (hlw _ _ _) fun _ => ?_
  refine .bind (hlw _ _ _) fun _ => .bind (hlw _ _ _) fun _ => ?_
  refine .lift_bind fun _ _ => .lift_bind fun _ _ => .lift_bind fun _ _ => ?_
  refine .bind (hlw _ _ _) fun _ => .lift_bind fun _ _ => ?_
  refine .bind (loadLwIf_keeps hI (hp.append _) _ _ _) fun _ => ?_
  refine .bind (loadLwIf_keeps hI (hp.append _) _ _ _) fun _ => ?_
  exact .bind (loadLwIf_keeps hI (hp.append _) _ _ _) fun _ => .pure _

omit hI in
/-- The start of the names of a layer. -/
lemma ofLayer_layer (pfx : String) (i : ℕ) : OfLayer s!"{pfx}layers.{i}." := by
  have hlayers : Text.contains "layers." "layers." = true := by decide
  exact ((show OfLayer (pfx ++ "layers.") from
    Text.contains_append_right pfx hlayers).append _).append _

/-- **A layer only caches tensors with names of layers.** -/
lemma loadLayer_keeps (quantLayers : Option (List ℕ)) (pfx : String) (i : ℕ) :
    Preserves I (loadLayer pk st bqnt multiGpu config quantLayers pfx i) := by
  have hp := ofLayer_layer pfx i
  have hmoe : OfLayer (moePrefix st bqnt s!"{pfx}layers.{i}.") := by
    rw [moePrefix]
    split
    · exact hp.append _
    · exact hp.append _
  rw [loadLayer]
  split
  · exact .throw _
  split
  · exact .bind (loadMamba2_keeps hI hp) fun _ => .pure _
  · exact .lift_bind fun _ _ => .bind (loadMoeWeightsInner_keeps hI hmoe _ _ _) fun _ => .pure _
  · exact .bind (loadAttention_keeps hI hp _ _ _) fun _ =>
      .bind (loadMoeIf_keeps hI hp _) fun _ => .pure _
  · exact .bind (loadGdn_keeps hI hp _) fun _ => .bind (loadMoeIf_keeps hI hp _) fun _ => .pure _

end

lemma loadWeights_keeps {I : Option CacheWriter → Prop} (hI : KeptByLayers I) (env : Env)
    (st : SafeTensorSet) (bqnt : Option MmapBqnt) (config : ModelConfig) :
    Preserves I (env.loadWeights st bqnt config) := by
  refine .lift_bind fun _ _ => .lift_bind fun _ _ => .lift_bind fun _ _ => ?_
  refine .lift_bind fun _ _ => .lift_bind fun _ _ => .lift_bind fun _ _ => ?_
  exact .bind (.mapM fun i _ => loadLayer_keeps hI _ _ i) fun _ => .pure _

end Braidinfer.Loader
