/-
What the distribution of the expert weights leaves in the GPUs' buffers.

`ExpertTensors` are the original tensors of a layer, expert by expert.  Both loading paths run the
same two loops for the owners and the slots and then fill the slots one expert after the other;
`Filled` says what is there after some experts.

* `roundRobin_eq`, `slotMap_eq`: the loops in closed form;
* `Filled.store`, `Filled.foldlM`: **one expert, and all experts**;
* `distributeMoeWeightsFromRef_ok`, `distributeMoeWeightsFromBqnt_ok`: both paths succeed, with
  every expert's bytes in its slot.
-/
import Braidinfer.Moe.ExpertWeights

namespace Braidinfer.Moe

open Braidinfer.Lib
open Braidinfer.Bqnt

/-! ### The original tensors -/

/-- The sizes and the format of a layer's experts; both tensors have the same quantized format. -/
structure ExpertGeometry where
  numExperts : ℕ
  format : WeightFormat
  eis : ℕ
  gateUpInDim : ℕ
  hasGateProj : Bool
  numExperts_pos : 0 < numExperts
  numExperts_le : numExperts ≤ 512
  /-- an empty buffer has a null pointer -/
  eis_pos : 0 < eis
  gateUpInDim_pos : 0 < gateUpInDim
  quantized : format ≠ .bf16
  /-- `MoeWorkerConfig` has the row stride as `u32` -/
  rowStride_lt : format.rowBytes 1 gateUpInDim < 2 ^ 32

namespace ExpertGeometry

variable (geo : ExpertGeometry)

/-- The bytes of one of the gate and up projections of an expert. -/
def projBytes : ℕ := geo.format.rowBytes geo.eis geo.gateUpInDim

/-- The rows of an expert in the fused tensor. -/
def gateUpRows : ℕ := if geo.hasGateProj then 2 * geo.eis else geo.eis

/-- The bytes of an expert in the fused tensor. -/
def gateUpStride : ℕ := geo.format.rowBytes geo.gateUpRows geo.gateUpInDim

/-- The bytes of an expert in the down tensor. -/
def downStride : ℕ := geo.format.rowBytes geo.gateUpInDim geo.eis

end ExpertGeometry

/-- The original tensors of a layer: the rows of every expert. -/
structure ExpertTensors (geo : ExpertGeometry) where
  gate : ℕ → List UInt8
  up : ℕ → List UInt8
  down : ℕ → List UInt8
  length_gate : ∀ e < geo.numExperts,
    (gate e).length = if geo.hasGateProj then geo.projBytes else 0
  length_up : ∀ e < geo.numExperts, (up e).length = geo.projBytes
  length_down : ∀ e < geo.numExperts, (down e).length = geo.downStride

variable {geo : ExpertGeometry} {t : ExpertTensors geo}

lemma WeightFormat.rowBytes_add (format : WeightFormat) (a b inDim : ℕ) :
    format.rowBytes (a + b) inDim = format.rowBytes a inDim + format.rowBytes b inDim := by
  cases format <;> simp only [WeightFormat.rowBytes, Nat.add_mul]

/-- The rows of an expert in the fused tensor. -/
def ExpertTensors.gateUp (t : ExpertTensors geo) (e : ℕ) : List UInt8 := t.gate e ++ t.up e

lemma ExpertTensors.length_gateUp (t : ExpertTensors geo) {e : ℕ} (he : e < geo.numExperts) :
    (t.gateUp e).length = geo.gateUpStride := by
  rw [gateUp, List.length_append, t.length_gate e he, t.length_up e he,
    ExpertGeometry.gateUpStride, ExpertGeometry.gateUpRows]
  cases geo.hasGateProj with
  | true => simp only [if_true, Nat.two_mul, WeightFormat.rowBytes_add, ExpertGeometry.projBytes]
  | false =>
      simp only [Bool.false_eq_true, if_false, Nat.zero_add, ExpertGeometry.projBytes]

/-! ### Owners and slots in closed form -/

/-- The GPU of an expert. -/
def ownerOf (numDevices startGpu e : ℕ) : ℕ := startGpu + e % (numDevices - startGpu)

lemma ownerOf_lt {numDevices startGpu : ℕ} (h : startGpu < numDevices) (e : ℕ) :
    ownerOf numDevices startGpu e < numDevices := by
  have := Nat.mod_lt e (Nat.sub_pos_of_lt h)
  rw [ownerOf]
  omega

section Loops

variable {ne numDevices startGpu : ℕ}

/-- The owners and the counts. -/
lemma roundRobin_eq : roundRobin ne numDevices startGpu =
    ((List.range ne).map (ownerOf numDevices startGpu),
      (List.range numDevices).map (ownedCount (ownerOf numDevices startGpu) ne)) := by
  -- after `n` experts the counts are those of the experts below `n`
  have hloop : ∀ n ≤ ne, (List.range n).foldl (fun (x : List ℕ × List ℕ) e =>
      (x.1.set e (ownerOf numDevices startGpu e),
        x.2.modify (ownerOf numDevices startGpu e) (· + 1)))
      ((List.range ne).map fun _ => 0, (List.range numDevices).map fun _ => 0) =
      ((List.range ne).map (below (ownerOf numDevices startGpu) 0 n),
        (List.range numDevices).map (ownedCount (ownerOf numDevices startGpu) n)) := by
    intro n hn
    induction n with
    | zero =>
        have hcount : ownedCount (ownerOf numDevices startGpu) 0 = fun _ => 0 :=
          funext fun g => Nat.count_zero _
        rw [hcount, below_zero]
        rfl
    | succ n ih =>
        have hcount : ownedCount (ownerOf numDevices startGpu) (n + 1) =
            Function.update (ownedCount (ownerOf numDevices startGpu) n)
              (ownerOf numDevices startGpu n)
              (ownedCount (ownerOf numDevices startGpu) n (ownerOf numDevices startGpu n) + 1) := by
          funext g
          by_cases hg : g = ownerOf numDevices startGpu n
          · simp [hg, ownedCount, Nat.count_succ]
          · simp [hg, ownedCount, Nat.count_succ, Ne.symm hg]
        rw [List.range_succ, List.foldl_append, ih (Nat.le_of_succ_le hn), List.foldl_cons,
          List.foldl_nil, set_map_range, modify_map_range, below_succ, hcount]
  have hall := hloop ne (Nat.le_refl ne)
  rw [map_range_below, ← replicate_eq_map_range, ← replicate_eq_map_range] at hall
  exact hall

/-- The slots of a GPU. -/
def slotTable (owner : ℕ → ℕ) (ne gpu : ℕ) : List (Option ℕ) :=
  (List.range ne).map fun e => if owner e = gpu then some (slotOf owner e) else none

lemma slotMap_eq (owner : ℕ → ℕ) (gpu : ℕ) :
    slotMap ((List.range ne).map owner) ne gpu = slotTable owner ne gpu := by
  set slot : ℕ → Option ℕ := fun e => if owner e = gpu then some (slotOf owner e) else none
    with hslot
  -- the running slot is the number of the GPU's experts below `n`
  have hloop : ∀ n ≤ ne, (List.range n).foldl (fun (x : List (Option ℕ) × ℕ) e =>
      if ((List.range ne).map owner)[e]? = some gpu then (x.1.set e (some x.2), x.2 + 1)
      else (x.1, x.2)) ((List.range ne).map fun _ => none, 0) =
      ((List.range ne).map (below slot none n), ownedCount owner n gpu) := by
    intro n hn
    induction n with
    | zero => simp [ownedCount, below_zero]
    | succ n ih =>
        rw [List.range_succ, List.foldl_append, ih (Nat.le_of_succ_le hn), List.foldl_cons,
          List.foldl_nil, getElem?_map_range (Nat.lt_of_succ_le hn)]
        by_cases hg : owner n = gpu
        · have hn' : slot n = some (ownedCount owner n gpu) := by
            simp [hslot, hg, slotOf, ownedCount]
          have hcount : ownedCount owner (n + 1) gpu = ownedCount owner n gpu + 1 := by
            simp [ownedCount, Nat.count_succ, hg]
          rw [if_pos (congrArg some hg), set_map_range, below_succ, hn', hcount]
        · have hn' : slot n = none := by simp [hslot, hg]
          have hcount : ownedCount owner (n + 1) gpu = ownedCount owner n gpu := by
            simp [ownedCount, Nat.count_succ, hg]
          rw [if_neg fun h => hg (Option.some.inj h), below_succ_of_eq hn', hcount]
  have hall := hloop ne (Nat.le_refl ne)
  rw [map_range_below, ← replicate_eq_map_range] at hall
  exact congrArg Prod.fst hall

/-- The map of GPU 0 in the reference path. -/
lemma slotMapIdentity_eq (owner : ℕ → ℕ) :
    slotMapIdentity ((List.range ne).map owner) ne =
      (List.range ne).map fun e => if owner e = 0 then some e else none := by
  set slot : ℕ → Option ℕ := fun e => if owner e = 0 then some e else none with hslot
  have hloop : ∀ n ≤ ne, (List.range n).foldl (fun (m : List (Option ℕ)) e =>
      if ((List.range ne).map owner)[e]? = some 0 then m.set e (some e) else m)
      ((List.range ne).map fun _ => none) = (List.range ne).map (below slot none n) := by
    intro n hn
    induction n with
    | zero => simp [below_zero]
    | succ n ih =>
        rw [List.range_succ, List.foldl_append, ih (Nat.le_of_succ_le hn), List.foldl_cons,
          List.foldl_nil, getElem?_map_range (Nat.lt_of_succ_le hn)]
        by_cases hg : owner n = 0
        · have hn' : slot n = some n := by simp [hslot, hg]
          rw [if_pos (congrArg some hg), set_map_range, below_succ, hn']
        · have hn' : slot n = none := by simp [hslot, hg]
          rw [if_neg fun h => hg (Option.some.inj h), below_succ_of_eq hn']
  rw [slotMapIdentity, replicate_eq_map_range, hloop ne (Nat.le_refl ne), map_range_below]

end Loops

/-! ### Filling the slots -/

/-- The buffers after `n` experts: the GPUs in `own` have one slot for each of their experts, and
the experts below `n` are in their slots; the others are as they were. -/
structure Filled (t : ExpertTensors geo) (owner : ℕ → ℕ) (own : ℕ → Prop)
    (init : ℕ → GpuExpertBuffer) (n : ℕ) (bufs : ℕ → GpuExpertBuffer) : Prop where
  count : ∀ g, (bufs g).localExpertCount = (init g).localExpertCount
  slotMap : ∀ g, (bufs g).slotMap = (init g).slotMap
  length_gateUp : ∀ g, own g →
    (bufs g).gateUp.length = ownedCount owner geo.numExperts g * geo.gateUpStride
  length_down : ∀ g, own g →
    (bufs g).down.length = ownedCount owner geo.numExperts g * geo.downStride
  stored_gateUp : ∀ e < n, own (owner e) →
    slice (bufs (owner e)).gateUp (slotOf owner e * geo.gateUpStride) geo.gateUpStride = t.gateUp e
  stored_down : ∀ e < n, own (owner e) →
    slice (bufs (owner e)).down (slotOf owner e * geo.downStride) geo.downStride = t.down e

section Filled

variable {owner : ℕ → ℕ} {own : ℕ → Prop} {init bufs : ℕ → GpuExpertBuffer} {n numDevices : ℕ}

/-- Storing one more item keeps the items stored before. -/
lemma stored_overwriteAt {ne stride : ℕ} {item : ℕ → List UInt8} (data : ℕ → List UInt8)
    (hn : n < ne) (hown : own (owner n)) (hitem : (item n).length = stride)
    (hlen : ∀ g, own g → (data g).length = ownedCount owner ne g * stride)
    (hstored : ∀ e < n, own (owner e) → slice (data (owner e)) (slotOf owner e * stride) stride =
      item e) :
    ∀ e < n + 1, own (owner e) →
      slice (Function.update data (owner n)
        (overwriteAt (data (owner n)) (slotOf owner n * stride) (item n)) (owner e))
        (slotOf owner e * stride) stride = item e := by
  intro e he hown'
  have hlt := slotOf_lt owner hn
  have hbuf := hlen (owner n) hown
  by_cases hen : e = n
  · subst hen
    rw [Function.update_self, slice_overwriteAt_slot hlt hbuf hitem]
  · have hlast := hstored e (by omega) hown'
    by_cases howner : owner e = owner n
    · have hslot : slotOf owner n ≠ slotOf owner e := fun h => hen (slotOf_inj howner h.symm)
      rw [howner, Function.update_self, slice_overwriteAt_slot_of_ne hlt hbuf hitem hslot,
        ← howner]
      exact hlast
    · rw [Function.update_of_ne howner]
      exact hlast

/-- **One expert is stored.** -/
lemma Filled.store (h : Filled t owner own init n bufs) (hn : n < geo.numExperts)
    (hown : own (owner n)) :
    Filled t owner own init (n + 1) (Function.update bufs (owner n)
      (storeExpert geo.gateUpStride geo.downStride (slotOf owner n) (t.gateUp n) (t.down n)
        (bufs (owner n)))) := by
  have hlt := slotOf_lt owner hn
  have hgateUp := slot_in_buffer hlt (h.length_gateUp _ hown) (t.length_gateUp hn)
  have hdown := slot_in_buffer hlt (h.length_down _ hown) (t.length_down n hn)
  set new := storeExpert geo.gateUpStride geo.downStride (slotOf owner n) (t.gateUp n) (t.down n)
    (bufs (owner n)) with hnew
  have hdataGateUp : ∀ g, (Function.update bufs (owner n) new g).gateUp =
      Function.update (fun g => (bufs g).gateUp) (owner n) new.gateUp g := by
    intro g
    by_cases hg : g = owner n
    · simp [hg]
    · simp [hg]
  have hdataDown : ∀ g, (Function.update bufs (owner n) new g).down =
      Function.update (fun g => (bufs g).down) (owner n) new.down g := by
    intro g
    by_cases hg : g = owner n
    · simp [hg]
    · simp [hg]
  refine ⟨fun g => ?_, fun g => ?_, fun g hg => ?_, fun g hg => ?_, fun e he hown' => ?_,
    fun e he hown' => ?_⟩
  · rw [← h.count g]
    by_cases hg : g = owner n
    · simp [hg, hnew, storeExpert]
    · simp [hg]
  · rw [← h.slotMap g]
    by_cases hg : g = owner n
    · simp [hg, hnew, storeExpert]
    · simp [hg]
  · rw [← h.length_gateUp g hg, hdataGateUp]
    by_cases hgn : g = owner n
    · rw [hgn, Function.update_self, hnew, storeExpert, length_overwriteAt hgateUp]
    · rw [Function.update_of_ne hgn]
  · rw [← h.length_down g hg, hdataDown]
    by_cases hgn : g = owner n
    · rw [hgn, Function.update_self, hnew, storeExpert, length_overwriteAt hdown]
    · rw [Function.update_of_ne hgn]
  · rw [hdataGateUp]
    exact stored_overwriteAt (fun g => (bufs g).gateUp) hn hown (t.length_gateUp hn)
      h.length_gateUp h.stored_gateUp e he hown'
  · rw [hdataDown]
    exact stored_overwriteAt (fun g => (bufs g).down) hn hown (t.length_down n hn)
      h.length_down h.stored_down e he hown'

/-- One expert is skipped. -/
lemma Filled.skip (h : Filled t owner own init n bufs) (hown : ¬ own (owner n)) :
    Filled t owner own init (n + 1) bufs := by
  refine ⟨h.count, h.slotMap, h.length_gateUp, h.length_down, fun e he hown' => ?_,
    fun e he hown' => ?_⟩
  · have hne : e ≠ n := fun hen => hown (hen ▸ hown')
    exact h.stored_gateUp e (by omega) hown'
  · have hne : e ≠ n := fun hen => hown (hen ▸ hown')
    exact h.stored_down e (by omega) hown'

/-- **All experts.**  A loop whose every iteration stores or skips its expert. -/
lemma Filled.foldlM {step : List GpuExpertBuffer → ℕ → Except ModelError (List GpuExpertBuffer)}
    (hinit : Filled t owner own init 0 init)
    (hstep : ∀ n < geo.numExperts, ∀ bufs, Filled t owner own init n bufs →
      ∃ bufs', step ((List.range numDevices).map bufs) n =
        .ok ((List.range numDevices).map bufs') ∧ Filled t owner own init (n + 1) bufs') :
    ∃ bufs, (List.range geo.numExperts).foldlM step ((List.range numDevices).map init) =
      .ok ((List.range numDevices).map bufs) ∧
        Filled t owner own init geo.numExperts bufs := by
  have hloop : ∀ n ≤ geo.numExperts, ∃ bufs,
      (List.range n).foldlM step ((List.range numDevices).map init) =
        .ok ((List.range numDevices).map bufs) ∧ Filled t owner own init n bufs := by
    intro n hn
    induction n with
    | zero => exact ⟨init, rfl, hinit⟩
    | succ n ih =>
        obtain ⟨bufs, hfold, hfilled⟩ := ih (Nat.le_of_succ_le hn)
        obtain ⟨bufs', hlast, hfilled'⟩ := hstep n (Nat.lt_of_succ_le hn) bufs hfilled
        refine ⟨bufs', ?_, hfilled'⟩
        rw [List.range_succ, List.foldlM_append, hfold]
        simp only [List.foldlM_cons, List.foldlM_nil]
        change step ((List.range numDevices).map bufs) n >>= pure = _
        rw [hlast]
        rfl
  exact hloop geo.numExperts (Nat.le_refl _)

/-- Where an expert goes. -/
lemma Filled.expertPlace (h : Filled t owner own init n bufs) {e : ℕ} (he : e < geo.numExperts)
    (howner : owner e < numDevices)
    (hslots : (init (owner e)).slotMap = slotTable owner geo.numExperts (owner e)) :
    expertPlace ((List.range geo.numExperts).map owner) ((List.range numDevices).map bufs) e =
      .ok (owner e, slotOf owner e) := by
  have hslot : (bufs (owner e)).slotMap[e]? = some (some (slotOf owner e)) := by
    rw [h.slotMap, hslots, slotTable, getElem?_map_range he, if_pos rfl]
  rw [Moe.expertPlace, getElem?_map_range he]
  simp only [getElem?_map_range howner, Option.bind_some, hslot, Option.join_some]

end Filled

/-! ### The two paths -/

/-- The distribution both paths return, up to the buffers and the base of GPU 0. -/
def distributed (geo : ExpertGeometry) (numDevices startGpu : ℕ) (bufs : ℕ → GpuExpertBuffer)
    (gateUpBase downBase : ExpertBuf) : DistributedMoeWeights where
  expertBuffers := (List.range numDevices).map bufs
  expertDevice := (List.range geo.numExperts).map (ownerOf numDevices startGpu)
  hasGateProj := geo.hasGateProj
  numExperts := geo.numExperts
  expertIntermediateSize := geo.eis
  gateUpInDim := geo.gateUpInDim
  gateUpExpertStride := geo.gateUpStride
  downExpertStride := geo.downStride
  gateUpRowStride := geo.format.rowBytes 1 geo.gateUpInDim
  weightFormat := geo.format
  gpu0GateUpBase := gateUpBase
  gpu0DownBase := downBase

/-- The sizes of a layer's weights; nothing else is read once the experts are in a BQNT file. -/
structure MoeWeights.Sizes (moe : MoeWeights) (geo : ExpertGeometry) : Prop where
  numExperts : moe.numExperts = geo.numExperts
  eis : moe.expertIntermediateSize = geo.eis
  hasGateProj : moe.hasGateProj = geo.hasGateProj

/-- The layer was loaded into packed tensors on GPU 0. -/
structure MoeWeights.Packs (moe : MoeWeights) (t : ExpertTensors geo) : Prop
    extends moe.Sizes geo where
  expertGateUp : ∃ outDim, moe.expertGateUp = .packed
    ((List.range geo.numExperts).flatMap t.gateUp) geo.format outDim geo.gateUpInDim
  expertDown : ∃ outDim inDim, moe.expertDown = .packed
    ((List.range geo.numExperts).flatMap t.down) geo.format outDim inDim

/-- A file has a tensor under a name. -/
structure HoldsTensor (bqnt : MmapBqnt) (name : String) (format : WeightFormat) (inDim : ℕ)
    (data : List UInt8) : Prop where
  entry : ∃ e, bqnt.entry name = some e ∧
    (codeToFormat e.format).bind toWeightFormat = some format ∧
    e.inFeatures.toNat = inDim ∧ e.dataBytes.toNat = data.length
  tensorData : bqnt.tensorData name = some data

/-- A file has the experts of a layer as two fused tensors. -/
structure HoldsFused (bqnt : MmapBqnt) (pfx : String) (layerIdx : ℕ) (t : ExpertTensors geo) :
    Prop where
  gateUp : HoldsTensor bqnt
    (expertsName pfx layerIdx (bqntFfnKey bqnt pfx layerIdx) "gate_up_proj") geo.format
    geo.gateUpInDim ((List.range geo.numExperts).flatMap t.gateUp)
  down : HoldsTensor bqnt
    (expertsName pfx layerIdx (bqntFfnKey bqnt pfx layerIdx) "down_proj") geo.format geo.eis
    ((List.range geo.numExperts).flatMap t.down)

/-- A file has the experts of a layer as tensors of their own. -/
structure HoldsSingle (bqnt : MmapBqnt) (pfx : String) (layerIdx : ℕ) (t : ExpertTensors geo) :
    Prop where
  notFused : bqnt.entry
    (expertsName pfx layerIdx (bqntFfnKey bqnt pfx layerIdx) "gate_up_proj") = none
  gate : geo.hasGateProj = true → ∀ e < geo.numExperts, HoldsTensor bqnt
    (expertName pfx layerIdx (bqntFfnKey bqnt pfx layerIdx) e "gate_proj") geo.format
    geo.gateUpInDim (t.gate e)
  /-- `has_gate_proj` was set by looking for this tensor -/
  noGate : geo.hasGateProj = false → bqnt.entry
    (expertName pfx layerIdx (bqntFfnKey bqnt pfx layerIdx) 0 "gate_proj") = none
  up : ∀ e < geo.numExperts, HoldsTensor bqnt
    (expertName pfx layerIdx (bqntFfnKey bqnt pfx layerIdx) e "up_proj") geo.format
    geo.gateUpInDim (t.up e)
  down : ∀ e < geo.numExperts, HoldsTensor bqnt
    (expertName pfx layerIdx (bqntFfnKey bqnt pfx layerIdx) e "down_proj") geo.format geo.eis
    (t.down e)

/-- A file has the experts of a layer, in one of the two forms. -/
def HoldsExperts (bqnt : MmapBqnt) (pfx : String) (layerIdx : ℕ) (t : ExpertTensors geo) : Prop :=
  HoldsFused bqnt pfx layerIdx t ∨ HoldsSingle bqnt pfx layerIdx t

section Paths

variable {junk : ExpertBuf → ℕ → UInt8} {numDevices startGpu : ℕ}

variable (geo junk numDevices startGpu) in
/-- The buffers of the BQNT path before anything is stored. -/
def bqntInit : ℕ → GpuExpertBuffer :=
  allocExpertBuffer junk ((List.range geo.numExperts).map (ownerOf numDevices startGpu))
    ((List.range numDevices).map (ownedCount (ownerOf numDevices startGpu) geo.numExperts))
    geo.numExperts geo.gateUpStride geo.downStride

variable (geo junk numDevices startGpu) in
/-- The buffers of the reference path before anything is stored: GPU 0 has none of its own. -/
def refInit (gpu : ℕ) : GpuExpertBuffer :=
  if gpu = 0 then
    { gateUp := []
      down := []
      localExpertCount :=
        ((List.range numDevices).map
          (ownedCount (ownerOf numDevices startGpu) geo.numExperts))[gpu]?.getD 0
      slotMap := slotMapIdentity
        ((List.range geo.numExperts).map (ownerOf numDevices startGpu)) geo.numExperts }
  else bqntInit geo junk numDevices startGpu gpu

lemma bqntInit_slotMap (g : ℕ) : (bqntInit geo junk numDevices startGpu g).slotMap =
    slotTable (ownerOf numDevices startGpu) geo.numExperts g :=
  slotMap_eq _ g

lemma bqntInit_count {g : ℕ} (hg : g < numDevices) :
    (bqntInit geo junk numDevices startGpu g).localExpertCount =
      ownedCount (ownerOf numDevices startGpu) geo.numExperts g := by
  simp only [bqntInit, allocExpertBuffer, getElem?_map_range hg, Option.getD_some]

lemma bqntInit_filled : Filled t (ownerOf numDevices startGpu) (· < numDevices)
    (bqntInit geo junk numDevices startGpu) 0 (bqntInit geo junk numDevices startGpu) where
  count := fun _ => rfl
  slotMap := fun _ => rfl
  length_gateUp := by
    intro g hg
    simp only [bqntInit, allocExpertBuffer, allocBytes, getElem?_map_range hg, Option.getD_some,
      List.length_map, List.length_range]
  length_down := by
    intro g hg
    simp only [bqntInit, allocExpertBuffer, allocBytes, getElem?_map_range hg, Option.getD_some,
      List.length_map, List.length_range]
  stored_gateUp := fun _ he => absurd he (Nat.not_lt_zero _)
  stored_down := fun _ he => absurd he (Nat.not_lt_zero _)

lemma refInit_of_ne {g : ℕ} (hg : g ≠ 0) : refInit geo junk numDevices startGpu g =
    bqntInit geo junk numDevices startGpu g := if_neg hg

lemma refInit_filled : Filled t (ownerOf numDevices startGpu) (fun g => g < numDevices ∧ g ≠ 0)
    (refInit geo junk numDevices startGpu) 0 (refInit geo junk numDevices startGpu) where
  count := fun _ => rfl
  slotMap := fun _ => rfl
  length_gateUp := by
    intro g hg
    rw [refInit_of_ne hg.2]
    exact (bqntInit_filled (t := t)).length_gateUp g hg.1
  length_down := by
    intro g hg
    rw [refInit_of_ne hg.2]
    exact (bqntInit_filled (t := t)).length_down g hg.1
  stored_gateUp := fun _ he => absurd he (Nat.not_lt_zero _)
  stored_down := fun _ he => absurd he (Nat.not_lt_zero _)

lemma checkStartGpu_ok (h : startGpu < numDevices) : checkStartGpu numDevices startGpu = .ok () :=
  if_neg (Nat.not_le.mpr h)

variable (junk) in
/-- **The reference path** succeeds and stores every expert that is not on GPU 0. -/
theorem distributeMoeWeightsFromRef_ok {moe : MoeWeights} (hmoe : moe.Packs t) (hs : ℕ)
    (hstart : startGpu < numDevices) :
    ∃ bufs, distributeMoeWeightsFromRef junk moe numDevices hs startGpu =
        .ok (distributed geo numDevices startGpu bufs .packedGateUp .packedDown) ∧
      Filled t (ownerOf numDevices startGpu) (fun g => g < numDevices ∧ g ≠ 0)
        (refInit geo junk numDevices startGpu) geo.numExperts bufs := by
  obtain ⟨outDim, hgateUp⟩ := hmoe.expertGateUp
  obtain ⟨downOut, downIn, hdown⟩ := hmoe.expertDown
  have hlen : ∀ e < geo.numExperts, (t.gateUp e).length = geo.gateUpStride :=
    fun e he => t.length_gateUp he
  have hstep : ∀ n < geo.numExperts, ∀ bufs, Filled t (ownerOf numDevices startGpu)
      (fun g => g < numDevices ∧ g ≠ 0) (refInit geo junk numDevices startGpu) n bufs →
      ∃ bufs', copyExpertFromRef moe
          ((List.range geo.numExperts).map (ownerOf numDevices startGpu)) geo.gateUpStride
          geo.downStride ((List.range numDevices).map bufs) n =
        .ok ((List.range numDevices).map bufs') ∧ Filled t (ownerOf numDevices startGpu)
      (fun g => g < numDevices ∧ g ≠ 0) (refInit geo junk numDevices startGpu) (n + 1) bufs' := by
    intro n hn bufs hbufs
    by_cases h0 : ownerOf numDevices startGpu n = 0
    · refine ⟨bufs, ?_, hbufs.skip fun h => h.2 h0⟩
      rw [copyExpertFromRef, getElem?_map_range hn, if_pos (congrArg some h0)]
    · have hlt := ownerOf_lt hstart n
      have hplace := hbufs.expertPlace hn hlt (by rw [refInit_of_ne h0, bqntInit_slotMap])
      refine ⟨_, ?_, hbufs.store hn ⟨hlt, h0⟩⟩
      rw [copyExpertFromRef, getElem?_map_range hn, if_neg fun h => h0 (Option.some.inj h),
        hplace]
      simp only [hgateUp, hdown, LinearWeight.rawData, slice_flatMap_range hlen hn,
        slice_flatMap_range t.length_down hn, modify_map_range]
  obtain ⟨bufs, hfold, hfilled⟩ := refInit_filled.foldlM hstep
  refine ⟨bufs, ?_, hfilled⟩
  have hstride : geo.format.rowBytes (if geo.hasGateProj = true then 2 * geo.eis else geo.eis)
      geo.gateUpInDim = geo.gateUpStride := rfl
  have hdownStride : geo.format.rowBytes geo.gateUpInDim geo.eis = geo.downStride := rfl
  unfold refInit bqntInit at hfold
  simp only [distributeMoeWeightsFromRef, checkStartGpu_ok hstart, hmoe.numExperts, hmoe.eis,
    hmoe.hasGateProj, hgateUp, hdown, LinearWeight.inDim, LinearWeight.rowByteOffsetDim,
    LinearWeight.weightFormat, Option.getD_some, roundRobin_eq, hstride, hdownStride]
  rw [hfold]
  rfl

section Bqnt

lemma ok_bind {ε α β : Type} (a : α) (f : α → Except ε β) : (Except.ok a >>= f) = f a := rfl

variable {bqnt : MmapBqnt} {pfx : String} {layerIdx : ℕ} {moe : MoeWeights}

lemma HoldsFused.hasFused (h : HoldsFused bqnt pfx layerIdx t) :
    bqntHasFused bqnt pfx layerIdx (bqntFfnKey bqnt pfx layerIdx) = true := by
  obtain ⟨e, he, -⟩ := h.gateUp.entry
  rw [bqntHasFused, he]
  rfl

lemma HoldsSingle.hasFused (h : HoldsSingle bqnt pfx layerIdx t) :
    bqntHasFused bqnt pfx layerIdx (bqntFfnKey bqnt pfx layerIdx) = false := by
  rw [bqntHasFused, h.notFused]
  rfl

lemma HoldsFused.weightFormat (h : HoldsFused bqnt pfx layerIdx t) :
    bqntWeightFormat bqnt pfx layerIdx (bqntFfnKey bqnt pfx layerIdx) = .ok geo.format := by
  obtain ⟨e, he, hformat, -⟩ := h.gateUp.entry
  rw [bqntWeightFormat]
  simp only [h.hasFused, if_true, he, okOrMissing, ok_bind, hformat]

lemma HoldsSingle.weightFormat (h : HoldsSingle bqnt pfx layerIdx t) :
    bqntWeightFormat bqnt pfx layerIdx (bqntFfnKey bqnt pfx layerIdx) = .ok geo.format := by
  rw [bqntWeightFormat]
  cases hgate : geo.hasGateProj with
  | true =>
      obtain ⟨e, he, hformat, -⟩ := (h.gate hgate 0 geo.numExperts_pos).entry
      simp only [h.hasFused, Bool.false_eq_true, if_false, he, Option.isSome_some, if_true,
        okOrMissing, ok_bind, hformat]
  | false =>
      obtain ⟨e, he, hformat, -⟩ := (h.up 0 geo.numExperts_pos).entry
      simp only [h.hasFused, Bool.false_eq_true, if_false, h.noGate hgate, Option.isSome_none, he,
        okOrMissing, ok_bind, hformat]

lemma HoldsFused.expertSizes (h : HoldsFused bqnt pfx layerIdx t) (hmoe : moe.Sizes geo) :
    bqntExpertSizes bqnt pfx layerIdx moe (bqntFfnKey bqnt pfx layerIdx) =
      .ok (geo.gateUpStride, geo.downStride, geo.gateUpInDim) := by
  obtain ⟨e, he, -, hin, hbytes⟩ := h.gateUp.entry
  obtain ⟨d, hd, -, -, hdbytes⟩ := h.down.entry
  have hne : geo.numExperts ≠ 0 := Nat.ne_of_gt geo.numExperts_pos
  rw [length_flatMap_range fun e he => t.length_gateUp he] at hbytes
  rw [length_flatMap_range t.length_down] at hdbytes
  rw [bqntExpertSizes]
  simp only [h.hasFused, if_true, he, hd, okOrMissing, ok_bind, hmoe.numExperts, hne, if_false,
    hbytes, hdbytes, hin, Nat.mul_div_cancel_left _ geo.numExperts_pos]
  rfl

lemma HoldsSingle.expertSizes (h : HoldsSingle bqnt pfx layerIdx t) (hmoe : moe.Sizes geo) :
    bqntExpertSizes bqnt pfx layerIdx moe (bqntFfnKey bqnt pfx layerIdx) =
      .ok (geo.gateUpStride, geo.downStride, geo.gateUpInDim) := by
  obtain ⟨e, he, -, hin, hbytes⟩ := (h.up 0 geo.numExperts_pos).entry
  obtain ⟨d, hd, -, -, hdbytes⟩ := (h.down 0 geo.numExperts_pos).entry
  rw [t.length_up 0 geo.numExperts_pos] at hbytes
  rw [t.length_down 0 geo.numExperts_pos] at hdbytes
  have hstride : (if geo.hasGateProj = true then geo.projBytes * 2 else geo.projBytes) =
      geo.gateUpStride := by
    rw [← t.length_gateUp geo.numExperts_pos, ExpertTensors.gateUp, List.length_append,
      t.length_gate 0 geo.numExperts_pos, t.length_up 0 geo.numExperts_pos]
    split_ifs <;> omega
  rw [bqntExpertSizes]
  simp only [h.hasFused, Bool.false_eq_true, if_false, he, hd, okOrMissing, ok_bind,
    hmoe.hasGateProj, hbytes, hdbytes, hin, hstride]
  rfl

variable (t junk) in
/-- One expert out of the fused tensors. -/
lemma loadExpertFused_ok (hstart : startGpu < numDevices) (n : ℕ) (hn : n < geo.numExperts)
    (bufs : ℕ → GpuExpertBuffer)
    (hbufs : Filled t (ownerOf numDevices startGpu) (· < numDevices)
      (bqntInit geo junk numDevices startGpu) n bufs) :
    ∃ bufs', loadExpertFused ((List.range geo.numExperts).map (ownerOf numDevices startGpu))
        geo.gateUpStride geo.downStride ((List.range geo.numExperts).flatMap t.gateUp)
        ((List.range geo.numExperts).flatMap t.down) ((List.range numDevices).map bufs) n =
      .ok ((List.range numDevices).map bufs') ∧
      Filled t (ownerOf numDevices startGpu) (· < numDevices)
        (bqntInit geo junk numDevices startGpu) (n + 1) bufs' := by
  have hlt := ownerOf_lt hstart n
  refine ⟨_, ?_, hbufs.store hn hlt⟩
  rw [loadExpertFused, hbufs.expertPlace hn hlt (bqntInit_slotMap _),
    slice_flatMap_range (fun e he => t.length_gateUp he) hn, slice_flatMap_range t.length_down hn]
  exact congrArg Except.ok (modify_map_range _)

variable (junk) in
/-- One expert out of its own tensors. -/
lemma loadExpertSingle_ok (h : HoldsSingle bqnt pfx layerIdx t) (hmoe : moe.Sizes geo)
    (hstart : startGpu < numDevices) (n : ℕ) (hn : n < geo.numExperts)
    (bufs : ℕ → GpuExpertBuffer)
    (hbufs : Filled t (ownerOf numDevices startGpu) (· < numDevices)
      (bqntInit geo junk numDevices startGpu) n bufs) :
    ∃ bufs', loadExpertSingle bqnt pfx layerIdx moe (bqntFfnKey bqnt pfx layerIdx)
        ((List.range geo.numExperts).map (ownerOf numDevices startGpu)) geo.gateUpStride
        geo.downStride ((List.range numDevices).map bufs) n =
      .ok ((List.range numDevices).map bufs') ∧
      Filled t (ownerOf numDevices startGpu) (· < numDevices)
        (bqntInit geo junk numDevices startGpu) (n + 1) bufs' := by
  have hlt := ownerOf_lt hstart n
  have hslot := slotOf_lt (ownerOf numDevices startGpu) hn
  have hin := slot_in_buffer hslot (hbufs.length_gateUp _ hlt) (t.length_gateUp hn)
  rw [ExpertTensors.gateUp, List.length_append] at hin
  refine ⟨_, ?_, hbufs.store hn hlt⟩
  rw [loadExpertSingle, hbufs.expertPlace hn hlt (bqntInit_slotMap _)]
  cases hgate : geo.hasGateProj with
  | true =>
      have hgateIn : slotOf (ownerOf numDevices startGpu) n * geo.gateUpStride +
          (t.gate n).length ≤ (bufs (ownerOf numDevices startGpu n)).gateUp.length := by omega
      have happend := overwriteAt_append (b := t.up n) hgateIn
      simp only [hmoe.hasGateProj, hgate, if_true, (h.gate hgate n hn).tensorData,
        (h.up n hn).tensorData, (h.down n hn).tensorData, okOrMissing]
      refine congrArg Except.ok ?_
      rw [modify_map_range, modify_map_range, Function.update_self, Function.update_idem,
        happend]
      rfl
  | false =>
      have hnil : t.gate n = [] := by
        have hlen := t.length_gate n hn
        rw [hgate] at hlen
        exact List.eq_nil_of_length_eq_zero hlen
      simp only [hmoe.hasGateProj, hgate, Bool.false_eq_true, if_false, (h.up n hn).tensorData,
        (h.down n hn).tensorData, okOrMissing]
      refine congrArg Except.ok ?_
      rw [modify_map_range, modify_map_range, Function.update_self, Function.update_idem,
        ExpertTensors.gateUp, hnil, List.nil_append]
      rfl

variable (junk) in
/-- **The BQNT path** succeeds and stores every expert. -/
theorem distributeMoeWeightsFromBqnt_ok (hbqnt : HoldsExperts bqnt pfx layerIdx t)
    (hmoe : moe.Sizes geo) (hstart : startGpu < numDevices) :
    ∃ bufs, distributeMoeWeightsFromBqnt bqnt pfx layerIdx junk moe numDevices startGpu =
        .ok (distributed geo numDevices startGpu bufs (.gateUp 0) (.down 0)) ∧
      Filled t (ownerOf numDevices startGpu) (· < numDevices)
        (bqntInit geo junk numDevices startGpu) geo.numExperts bufs := by
  rcases hbqnt with h | h
  · obtain ⟨bufs, hfold, hfilled⟩ := bqntInit_filled.foldlM
      (loadExpertFused_ok t junk hstart)
    refine ⟨bufs, ?_, hfilled⟩
    unfold bqntInit at hfold
    simp only [distributeMoeWeightsFromBqnt, checkStartGpu_ok hstart, h.weightFormat,
      h.expertSizes hmoe, roundRobin_eq, hmoe.numExperts, hmoe.hasGateProj, hmoe.eis, h.hasFused,
      if_true, h.gateUp.tensorData, h.down.tensorData, okOrMissing, ok_bind, hfold]
    rfl
  · obtain ⟨bufs, hfold, hfilled⟩ := bqntInit_filled.foldlM
      (loadExpertSingle_ok junk h hmoe hstart)
    refine ⟨bufs, ?_, hfilled⟩
    unfold bqntInit at hfold
    simp only [distributeMoeWeightsFromBqnt, checkStartGpu_ok hstart, h.weightFormat,
      h.expertSizes hmoe, roundRobin_eq, hmoe.numExperts, hmoe.hasGateProj, hmoe.eis, h.hasFused,
      Bool.false_eq_true, if_false, ok_bind, hfold]
    rfl

end Bqnt

end Paths

end Braidinfer.Moe
