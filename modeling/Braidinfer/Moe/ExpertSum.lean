/-
The mixture of experts over several GPUs.

Every GPU gets a table of pointers to its experts (`build_layer_configs`), and
`OP_MOE_FFN_REMOTE` skips the experts whose pointer is null.  What one expert computes is made of
uninterpreted operators on its bytes; sums may be reordered.

* `buildLayerConfig`, `opMoeFfnRemote`: the tables and the expert loop of the kernel;
* `Sharded`: **every expert is on exactly one GPU, in a slot of its own, with pointers to its
  bytes**;
* `Sharded.sum_outputs`: the outputs of the GPUs add up to the mixture;
* `expertSharding`: both loading paths give the same sharding.
-/
import Mathlib.Algebra.BigOperators.Group.Finset.Basic
import Mathlib.Algebra.BigOperators.Group.Finset.Piecewise
import Mathlib.Algebra.BigOperators.Group.Finset.Sigma
import Braidinfer.Moe.Sharding
import Braidinfer.Moe.Step

namespace Braidinfer.Moe

open Braidinfer.Lib
open Braidinfer.Bqnt

/-! ### Pointer tables -/

/-- A pointer to expert weights, in bytes. -/
structure ExpertPtr where
  buf : ExpertBuf
  off : ℕ
deriving DecidableEq, Repr

/-- `ptr.add(n)` -/
def ExpertPtr.add (p : ExpertPtr) (n : ℕ) : ExpertPtr := { p with off := p.off + n }

/-- `MoeExpertEntry` -/
structure MoeExpertEntry where
  globalExpertId : ℕ
  gateUpPtr : ExpertPtr
  downPtr : ExpertPtr
deriving DecidableEq, Repr

/-- `MoeWorkerConfig`; an entry that is still zero is `none`. -/
structure MoeWorkerConfig where
  myGpuId : ℕ
  numExpertsLocal : ℕ
  gateUpRowStride : ℕ
  hiddenSize : ℕ
  expertIntermediateSize : ℕ
  weightFormat : ℕ
  entries : List (Option MoeExpertEntry)
deriving DecidableEq, Repr, Inhabited

namespace DistributedMoeWeights

variable (d : DistributedMoeWeights)

/-- `expert_buffers[gpu].slot_map[e]` -/
def slot (gpu e : ℕ) : Option ℕ := (d.expertBuffers[gpu]?.bind fun b => b.slotMap[e]?).join

/-- `expert_buffers[gpu].local_expert_count` -/
def localCount (gpu : ℕ) : ℕ := (d.expertBuffers[gpu]?.map (·.localExpertCount)).getD 0

/-- The buffers a GPU's pointers go into. -/
def bases (gpu : ℕ) : ExpertBuf × ExpertBuf :=
  if gpu = 0 then (d.gpu0GateUpBase, d.gpu0DownBase) else (.gateUp gpu, .down gpu)

/-- `get_expert_ptrs` of GPU 0 and of the workers. -/
def getExpertPtrs (gpu eid : ℕ) : Option (ExpertPtr × ExpertPtr × ℕ) :=
  (d.slot gpu eid).map fun slot =>
    (⟨(d.bases gpu).1, slot * d.gateUpExpertStride⟩, ⟨(d.bases gpu).2, slot * d.downExpertStride⟩,
      d.localCount gpu)

/-- What the device buffers hold. -/
def mem (moe : MoeWeights) : ExpertBuf → List UInt8
  | .packedGateUp => moe.expertGateUp.rawData
  | .packedDown => moe.expertDown.rawData
  | .gateUp gpu => (d.expertBuffers[gpu]?.map (·.gateUp)).getD []
  | .down gpu => (d.expertBuffers[gpu]?.map (·.down)).getD []

end DistributedMoeWeights

/-- `weight_format_code` -/
def weightFormatCode : WeightFormat → ℕ
  | .rnf4G128 => 1
  | _ => 0

/-- `build_layer_configs` for one layer; more than 512 experts fail an assertion. -/
def buildLayerConfig (d : DistributedMoeWeights) (gpuId hiddenSize expertIntermediateSize : ℕ) :
    Option MoeWorkerConfig :=
  if d.numExperts ≤ 512 then
    let (entries, localCount) := (List.range d.numExperts).foldl
      (fun (x : List (Option MoeExpertEntry) × ℕ) eid =>
        match d.getExpertPtrs gpuId eid with
        | some (guPtr, dnPtr, cnt) => (x.1.set eid (some ⟨eid, guPtr, dnPtr⟩), cnt)
        | none => x) (List.replicate 512 none, 0)
    some {
      myGpuId := gpuId
      numExpertsLocal := localCount
      gateUpRowStride := d.gateUpRowStride % 2 ^ 32
      hiddenSize := hiddenSize % 2 ^ 32
      expertIntermediateSize := expertIntermediateSize % 2 ^ 32
      weightFormat := weightFormatCode d.weightFormat
      entries := entries }
  else none

/-! ### The kernel -/

/-- The operators of the expert kernels.  A matrix is its bytes; a grid has at least two blocks,
since the fused kernel computes the rows of the up projection in the odd ones. -/
structure ExpertOps (V : Type*) where
  gemv : WeightFormat → List UInt8 → (rows cols : ℕ) → (Fin cols → V) → Fin rows → V
  siluMul : V → V → V
  reluSquared : V → V
  mul : V → V → V

section Kernel

variable {V : Type*} (ops : ExpertOps V) (eis gupd : ℕ) (hasGateProj : Bool)

/-- What one expert computes from its weights. -/
def expertFfn (format : WeightFormat) (gate up down : List UInt8) (act : Fin gupd → V) :
    Fin gupd → V :=
  let sa : Fin eis → V :=
    if hasGateProj then fun i =>
      ops.siluMul (ops.gemv format gate eis gupd act i) (ops.gemv format up eis gupd act i)
    else fun i => ops.reluSquared (ops.gemv format up eis gupd act i)
  ops.gemv format down gupd eis sa

/-- The bytes a kernel reads at a pointer. -/
def loadBytes (mem : ExpertBuf → List UInt8) (p : ExpertPtr) (n : ℕ) : List UInt8 :=
  slice (mem p.buf) p.off n

/-- The body of the expert loop for a local expert. -/
def remoteExpert (mem : ExpertBuf → List UInt8) (cfg : MoeWorkerConfig) (e : MoeExpertEntry)
    (act : Fin gupd → V) : Fin gupd → V :=
  let format := if cfg.weightFormat = 1 then WeightFormat.rnf4G128 else .pcG32Q4
  let rows := loadBytes mem e.gateUpPtr (format.rowBytes eis gupd)
  let upData := loadBytes mem (e.gateUpPtr.add (eis * cfg.gateUpRowStride))
    (format.rowBytes eis gupd)
  let down := loadBytes mem e.downPtr (format.rowBytes gupd eis)
  if hasGateProj then expertFfn ops eis gupd true format rows upData down act
  else expertFfn ops eis gupd false format [] rows down act

variable [Add V] [Zero V]

/-- The expert loop of `op_moe_ffn_remote`. -/
def opMoeFfnRemote (mem : ExpertBuf → List UInt8) (cfg : MoeWorkerConfig) (k : ℕ)
    (act : Fin gupd → V) (eids : ℕ → ℤ) (ews : ℕ → V) : Fin gupd → V :=
  (List.range k).foldl (fun lo j =>
    let eid := eids j
    if eid < 0 ∨ eid ≥ 512 then lo
    else
      match cfg.entries[eid.toNat]?.join with
      | none => lo
      | some e => fun i =>
          lo i + ops.mul (ews j) (remoteExpert ops eis gupd hasGateProj mem cfg e act i))
    (fun _ => 0)

end Kernel

/-! ### Shardings -/

variable {geo : ExpertGeometry} {t : ExpertTensors geo}

/-- A pointer addresses exactly these bytes, inside its buffer. -/
def ExpertPtr.PointsTo (mem : ExpertBuf → List UInt8) (p : ExpertPtr) (bytes : List UInt8) : Prop :=
  p.off + bytes.length ≤ (mem p.buf).length ∧ slice (mem p.buf) p.off bytes.length = bytes

/-- A table serves the experts that `holds` says, and no others. -/
structure MoeWorkerConfig.Serves (cfg : MoeWorkerConfig) (t : ExpertTensors geo)
    (mem : ExpertBuf → List UInt8) (holds : ℕ → Prop) : Prop where
  gateUpRowStride : cfg.gateUpRowStride = geo.format.rowBytes 1 geo.gateUpInDim
  weightFormat : cfg.weightFormat = weightFormatCode geo.format
  held : ∀ e < geo.numExperts, holds e → ∃ entry, cfg.entries[e]? = some (some entry) ∧
    entry.globalExpertId = e ∧ entry.gateUpPtr.PointsTo mem (t.gateUp e) ∧
    entry.downPtr.PointsTo mem (t.down e)
  null : ∀ e < geo.numExperts, ¬ holds e → cfg.entries[e]? = some none

/-- **The sharding of a layer.** -/
structure Sharded (t : ExpertTensors geo) (numDevices : ℕ) (d : DistributedMoeWeights)
    (mem : ExpertBuf → List UInt8) (cfgs : ℕ → MoeWorkerConfig) : Prop where
  owner : ∀ e < geo.numExperts, ∃! gpu, gpu < numDevices ∧ (d.slot gpu e).isSome
  slot_inj : ∀ gpu e e' s, d.slot gpu e = some s → d.slot gpu e' = some s → e = e'
  slot_lt : ∀ gpu e s, d.slot gpu e = some s → s < d.localCount gpu
  serves : ∀ gpu < numDevices, (cfgs gpu).Serves t mem fun e => (d.slot gpu e).isSome

/-! ### The mixture -/

section Sum

variable {V : Type*} (ops : ExpertOps V) {mem : ExpertBuf → List UInt8} {holds : ℕ → Prop}
  {cfg : MoeWorkerConfig} {numDevices : ℕ}

/-- What an expert computes from its original tensors. -/
def ExpertTensors.ffn (t : ExpertTensors geo) (e : ℕ) (act : Fin geo.gateUpInDim → V) :
    Fin geo.gateUpInDim → V :=
  expertFfn ops geo.eis geo.gateUpInDim geo.hasGateProj geo.format (t.gate e) (t.up e) (t.down e)
    act

lemma WeightFormat.mul_rowBytes_one (format : WeightFormat) (rows inDim : ℕ) :
    rows * format.rowBytes 1 inDim = format.rowBytes rows inDim := by
  cases format <;> simp only [WeightFormat.rowBytes, Nat.one_mul, Nat.mul_assoc]

/-- The format the kernel decodes is the format of the tensors. -/
lemma format_of_code (geo : ExpertGeometry) :
    (if weightFormatCode geo.format = 1 then WeightFormat.rnf4G128 else .pcG32Q4) =
      geo.format := by
  have hq := geo.quantized
  cases hf : geo.format with
  | bf16 => exact absurd hf hq
  | rnf4G128 => rfl
  | pcG32Q4 => rfl

/-- A part of what a pointer addresses. -/
lemma ExpertPtr.PointsTo.load {p : ExpertPtr} {a b : List UInt8} (h : p.PointsTo mem (a ++ b)) :
    loadBytes mem p a.length = a ∧ loadBytes mem (p.add a.length) b.length = b := by
  have hslice := h.2
  rw [slice, List.length_append] at hslice
  constructor
  · rw [loadBytes, slice]
    calc (List.drop p.off (mem p.buf)).take a.length
        = ((List.drop p.off (mem p.buf)).take (a.length + b.length)).take a.length := by
          rw [List.take_take, Nat.min_eq_left (Nat.le_add_right _ _)]
      _ = a := by rw [hslice, List.take_left]
  · rw [loadBytes, slice]
    calc (List.drop (p.add a.length).off (mem (p.add a.length).buf)).take b.length
        = ((List.drop p.off (mem p.buf)).take (a.length + b.length)).drop a.length := by
          rw [List.drop_take, List.drop_drop, Nat.add_sub_cancel_left]
          rfl
      _ = b := by rw [hslice, List.drop_left]

/-- The kernel computes a local expert from the expert's own bytes. -/
lemma MoeWorkerConfig.Serves.remoteExpert (h : cfg.Serves t mem holds) {e : ℕ}
    (he : e < geo.numExperts) {entry : MoeExpertEntry}
    (hgateUp : entry.gateUpPtr.PointsTo mem (t.gateUp e))
    (hdown : entry.downPtr.PointsTo mem (t.down e)) (act : Fin geo.gateUpInDim → V) :
    remoteExpert ops geo.eis geo.gateUpInDim geo.hasGateProj mem cfg entry act =
      t.ffn ops e act := by
  have hup := t.length_up e he
  have hdownLoad : loadBytes mem entry.downPtr
      (geo.format.rowBytes geo.gateUpInDim geo.eis) = t.down e := by
    have hload := hdown.2
    rwa [t.length_down e he] at hload
  obtain ⟨hgateLoad, hupLoad⟩ := hgateUp.load
  rw [hup] at hupLoad
  simp only [Moe.remoteExpert, ExpertTensors.ffn, h.weightFormat, format_of_code,
    h.gateUpRowStride, WeightFormat.mul_rowBytes_one, hdownLoad]
  cases hflag : geo.hasGateProj with
  | true =>
      have hgate : (t.gate e).length = geo.projBytes := by
        rw [t.length_gate e he, if_pos hflag]
      rw [hgate] at hgateLoad hupLoad
      rw [if_pos rfl]
      exact congrArg₂ (fun gate up => expertFfn ops geo.eis geo.gateUpInDim true geo.format gate up
        (t.down e) act) hgateLoad hupLoad
  | false =>
      have hnil : t.gate e = [] := by
        have hlen := t.length_gate e he
        rw [hflag] at hlen
        exact List.eq_nil_of_length_eq_zero hlen
      rw [hnil] at hupLoad ⊢
      rw [if_neg Bool.false_ne_true]
      exact congrArg (fun up => expertFfn ops geo.eis geo.gateUpInDim false geo.format [] up
        (t.down e) act) hupLoad

variable [AddCommMonoid V]

/-- The output of one GPU: the experts it holds. -/
lemma MoeWorkerConfig.Serves.output [DecidablePred holds] (h : cfg.Serves t mem holds) {k : ℕ}
    {eids : ℕ → ℤ} (hids : ∀ j < k, 0 ≤ eids j ∧ eids j < geo.numExperts) (ews : ℕ → V)
    (act : Fin geo.gateUpInDim → V) (i : Fin geo.gateUpInDim) :
    opMoeFfnRemote ops geo.eis geo.gateUpInDim geo.hasGateProj mem cfg k act eids ews i =
      ∑ j ∈ Finset.range k, if holds (eids j).toNat then
        ops.mul (ews j) (t.ffn ops (eids j).toNat act i) else 0 := by
  induction k with
  | zero => simp [opMoeFfnRemote]
  | succ k ih =>
      have hlast := hids k (Nat.lt_succ_self k)
      have hlt : (eids k).toNat < geo.numExperts := by omega
      have h512 := geo.numExperts_le
      have hin : ¬ (eids k < 0 ∨ eids k ≥ 512) := by omega
      rw [Finset.sum_range_succ, ← ih fun j hj => hids j (Nat.lt_succ_of_lt hj), opMoeFfnRemote,
        List.range_succ, List.foldl_append, List.foldl_cons, List.foldl_nil]
      dsimp only
      rw [if_neg hin]
      by_cases hheld : holds (eids k).toNat
      · obtain ⟨entry, hentry, -, hgateUp, hdown⟩ := h.held _ hlt hheld
        rw [hentry, if_pos hheld, ← h.remoteExpert ops hlt hgateUp hdown]
        rfl
      · rw [h.null _ hlt hheld, if_neg hheld, add_zero]
        rfl

/-- **The outputs of the GPUs add up to the mixture.** -/
lemma Sharded.sum_outputs {d : DistributedMoeWeights} {cfgs : ℕ → MoeWorkerConfig}
    (h : Sharded t numDevices d mem cfgs) {k : ℕ} {eids : ℕ → ℤ}
    (hids : ∀ j < k, 0 ≤ eids j ∧ eids j < geo.numExperts) (ews : ℕ → V)
    (act : Fin geo.gateUpInDim → V) (i : Fin geo.gateUpInDim) :
    ∑ gpu ∈ Finset.range numDevices, opMoeFfnRemote ops geo.eis geo.gateUpInDim geo.hasGateProj
        mem (cfgs gpu) k act eids ews i =
      ∑ j ∈ Finset.range k, ops.mul (ews j) (t.ffn ops (eids j).toNat act i) := by
  have hgpu : ∀ gpu ∈ Finset.range numDevices, opMoeFfnRemote ops geo.eis geo.gateUpInDim
      geo.hasGateProj mem (cfgs gpu) k act eids ews i =
      ∑ j ∈ Finset.range k, if (d.slot gpu (eids j).toNat).isSome then
        ops.mul (ews j) (t.ffn ops (eids j).toNat act i) else 0 :=
    fun gpu hg => (h.serves gpu (Finset.mem_range.mp hg)).output ops hids ews act i
  rw [Finset.sum_congr rfl hgpu, Finset.sum_comm]
  refine Finset.sum_congr rfl fun j hj => ?_
  -- exactly one GPU holds the expert
  have hid := hids j (Finset.mem_range.mp hj)
  obtain ⟨gpu, ⟨hlt, hsome⟩, huniq⟩ := h.owner (eids j).toNat (by omega)
  have hiff : ∀ g ∈ Finset.range numDevices,
      (if (d.slot g (eids j).toNat).isSome then
        ops.mul (ews j) (t.ffn ops (eids j).toNat act i) else 0) =
      if gpu = g then ops.mul (ews j) (t.ffn ops (eids j).toNat act i) else 0 := by
    intro g hg
    by_cases hgg : gpu = g
    · rw [if_pos hgg, if_pos (hgg ▸ hsome)]
    · have hnone : ¬ (d.slot g (eids j).toNat).isSome :=
        fun hs => hgg (huniq g ⟨Finset.mem_range.mp hg, hs⟩).symm
      rw [if_neg hgg, if_neg hnone]
  rw [Finset.sum_congr rfl hiff, Finset.sum_ite_eq, if_pos (Finset.mem_range.mpr hlt)]

end Sum

/-! ### Both loading paths are shardings -/

section Paths

variable {numDevices startGpu gpu e : ℕ} {bufs : ℕ → GpuExpertBuffer}
  {gateUpBase downBase : ExpertBuf} {d : DistributedMoeWeights} {hiddenSize eis : ℕ}

variable (gpu hiddenSize eis) in
/-- The pointer table, entry by entry. -/
lemma buildLayerConfig_eq (hne : d.numExperts ≤ 512) : ∃ cfg,
    buildLayerConfig d gpu hiddenSize eis = some cfg ∧
      cfg.gateUpRowStride = d.gateUpRowStride % 2 ^ 32 ∧
      cfg.weightFormat = weightFormatCode d.weightFormat ∧
      ∀ e < d.numExperts, cfg.entries[e]? = some ((d.getExpertPtrs gpu e).map fun p =>
        ⟨e, p.1, p.2.1⟩) := by
  set entry : ℕ → Option MoeExpertEntry := fun e => (d.getExpertPtrs gpu e).map fun p =>
    ⟨e, p.1, p.2.1⟩ with hentry
  have hloop : ∀ n, ∃ cnt, (List.range n).foldl
      (fun (x : List (Option MoeExpertEntry) × ℕ) eid =>
        match d.getExpertPtrs gpu eid with
        | some (guPtr, dnPtr, cnt) => (x.1.set eid (some ⟨eid, guPtr, dnPtr⟩), cnt)
        | none => x) (List.replicate 512 none, 0) =
      ((List.range 512).map (below entry none n), cnt) := by
    intro n
    induction n with
    | zero => exact ⟨0, by rw [replicate_eq_map_range, below_zero]; rfl⟩
    | succ n ih =>
        obtain ⟨cnt, hfold⟩ := ih
        rw [List.range_succ, List.foldl_append, hfold, List.foldl_cons, List.foldl_nil]
        cases hptrs : d.getExpertPtrs gpu n with
        | none =>
            have hn : entry n = none := by simp [hentry, hptrs]
            exact ⟨cnt, by rw [below_succ_of_eq hn]⟩
        | some p =>
            have hn : entry n = some ⟨n, p.1, p.2.1⟩ := by simp [hentry, hptrs]
            exact ⟨p.2.2, by rw [below_succ, hn, ← set_map_range]⟩
  obtain ⟨cnt, hfold⟩ := hloop d.numExperts
  refine ⟨_, by rw [buildLayerConfig, if_pos hne, hfold], rfl, rfl, fun e he => ?_⟩
  rw [getElem?_map_range (Nat.lt_of_lt_of_le he hne), below, if_pos he]

/-- What a distribution must satisfy to be a sharding: the slots are the numbers of the experts at
their owners, and every expert's bytes are at its place. -/
structure Placed (t : ExpertTensors geo) (numDevices : ℕ) (owner : ℕ → ℕ)
    (d : DistributedMoeWeights) (mem : ExpertBuf → List UInt8) : Prop where
  numExperts : d.numExperts = geo.numExperts
  gateUpRowStride : d.gateUpRowStride = geo.format.rowBytes 1 geo.gateUpInDim
  weightFormat : d.weightFormat = geo.format
  owner_lt : ∀ e, owner e < numDevices
  slot : ∀ gpu e, d.slot gpu e = if gpu < numDevices ∧ e < geo.numExperts ∧ owner e = gpu then
    some (slotOf owner e) else none
  localCount : ∀ gpu < numDevices, d.localCount gpu = ownedCount owner geo.numExperts gpu
  gateUp : ∀ e < geo.numExperts, ExpertPtr.PointsTo mem
    ⟨(d.bases (owner e)).1, slotOf owner e * d.gateUpExpertStride⟩ (t.gateUp e)
  down : ∀ e < geo.numExperts, ExpertPtr.PointsTo mem
    ⟨(d.bases (owner e)).2, slotOf owner e * d.downExpertStride⟩ (t.down e)

section Placed

variable {owner : ℕ → ℕ} {mem : ExpertBuf → List UInt8}

lemma Placed.isSome_slot (h : Placed t numDevices owner d mem) (hgpu : gpu < numDevices)
    (he : e < geo.numExperts) : (d.slot gpu e).isSome ↔ owner e = gpu := by
  rw [h.slot]
  by_cases hown : owner e = gpu
  · simp [hown, hgpu, he]
  · simp [hown]

lemma Placed.of_slot (h : Placed t numDevices owner d mem) {s : ℕ}
    (hs : d.slot gpu e = some s) :
    gpu < numDevices ∧ e < geo.numExperts ∧ owner e = gpu ∧ slotOf owner e = s := by
  rw [h.slot] at hs
  by_cases hall : gpu < numDevices ∧ e < geo.numExperts ∧ owner e = gpu
  · rw [if_pos hall] at hs
    exact ⟨hall.1, hall.2.1, hall.2.2, Option.some.inj hs⟩
  · rw [if_neg hall] at hs
    cases hs

variable (hiddenSize eis) in
/-- The table of a GPU serves its experts. -/
lemma Placed.serves (h : Placed t numDevices owner d mem) (hgpu : gpu < numDevices) :
    ∃ cfg, buildLayerConfig d gpu hiddenSize eis = some cfg ∧
      cfg.Serves t mem fun e => (d.slot gpu e).isSome := by
  obtain ⟨cfg, hcfg, hstride, hformat, hentries⟩ :=
    buildLayerConfig_eq gpu hiddenSize eis
      (by rw [h.numExperts]; exact geo.numExperts_le)
  refine ⟨cfg, hcfg, ?_, ?_, fun e he hheld => ?_, fun e he hheld => ?_⟩
  · rw [hstride, h.gateUpRowStride, Nat.mod_eq_of_lt geo.rowStride_lt]
  · rw [hformat, h.weightFormat]
  · have hown := (h.isSome_slot hgpu he).mp hheld
    have hslot : d.slot gpu e = some (slotOf owner e) := by
      rw [h.slot, if_pos ⟨hgpu, he, hown⟩]
    refine ⟨⟨e, ⟨(d.bases (owner e)).1, slotOf owner e * d.gateUpExpertStride⟩,
      ⟨(d.bases (owner e)).2, slotOf owner e * d.downExpertStride⟩⟩, ?_, rfl, h.gateUp e he,
      h.down e he⟩
    rw [hentries e (by rw [h.numExperts]; exact he), DistributedMoeWeights.getExpertPtrs, hslot,
      hown]
    rfl
  · have hslot : d.slot gpu e = none := Option.not_isSome_iff_eq_none.mp hheld
    rw [hentries e (by rw [h.numExperts]; exact he), DistributedMoeWeights.getExpertPtrs, hslot]
    rfl

variable (hiddenSize eis) in
/-- **A distribution with every expert at its place is a sharding.** -/
lemma Placed.sharded (h : Placed t numDevices owner d mem) : ∃ cfgs,
    (∀ gpu < numDevices, buildLayerConfig d gpu hiddenSize eis = some (cfgs gpu)) ∧
      Sharded t numDevices d mem cfgs := by
  choose! cfgs hcfgs using fun gpu (hgpu : gpu < numDevices) =>
    h.serves hiddenSize eis hgpu
  refine ⟨cfgs, fun gpu hgpu => (hcfgs gpu hgpu).1, fun e he => ?_, ?_, ?_,
    fun gpu hgpu => (hcfgs gpu hgpu).2⟩
  · refine ⟨owner e, ⟨h.owner_lt e, (h.isSome_slot (h.owner_lt e) he).mpr rfl⟩, ?_⟩
    rintro gpu ⟨hgpu, hsome⟩
    exact ((h.isSome_slot hgpu he).mp hsome).symm
  · intro gpu e e' s hs hs'
    obtain ⟨-, -, hown, hslot⟩ := h.of_slot hs
    obtain ⟨-, -, hown', hslot'⟩ := h.of_slot hs'
    exact slotOf_inj (hown.trans hown'.symm) (hslot.trans hslot'.symm)
  · intro gpu e s hs
    obtain ⟨hgpu, he, hown, hslot⟩ := h.of_slot hs
    rw [h.localCount gpu hgpu, ← hslot, ← hown]
    exact slotOf_lt owner he

end Placed

/-- A slot of a buffer that has one slot for each expert. -/
lemma pointsTo_slot {mem : ExpertBuf → List UInt8} {b : ExpertBuf} {s count stride : ℕ}
    {bytes : List UInt8} (hs : s < count) (hlen : (mem b).length = count * stride)
    (hbytes : bytes.length = stride) (hslice : slice (mem b) (s * stride) stride = bytes) :
    ExpertPtr.PointsTo mem ⟨b, s * stride⟩ bytes := by
  refine ⟨slot_in_buffer hs hlen hbytes, ?_⟩
  rw [hbytes]
  exact hslice

lemma distributed_slot : (distributed geo numDevices startGpu bufs gateUpBase downBase).slot gpu e =
    if gpu < numDevices then ((bufs gpu).slotMap[e]?).join else none := by
  rw [DistributedMoeWeights.slot, distributed]
  by_cases hgpu : gpu < numDevices
  · rw [if_pos hgpu, getElem?_map_range hgpu, Option.bind_some]
  · rw [if_neg hgpu, List.getElem?_eq_none (by simpa using hgpu)]
    rfl

lemma distributed_localCount (hgpu : gpu < numDevices) :
    (distributed geo numDevices startGpu bufs gateUpBase downBase).localCount gpu =
      (bufs gpu).localExpertCount := by
  rw [DistributedMoeWeights.localCount, distributed, getElem?_map_range hgpu]
  rfl

/-- A table of slots, read at an index. -/
lemma join_getElem?_map_range {ne : ℕ} {f : ℕ → Option ℕ} :
    (((List.range ne).map f)[e]?).join = if e < ne then f e else none := by
  by_cases he : e < ne
  · rw [if_pos he, getElem?_map_range he]
    rfl
  · rw [if_neg he, List.getElem?_eq_none (by simpa using he)]
    rfl

lemma mem_gateUp (moe : MoeWeights) (hgpu : gpu < numDevices) :
    (distributed geo numDevices startGpu bufs gateUpBase downBase).mem moe (.gateUp gpu) =
      (bufs gpu).gateUp := by
  rw [DistributedMoeWeights.mem, distributed, getElem?_map_range hgpu]
  rfl

lemma mem_down (moe : MoeWeights) (hgpu : gpu < numDevices) :
    (distributed geo numDevices startGpu bufs gateUpBase downBase).mem moe (.down gpu) =
      (bufs gpu).down := by
  rw [DistributedMoeWeights.mem, distributed, getElem?_map_range hgpu]
  rfl

variable {junk : ExpertBuf → ℕ → UInt8}

/-- The BQNT path puts every expert at its place. -/
lemma placed_fromBqnt (moe : MoeWeights) (hstart : startGpu < numDevices)
    (h : Filled t (ownerOf numDevices startGpu) (· < numDevices)
      (bqntInit geo junk numDevices startGpu) geo.numExperts bufs) :
    Placed t numDevices (ownerOf numDevices startGpu)
      (distributed geo numDevices startGpu bufs (.gateUp 0) (.down 0))
      ((distributed geo numDevices startGpu bufs (.gateUp 0) (.down 0)).mem moe) := by
  have hlt := ownerOf_lt hstart
  have hbases : ∀ gpu, (distributed geo numDevices startGpu bufs (.gateUp 0) (.down 0)).bases gpu =
      (.gateUp gpu, .down gpu) := by
    intro gpu
    by_cases h0 : gpu = 0
    · subst h0
      rfl
    · exact if_neg h0
  refine ⟨rfl, rfl, rfl, hlt, fun gpu e => ?_, fun gpu hgpu => ?_, fun e he => ?_,
    fun e he => ?_⟩
  · rw [distributed_slot, h.slotMap, bqntInit_slotMap, slotTable, join_getElem?_map_range]
    by_cases hgpu : gpu < numDevices <;> by_cases he : e < geo.numExperts <;> simp [hgpu, he]
  · rw [distributed_localCount hgpu, h.count, bqntInit_count hgpu]
  · rw [hbases]
    refine pointsTo_slot (slotOf_lt _ he) ?_ (t.length_gateUp he) ?_
    · rw [mem_gateUp moe (hlt e)]
      exact h.length_gateUp _ (hlt e)
    · rw [mem_gateUp moe (hlt e)]
      exact h.stored_gateUp e he (hlt e)
  · rw [hbases]
    refine pointsTo_slot (slotOf_lt _ he) ?_ (t.length_down e he) ?_
    · rw [mem_down moe (hlt e)]
      exact h.length_down _ (hlt e)
    · rw [mem_down moe (hlt e)]
      exact h.stored_down e he (hlt e)

lemma startGpuFor_lt (hdev : 0 < numDevices) : startGpuFor numDevices < numDevices := by
  rw [startGpuFor]
  split_ifs <;> omega

/-- GPU 0 holds an expert only if it is the only GPU, and then it holds them in order. -/
lemma slotOf_of_owner_zero (hdev : 0 < numDevices)
    (h0 : ownerOf numDevices (startGpuFor numDevices) e = 0) :
    slotOf (ownerOf numDevices (startGpuFor numDevices)) e = e := by
  have hone : numDevices = 1 := by
    by_contra hne
    rw [ownerOf, startGpuFor, if_pos (by omega)] at h0
    omega
  have hall : ∀ e', ownerOf numDevices (startGpuFor numDevices) e' = 0 := by
    intro e'
    subst hone
    simp [ownerOf, startGpuFor, Nat.mod_one]
  rw [slotOf, Nat.count_iff_forall]
  intro e' _
  rw [hall, hall]

/-- The reference path puts every expert at its place. -/
lemma placed_fromRef {moe : MoeWeights} (hmoe : moe.Packs t) (hdev : 0 < numDevices)
    (h : Filled t (ownerOf numDevices (startGpuFor numDevices))
      (fun g => g < numDevices ∧ g ≠ 0) (refInit geo junk numDevices (startGpuFor numDevices))
      geo.numExperts bufs) :
    Placed t numDevices (ownerOf numDevices (startGpuFor numDevices))
      (distributed geo numDevices (startGpuFor numDevices) bufs .packedGateUp .packedDown)
      ((distributed geo numDevices (startGpuFor numDevices) bufs .packedGateUp .packedDown).mem
        moe) := by
  have hlt := ownerOf_lt (startGpuFor_lt hdev)
  obtain ⟨outDim, hgateUp⟩ := hmoe.expertGateUp
  obtain ⟨downOut, downIn, hdown⟩ := hmoe.expertDown
  refine ⟨rfl, rfl, rfl, hlt, fun gpu e => ?_, fun gpu hgpu => ?_, fun e he => ?_,
    fun e he => ?_⟩
  · rw [distributed_slot, h.slotMap]
    by_cases h0 : gpu = 0
    · have hslot : (if ownerOf numDevices (startGpuFor numDevices) e = 0 then some e else none) =
          if ownerOf numDevices (startGpuFor numDevices) e = 0 then
            some (slotOf (ownerOf numDevices (startGpuFor numDevices)) e) else none := by
        split_ifs with hown
        · rw [slotOf_of_owner_zero hdev hown]
        · rfl
      subst h0
      rw [refInit, if_pos rfl, slotMapIdentity_eq, join_getElem?_map_range, hslot]
      by_cases he : e < geo.numExperts <;> simp [hdev, he]
    · rw [refInit_of_ne h0, bqntInit_slotMap, slotTable, join_getElem?_map_range]
      by_cases hgpu : gpu < numDevices <;> by_cases he : e < geo.numExperts <;> simp [hgpu, he]
  · rw [distributed_localCount hgpu, h.count]
    by_cases h0 : gpu = 0
    · rw [h0, refInit, if_pos rfl, getElem?_map_range hdev]
      rfl
    · rw [refInit_of_ne h0, bqntInit_count hgpu]
  · by_cases h0 : ownerOf numDevices (startGpuFor numDevices) e = 0
    · rw [DistributedMoeWeights.bases, if_pos h0, slotOf_of_owner_zero hdev h0]
      refine pointsTo_slot he ?_ (t.length_gateUp he) ?_
      · simp only [distributed, DistributedMoeWeights.mem, hgateUp, LinearWeight.rawData]
        exact length_flatMap_range fun e he => t.length_gateUp he
      · simp only [distributed, DistributedMoeWeights.mem, hgateUp, LinearWeight.rawData]
        exact slice_flatMap_range (fun e he => t.length_gateUp he) he
    · rw [DistributedMoeWeights.bases, if_neg h0]
      refine pointsTo_slot (slotOf_lt _ he) ?_ (t.length_gateUp he) ?_
      · rw [mem_gateUp moe (hlt e)]
        exact h.length_gateUp _ ⟨hlt e, h0⟩
      · rw [mem_gateUp moe (hlt e)]
        exact h.stored_gateUp e he ⟨hlt e, h0⟩
  · by_cases h0 : ownerOf numDevices (startGpuFor numDevices) e = 0
    · rw [DistributedMoeWeights.bases, if_pos h0, slotOf_of_owner_zero hdev h0]
      refine pointsTo_slot he ?_ (t.length_down e he) ?_
      · simp only [distributed, DistributedMoeWeights.mem, hdown, LinearWeight.rawData]
        exact length_flatMap_range t.length_down
      · simp only [distributed, DistributedMoeWeights.mem, hdown, LinearWeight.rawData]
        exact slice_flatMap_range t.length_down he
    · rw [DistributedMoeWeights.bases, if_neg h0]
      refine pointsTo_slot (slotOf_lt _ he) ?_ (t.length_down e he) ?_
      · rw [mem_down moe (hlt e)]
        exact h.length_down _ ⟨hlt e, h0⟩
      · rw [mem_down moe (hlt e)]
        exact h.stored_down e he ⟨hlt e, h0⟩

/-- **Expert sharding computes the full mixture.**  From the packed tensors and from a BQNT file
that has the same tensors, the experts are sharded over the GPUs in the same way, every GPU's
pointers address the bytes of its own experts, and the outputs of the GPUs add up to the weighted
sum of the routed experts. -/
theorem expertSharding {V : Type*} [AddCommMonoid V] (ops : ExpertOps V)
    (junk : ExpertBuf → ℕ → UInt8) {moe lite : MoeWeights}
    {bqnt : MmapBqnt} {pfx : String} {layerIdx : ℕ} (hpacks : moe.Packs t)
    (hlite : lite.Sizes geo) (hbqnt : HoldsExperts bqnt pfx layerIdx t) (hdev : 0 < numDevices)
    (hs cfgEis k : ℕ) (eids : ℕ → ℤ)
    (hids : ∀ j < k, 0 ≤ eids j ∧ eids j < geo.numExperts) (ews : ℕ → V)
    (act : Fin geo.gateUpInDim → V) :
    ∃ ref bq : DistributedMoeWeights, ∃ refCfgs bqCfgs : ℕ → MoeWorkerConfig,
      distributeMoeWeightsFromRef junk moe numDevices hs (startGpuFor numDevices) = .ok ref ∧
      distributeMoeWeightsFromBqnt bqnt pfx layerIdx junk lite numDevices
        (startGpuFor numDevices) = .ok bq ∧
      (∀ gpu < numDevices, buildLayerConfig ref gpu hs cfgEis = some (refCfgs gpu) ∧
        buildLayerConfig bq gpu hs cfgEis = some (bqCfgs gpu)) ∧
      Sharded t numDevices ref (ref.mem moe) refCfgs ∧
      Sharded t numDevices bq (bq.mem lite) bqCfgs ∧
      (ref.expertDevice = bq.expertDevice ∧ ∀ gpu e, ref.slot gpu e = bq.slot gpu e) ∧
      ∀ i, (∑ gpu ∈ Finset.range numDevices, opMoeFfnRemote ops geo.eis geo.gateUpInDim
          geo.hasGateProj (ref.mem moe) (refCfgs gpu) k act eids ews i =
            ∑ j ∈ Finset.range k, ops.mul (ews j) (t.ffn ops (eids j).toNat act i)) ∧
        ∑ gpu ∈ Finset.range numDevices, opMoeFfnRemote ops geo.eis geo.gateUpInDim
          geo.hasGateProj (bq.mem lite) (bqCfgs gpu) k act eids ews i =
            ∑ j ∈ Finset.range k, ops.mul (ews j) (t.ffn ops (eids j).toNat act i) := by
  have hstart := startGpuFor_lt hdev
  obtain ⟨refBufs, href, hrefFilled⟩ := distributeMoeWeightsFromRef_ok junk hpacks hs
    hstart
  obtain ⟨bqBufs, hbq, hbqFilled⟩ := distributeMoeWeightsFromBqnt_ok junk hbqnt hlite
    hstart
  have hrefPlaced := placed_fromRef hpacks hdev hrefFilled
  have hbqPlaced := placed_fromBqnt lite hstart hbqFilled
  obtain ⟨refCfgs, hrefCfgs, hrefSharded⟩ := hrefPlaced.sharded hs cfgEis
  obtain ⟨bqCfgs, hbqCfgs, hbqSharded⟩ := hbqPlaced.sharded hs cfgEis
  refine ⟨_, _, refCfgs, bqCfgs, href, hbq, fun gpu hgpu => ⟨hrefCfgs gpu hgpu, hbqCfgs gpu hgpu⟩,
    hrefSharded, hbqSharded, ⟨rfl, fun gpu e => ?_⟩, fun i => ⟨?_, ?_⟩⟩
  · rw [hrefPlaced.slot, hbqPlaced.slot]
  · exact hrefSharded.sum_outputs ops hids ews act i
  · exact hbqSharded.sum_outputs ops hids ews act i

end Paths

/-- Two experts of one row. -/
def tinyGeometry : ExpertGeometry where
  numExperts := 2
  format := .pcG32Q4
  eis := 1
  gateUpInDim := 1
  hasGateProj := true
  numExperts_pos := Nat.two_pos
  numExperts_le := by decide
  eis_pos := Nat.one_pos
  gateUpInDim_pos := Nat.one_pos
  quantized := by decide
  rowStride_lt := by decide

/-- Every projection of a tiny expert is one group of 20 equal bytes. -/
def tinyTensors : ExpertTensors tinyGeometry where
  gate := fun e => List.replicate 20 (UInt8.ofNat e)
  up := fun e => List.replicate 20 (UInt8.ofNat (e + 2))
  down := fun e => List.replicate 20 (UInt8.ofNat (e + 4))
  length_gate := fun _ _ => List.length_replicate
  length_up := fun _ _ => List.length_replicate
  length_down := fun _ _ => List.length_replicate

/-- The layer as it is loaded on GPU 0. -/
def tinyWeights : MoeWeights where
  expertGateUp := .packed ((List.range 2).flatMap tinyTensors.gateUp) .pcG32Q4 4 1
  expertDown := .packed ((List.range 2).flatMap tinyTensors.down) .pcG32Q4 2 1
  numExperts := 2
  expertIntermediateSize := 1
  hasGateProj := true

/-- An entry of the file. -/
def tinyEntry (name : String) (outFeatures : UInt32) (dataOffset dataBytes : UInt64) :
    TensorEntry :=
  ⟨fnv1a64 name, 1, outFeatures, 1, 3, dataOffset, dataBytes⟩

/-- The layer in a file, as two fused tensors. -/
def tinyFile : MmapBqnt where
  mmap := (List.range 2).flatMap tinyTensors.gateUp ++ (List.range 2).flatMap tinyTensors.down
  header :=
    { entries := ((∅ : HashMap UInt64 TensorEntry).insert
        (fnv1a64 "layers.0.mlp.experts.gate_up_proj")
        (tinyEntry "layers.0.mlp.experts.gate_up_proj" 4 0 80)).insert
        (fnv1a64 "layers.0.mlp.experts.down_proj")
        (tinyEntry "layers.0.mlp.experts.down_proj" 2 80 40)
      nTensors := 2
      metadataOffset := 0
      metadataSize := 0 }
  nameTable := none

lemma tinyFile_holds : HoldsExperts tinyFile "" 0 tinyTensors := by
  have hkey : bqntFfnKey tinyFile "" 0 = "mlp" := by decide +kernel
  refine Or.inl ⟨?_, ?_⟩
  · rw [hkey]
    exact ⟨⟨tinyEntry "layers.0.mlp.experts.gate_up_proj" 4 0 80, by decide +kernel⟩,
      by decide +kernel⟩
  · rw [hkey]
    exact ⟨⟨tinyEntry "layers.0.mlp.experts.down_proj" 2 80 40, by decide +kernel⟩,
      by decide +kernel⟩

/-- Operators on numbers: a matrix is the sum of its bytes. -/
def tinyOps : ExpertOps ℕ where
  gemv := fun _ bytes _ _ x _ => (bytes.map (·.toNat)).sum * ((List.ofFn x).sum)
  siluMul := fun g u => g * u
  reluSquared := fun x => x * x
  mul := fun a b => a * b

/-- On three GPUs the two workers compute the mixture of the two experts, one of them routed
twice. -/
theorem expertSharding_three_gpus : ∃ ref cfgs,
    distributeMoeWeightsFromRef (fun _ _ => 0) tinyWeights 3 1 1 = .ok ref ∧
      Sharded tinyTensors 3 ref (ref.mem tinyWeights) cfgs ∧
      ∑ gpu ∈ Finset.range 3, opMoeFfnRemote tinyOps 1 1 true (ref.mem tinyWeights) (cfgs gpu) 3
          (fun _ => 1) (fun j => ((j % 2 : ℕ) : ℤ)) (fun _ => 1) (0 : Fin 1) =
        ∑ j ∈ Finset.range 3, tinyTensors.ffn tinyOps (j % 2) (fun _ => 1) (0 : Fin 1) := by
  have hsizes : tinyWeights.Sizes tinyGeometry := ⟨rfl, rfl, rfl⟩
  have hpacks : tinyWeights.Packs tinyTensors := ⟨hsizes, ⟨4, rfl⟩, ⟨2, 1, rfl⟩⟩
  have hids : ∀ j < 3, 0 ≤ ((j % 2 : ℕ) : ℤ) ∧ ((j % 2 : ℕ) : ℤ) < tinyGeometry.numExperts := by
    decide
  obtain ⟨ref, _, cfgs, _, href, -, -, hsharded, -, -, hsum⟩ :=
    expertSharding tinyOps (fun _ _ => 0) hpacks hsizes tinyFile_holds (show 0 < 3 by decide) 1 1
      3 (fun j => ((j % 2 : ℕ) : ℤ)) hids (fun _ => 1) (fun _ => 1)
  refine ⟨ref, cfgs, href, hsharded, ?_⟩
  refine Eq.trans (hsum (0 : Fin 1)).1 (Finset.sum_congr rfl fun j _ => ?_)
  rw [Int.toNat_natCast]
  exact Nat.one_mul _

end Braidinfer.Moe
