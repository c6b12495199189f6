/-
The engine over its resets (`model/state.rs`, `model/decode/mod.rs`, `persistent_dispatch.rs`).

`reset_state` drops the dispatcher and clears the state; the next call builds a new dispatcher.
The drop of a dispatcher with more than one slot ends the process.

* `Recurrent.clear_eq`: a reset clears the whole recurrent state;
* `Inv.spawn`: the worker of a call runs before anything is dispatched;
* `reset_usable`: **a reset returns and leaves the initial state, after every run, where the
  dispatcher has one slot**.
-/
import Mathlib.Algebra.GroupWithZero.Nat
import Braidinfer.Engine.Accounting

namespace Braidinfer.Engine

open Braidinfer.Lib Braidinfer.PagedKv Braidinfer.Megakernel

/-! ### Workers -/

/-- `PersistentDispatch.workers`: whether slot `i` holds a launched worker. -/
abbrev Workers := List Bool

namespace Workers

/-- `has_worker`. -/
def hasWorker (ws : Workers) (gpu : ℕ) : Bool := (ws[gpu]?).getD false

/-- `add_device`: launch a worker, in a slot of its own. -/
def addDevice (ws : Workers) (device : ℕ) : Workers :=
  (ws ++ List.replicate (device + 1 - ws.length) false).set device true

/-- `init_with_total`. -/
def initWithTotal (total : ℕ) (devices : List ℕ) : Workers :=
  devices.foldl addDevice (List.replicate total false)

/-- `init`. -/
def init (devices : List ℕ) : Workers :=
  initWithTotal (((devices.map (· + 1)).max?).getD 1) devices

/-- `drop`, of workers that honour the shutdown: with more than one slot it ends the process. -/
def dropExits (ws : Workers) : Bool := 1 < ws.length

lemma hasWorker_addDevice_self (ws : Workers) (device : ℕ) :
    (ws.addDevice device).hasWorker device = true := by
  have hlt : device < (ws ++ List.replicate (device + 1 - ws.length) false).length := by
    rw [List.length_append, List.length_replicate]
    omega
  rw [hasWorker, addDevice, List.getElem?_set_self hlt]
  rfl

/-- A launch leaves the workers of the other GPUs. -/
lemma hasWorker_addDevice {ws : Workers} {gpu : ℕ} (device : ℕ) (h : ws.hasWorker gpu = true) :
    (ws.addDevice device).hasWorker gpu = true := by
  by_cases heq : device = gpu
  · rw [heq]
    exact hasWorker_addDevice_self ws gpu
  · have hlt : gpu < ws.length := by
      by_contra hge
      rw [hasWorker, List.getElem?_eq_none (by omega)] at h
      cases h
    rw [hasWorker, addDevice, List.getElem?_set_ne heq, List.getElem?_append_left hlt]
    exact h

lemma length_le_addDevice (ws : Workers) (device : ℕ) :
    ws.length ≤ (ws.addDevice device).length := by
  rw [addDevice, List.length_set, List.length_append]
  omega

lemma length_le_initWithTotal (total : ℕ) (devices : List ℕ) :
    total ≤ (initWithTotal total devices).length := by
  have hfold : ∀ ws : Workers, ws.length ≤ (devices.foldl addDevice ws).length := by
    induction devices with
    | nil => exact fun ws => le_rfl
    | cons device devices ih =>
      intro ws
      exact (length_le_addDevice ws device).trans (ih _)
  have hle := hfold (List.replicate total false)
  rwa [List.length_replicate] at hle

lemma hasWorker_foldl {devices : List ℕ} {ws : Workers} {gpu : ℕ}
    (h : ws.hasWorker gpu = true ∨ gpu ∈ devices) :
    (devices.foldl addDevice ws).hasWorker gpu = true := by
  induction devices generalizing ws with
  | nil => simpa using h
  | cons device devices ih =>
    refine ih ?_
    rcases h with hws | hmem
    · exact Or.inl (hasWorker_addDevice device hws)
    · rcases List.mem_cons.1 hmem with rfl | hmem
      · exact Or.inl (hasWorker_addDevice_self ws gpu)
      · exact Or.inr hmem

/-- The workers of the listed devices run. -/
lemma hasWorker_initWithTotal {total gpu : ℕ} {devices : List ℕ} (h : gpu ∈ devices) :
    (initWithTotal total devices).hasWorker gpu = true :=
  hasWorker_foldl (Or.inr h)

end Workers

/-! ### Recurrent state -/

/-- The state sizes of a Mamba2 model. -/
structure Mamba2Dims where
  numHeads : ℕ
  headDim : ℕ
  stateDim : ℕ
  convKernel : ℕ
  convDim : ℕ

/-- The model and the GPUs it is loaded on.  `enable_multi_gpu` does nothing for a dense model, and
a model on several GPUs has its state on GPU 0. -/
structure Machine where
  engine : EngineConfig
  numGpus : ℕ
  device : ℕ
  linearNumHeads : ℕ
  linearKeyHeadDim : ℕ
  linearValueHeadDim : ℕ
  linearConvKernelDim : ℕ
  linearNumValueHeads : ℕ
  gdnLayers : ℕ
  mamba2 : Option Mamba2Dims
  mamba2Layers : ℕ
  moe_of_multi : 1 < numGpus → engine.hasMoe = true
  device_of_multi : 1 < numGpus → device = 0

/-- The device buffers of the recurrent layers. -/
structure Recurrent (F : Type*) where
  gdn : List (List F)
  gdnConv : List (List F)
  ssm : List (List F)
  mambaConv : List (List F)

namespace Machine

variable (mc : Machine) (F : Type*) [Zero F]

/-- `nvh_r * kd * vd`. -/
def gdnSize : ℕ := mc.linearNumValueHeads * mc.linearKeyHeadDim * mc.linearValueHeadDim

/-- `qkv_out * (ck - 1)`. -/
def gdnConvSize : ℕ :=
  (mc.linearNumHeads * mc.linearKeyHeadDim * 2 + mc.linearNumValueHeads * mc.linearValueHeadDim) *
    (mc.linearConvKernelDim - 1)

/-- `n` buffers of `size` zeros. -/
def zeros (n size : ℕ) : List (List F) := List.replicate n (List.replicate size 0)

/-- The recurrent state as loaded. -/
def loadedRecurrent : Recurrent F where
  gdn := zeros F mc.gdnLayers mc.gdnSize
  gdnConv := zeros F mc.gdnLayers mc.gdnConvSize
  ssm := match mc.mamba2 with
    | none => []
    | some d => zeros F mc.mamba2Layers (d.numHeads * d.headDim * d.stateDim)
  mambaConv := match mc.mamba2 with
    | none => []
    | some d => zeros F mc.mamba2Layers (d.convDim * (d.convKernel - 1))

end Machine

/-- `DeviceBuffer::copy_from_host`, with its assertion. -/
def copyFromHost {F : Type*} (data buffer : List F) : Option (List F) :=
  if data.length ≤ buffer.length then some (data ++ buffer.drop data.length) else none

namespace Recurrent

variable {F : Type*}

/-- The lengths of the buffers. -/
def sizes (r : Recurrent F) : List (List ℕ) :=
  [r.gdn.map List.length, r.gdnConv.map List.length, r.ssm.map List.length,
    r.mambaConv.map List.length]

variable [Zero F] {mc : Machine}

/-- The part of `reset_state` that clears the recurrent state. -/
def clear (mc : Machine) (r : Recurrent F) : Option (Recurrent F) := do
  let gdn ← r.gdn.mapM (copyFromHost (List.replicate mc.gdnSize 0))
  let gdnConv ← r.gdnConv.mapM (copyFromHost (List.replicate mc.gdnConvSize 0))
  match mc.mamba2 with
  | none => pure { r with gdn, gdnConv }
  | some d =>
    let ssm ← r.ssm.mapM
      (copyFromHost (List.replicate (d.numHeads * d.headDim * d.stateDim) 0))
    let mambaConv ← r.mambaConv.mapM
      (copyFromHost (List.replicate (d.convDim * (d.convKernel - 1)) 0))
    pure { gdn, gdnConv, ssm, mambaConv }

/-- A buffer of the size of the zeros is cleared. -/
lemma mapM_copyFromHost {bufs : List (List F)} {n size : ℕ}
    (h : bufs.map List.length = (Machine.zeros F n size).map List.length) :
    bufs.mapM (copyFromHost (List.replicate size (0 : F))) = some (Machine.zeros F n size) := by
  induction bufs generalizing n with
  | nil =>
    cases n with
    | zero => rfl
    | succ n => simp [Machine.zeros] at h
  | cons buf bufs ih =>
    cases n with
    | zero => simp [Machine.zeros] at h
    | succ n =>
      simp only [Machine.zeros, List.replicate_succ, List.map_cons, List.cons.injEq,
        List.length_replicate] at h
      have hcopy :
          copyFromHost (List.replicate size (0 : F)) buf = some (List.replicate size 0) := by
        rw [copyFromHost, if_pos (by simp [h.1])]
        simp [List.drop_eq_nil_of_le, h.1]
      rw [List.mapM_cons, hcopy, ih h.2]
      rfl

/-- **A reset clears the whole recurrent state**, whatever it holds. -/
lemma clear_eq {r : Recurrent F} (h : r.sizes = (mc.loadedRecurrent F).sizes) :
    r.clear mc = some (mc.loadedRecurrent F) := by
  simp only [sizes, Machine.loadedRecurrent, List.cons.injEq, and_true] at h
  obtain ⟨hgdn, hconv, hssm, hmamba⟩ := h
  rw [clear, mapM_copyFromHost hgdn, mapM_copyFromHost hconv]
  cases hd : mc.mamba2 with
  | none =>
    rw [hd] at hssm hmamba
    simp only [List.map_nil, List.map_eq_nil_iff] at hssm hmamba
    simp [Machine.loadedRecurrent, hd, hssm, hmamba]
  | some d =>
    rw [hd] at hssm hmamba
    simp only [Option.bind_eq_bind, Option.bind_some, mapM_copyFromHost hssm,
      mapM_copyFromHost hmamba]
    simp [Machine.loadedRecurrent, hd]

end Recurrent

/-! ### The engine and its calls -/

/-- Every HIP call of a call succeeds.  The host pool may be missing. -/
structure Env.HipOk (env : Env) : Prop where
  compile : env.compile = .ok ()
  vramPool : ∃ base, env.vramPool = .ok base
  quantPool : ∃ base, env.quantPool = .ok base
  dispatchInit : env.dispatchInit = .ok ()
  prefillAlloc : env.prefillAlloc = .ok ()
  slab : ∀ k, env.slab k = .ok
  logits : env.logits = .ok ()
  mirror : env.mirror = .ok ()
  clear : env.clear = .ok ()

/-- `Model`: the KV state of GPU 0, the dispatcher, and the recurrent state. -/
structure System (mc : Machine) (F : Type*) [Zero F] where
  kv : Model
  /-- `persistent_workers` -/
  workers : Option Workers
  /-- `moe_p2p` is there -/
  moeP2p : Bool
  recurrent : Recurrent F

/-- What the kernels of a call leave in the recurrent state: they write in place. -/
abbrev Kernels (mc : Machine) (F : Type*) [Zero F] :=
  { r : Recurrent F // r.sizes = (mc.loadedRecurrent F).sizes }

namespace System

variable {mc : Machine} {F : Type*} [Zero F]

/-- `ensure_moe_workers_started`; `none` is the end of the process, in the drop of an older
dispatcher. -/
def ensureMoeWorkersStarted (s : System mc F) : Option (System mc F) :=
  if s.moeP2p ∨ mc.engine.hasMoe = false then some s
  else if s.workers.any Workers.dropExits then none
  else some { s with
    moeP2p := true
    workers := some (.initWithTotal mc.numGpus ((List.range mc.numGpus).drop 1)) }

variable (mc F) in
/-- The engine after `Model::load`, before `enable_multi_gpu`. -/
def base : System mc F where
  kv := .init
  workers := none
  moeP2p := false
  recurrent := mc.loadedRecurrent F

variable (mc F) in
/-- The engine as loaded.  A MoE model has its dispatcher from `enable_multi_gpu`. -/
def load : System mc F := ((base mc F).ensureMoeWorkersStarted).getD (base mc F)

/-- `ensure_persistent_worker_spawned`. -/
def ensurePersistentWorkerSpawned (env : Env) (s : System mc F) :
    Except ModelFault Unit × System mc F :=
  if s.kv.megakernelPaged.isSome ∧ s.workers.isSome then (.ok (), s)
  else
    match Model.ensurePersistentWorkerSpawned mc.engine env s.kv with
    | (.error e, kv) => (.error e, { s with kv })
    | (.ok (), kv) =>
      match s.workers with
      | none => (.ok (), { s with kv, workers := some (.init [mc.device]) })
      | some ws =>
        let ws := if ws.hasWorker mc.device then ws else ws.addDevice mc.device
        (.ok (), { s with kv, workers := some ws })

/-- `prefill`. -/
def prefill (env : Env) (total : ℕ) (out : Kernels mc F) (s : System mc F) :
    Option (Except ModelFault Unit × System mc F) :=
  if total = 0 then some (.error (.missingWeight "empty token sequence"), s)
  else
    match ensurePersistentWorkerSpawned env s with
    | (.error e, s) => some (.error e, s)
    | (.ok (), s) =>
      match s.ensureMoeWorkersStarted with
      | none => none
      | some s =>
        let (r, kv) := Model.prefillBody mc.engine env total s.kv
        some (r, { s with kv, recurrent := out.1 })

/-- `init_multi_gpu_persistent`. -/
def initMultiGpuPersistent (s : System mc F) : Option (System mc F) :=
  match s.ensureMoeWorkersStarted with
  | none => none
  | some s =>
    match s.workers with
    | none => some { s with workers := some (.initWithTotal (max mc.numGpus 1) [mc.device]) }
    | some ws =>
      let ws := if ws.hasWorker 0 then ws else ws.addDevice mc.device
      some { s with workers := some ws }

/-- The KV part of `decode_step_p2p`: GPU 0 appends the token. -/
def decodeStepP2p (cfg : EngineConfig) (position : ℕ) (kv : Model) :
    Except ModelFault Unit × Model :=
  match kv.pagedSeq, kv.pageAllocator with
  | some seq, some allocator =>
    match seq.appendToken ⟨kv.heap, allocator, kv.hostPageAllocator⟩ (toI32 position) with
    | .error e => (.error (.ofFault e), kv)
    | .ok (mem, seq) =>
      (.ok (), { kv with
        heap := mem.heap
        pagedSeq := some seq
        pageAllocator := some mem.vram
        hostPageAllocator := mem.host
        seqLen := position + 1 })
  | _, _ =>
    if cfg.numAttnLayers = 0 then (.ok (), { kv with seqLen := position + 1 })
    else (.error .unwrapNone, kv)

/-- `decode_step_persistent_multi_gpu`. -/
def decodeMultiGpu (position : ℕ) (out : Kernels mc F) (s : System mc F) :
    Option (Except ModelFault Unit × System mc F) :=
  let needsGpu0 := (s.workers.map fun ws => !ws.hasWorker 0).getD true
  match (if needsGpu0 then s.initMultiGpuPersistent else some s) with
  | none => none
  | some s =>
    let (r, kv) := decodeStepP2p mc.engine position s.kv
    some (r, { s with kv, recurrent := out.1 })

/-- `decode_step`. -/
def decode (env : Env) (tokenId position : ℕ) (out : Kernels mc F) (s : System mc F) :
    Option (Except ModelFault Unit × System mc F) :=
  if 1 < mc.numGpus then decodeMultiGpu position out s
  else
    match ensurePersistentWorkerSpawned env s with
    | (.error e, s) => some (.error e, s)
    | (.ok (), s) =>
      -- the worker is there, so the step itself spawns none
      if (s.workers.map fun ws => ws.hasWorker 0).getD false then
        let (r, kv) := Model.decodeStep mc.engine env tokenId position s.kv
        some (r, { s with kv, recurrent := out.1 })
      else
        -- `dispatch_batch_slice(0, ..)`, whichever the device, finds no worker and panics
        match Model.decodePatch mc.engine env tokenId position s.kv with
        | (.error e, kv) => some (.error e, { s with kv })
        | (.ok (), kv) => some (.error .unwrapNone, { s with kv })

/-- `reset_state`: the drop of the dispatcher comes first. -/
def reset (env : Env) (s : System mc F) : Option (Except ModelFault Unit × System mc F) :=
  if s.workers.any Workers.dropExits then none
  else
    match s.recurrent.clear mc with
    -- the assertion of a copy
    | none => some (.error .unwrapNone, { s with workers := none })
    | some recurrent =>
      let (r, kv) := Model.resetState env s.kv
      some (r, { s with kv, workers := none, recurrent })

/-- The calls of a run. -/
inductive Call (mc : Machine) (F : Type*) [Zero F]
  | prefill (env : Env) (total : ℕ) (out : Kernels mc F)
  | decode (env : Env) (tokenId position : ℕ) (out : Kernels mc F)
  | reset (env : Env)

/-- What a call returns and the state it leaves, or the end of the process. -/
def call (s : System mc F) : Call mc F → Option (Except ModelFault Unit × System mc F)
  | .prefill env total out => s.prefill env total out
  | .decode env tokenId position out => s.decode env tokenId position out
  | .reset env => s.reset env

/-- One step of a run: a call that returns and does not panic. -/
def Step (s : System mc F) (c : Call mc F) (s' : System mc F) : Prop :=
  ∃ r, s.call c = some (r, s') ∧ ∀ e, r = .error e → ¬ e.IsPanic

/-- The GPUs a call dispatches to: a prefill to the device of the model, a decode step to GPU 0. -/
def dispatches (mc : Machine) : Call mc F → List ℕ
  | .prefill _ total _ =>
    if total = 0 then [] else if 1 < mc.numGpus then List.range mc.numGpus else [mc.device]
  | .decode _ _ _ _ => if 1 < mc.numGpus then List.range mc.numGpus else [0]
  | .reset _ => []

/-- The worker of the GPU runs. -/
def Running (s : System mc F) (gpu : ℕ) : Prop :=
  ∃ ws, s.workers = some ws ∧ ws.hasWorker gpu = true

/-- The engine in its initial state. -/
structure Initial (s : System mc F) : Prop where
  kv : s.kv.KvInitial
  recurrent : s.recurrent = mc.loadedRecurrent F

/-! ### The condition -/

/-- The dispatcher, if there is one, has one slot. -/
def OneSlot (s : System mc F) : Prop := ∀ ws, s.workers = some ws → ws.length ≤ 1

/-- HIP succeeds, a reset finds a dispatcher of one slot, a prefill does not lose a sequence that
holds quantized slots, and a decode step is one of a model on GPU 0. -/
def Usable (s : System mc F) : Call mc F → Prop
  | .prefill env total out => env.HipOk ∧
    ∀ r s', s.prefill env total out = some (r, s') → s.kv.KeepsSlots s'.kv
  | .decode env _ _ _ => env.HipOk ∧ mc.device = 0
  | .reset env => env.HipOk ∧ s.OneSlot

/-! ### The invariant -/

/-- What every run keeps. -/
structure Inv (s : System mc F) : Prop where
  moe : s.moeP2p = mc.engine.hasMoe
  sizes : s.recurrent.sizes = (mc.loadedRecurrent F).sizes
  /-- the worker of a compiled program runs -/
  ready : s.kv.megakernelPaged.isSome → ∀ ws, s.workers = some ws →
    ws.hasWorker mc.device = true
  /-- the workers of the other GPUs run from the start -/
  peers : 1 < mc.numGpus → ∃ ws, s.workers = some ws ∧ 1 < ws.length ∧
    ∀ g, 1 ≤ g → g < mc.numGpus → ws.hasWorker g = true
  kv : mc.numGpus ≤ 1 → s.kv.Accounted mc.engine

variable {s s' : System mc F} {env : Env} {c : Call mc F}

lemma Inv.ensureMoeWorkersStarted (h : s.Inv) : s.ensureMoeWorkersStarted = some s := by
  rw [System.ensureMoeWorkersStarted, if_pos]
  rw [h.moe]
  cases mc.engine.hasMoe <;> simp

lemma inv_load : (load mc F).Inv := by
  by_cases hmoe : mc.engine.hasMoe = true
  · have hload : load mc F = { base mc F with
        moeP2p := true
        workers := some (.initWithTotal mc.numGpus ((List.range mc.numGpus).drop 1)) } := by
      simp [load, System.ensureMoeWorkersStarted, base, hmoe]
    rw [hload]
    refine ⟨hmoe.symm, rfl, fun hprog => by simp [base, Model.init] at hprog, ?_,
      fun _ => .init⟩
    intro hmulti
    refine ⟨_, rfl, ?_, ?_⟩
    · exact lt_of_lt_of_le hmulti (Workers.length_le_initWithTotal _ _)
    · intro g hg hlt
      refine Workers.hasWorker_initWithTotal (List.mem_iff_getElem?.2 ⟨g - 1, ?_⟩)
      rw [List.getElem?_drop, List.getElem?_range (by omega)]
      congr 1
      omega
  · have hload : load mc F = base mc F := by
      simp [load, System.ensureMoeWorkersStarted, hmoe]
    rw [hload]
    refine ⟨?_, rfl, fun hprog => by simp [base, Model.init] at hprog, ?_, fun _ => .init⟩
    · exact (Bool.eq_false_iff.2 hmoe).symm
    · intro hmulti
      exact absurd (mc.moe_of_multi hmulti) hmoe

/-- With HIP succeeding, the worker is spawned. -/
lemma ensureWorker_ok (cfg : EngineConfig) (m : Model) (h : env.HipOk) :
    ∃ m', Model.ensurePersistentWorkerSpawned cfg env m = (.ok (), m') ∧
      Model.Setups cfg env m m' := by
  have hok : ∃ m', Model.ensurePersistentWorkerSpawned cfg env m = (.ok (), m') := by
    rw [Model.ensurePersistentWorkerSpawned]
    split_ifs
    · exact ⟨m, rfl⟩
    · obtain ⟨vram, hvram⟩ := h.vramPool
      obtain ⟨quant, hquant⟩ := h.quantPool
      have hprogram : ∃ m₁, Model.ensureProgram cfg env m = (.ok (), m₁) := by
        rw [Model.ensureProgram]
        cases m.megakernelPaged with
        | some prog => exact ⟨_, rfl⟩
        | none =>
          simp only [h.compile]
          exact ⟨_, rfl⟩
      obtain ⟨m₁, hm₁⟩ := hprogram
      have hpool : ∃ m₂, Model.ensurePool cfg env m₁ = (.ok (), m₂) := by
        rw [Model.ensurePool]
        cases m₁.pageAllocator with
        | some a => exact ⟨_, rfl⟩
        | none =>
          simp only [hvram]
          exact ⟨_, rfl⟩
      obtain ⟨m₂, hm₂⟩ := hpool
      have hq : ∃ m₃, Model.ensureQuant cfg env cfg.kvQuant m₂ = (.ok (), m₃) := by
        unfold Model.ensureQuant
        split
        · simp only [hquant]
          exact ⟨_, rfl⟩
        · exact ⟨_, rfl⟩
      obtain ⟨m₃, hm₃⟩ := hq
      simp only [hm₁, Model.ensurePagedDecodeState, hm₂, hm₃, h.dispatchInit]
      exact ⟨_, rfl⟩
  obtain ⟨m', hm'⟩ := hok
  exact ⟨m', hm', Model.ensurePersistentWorkerSpawned_setups hm'⟩

/-- **The worker of a call**: it runs before anything is dispatched. -/
lemma Inv.spawn (h : s.Inv) (henv : env.HipOk) :
    ∃ s₁, ensurePersistentWorkerSpawned env s = (.ok (), s₁) ∧ s₁.Inv ∧
      s₁.Running mc.device ∧ Model.Setups mc.engine env s.kv s₁.kv := by
  rw [ensurePersistentWorkerSpawned]
  split_ifs with hready
  · obtain ⟨hprog, hworkers⟩ := hready
    obtain ⟨ws, hws⟩ := Option.isSome_iff_exists.1 hworkers
    exact ⟨s, rfl, h, ⟨ws, hws, h.ready hprog ws hws⟩, .refl⟩
  · obtain ⟨kv, hkv, hsetups⟩ := ensureWorker_ok mc.engine s.kv henv
    have hacc : mc.numGpus ≤ 1 → kv.Accounted mc.engine := fun hsingle =>
      (h.kv hsingle).extends (hsetups.grows.extends (h.kv hsingle).sound)
    cases hws : s.workers with
    | none =>
      have hrun : (Workers.init [mc.device]).hasWorker mc.device = true :=
        Workers.hasWorker_initWithTotal (List.mem_singleton.2 rfl)
      simp only [hkv]
      refine ⟨_, rfl, ⟨h.moe, h.sizes, ?_, ?_, hacc⟩, ⟨_, rfl, hrun⟩, hsetups⟩
      · rintro - ws ⟨⟩
        exact hrun
      · intro hmulti
        obtain ⟨ws, hsome, -⟩ := h.peers hmulti
        rw [hws] at hsome
        cases hsome
    | some ws =>
      have hrun : (if ws.hasWorker mc.device then ws else ws.addDevice mc.device).hasWorker
          mc.device = true := by
        split_ifs with hhas
        · exact hhas
        · exact Workers.hasWorker_addDevice_self ws mc.device
      simp only [hkv]
      refine ⟨_, rfl, ⟨h.moe, h.sizes, ?_, ?_, hacc⟩, ⟨_, rfl, hrun⟩, hsetups⟩
      · rintro - ws' ⟨⟩
        exact hrun
      · intro hmulti
        obtain ⟨ws', hsome, hlen, hpeers⟩ := h.peers hmulti
        obtain rfl := Option.some.inj (hws.symm.trans hsome)
        refine ⟨_, rfl, ?_, ?_⟩
        · split_ifs
          · exact hlen
          · exact lt_of_lt_of_le hlen (Workers.length_le_addDevice ws mc.device)
        · intro g hg hlt
          split_ifs
          · exact hpeers g hg hlt
          · exact Workers.hasWorker_addDevice mc.device (hpeers g hg hlt)

/-- Once the worker of the own GPU runs, all workers run. -/
lemma Inv.served (h : s.Inv) (hrun : s.Running mc.device) {g : ℕ}
    (hg : g ∈ if 1 < mc.numGpus then List.range mc.numGpus else [mc.device]) : s.Running g := by
  split_ifs at hg with hmulti
  · rcases Nat.eq_zero_or_pos g with rfl | hpos
    · rwa [mc.device_of_multi hmulti] at hrun
    · obtain ⟨ws, hws, -, hpeers⟩ := h.peers hmulti
      exact ⟨ws, hws, hpeers g hpos (List.mem_range.1 hg)⟩
  · rwa [List.mem_singleton.1 hg]

/-- A call that leaves the dispatcher keeps the invariant, up to its KV state. -/
lemma Inv.withKv (h : s.Inv) (hrun : s.Running mc.device) (kv : Model) (out : Kernels mc F)
    (hkv : mc.numGpus ≤ 1 → kv.Accounted mc.engine) :
    ({ s with kv := kv, recurrent := out.1 } : System mc F).Inv := by
  refine ⟨h.moe, out.2, ?_, h.peers, hkv⟩
  intro _ ws hws
  obtain ⟨ws', hws', hhas⟩ := hrun
  obtain rfl := Option.some.inj (hws'.symm.trans hws)
  exact hhas

/-- **Prefill.** -/
lemma Inv.prefill (h : s.Inv) {total : ℕ} {out : Kernels mc F} {r : Except ModelFault Unit}
    (henv : env.HipOk) (hcall : s.prefill env total out = some (r, s'))
    (hkeeps : s.kv.KeepsSlots s'.kv) :
    s'.Inv ∧ (total ≠ 0 → s'.Running mc.device) := by
  rw [System.prefill] at hcall
  split_ifs at hcall with hzero
  · obtain ⟨-, rfl⟩ := Prod.ext_iff.mp (Option.some.inj hcall)
    exact ⟨h, fun hne => absurd hzero hne⟩
  · obtain ⟨s₁, hspawn, h₁, hrun, hsetups⟩ := h.spawn henv
    rw [hspawn] at hcall
    simp only [h₁.ensureMoeWorkersStarted] at hcall
    rcases hbody : Model.prefillBody mc.engine env total s₁.kv with ⟨r', kv⟩
    simp only [hbody] at hcall
    obtain ⟨-, rfl⟩ := Prod.ext_iff.mp (Option.some.inj hcall)
    refine ⟨h₁.withKv hrun kv out ?_, fun _ => hrun⟩
    intro hsingle
    have hsound := (h.kv hsingle).sound
    have hheld : s₁.kv.quantHeld = s.kv.quantHeld :=
      (hsetups.grows.extends hsound).quantHeld hsound
    refine (h₁.kv hsingle).prefillBody hbody ?_
    rw [Model.KeepsSlots, hheld]
    exact hkeeps

/-- The dispatcher of a decode step on several GPUs. -/
lemma Inv.initMultiGpu (h : s.Inv) (hmulti : 1 < mc.numGpus) :
    ∃ s₁, (if (s.workers.map fun ws => !ws.hasWorker 0).getD true then s.initMultiGpuPersistent
        else some s) = some s₁ ∧ s₁.Inv ∧ s₁.Running mc.device := by
  obtain ⟨ws, hws, hlen, hpeers⟩ := h.peers hmulti
  have hdevice := mc.device_of_multi hmulti
  by_cases hhas : ws.hasWorker 0 = true
  · refine ⟨s, ?_, h, ⟨ws, hws, by rwa [hdevice]⟩⟩
    simp [hws, hhas]
  · have hrun : (ws.addDevice mc.device).hasWorker mc.device = true :=
      Workers.hasWorker_addDevice_self ws mc.device
    refine ⟨{ s with workers := some (ws.addDevice mc.device) }, ?_, ?_, ⟨_, rfl, hrun⟩⟩
    · simp [hws, hhas, initMultiGpuPersistent, h.ensureMoeWorkersStarted]
    · refine ⟨h.moe, h.sizes, ?_, ?_, h.kv⟩
      · rintro - ws' ⟨⟩
        exact hrun
      · intro _
        refine ⟨_, rfl, lt_of_lt_of_le hlen (Workers.length_le_addDevice ws mc.device), ?_⟩
        intro g hg hlt
        exact Workers.hasWorker_addDevice mc.device (hpeers g hg hlt)

/-- **Decode**, of a model on GPU 0: the worker it dispatches to runs, and it keeps the invariant if
it does not panic. -/
lemma Inv.decode (h : s.Inv) {tokenId position : ℕ} {out : Kernels mc F}
    {r : Except ModelFault Unit} (henv : env.HipOk) (hdevice : mc.device = 0)
    (hcall : s.decode env tokenId position out = some (r, s')) :
    s'.Running mc.device ∧ (1 < mc.numGpus → s'.Inv) ∧
      ((¬ ∃ e, r = .error e ∧ e.IsPanic) → s'.Inv) := by
  rw [System.decode] at hcall
  split_ifs at hcall with hmulti
  · obtain ⟨s₁, hinit, h₁, hrun⟩ := h.initMultiGpu hmulti
    rw [decodeMultiGpu] at hcall
    simp only [hinit] at hcall
    rcases hp2p : decodeStepP2p mc.engine position s₁.kv with ⟨r', kv⟩
    simp only [hp2p] at hcall
    obtain ⟨-, rfl⟩ := Prod.ext_iff.mp (Option.some.inj hcall)
    have hinv := h₁.withKv hrun kv out fun hsingle => absurd hmulti (by omega)
    exact ⟨hrun, fun _ => hinv, fun _ => hinv⟩
  · obtain ⟨s₁, hspawn, h₁, hrun, -⟩ := h.spawn henv
    have hslot : (s₁.workers.map fun ws => ws.hasWorker 0).getD false = true := by
      obtain ⟨ws, hws, hhas⟩ := hrun
      rw [hws, Option.map_some, Option.getD_some, ← hdevice]
      exact hhas
    rw [hspawn] at hcall
    simp only [hslot, if_true] at hcall
    rcases hstep : Model.decodeStep mc.engine env tokenId position s₁.kv with ⟨r', kv⟩
    simp only [hstep] at hcall
    obtain ⟨rfl, rfl⟩ := Prod.ext_iff.mp (Option.some.inj hcall)
    refine ⟨hrun, fun h => absurd h hmulti, fun hno => h₁.withKv hrun kv out ?_⟩
    intro hsingle
    exact (h₁.kv hsingle).decode hstep hno

/-- **Reset**, with a dispatcher of one slot. -/
lemma Inv.reset (h : s.Inv) (henv : env.HipOk) (hslot : s.OneSlot) :
    ∃ s₁, s.reset env = some (.ok (), s₁) ∧ s₁.Inv ∧ s₁.Initial := by
  have hsingle : mc.numGpus ≤ 1 := by
    by_contra hmulti
    obtain ⟨ws, hws, hlen, -⟩ := h.peers (by omega)
    have := hslot ws hws
    omega
  have hdrop : s.workers.any Workers.dropExits = false := by
    cases hws : s.workers with
    | none => rfl
    | some ws =>
      have := hslot ws hws
      simp [Workers.dropExits]
      omega
  obtain ⟨kv, hkv, hinitial, hacc, hworkers⟩ := (h.kv hsingle).reset henv.clear
  have hclear := Recurrent.clear_eq h.sizes
  refine ⟨{ s with kv, workers := none, recurrent := mc.loadedRecurrent F }, ?_, ?_,
    ⟨hinitial, rfl⟩⟩
  · rw [System.reset, hdrop]
    simp only [hclear, hkv]
    rfl
  · refine ⟨h.moe, rfl, ?_, ?_, fun _ => hacc⟩
    · rintro - ws ⟨⟩
    · intro hmulti
      omega

/-- **The workers of a call** that meets the condition run, whether or not it panics. -/
lemma Inv.serves (h : s.Inv) (husable : s.Usable c) {r : Except ModelFault Unit}
    (hcall : s.call c = some (r, s')) : ∀ g ∈ dispatches mc c, s'.Running g := by
  intro g hg
  cases c with
  | prefill env total out =>
    obtain ⟨hinv, hrun⟩ := h.prefill husable.1 hcall (husable.2 r s' hcall)
    rw [dispatches] at hg
    split_ifs at hg with hzero hmulti
    · cases hg
    · exact hinv.served (hrun hzero) (by rwa [if_pos hmulti])
    · exact hinv.served (hrun hzero) (by rwa [if_neg hmulti])
  | decode env tokenId position out =>
    obtain ⟨hrun, hinv, -⟩ := h.decode husable.1 husable.2 hcall
    rw [dispatches] at hg
    split_ifs at hg with hmulti
    · exact (hinv hmulti).served hrun (by rwa [if_pos hmulti])
    · rwa [List.mem_singleton.1 hg, ← husable.2]
  | reset env => cases hg

/-- Every step of the condition keeps the invariant. -/
lemma Inv.step (h : s.Inv) (hstep : guarded Usable Step s c s') : s'.Inv := by
  obtain ⟨husable, r, hcall, hok⟩ := hstep
  have hno : ¬ ∃ e, r = .error e ∧ e.IsPanic := fun ⟨e, he, hp⟩ => hok e he hp
  cases c with
  | prefill env total out => exact (h.prefill husable.1 hcall (husable.2 r s' hcall)).1
  | decode env tokenId position out => exact (h.decode husable.1 husable.2 hcall).2.2 hno
  | reset env =>
    obtain ⟨s₁, hreset, hinv, -⟩ := h.reset husable.1 husable.2
    obtain ⟨-, rfl⟩ := Prod.ext_iff.mp (Option.some.inj (hreset.symm.trans hcall))
    exact hinv

lemma inv_of_run {calls : List (Call mc F)}
    (hrun : Run (guarded Usable Step) (load mc F) calls s) : s.Inv :=
  hrun.invariant (fun _ _ _ h hstep => h.step hstep) inv_load

/-- **Resets are usable.**  In a run whose prefills lose no sequence with quantized slots, whose
resets find a dispatcher of one slot and whose decode steps are those of a model on GPU 0, the next
such reset returns and leaves the engine in its initial state, and the next such call dispatches
only to GPUs whose worker runs. -/
theorem reset_usable {calls : List (Call mc F)}
    (hrun : Run (guarded Usable Step) (load mc F) calls s) :
    (∀ env, env.HipOk → s.OneSlot → ∃ s', s.reset env = some (.ok (), s') ∧ s'.Initial) ∧
      ∀ c r s', s.Usable c → s.call c = some (r, s') → ∀ g ∈ dispatches mc c, s'.Running g := by
  have hinv := inv_of_run hrun
  constructor
  · intro env henv hslot
    obtain ⟨s', hreset, -, hinitial⟩ := hinv.reset henv hslot
    exact ⟨s', hreset, hinitial⟩
  · exact fun c r s' husable hcall => hinv.serves husable hcall

/-! ### Small machines -/

/-- The small engine on `numGpus` GPUs, with MoE layers if there are several. -/
def small (numGpus : ℕ) : Machine where
  engine := { smallConfig false with hasMoe := 1 < numGpus }
  numGpus := numGpus
  device := 0
  linearNumHeads := 1
  linearKeyHeadDim := 2
  linearValueHeadDim := 2
  linearConvKernelDim := 4
  linearNumValueHeads := 1
  gdnLayers := 1
  mamba2 := none
  mamba2Layers := 0
  moe_of_multi := by simp
  device_of_multi := fun _ => rfl

lemma hipOk_quietEnv (vramPool quantPool : ℕ) : (quietEnv vramPool quantPool).HipOk :=
  ⟨rfl, ⟨_, rfl⟩, ⟨_, rfl⟩, rfl, rfl, fun _ => rfl, rfl, rfl, rfl⟩

/-- What a prefill of three tokens leaves in the recurrent state. -/
def ones : Kernels (small 1) ℕ := ⟨⟨[[1, 1, 1, 1]], [List.replicate 18 1], [], []⟩, by decide⟩

/-- The theorem after a prefill of three tokens on one GPU. -/
theorem reset_usable_after_prefill :
    ∃ s : System (small 1) ℕ,
      Run (guarded Usable Step) (load (small 1) ℕ) [.prefill (quietEnv 4096 8192) 3 ones] s ∧
      s.recurrent.gdn = [[1, 1, 1, 1]] ∧
      ∃ s', s.reset (quietEnv 4096 8192) = some (.ok (), s') ∧ s'.Initial := by
  have henv := hipOk_quietEnv 4096 8192
  have hcall : ((load (small 1) ℕ).prefill (quietEnv 4096 8192) 3 ones).map
      (fun rs => (rs.1.isOk, rs.2.workers, rs.2.recurrent.gdn)) =
      some (true, some [true], [[1, 1, 1, 1]]) := by decide +kernel
  rw [Option.map_eq_some_iff] at hcall
  obtain ⟨⟨r, s⟩, hres, hval⟩ := hcall
  simp only [Prod.mk.injEq] at hval
  have hstep : guarded Usable Step (load (small 1) ℕ) (.prefill (quietEnv 4096 8192) 3 ones) s := by
    refine ⟨⟨henv, fun r' s' _ => Or.inl rfl⟩, r, hres, ?_⟩
    rintro e rfl
    cases hval.1
  have hrun : Run (guarded Usable Step) (load (small 1) ℕ) _ s := Run.nil.snoc hstep
  refine ⟨s, hrun, hval.2.2, (reset_usable hrun).1 _ henv ?_⟩
  intro ws hws
  obtain rfl := Option.some.inj (hval.2.1.symm.trans hws)
  exact le_rfl

/-- A reset of an engine on two GPUs ends the process. -/
theorem reset_exits_two_gpus :
    ¬ ∀ (mc : Machine) (calls : List (Call mc ℕ)) (s : System mc ℕ),
      Run (guarded Usable Step) (load mc ℕ) calls s → ∀ env : Env, env.HipOk →
        ∃ s', s.reset env = some (.ok (), s') ∧ s'.Initial := by
  intro hall
  obtain ⟨s', hreset, -⟩ := hall (small 2) [] (load (small 2) ℕ) .nil _ (hipOk_quietEnv 4096 8192)
  have hexit : ((load (small 2) ℕ).reset (quietEnv 4096 8192)).isNone = true := by
    decide +kernel
  rw [hreset] at hexit
  cases hexit

end System

end Braidinfer.Engine
