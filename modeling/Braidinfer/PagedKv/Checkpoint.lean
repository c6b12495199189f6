/-
The pool of recurrent checkpoints (`RecurrentCheckpointPool` and `save_checkpoint` in `paged_kv.rs`,
`save_recurrent_checkpoint` in `model/state.rs`).

The pool has one slot.  A call that saves gives the slot of the checkpoint before back, takes it
again and copies the state of each GDN layer to it, one copy a layer; it returns at the first copy
that fails, with the slot taken and `last_checkpoint_slot` cleared.

* `saveRecurrentCheckpoint`: the call, with the outcomes of its HIP calls;
* `Kept`: what a call should leave; `Survives`: every call of a run leaves it;
* `save_of_ready`: one call, from a state in which the slot is there;
* `survives_iff`: **a run survives if and only if** there is a GDN layer, the recurrent layers have
  the size of the GDN layers where that is asserted, and no copy fails.
-/
import Braidinfer.Engine.MixedPrefill
import Braidinfer.Lib.RowMem
import Braidinfer.PagedKv.Handle

namespace Braidinfer.PagedKv.Checkpoint

open Braidinfer.Lib
open Engine.MixedPrefill (LayerType LayerConfig)

/-! ### The pool -/

/-- The fields of `ModelConfig` that size the recurrent states. -/
structure ModelConfig where
  numLayers : ℕ
  layers : List LayerConfig
  linearNumValueHeads : ℕ
  linearKeyHeadDim : ℕ
  linearValueHeadDim : ℕ

namespace ModelConfig

variable (cfg : ModelConfig)

/-- `num_recurrent_layers` -/
def numRecurrentLayers : ℕ :=
  cfg.layers.countP fun l => l.layerType = .gdn ∨ l.layerType = .mamba2

/-- Floats in the state of a GDN layer. -/
def floatsPerLayer : ℕ :=
  cfg.linearNumValueHeads * cfg.linearKeyHeadDim * cfg.linearValueHeadDim

/-- `recurrent_state_bytes` -/
def recurrentStateBytes : ℕ := cfg.numRecurrentLayers * cfg.floatsPerLayer * 4

/-- The entries of `gdn_states`: one for each GDN layer below `num_layers`. -/
def numGdnStates : ℕ := (cfg.layers.take cfg.numLayers).countP fun l => l.layerType = .gdn

end ModelConfig

/-- The assertions and the division that can fail. -/
inductive Panic
  | slotRange (slot capacity : ℕ)
  | stateBytesMismatch (expected layers bytesPerLayer : ℕ)
  | divideByZero
deriving DecidableEq, Repr

/-- How a call fails. -/
inductive Fault
  | hip (code : ℕ)
  | panic (p : Panic)
deriving DecidableEq, Repr

/-- `DeviceBuffer<f32>`: its length, and the bytes from its address on. -/
structure DeviceBuffer where
  len : ℕ
  bytes : ℕ → UInt8

/-- `size_bytes` -/
def DeviceBuffer.sizeBytes (b : DeviceBuffer) : ℕ := b.len * 4

/-- How a copy ends; one that fails leaves `junk` in its destination. -/
inductive CopyOutcome
  | ok
  | failed (code : ℕ) (junk : ℕ → UInt8)

/-- `RecurrentCheckpointPool`, with the bytes of its VRAM. -/
structure RecurrentCheckpointPool where
  slots : FreePool
  stateBytes : ℕ
  vramPool : ℕ → UInt8

namespace RecurrentCheckpointPool

/-- A new pool in `vram`. -/
def new (cfg : ModelConfig) (capacity : ℕ) (vram : ℕ → UInt8) : RecurrentCheckpointPool :=
  ⟨.full capacity, cfg.recurrentStateBytes, vram⟩

/-- `alloc`: a slot and its offset. -/
def alloc (pool : RecurrentCheckpointPool) : Option (ℕ × ℕ × RecurrentCheckpointPool) :=
  pool.slots.take?.map fun (idx, slots) => (idx, idx * pool.stateBytes, { pool with slots })

/-- `free`, which checks the slot where debug assertions are on. -/
def free (debug : Bool) (pool : RecurrentCheckpointPool) (slot : ℕ) :
    Except Panic RecurrentCheckpointPool :=
  if debug ∧ ¬ slot < pool.slots.capacity then .error (.slotRange slot pool.slots.capacity)
  else .ok { pool with slots := { pool.slots with free := slot :: pool.slots.free } }

end RecurrentCheckpointPool

/-- The copies of `save_checkpoint` from layer `i` on. -/
def copyLayers (floatsPerLayer dstPtr : ℕ) (copies : ℕ → CopyOutcome) :
    ℕ → List DeviceBuffer → (ℕ → UInt8) → Except ℕ Unit × (ℕ → UInt8)
  | _, [], vram => (.ok (), vram)
  | i, state :: rest, vram =>
      let dst := dstPtr + i * floatsPerLayer * 4
      match copies i with
      | .ok => copyLayers floatsPerLayer dstPtr copies (i + 1) rest
          (copyRange state.bytes 0 vram dst (floatsPerLayer * 4))
      | .failed e junk => (.error e, copyRange junk 0 vram dst (floatsPerLayer * 4))

/-- `save_checkpoint` -/
def saveCheckpoint (debug : Bool) (pool : RecurrentCheckpointPool)
    (recurrentStates : List DeviceBuffer) (copies : ℕ → CopyOutcome) :
    Except Fault ℕ × RecurrentCheckpointPool :=
  match pool.alloc with
  | none => (.error (.hip hipErrorOutOfMemory), pool)
  | some (slot, dstPtr, pool) =>
      let layers := recurrentStates.length
      let bytesPerLayer := recurrentStates.head?.elim 0 DeviceBuffer.sizeBytes
      if debug ∧ pool.stateBytes ≠ layers * bytesPerLayer then
        (.error (.panic (.stateBytesMismatch pool.stateBytes layers bytesPerLayer)), pool)
      else if layers = 0 then (.error (.panic .divideByZero), pool)
      else
        match copyLayers (pool.stateBytes / layers / 4) dstPtr copies 0 recurrentStates
            pool.vramPool with
        | (.error e, vramPool) => (.error (.hip e), { pool with vramPool })
        | (.ok (), vramPool) => (.ok slot, { pool with vramPool })

/-! ### The calls -/

/-- The fields of `Model` that hold the checkpoint. -/
structure Model where
  checkpointPool : Option RecurrentCheckpointPool
  lastCheckpointSlot : Option ℕ

/-- A call: the outcome of the allocations of the pool and what they find in VRAM, the bytes of the
states, and the outcomes of the copies. -/
structure Call where
  create : HipStatus
  vram : ℕ → UInt8
  states : ℕ → ℕ → UInt8
  copies : ℕ → CopyOutcome

namespace Model

/-- Before the first call. -/
def initial : Model := ⟨none, none⟩

/-- The slot of the last checkpoint and its bytes. -/
def checkpoint (m : Model) : Option (ℕ × List UInt8) :=
  match m.lastCheckpointSlot, m.checkpointPool with
  | some slot, some pool =>
      some (slot, (List.range pool.stateBytes).map fun i =>
        pool.vramPool (slot * pool.stateBytes + i))
  | _, _ => none

/-- The free slots and the slot of the last checkpoint are the whole pool, each slot once. -/
def Whole (m : Model) : Prop :=
  match m.checkpointPool with
  | none => m.lastCheckpointSlot = none
  | some pool => pool.slots.Holds m.lastCheckpointSlot.toList

end Model

section Calls

variable (debug : Bool) (cfg : ModelConfig)

/-- `gdn_states`, with the bytes of a call. -/
def gdnStates (c : Call) : List DeviceBuffer :=
  (List.range cfg.numGdnStates).map fun i => ⟨cfg.floatsPerLayer, c.states i⟩

/-- The pool is there, or is made with one slot. -/
def ensurePool (m : Model) (c : Call) : Except Fault RecurrentCheckpointPool :=
  match m.checkpointPool, c.create with
  | some pool, _ => .ok pool
  | none, .ok () => .ok (.new cfg 1 c.vram)
  | none, .error e => .error (.hip e)

/-- `save_recurrent_checkpoint` -/
def saveRecurrentCheckpoint (m : Model) (c : Call) : Except Fault ℕ × Model :=
  match ensurePool cfg m c with
  | .error e => (.error e, m)
  | .ok pool =>
      -- the previous slot is given back before the new one is taken
      match m.lastCheckpointSlot.elim (.ok pool) (pool.free debug) with
      | .error p => (.error (.panic p), ⟨some pool, none⟩)
      | .ok pool =>
          match saveCheckpoint debug pool (gdnStates cfg c) c.copies with
          | (.error e, pool) => (.error e, ⟨some pool, none⟩)
          | (.ok slot, pool) => (.ok slot, ⟨some pool, some slot⟩)

/-- The model after a call. -/
def next (m : Model) (c : Call) : Model := (saveRecurrentCheckpoint debug cfg m c).2

/-- What a call should leave. -/
structure Kept (m : Model) (c : Call) : Prop where
  /-- It does not panic. -/
  noPanic : ∀ p, (saveRecurrentCheckpoint debug cfg m c).1 ≠ .error (.panic p)
  /-- No slot is lost or held twice. -/
  whole : (next debug cfg m c).Whole
  /-- If it returns an error, the previous checkpoint is in place, and a call can succeed. -/
  onError : ∀ e, (saveRecurrentCheckpoint debug cfg m c).1 = .error e →
    (next debug cfg m c).checkpoint = m.checkpoint ∧
      ∃ c' slot, (saveRecurrentCheckpoint debug cfg (next debug cfg m c) c').1 = .ok slot

/-- Every call of a run from `m` leaves what it should. -/
def SurvivesFrom (m : Model) (calls : List Call) : Prop :=
  ∀ done c rest, calls = done ++ c :: rest → Kept debug cfg (done.foldl (next debug cfg) m) c

/-- Every call of a run leaves what it should. -/
def Survives (calls : List Call) : Prop := SurvivesFrom debug cfg .initial calls

/-- The sizes that no call panics for: there is a GDN layer, and the recurrent layers have the size
of the GDN layers where that is asserted. -/
def Sized : Prop :=
  0 < cfg.numGdnStates ∧
    (debug → cfg.numRecurrentLayers * cfg.floatsPerLayer = cfg.numGdnStates * cfg.floatsPerLayer)

/-- Every copy of the call succeeds. -/
def CopiesSucceed (c : Call) : Prop := ∀ i < cfg.numGdnStates, c.copies i = .ok

/-- The calls from the first one on that makes the pool. -/
def started (calls : List Call) : List Call :=
  calls.dropWhile fun c => match c.create with
    | .ok () => false
    | .error _ => true

end Calls

variable {debug : Bool} {cfg : ModelConfig} {m : Model} {c : Call} {calls cs : List Call}

/-! ### The copies -/

section Copies

variable {floatsPerLayer dstPtr i : ℕ} {copies : ℕ → CopyOutcome} {states : List DeviceBuffer}
  {vram : ℕ → UInt8}

lemma copyLayers_of_ok (h : ∀ k < states.length, copies (i + k) = .ok) :
    (copyLayers floatsPerLayer dstPtr copies i states vram).1 = .ok () := by
  induction states generalizing i vram with
  | nil => rfl
  | cons state rest ih =>
      have hfirst : copies i = .ok := h 0 (Nat.succ_pos _)
      simp only [copyLayers, hfirst]
      refine ih fun k hk => ?_
      rw [Nat.add_right_comm]
      exact h (k + 1) (Nat.succ_lt_succ hk)

lemma copyLayers_of_failed (h : ∃ k < states.length, copies (i + k) ≠ .ok) :
    ∃ e, (copyLayers floatsPerLayer dstPtr copies i states vram).1 = .error e := by
  induction states generalizing i vram with
  | nil =>
      obtain ⟨k, hk, -⟩ := h
      cases hk
  | cons state rest ih =>
      cases hfirst : copies i with
      | failed e junk => exact ⟨e, by simp only [copyLayers, hfirst]⟩
      | ok =>
          simp only [copyLayers, hfirst]
          obtain ⟨k, hk, hne⟩ := h
          cases k with
          | zero => exact absurd hfirst hne
          | succ k =>
              refine ih ⟨k, Nat.lt_of_succ_lt_succ hk, ?_⟩
              rw [Nat.add_right_comm]
              exact hne

/-- What lies below the destination of layer `i` stays. -/
lemma copyLayers_below {a : ℕ} (ha : a < dstPtr + i * floatsPerLayer * 4) :
    (copyLayers floatsPerLayer dstPtr copies i states vram).2 a = vram a := by
  induction states generalizing i vram with
  | nil => rfl
  | cons state rest ih =>
      have hout : ∀ n, ¬ (dstPtr + i * floatsPerLayer * 4 ≤ a ∧
          a < dstPtr + i * floatsPerLayer * 4 + n) := fun n h => absurd h.1 (by omega)
      cases hfirst : copies i with
      | failed e junk =>
          simp only [copyLayers, hfirst]
          exact copyRange_of_notMem (hout _)
      | ok =>
          simp only [copyLayers, hfirst]
          refine (ih ?_).trans (copyRange_of_notMem (hout _))
          rw [Nat.add_mul, Nat.add_mul]
          omega

/-- **A layer's bytes** are at its offset in the slot. -/
lemma copyLayers_apply (h : ∀ k < states.length, copies (i + k) = .ok) {k : ℕ}
    (hk : k < states.length) {j : ℕ} (hj : j < floatsPerLayer * 4) :
    (copyLayers floatsPerLayer dstPtr copies i states vram).2
      (dstPtr + (i + k) * floatsPerLayer * 4 + j) = states[k].bytes j := by
  induction states generalizing i k vram with
  | nil => cases hk
  | cons state rest ih =>
      have hfirst : copies i = .ok := h 0 (Nat.succ_pos _)
      have hrest : ∀ k < rest.length, copies (i + 1 + k) = .ok := fun k hk => by
        rw [Nat.add_right_comm]
        exact h (k + 1) (Nat.succ_lt_succ hk)
      simp only [copyLayers, hfirst]
      cases k with
      | zero =>
          have hnext : (i + 1) * floatsPerLayer * 4 =
              i * floatsPerLayer * 4 + floatsPerLayer * 4 := by
            rw [Nat.add_mul, Nat.add_mul, Nat.one_mul]
          rw [Nat.add_zero i, copyLayers_below (by omega), copyRange_add hj, Nat.zero_add]
          rfl
      | succ k =>
          rw [← Nat.add_assoc, Nat.add_right_comm i k 1]
          exact ih hrest (Nat.lt_of_succ_lt_succ hk)

end Copies

/-! ### One call -/

/-- The state after a call that succeeded: the slot is held, and the pool is as it was made. -/
def Saved (cfg : ModelConfig) (m : Model) : Prop :=
  ∃ pool, m.checkpointPool = some pool ∧ pool.slots = ⟨1, []⟩ ∧
    pool.stateBytes = cfg.recurrentStateBytes ∧ m.lastCheckpointSlot = some 0

/-- A call that has a slot. -/
def Ready (cfg : ModelConfig) (m : Model) (c : Call) : Prop :=
  Saved cfg m ∨ m = .initial ∧ c.create = .ok ()

lemma length_gdnStates : (gdnStates cfg c).length = cfg.numGdnStates := by simp [gdnStates]

/-- The bytes that the assertion of `save_checkpoint` asks for. -/
lemma bytesPerLayer_eq (h : 0 < cfg.numGdnStates) :
    (gdnStates cfg c).head?.elim 0 DeviceBuffer.sizeBytes = cfg.floatsPerLayer * 4 := by
  obtain ⟨n, hn⟩ := Nat.exists_eq_succ_of_ne_zero (Nat.pos_iff_ne_zero.mp h)
  rw [gdnStates, hn, List.range_succ_eq_map]
  rfl

lemma stateBytes_eq_iff (h : 0 < cfg.numGdnStates) :
    cfg.recurrentStateBytes = (gdnStates cfg c).length *
        (gdnStates cfg c).head?.elim 0 DeviceBuffer.sizeBytes ↔
      cfg.numRecurrentLayers * cfg.floatsPerLayer = cfg.numGdnStates * cfg.floatsPerLayer := by
  rw [bytesPerLayer_eq h, length_gdnStates, ← Nat.mul_assoc]
  exact Nat.mul_left_inj (by decide)

/-- Both the first pool and one whose slot is given back have the slot. -/
lemma ready_pool (debug : Bool) (hr : Ready cfg m c) :
    ∃ pool pool', ensurePool cfg m c = .ok pool ∧
      m.lastCheckpointSlot.elim (.ok pool) (pool.free debug) = .ok pool' ∧
      pool'.slots = ⟨1, [0]⟩ ∧ pool'.stateBytes = cfg.recurrentStateBytes := by
  rcases hr with ⟨pool, hpool, hslots, hbytes, hlast⟩ | ⟨rfl, hcreate⟩
  · refine ⟨pool, { pool with slots := ⟨1, [0]⟩ }, by rw [ensurePool, hpool], ?_, rfl, hbytes⟩
    simp [hlast, RecurrentCheckpointPool.free, hslots]
  · exact ⟨_, _, by rw [ensurePool, hcreate]; rfl, rfl, rfl, rfl⟩

/-- The call is what `save_checkpoint` is on a pool with its slot. -/
lemma save_eq (debug : Bool) (hr : Ready cfg m c) :
    ∃ pool : RecurrentCheckpointPool, pool.slots = ⟨1, [0]⟩ ∧
      pool.stateBytes = cfg.recurrentStateBytes ∧
      saveRecurrentCheckpoint debug cfg m c =
        match saveCheckpoint debug pool (gdnStates cfg c) c.copies with
        | (.error e, pool) => (.error e, ⟨some pool, none⟩)
        | (.ok slot, pool) => (.ok slot, ⟨some pool, some slot⟩) := by
  obtain ⟨pool, pool', hensure, hfree, hslots, hbytes⟩ := ready_pool debug hr
  exact ⟨pool', hslots, hbytes, by simp only [saveRecurrentCheckpoint, hensure, hfree]⟩

/-- `save_checkpoint` where it panics for no size. -/
lemma saveCheckpoint_of_sized (hs : Sized debug cfg) {pool : RecurrentCheckpointPool}
    (hslots : pool.slots = ⟨1, [0]⟩) (hbytes : pool.stateBytes = cfg.recurrentStateBytes) :
    saveCheckpoint debug pool (gdnStates cfg c) c.copies =
      match copyLayers (cfg.recurrentStateBytes / cfg.numGdnStates / 4) 0 c.copies 0
          (gdnStates cfg c) pool.vramPool with
      | (.error e, vram) => (.error (.hip e), ⟨⟨1, []⟩, cfg.recurrentStateBytes, vram⟩)
      | (.ok (), vram) => (.ok 0, ⟨⟨1, []⟩, cfg.recurrentStateBytes, vram⟩) := by
  obtain ⟨hpos, hassert⟩ := hs
  have halloc : pool.alloc = some (0, 0, ⟨⟨1, []⟩, cfg.recurrentStateBytes, pool.vramPool⟩) := by
    simp [RecurrentCheckpointPool.alloc, hslots, FreePool.take?, hbytes]
  have hmatch : ¬ (debug ∧ cfg.recurrentStateBytes ≠ cfg.numGdnStates *
      (gdnStates cfg c).head?.elim 0 DeviceBuffer.sizeBytes) := fun h =>
    h.2 (((stateBytes_eq_iff hpos).mpr (hassert h.1)).trans (by rw [length_gdnStates]))
  simp only [saveCheckpoint, halloc, length_gdnStates, if_neg hmatch,
    if_neg (Nat.pos_iff_ne_zero.mp hpos)]

/-- The copies of a call that succeed. -/
lemma copyLayers_of_succeed (hok : CopiesSucceed cfg c) {floatsPerLayer : ℕ} {vram : ℕ → UInt8} :
    (copyLayers floatsPerLayer 0 c.copies 0 (gdnStates cfg c) vram).1 = .ok () :=
  copyLayers_of_ok fun k hk => by
    rw [Nat.zero_add]
    exact hok k (length_gdnStates ▸ hk)

/-- A call with copies that succeed holds the slot; one with a copy that fails loses it. -/
lemma save_of_ready (hs : Sized debug cfg) (hr : Ready cfg m c) :
    (CopiesSucceed cfg c →
      (saveRecurrentCheckpoint debug cfg m c).1 = .ok 0 ∧ Saved cfg (next debug cfg m c)) ∧
    (¬ CopiesSucceed cfg c → ¬ (next debug cfg m c).Whole) := by
  obtain ⟨pool, hslots, hbytes, heq⟩ := save_eq debug hr
  rw [saveCheckpoint_of_sized hs hslots hbytes] at heq
  rw [next, heq]
  constructor
  · intro hok
    have hcopy : (copyLayers (cfg.recurrentStateBytes / cfg.numGdnStates / 4) 0 c.copies 0
        (gdnStates cfg c) pool.vramPool).1 = .ok () := copyLayers_of_succeed hok
    revert hcopy
    rcases copyLayers _ _ _ _ _ _ with ⟨r, vram⟩
    rintro rfl
    exact ⟨rfl, _, rfl, rfl, rfl, rfl⟩
  · intro hfail
    simp only [CopiesSucceed, not_forall] at hfail
    obtain ⟨k, hk, hne⟩ := hfail
    have hcopy : ∃ e, (copyLayers (cfg.recurrentStateBytes / cfg.numGdnStates / 4) 0 c.copies 0
        (gdnStates cfg c) pool.vramPool).1 = .error e :=
      copyLayers_of_failed ⟨k, length_gdnStates.symm ▸ hk, by rwa [Nat.zero_add]⟩
    revert hcopy
    rcases copyLayers _ _ _ _ _ _ with ⟨r, vram⟩
    rintro ⟨e, rfl⟩ hwhole
    -- the slot is neither free nor held
    exact absurd (List.Perm.length_eq hwhole) (by simp)

/-- A call that has a slot panics where the sizes are wrong. -/
lemma save_panics (hs : ¬ Sized debug cfg) (hr : Ready cfg m c) :
    ∃ p, (saveRecurrentCheckpoint debug cfg m c).1 = .error (.panic p) := by
  obtain ⟨pool, hslots, hbytes, heq⟩ := save_eq debug hr
  have halloc : pool.alloc = some (0, 0 * pool.stateBytes, { pool with slots := ⟨1, []⟩ }) := by
    simp [RecurrentCheckpointPool.alloc, hslots, FreePool.take?]
  simp only [heq, saveCheckpoint, halloc]
  by_cases hmatch : debug ∧ pool.stateBytes ≠ (gdnStates cfg c).length *
      (gdnStates cfg c).head?.elim 0 DeviceBuffer.sizeBytes
  · simp only [if_pos hmatch]
    exact ⟨_, rfl⟩
  · simp only [if_neg hmatch]
    by_cases hlen : (gdnStates cfg c).length = 0
    · simp only [if_pos hlen]
      exact ⟨_, rfl⟩
    · rw [length_gdnStates] at hlen
      refine absurd ⟨Nat.pos_of_ne_zero hlen, fun hdebug => ?_⟩ hs
      refine (stateBytes_eq_iff (c := c) (Nat.pos_of_ne_zero hlen)).mp ?_
      by_contra hne
      exact hmatch ⟨hdebug, fun h => hne (hbytes.symm.trans h)⟩

/-- **A call with copies that succeed saves the states**, each layer after the other. -/
theorem save_contents (hs : Sized debug cfg) (hr : Ready cfg m c) (hok : CopiesSucceed cfg c)
    (hgdn : cfg.numRecurrentLayers = cfg.numGdnStates) :
    ∃ pool, (next debug cfg m c).checkpointPool = some pool ∧
      ∀ k < cfg.numGdnStates, ∀ j < cfg.floatsPerLayer * 4,
        pool.vramPool (k * cfg.floatsPerLayer * 4 + j) = c.states k j := by
  obtain ⟨pool, hslots, hbytes, heq⟩ := save_eq debug hr
  have hfloats : cfg.recurrentStateBytes / cfg.numGdnStates / 4 = cfg.floatsPerLayer := by
    rw [ModelConfig.recurrentStateBytes, hgdn, Nat.mul_assoc, Nat.mul_div_cancel_left _ hs.1,
      Nat.mul_div_cancel _ (by decide)]
  rw [saveCheckpoint_of_sized hs hslots hbytes, hfloats] at heq
  have hcopy : (copyLayers cfg.floatsPerLayer 0 c.copies 0 (gdnStates cfg c)
      pool.vramPool).1 = .ok () := copyLayers_of_succeed hok
  have hstored : ∀ k < cfg.numGdnStates, ∀ j < cfg.floatsPerLayer * 4,
      (copyLayers cfg.floatsPerLayer 0 c.copies 0 (gdnStates cfg c) pool.vramPool).2
        (0 + (0 + k) * cfg.floatsPerLayer * 4 + j) = c.states k j := fun k hk j hj => by
    have hk' : k < (gdnStates cfg c).length := length_gdnStates.symm ▸ hk
    rw [copyLayers_apply (fun k hk => by
      rw [Nat.zero_add]
      exact hok k (length_gdnStates ▸ hk)) hk' hj]
    simp [gdnStates]
  rw [next, heq]
  revert hcopy hstored
  rcases copyLayers _ _ _ _ _ _ with ⟨r, vram⟩
  rintro rfl hstored
  refine ⟨_, rfl, fun k hk j hj => ?_⟩
  have hbyte := hstored k hk j hj
  rwa [Nat.zero_add, Nat.zero_add] at hbyte

/-! ### Runs -/

lemma survivesFrom_nil : SurvivesFrom debug cfg m [] := by
  intro done c rest h
  exact absurd h.symm (by simp)

lemma survivesFrom_cons :
    SurvivesFrom debug cfg m (c :: cs) ↔
      Kept debug cfg m c ∧ SurvivesFrom debug cfg (next debug cfg m c) cs := by
  constructor
  · intro h
    refine ⟨h [] c cs rfl, fun done c' rest heq => ?_⟩
    exact h (c :: done) c' rest (by rw [heq]; rfl)
  · rintro ⟨hfirst, hrest⟩ done c' rest heq
    cases done with
    | nil =>
        obtain ⟨rfl, -⟩ := List.cons.inj heq
        exact hfirst
    | cons d done =>
        obtain ⟨rfl, htail⟩ := List.cons.inj heq
        exact hrest done c' rest htail

lemma Saved.whole (h : Saved cfg m) : m.Whole := by
  obtain ⟨pool, hpool, hslots, -, hlast⟩ := h
  simp [Model.Whole, hpool, hslots, hlast, FreePool.Holds]

/-- A call that succeeds leaves what it should. -/
lemma kept_of_ready (hs : Sized debug cfg) (hr : Ready cfg m c) :
    Kept debug cfg m c ↔ CopiesSucceed cfg c := by
  obtain ⟨hok, hfail⟩ := save_of_ready hs hr
  constructor
  · intro hk
    by_contra hne
    exact hfail hne hk.whole
  · intro h
    obtain ⟨hres, hsaved⟩ := hok h
    refine ⟨fun p hp => ?_, hsaved.whole, fun e he => ?_⟩
    · rw [hres] at hp
      cases hp
    · rw [hres] at he
      cases he

/-- From a state with its slot held, a run survives if no copy fails. -/
lemma survivesFrom_saved (hs : Sized debug cfg) (hm : Saved cfg m) :
    SurvivesFrom debug cfg m calls ↔ ∀ c ∈ calls, CopiesSucceed cfg c := by
  induction calls generalizing m with
  | nil => exact ⟨fun _ c hc => absurd hc List.not_mem_nil, fun _ => survivesFrom_nil⟩
  | cons c cs ih =>
      rw [survivesFrom_cons, kept_of_ready hs (.inl hm), List.forall_mem_cons]
      refine and_congr_right fun hok => ih ?_
      exact ((save_of_ready hs (.inl hm)).1 hok).2

/-- A call that cannot make the pool changes nothing. -/
lemma save_of_error {e : ℕ} (hcreate : c.create = .error e) :
    saveRecurrentCheckpoint debug cfg .initial c = (.error (.hip e), .initial) := by
  simp [saveRecurrentCheckpoint, ensurePool, Model.initial, hcreate]

/-- Before there is a pool, a call that cannot make it leaves what it should. -/
lemma kept_of_error (hs : Sized debug cfg) {e : ℕ} (hcreate : c.create = .error e) :
    Kept debug cfg .initial c := by
  have hsave : saveRecurrentCheckpoint debug cfg .initial c = (.error (.hip e), .initial) :=
    save_of_error hcreate
  refine ⟨fun p hp => ?_, ?_, fun e' _ => ⟨?_, ?_⟩⟩
  · rw [hsave] at hp
    cases hp
  · rw [next, hsave]
    rfl
  · rw [next, hsave]
  · rw [next, hsave]
    let again : Call := { c with create := .ok (), copies := fun _ => .ok }
    have hr : Ready cfg .initial again := .inr ⟨rfl, rfl⟩
    exact ⟨again, 0, ((save_of_ready hs hr).1 fun _ _ => rfl).1⟩

lemma next_of_error {e : ℕ} (hcreate : c.create = .error e) :
    next debug cfg .initial c = .initial := by
  rw [next, save_of_error hcreate]

lemma started_of_error {e : ℕ} (hcreate : c.create = .error e) :
    started (c :: cs) = started cs := by
  simp only [started, List.dropWhile_cons, hcreate, if_true]

lemma started_of_ok {u : Unit} (hcreate : c.create = .ok u) : started (c :: cs) = c :: cs := by
  simp [started, hcreate]

/-- From the beginning, a run survives if no copy fails from the call on that makes the pool. -/
lemma survives_of_sized (hs : Sized debug cfg) :
    Survives debug cfg calls ↔ ∀ c ∈ started calls, CopiesSucceed cfg c := by
  rw [Survives]
  induction calls with
  | nil => exact ⟨fun _ c hc => absurd hc List.not_mem_nil, fun _ => survivesFrom_nil⟩
  | cons c cs ih =>
      rw [survivesFrom_cons]
      cases hcreate : c.create with
      | error e =>
          rw [next_of_error hcreate, ih, started_of_error hcreate]
          exact and_iff_right (kept_of_error hs hcreate)
      | ok u =>
          have hr : Ready cfg .initial c := .inr ⟨rfl, hcreate⟩
          rw [started_of_ok hcreate, kept_of_ready hs hr, List.forall_mem_cons]
          refine and_congr_right fun hok => survivesFrom_saved hs ?_
          exact ((save_of_ready hs hr).1 hok).2

/-- Where the sizes are wrong, no run with a call survives. -/
lemma sized_of_survives (h : Survives debug cfg (c :: cs)) : Sized debug cfg := by
  have hkept : Kept debug cfg .initial c := (survivesFrom_cons.mp h).1
  by_contra hs
  cases hcreate : c.create with
  | ok u =>
      obtain ⟨p, hp⟩ := save_panics hs (.inr ⟨rfl, hcreate⟩ : Ready cfg .initial c)
      exact hkept.noPanic p hp
  | error e =>
      have hsave : saveRecurrentCheckpoint debug cfg .initial c = (.error (.hip e), .initial) :=
        save_of_error hcreate
      obtain ⟨-, c', slot, hok⟩ := hkept.onError (.hip e) (by rw [hsave])
      rw [next_of_error hcreate] at hok
      -- the call that succeeds made the pool, and would have panicked
      cases hcreate' : c'.create with
      | ok u =>
          obtain ⟨p, hp⟩ := save_panics hs (.inr ⟨rfl, hcreate'⟩ : Ready cfg .initial c')
          rw [hp] at hok
          cases hok
      | error e' =>
          rw [save_of_error hcreate'] at hok
          cases hok

/-- **When the checkpoint pool survives.**  Every call of a run leaves what it should if and only
if there is no call, or the sizes are right and no copy fails from the call on that makes the
pool. -/
theorem survives_iff (debug : Bool) (cfg : ModelConfig) (calls : List Call) :
    Survives debug cfg calls ↔
      (calls ≠ [] → Sized debug cfg ∧ ∀ c ∈ started calls, CopiesSucceed cfg c) := by
  cases calls with
  | nil => exact ⟨fun _ h => absurd rfl h, fun _ => survivesFrom_nil⟩
  | cons c cs =>
      constructor
      · intro h _
        have hs := sized_of_survives h
        exact ⟨hs, (survives_of_sized hs).mp h⟩
      · intro h
        obtain ⟨hs, hok⟩ := h (List.cons_ne_nil _ _)
        exact (survives_of_sized hs).mpr hok

/-- A model with one GDN layer whose second checkpoint fails to be copied: the only slot is lost,
and with it the first checkpoint. -/
theorem not_survives_failedCopy :
    ¬ ∀ (debug : Bool) (cfg : ModelConfig) (calls : List Call), Survives debug cfg calls := by
  intro hall
  have hkept := hall false ⟨1, [⟨.gdn, .dense⟩], 1, 1, 1⟩
    [⟨.ok (), fun _ => 0, fun _ _ => 1, fun _ => .ok⟩,
      ⟨.ok (), fun _ => 0, fun _ _ => 2, fun _ => .failed 1 fun _ => 3⟩]
    [⟨.ok (), fun _ => 0, fun _ _ => 1, fun _ => .ok⟩]
    ⟨.ok (), fun _ => 0, fun _ _ => 2, fun _ => .failed 1 fun _ => 3⟩ [] rfl
  exact absurd (List.Perm.length_eq hkept.whole) (by decide)

end Braidinfer.PagedKv.Checkpoint
