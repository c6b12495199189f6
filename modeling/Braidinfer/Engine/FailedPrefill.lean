/-
A prefill that fails, on one GPU (`prefill_paged`, `prefill_batched` and
`prefill_mixed_chunk_paged` in `model/state.rs`), with the prefill buffers and the dispatcher, which
`Model` leaves out.

The drivers take the buffers, the sequence and its allocator out of the model, and put them back
behind the compilation of a slab.  A model with experts has its dispatcher from the load on, its
worker comes later: once the program is there as well, the worker is taken to be there.

* `Buffered`, `Buffered.prefill`: the engine with both (`Step.model`: otherwise the engine of
  `Model`);
* `LeftAsItWas`: what a failed call should leave;
* `FailsClean`: the failures before the first token is appended that leave a worker or none to
  wait for;
* `prefill_failure_iff`: **exactly these leave the engine as it was**.
-/
import Braidinfer.Engine.HostTier
import Braidinfer.Megakernel.PositionTables

namespace Braidinfer.Engine

open Braidinfer.Lib Braidinfer.PagedKv Braidinfer.Megakernel

/-- The engine, whether its `prefill_bufs` are there, and whether it has a dispatcher
(`persistent_workers`).  `model.persistentWorkers` says that the worker of its GPU runs. -/
structure Buffered where
  model : Model
  prefillBufs : Bool
  dispatcher : Bool

/-- What `Env` leaves open about the buffers. -/
structure BufEnv where
  /-- A failure in `prefillAlloc` comes after the buffers were allocated. -/
  allocated : Bool
  /-- A failed dispatch of a slab is one of the host's MoE FFN, which holds the buffers. -/
  held : ℕ → Bool
  /-- The buffers are freed before the logits are read, as they are when there are workers. -/
  freed : Bool

namespace Buffered

open Model

variable (cfg : EngineConfig) (env : Env) (b : BufEnv)

/-- The engine as loaded: with experts it has its dispatcher, and no worker. -/
def load : Buffered := ⟨.init, false, cfg.hasMoe⟩

/-- `ensure_persistent_worker_spawned`. -/
def ensurePersistentWorkerSpawned (e : Buffered) : Except ModelFault Unit × Buffered :=
  if e.model.megakernelPaged.isSome ∧ e.dispatcher then (.ok (), e)
  else
    match ensureProgram cfg env e.model with
    | (.error f, model) => (.error f, { e with model })
    | (.ok (), model) =>
        match ensurePagedDecodeState cfg env cfg.kvQuant model with
        | (.error f, model) => (.error f, { e with model })
        | (.ok (), model) =>
            -- `init` launches the worker, and `add_device` does if there is none
            if e.dispatcher ∧ model.persistentWorkers then (.ok (), { e with model })
            else
              match env.dispatchInit with
              | .error c => (.error (.hip c), { e with model })
              | .ok () => (.ok (), { e with
                  model := { model with persistentWorkers := true }
                  dispatcher := true })

/-! ### Prefill -/

/-- The buffers behind a slab of `prefill_paged`. -/
def denseBufs (startPos k n : ℕ) (m : Model) : Bool :=
  match m.pagedSeq, m.pageAllocator with
  | some seq, some allocator =>
      match env.slab k with
      | .early _ => false
      | status =>
          match compilePrefillPagedPersistent m.heap seq allocator m.prefillTables startPos n with
          | .error _ => false
          | .ok _ =>
              match status with
              | .compile _ => false
              | _ => true
  | _, _ => false

/-- The buffers behind a slab of `prefill_mixed_chunk_paged`. -/
def mixedBufs (startPos k n : ℕ) (m : Model) : Bool :=
  match ensurePagedDecodeState cfg env false m with
  | (.error _, _) => true
  | (.ok (), m) =>
      match env.slab k with
      | .early _ => true
      | status =>
          match m.pagedSeq, m.pageAllocator with
          | some seq, some allocator =>
              match appendTokens ⟨m.heap, allocator, m.hostPageAllocator⟩ seq
                  (slabPositions startPos n) with
              | .error _ => true
              | .ok _ =>
                  match status with
                  | .compile _ => false
                  | .dispatch _ => !b.held k
                  | _ => true
          | _, _ => true

/-- Whether a slab comes to the dispatch of its embeddings: `prefill_paged` starts with it,
`prefill_mixed_chunk_paged` appends its tokens before. -/
def embeds (startPos k n : ℕ) (m : Model) : Bool :=
  !cfg.hasMoe ||
    match ensurePagedDecodeState cfg env false m with
    | (.error _, _) => false
    | (.ok (), m) =>
        match env.slab k with
        | .early _ => false
        | _ =>
            match m.pagedSeq, m.pageAllocator with
            | some seq, some allocator =>
                (appendTokens ⟨m.heap, allocator, m.hostPageAllocator⟩ seq
                  (slabPositions startPos n)).isOk
            | _, _ => false

/-- One slab of either prefill.  A dispatch to a worker that is not there panics. -/
def prefillSlab (startPos k n : ℕ) (e : Buffered) : Except ModelFault Unit × Buffered :=
  if embeds cfg env startPos k n e.model ∧ e.model.persistentWorkers = false then
    (.error .unwrapNone, e)
  else
    let r := Model.prefillSlab cfg env startPos k n e.model
    (r.1, { e with
      model := r.2
      prefillBufs := if cfg.hasMoe then mixedBufs cfg env b startPos k n e.model
        else denseBufs env startPos k n e.model })

/-- The slab loop. -/
def prefillSlabs (startPos total : ℕ) : List ℕ → Buffered → Except ModelFault Unit × Buffered
  | [], e => (.ok (), e)
  | k :: ks, e =>
      let offset := k * chunkTokens
      match prefillSlab cfg env b (startPos + offset) k (min chunkTokens (total - offset)) e with
      | (.error f, e) => (.error f, e)
      | (.ok (), e) => prefillSlabs startPos total ks e

/-- `prefill_paged` and `prefill_batched` from the slab loop on. -/
def prefillLoop (startPos total : ℕ) (e : Buffered) : Except ModelFault Unit × Buffered :=
  match prefillSlabs cfg env b startPos total (List.range (divCeil total chunkTokens))
      { e with prefillBufs := true } with
  | (.error f, e) => (.error f, e)
  | (.ok (), e) =>
      let e := { e with
        model := { e.model with seqLen := e.model.seqLen + total }
        prefillBufs := e.prefillBufs && !b.freed }
      match env.logits with
      | .error c => (.error (.hip c), e)
      | .ok () => (.ok (), e)

/-- `prefill_paged` and `prefill_batched`, after the worker was spawned. -/
def prefillBody (total : ℕ) (e : Buffered) : Except ModelFault Unit × Buffered :=
  let startPos := e.model.seqLen
  match (if cfg.hasMoe then (.ok (), e.model)
    else ensurePagedDecodeState cfg env false e.model) with
  | (.error f, model) => (.error f, { e with model })
  | (.ok (), model) =>
      match env.prefillAlloc with
      | .error c => (.error (.hip c), { e with model, prefillBufs := e.prefillBufs || b.allocated })
      | .ok () => prefillLoop cfg env b startPos total { e with model }

/-- `prefill` of a prompt of `total` tokens. -/
def prefill (total : ℕ) (e : Buffered) : Except ModelFault Unit × Buffered :=
  if total = 0 then (.error (.missingWeight "empty token sequence"), e)
  else
    match ensurePersistentWorkerSpawned cfg env e with
    | (.error f, e) => (.error f, e)
    | (.ok (), e) => prefillBody cfg env b total e

/-! ### The other calls -/

/-- `decode_step_persistent`.  Without a worker it comes to the dispatch, behind the append. -/
def decodeStep (tokenId position : ℕ) (e : Buffered) : Except ModelFault Unit × Buffered :=
  match ensurePersistentWorkerSpawned cfg env e with
  | (.error f, e) => (.error f, e)
  | (.ok (), e) =>
      if e.model.persistentWorkers then
        let r := Model.decodeStep cfg env tokenId position e.model
        (r.1, { e with model := r.2 })
      else
        match e.model.pagedSeq, e.model.pageAllocator with
        | some seq, some allocator =>
            match seq.appendToken ⟨e.model.heap, allocator, e.model.hostPageAllocator⟩
                (toI32 position) with
            | .error f => (.error (.ofFault f), e)
            | .ok _ => (.error .unwrapNone, e)
        | _, _ => (.error .unwrapNone, e)

/-- `reset_state`: the dispatcher goes, with its worker. -/
def resetState (e : Buffered) : Except ModelFault Unit × Buffered :=
  let r := Model.resetState env e.model
  (r.1, { e with model := r.2, dispatcher := false })

/-- The calls of a run. -/
inductive Call
  | prefill (env : Env) (b : BufEnv) (total : ℕ)
  | decode (env : Env) (tokenId position : ℕ)
  | reset (env : Env)

/-- The call, without what it finds out about the buffers. -/
def Call.model : Call → Model.Call
  | .prefill env _ total => .prefill env total
  | .decode env tokenId position => .decode env tokenId position
  | .reset env => .reset env

/-- What a call returns and the state it leaves. -/
def call (e : Buffered) : Call → Except ModelFault Unit × Buffered
  | .prefill env b total => prefill cfg env b total e
  | .decode env tokenId position => decodeStep cfg env tokenId position e
  | .reset env => resetState env e

/-- One step of a run: a call that does not panic. -/
def Step (e : Buffered) (c : Call) (e' : Buffered) : Prop :=
  ∃ r, e.call cfg c = (r, e') ∧ ∀ f, r = .error f → ¬ f.IsPanic

/-- A call that succeeds is a step. -/
lemma Step.of_isOk {e : Buffered} {c : Call} (h : (e.call cfg c).1.isOk = true) :
    Step cfg e c (e.call cfg c).2 := by
  refine ⟨(e.call cfg c).1, rfl, fun f hf => ?_⟩
  rw [hf] at h
  cases h

/-! ### The engine without buffers and dispatcher -/

variable {cfg env b}
variable {e e' : Buffered} {r : Except ModelFault Unit} {startPos k n total : ℕ}

variable {m m' m'' : Model}

/-- What a slab leaves of the model. -/
structure Frame (m m' : Model) : Prop where
  workers : m'.persistentWorkers = m.persistentWorkers
  program : m'.megakernelPaged = m.megakernelPaged
  seqLen : m'.seqLen = m.seqLen

namespace Frame

lemma refl : Frame m m := ⟨rfl, rfl, rfl⟩

lemma trans (h : Frame m m') (h' : Frame m' m'') : Frame m m'' :=
  ⟨h'.workers.trans h.workers, h'.program.trans h.program, h'.seqLen.trans h.seqLen⟩

end Frame

lemma ensurePagedDecodeState_frame {quantized : Bool}
    (h : ensurePagedDecodeState cfg env quantized m = (r, m')) : Frame m m' := by
  have hpool : ∀ {r m'}, ensurePool cfg env m = (r, m') → Frame m m' := by
    intro r m' h
    rw [ensurePool] at h
    repeat' split at h
    all_goals
      obtain ⟨-, rfl⟩ := Prod.ext_iff.mp h
      exact ⟨rfl, rfl, rfl⟩
  have hquant : ∀ {r m m'}, ensureQuant cfg env quantized m = (r, m') → Frame m m' := by
    intro r m m' h
    unfold ensureQuant at h
    split at h
    · split at h <;> obtain ⟨-, rfl⟩ := Prod.ext_iff.mp h <;> exact ⟨rfl, rfl, rfl⟩
    · obtain ⟨-, rfl⟩ := Prod.ext_iff.mp h
      exact .refl
  have hhost : ∀ m, Frame m (ensureHost cfg env m) := by
    intro m
    rw [ensureHost]
    split <;> exact ⟨rfl, rfl, rfl⟩
  rw [ensurePagedDecodeState] at h
  rcases hp : ensurePool cfg env m with ⟨f | u, m₁⟩ <;> simp only [hp] at h
  · obtain ⟨-, rfl⟩ := Prod.ext_iff.mp h
    exact hpool hp
  rcases hq : ensureQuant cfg env quantized m₁ with ⟨f | u, m₂⟩ <;> simp only [hq] at h <;>
    obtain ⟨-, rfl⟩ := Prod.ext_iff.mp h
  · exact (hpool hp).trans (hquant hq)
  · exact ((hpool hp).trans (hquant hq)).trans (hhost m₂)

lemma slab_frame (h : Model.prefillSlab cfg env startPos k n m = (r, m')) : Frame m m' := by
  rw [Model.prefillSlab] at h
  split_ifs at h
  · rw [prefillSlabMixed] at h
    rcases hs : ensurePagedDecodeState cfg env false m with ⟨f | u, m₁⟩
    all_goals
      have hf := ensurePagedDecodeState_frame hs
      simp only [hs] at h
    · obtain ⟨-, rfl⟩ := Prod.ext_iff.mp h
      exact hf
    · repeat' split at h
      all_goals
        obtain ⟨-, rfl⟩ := Prod.ext_iff.mp h
        exact ⟨hf.workers, hf.program, hf.seqLen⟩
  · rw [prefillSlabDense] at h
    repeat' split at h
    all_goals
      obtain ⟨-, rfl⟩ := Prod.ext_iff.mp h
      exact ⟨rfl, rfl, rfl⟩

lemma slabs_frame {ks : List ℕ} (h : Model.prefillSlabs cfg env startPos total ks m = (r, m')) :
    Frame m m' := by
  induction ks generalizing m with
  | nil =>
      obtain ⟨-, rfl⟩ := Prod.ext_iff.mp h
      exact .refl
  | cons k ks ih =>
      rw [Model.prefillSlabs] at h
      rcases hone : Model.prefillSlab cfg env (startPos + k * chunkTokens) k
        (min chunkTokens (total - k * chunkTokens)) m with ⟨f | u, m₁⟩
      all_goals simp only [hone] at h
      · obtain ⟨-, rfl⟩ := Prod.ext_iff.mp h
        exact slab_frame hone
      · exact (slab_frame hone).trans (ih h)

lemma body_frame (h : Model.prefillBody cfg env total m = (r, m')) :
    m'.persistentWorkers = m.persistentWorkers ∧ m'.megakernelPaged = m.megakernelPaged := by
  rw [Model.prefillBody] at h
  rcases hs : (if cfg.hasMoe then ((.ok (), m) : Except ModelFault Unit × Model)
    else ensurePagedDecodeState cfg env false m) with ⟨f | u, m₁⟩
  all_goals
    have hf : Frame m m₁ := by
      split_ifs at hs
      · obtain ⟨-, rfl⟩ := Prod.ext_iff.mp hs
        exact .refl
      · exact ensurePagedDecodeState_frame hs
    simp only [hs] at h
  · obtain ⟨-, rfl⟩ := Prod.ext_iff.mp h
    exact ⟨hf.workers, hf.program⟩
  cases halloc : env.prefillAlloc with
  | error c =>
      simp only [halloc] at h
      obtain ⟨-, rfl⟩ := Prod.ext_iff.mp h
      exact ⟨hf.workers, hf.program⟩
  | ok u =>
      simp only [halloc] at h
      rcases hsl : Model.prefillSlabs cfg env m.seqLen total
        (List.range (divCeil total chunkTokens)) m₁ with ⟨f | u, m₂⟩
      all_goals
        have hf₂ := hf.trans (slabs_frame hsl)
        simp only [hsl] at h
      · obtain ⟨-, rfl⟩ := Prod.ext_iff.mp h
        exact ⟨hf₂.workers, hf₂.program⟩
      · split at h <;> obtain ⟨-, rfl⟩ := Prod.ext_iff.mp h <;> exact ⟨hf₂.workers, hf₂.program⟩

/-- The dispatcher and the program are there, and no worker: it is not spawned any more. -/
def Stuck (e : Buffered) : Prop :=
  e.model.megakernelPaged.isSome ∧ e.dispatcher = true ∧ e.model.persistentWorkers = false

/-- A worker belongs to a dispatcher, and has a program. -/
structure Ready (e : Buffered) : Prop where
  dispatcher : e.model.persistentWorkers = true → e.dispatcher = true
  program : e.model.persistentWorkers = true → e.model.megakernelPaged.isSome

lemma prefillSlab_eq (h : prefillSlab cfg env b startPos k n e = (r, e'))
    (hpanic : ∀ f, r = .error f → ¬ f.IsPanic) :
    Model.prefillSlab cfg env startPos k n e.model = (r, e'.model) ∧
      e'.dispatcher = e.dispatcher := by
  rw [prefillSlab] at h
  split at h
  · obtain ⟨rfl, -⟩ := Prod.ext_iff.mp h
    exact absurd trivial (hpanic _ rfl)
  · obtain ⟨rfl, rfl⟩ := Prod.ext_iff.mp h
    exact ⟨rfl, rfl⟩

lemma not_isPanic_ok : ∀ f, (.ok () : Except ModelFault Unit) = .error f → ¬ f.IsPanic :=
  fun f hf => by cases hf

lemma prefillSlabs_eq {ks : List ℕ} (h : prefillSlabs cfg env b startPos total ks e = (r, e'))
    (hpanic : ∀ f, r = .error f → ¬ f.IsPanic) :
    Model.prefillSlabs cfg env startPos total ks e.model = (r, e'.model) ∧
      e'.dispatcher = e.dispatcher := by
  induction ks generalizing e with
  | nil =>
      obtain ⟨rfl, rfl⟩ := Prod.ext_iff.mp h
      exact ⟨rfl, rfl⟩
  | cons k ks ih =>
      rw [prefillSlabs] at h
      rw [Model.prefillSlabs]
      rcases hone : prefillSlab cfg env b (startPos + k * chunkTokens) k
        (min chunkTokens (total - k * chunkTokens)) e with ⟨f | u, e₁⟩
      all_goals simp only [hone] at h
      · obtain ⟨rfl, rfl⟩ := Prod.ext_iff.mp h
        obtain ⟨hmodel, hdisp⟩ := prefillSlab_eq hone hpanic
        simp only [hmodel]
        exact ⟨trivial, hdisp⟩
      · obtain ⟨hmodel, hdisp⟩ := prefillSlab_eq hone not_isPanic_ok
        simp only [hmodel]
        exact (ih h).imp_right fun heq => heq.trans hdisp

lemma prefillBody_eq (h : prefillBody cfg env b total e = (r, e'))
    (hpanic : ∀ f, r = .error f → ¬ f.IsPanic) :
    Model.prefillBody cfg env total e.model = (r, e'.model) ∧ e'.dispatcher = e.dispatcher := by
  rw [prefillBody] at h
  rw [Model.prefillBody]
  rcases hs : (if cfg.hasMoe then ((.ok (), e.model) : Except ModelFault Unit × Model)
    else ensurePagedDecodeState cfg env false e.model) with ⟨f | u, m⟩
  all_goals simp only [hs] at h ⊢
  · obtain ⟨rfl, rfl⟩ := Prod.ext_iff.mp h
    exact ⟨rfl, rfl⟩
  cases halloc : env.prefillAlloc with
  | error c =>
      simp only [halloc] at h
      obtain ⟨rfl, rfl⟩ := Prod.ext_iff.mp h
      exact ⟨rfl, rfl⟩
  | ok u =>
      simp only [halloc, prefillLoop] at h
      rcases hsl : prefillSlabs cfg env b e.model.seqLen total
        (List.range (divCeil total chunkTokens)) { e with model := m, prefillBufs := true } with
        ⟨f | u, e₁⟩
      all_goals simp only [hsl] at h
      · obtain ⟨rfl, rfl⟩ := Prod.ext_iff.mp h
        obtain ⟨hmodel, hdisp⟩ := prefillSlabs_eq hsl hpanic
        simp only [hmodel]
        exact ⟨trivial, hdisp⟩
      · obtain ⟨hmodel, hdisp⟩ := prefillSlabs_eq hsl not_isPanic_ok
        simp only [hmodel]
        cases hlogits : env.logits
        all_goals
          simp only [hlogits] at h
          obtain ⟨rfl, rfl⟩ := Prod.ext_iff.mp h
          exact ⟨rfl, hdisp⟩

/-- **Spawning the worker** is that of the model, unless the engine is stuck. -/
lemma ensurePersistentWorkerSpawned_eq (hready : Ready e) (hs : ¬ Stuck e)
    (h : ensurePersistentWorkerSpawned cfg env e = (r, e')) :
    Model.ensurePersistentWorkerSpawned cfg env e.model = (r, e'.model) ∧
      e'.prefillBufs = e.prefillBufs ∧ (r = .ok () → e'.dispatcher = true) ∧
      (r ≠ .ok () → e'.dispatcher = e.dispatcher) := by
  rw [ensurePersistentWorkerSpawned] at h
  rw [Model.ensurePersistentWorkerSpawned]
  split_ifs at h with hyes
  · obtain ⟨rfl, rfl⟩ := Prod.ext_iff.mp h
    have hw : e.model.persistentWorkers = true := by
      by_contra hw
      exact hs ⟨hyes.1, hyes.2, Bool.not_eq_true _ ▸ hw⟩
    exact ⟨if_pos ⟨hyes.1, hw⟩, rfl, fun _ => hyes.2, fun _ => rfl⟩
  -- without dispatcher or program there is no worker
  have hw : e.model.persistentWorkers = false := by
    by_contra hw
    rw [Bool.not_eq_false] at hw
    exact hyes ⟨hready.program hw, hready.dispatcher hw⟩
  rw [if_neg (by simp [hw])]
  rcases hp : ensureProgram cfg env e.model with ⟨f | u, m₁⟩
  all_goals simp only [hp] at h ⊢
  · obtain ⟨rfl, rfl⟩ := Prod.ext_iff.mp h
    exact ⟨rfl, rfl, (absurd · (by simp)), fun _ => rfl⟩
  have hw₁ : m₁.persistentWorkers = false := by
    rw [ensureProgram] at hp
    repeat' split at hp
    all_goals
      obtain ⟨-, rfl⟩ := Prod.ext_iff.mp hp
      exact hw
  rcases hd : ensurePagedDecodeState cfg env cfg.kvQuant m₁ with ⟨f | u, m₂⟩
  all_goals
    have hw₂ := (ensurePagedDecodeState_frame hd).workers.trans hw₁
    simp only [hd] at h ⊢
  · obtain ⟨rfl, rfl⟩ := Prod.ext_iff.mp h
    exact ⟨rfl, rfl, (absurd · (by simp)), fun _ => rfl⟩
  rw [if_neg (by simp [hw₂])] at h
  cases hi : env.dispatchInit
  all_goals
    simp only [hi] at h ⊢
    obtain ⟨rfl, rfl⟩ := Prod.ext_iff.mp h
  · exact ⟨rfl, rfl, (absurd · (by simp)), fun _ => rfl⟩
  · exact ⟨rfl, rfl, fun _ => rfl, fun hr => absurd rfl hr⟩

/-! ### What a failed call should leave -/

/-- A field that is as it was, or was empty and is new. -/
def KeptOr {α : Type} (fresh : α → Prop) (x x' : Option α) : Prop :=
  x' = x ∨ (x = none ∧ ∃ a, x' = some a ∧ fresh a)

namespace KeptOr

variable {α : Type} {fresh : α → Prop} {x x' x'' : Option α}

lemma refl : KeptOr fresh x x := .inl rfl

lemma trans (h : KeptOr fresh x x') (h' : KeptOr fresh x' x'') : KeptOr fresh x x'' := by
  rcases h with rfl | ⟨hnone, a, rfl, ha⟩
  · exact h'
  · rcases h' with rfl | ⟨hsome, -⟩
    · exact .inr ⟨hnone, a, rfl, ha⟩
    · cases hsome

lemma isSome (h : KeptOr fresh x x') (hx : x.isSome) : x'.isSome := by
  rcases h with rfl | ⟨-, a, rfl, -⟩
  · exact hx
  · rfl

end KeptOr

/-- The sequence, its chunks, both pools and the position are as they were; what was not there
yet may be new. -/
structure Kept (cfg : EngineConfig) (m m' : Model) : Prop where
  heap : m'.heap = m.heap
  seq : KeptOr (· = SequenceState.new chunkTokens) m.pagedSeq m'.pagedSeq
  vram : KeptOr (fun a => ∃ base, a = .new base cfg.chunkKvBytes cfg.vramChunks)
    m.pageAllocator m'.pageAllocator
  host : KeptOr (fun a => ∃ base n, a = .new base cfg.chunkKvBytes n)
    m.hostPageAllocator m'.hostPageAllocator
  seqLen : m'.seqLen = m.seqLen

/-- The sequence and its pool are there. -/
def Present (m : Model) : Prop := m.pagedSeq.isSome ∧ m.pageAllocator.isSome

/-- Where `ensure_persistent_worker_spawned` takes everything to be there, it is: the worker runs,
and has a sequence with a pool, both of which `decode_step` unwraps. -/
def Usable (e : Buffered) : Prop :=
  e.model.megakernelPaged.isSome → e.dispatcher = true →
    e.model.persistentWorkers = true ∧ Present e.model

/-- The engine is left as it was, with everything a call takes out of it. -/
structure LeftAsItWas (cfg : EngineConfig) (e e' : Buffered) : Prop where
  kept : Kept cfg e.model e'.model
  bufs : e.prefillBufs = true → e'.prefillBufs = true
  usable : Usable e'

/-! ### Failures before the first token -/

/-- The pool is missing and cannot be had. -/
def PoolFails (env : Env) (m : Model) : Prop :=
  m.pageAllocator = none ∧ ∃ c, env.vramPool = .error c

/-- The quantized pool is wanted, is missing and cannot be had. -/
def QuantFails (env : Env) (quantized : Bool) (m : Model) : Prop :=
  quantized = true ∧ m.quantAllocator = none ∧ ∃ c, env.quantPool = .error c

/-- The worker runs its program. -/
def Spawned (m : Model) : Prop := m.megakernelPaged.isSome ∧ m.persistentWorkers = true

/-- The decode program is missing and cannot be compiled. -/
def ProgramFails (env : Env) (m : Model) : Prop :=
  m.megakernelPaged = none ∧ ∃ c, env.compile = .error c

/-- The worker has to be spawned, and this fails. -/
def SpawnFails (cfg : EngineConfig) (env : Env) (m : Model) : Prop :=
  ¬ Spawned m ∧ (ProgramFails env m ∨ PoolFails env m ∨ QuantFails env cfg.kvQuant m ∨
    ∃ c, env.dispatchInit = .error c)

/-- The call fails before it takes anything out of an engine that has it all.  With a dispatcher
and the program the worker would be taken to be there, so that the failure has to come before the
program. -/
def StopsEarly (cfg : EngineConfig) (env : Env) (total : ℕ) (e : Buffered) : Prop :=
  total = 0 ∨
    (SpawnFails cfg env e.model ∧ (e.dispatcher = true → ProgramFails env e.model)) ∨
    (¬ SpawnFails cfg env e.model ∧
      ((∃ c, env.prefillAlloc = .error c) ∨ (cfg.hasMoe = true ∧ ∃ c, env.slab 0 = .early c)))

/-- The call starts the sequence anew that an earlier one has lost, and fails then, before it takes
anything out. -/
def Restarts (cfg : EngineConfig) (env : Env) (total : ℕ) (e : Buffered) : Prop :=
  e.model.persistentWorkers = true ∧ total ≠ 0 ∧ (∃ base, env.vramPool = .ok base) ∧
    if cfg.hasMoe = true then env.prefillAlloc = .ok () ∧ ∃ c, env.slab 0 = .early c
    else ∃ c, env.prefillAlloc = .error c

/-- The failures that leave the engine as it was. -/
def FailsClean (cfg : EngineConfig) (env : Env) (total : ℕ) (e : Buffered) : Prop :=
  (Usable e ∧ StopsEarly cfg env total e) ∨ (¬ Usable e ∧ Restarts cfg env total e)

/-! ### Lazy initialisation -/

namespace Kept

lemma refl : Kept cfg m m := ⟨rfl, .refl, .refl, .refl, rfl⟩

lemma trans (h : Kept cfg m m') (h' : Kept cfg m' m'') : Kept cfg m m'' :=
  ⟨h'.heap.trans h.heap, h.seq.trans h'.seq, h.vram.trans h'.vram, h.host.trans h'.host,
    h'.seqLen.trans h.seqLen⟩

lemma present (h : Kept cfg m m') (hm : Present m) : Present m' :=
  ⟨h.seq.isSome hm.1, h.vram.isSome hm.2⟩

end Kept

/-- The sequence and its pool are there together. -/
def Together (m : Model) : Prop := m.pagedSeq.isSome = m.pageAllocator.isSome

lemma Together.present (h : Together m) (halloc : m.pageAllocator.isSome) : Present m :=
  ⟨h.trans halloc, halloc⟩

lemma Together.seq_none (h : Together m) (halloc : m.pageAllocator = none) : m.pagedSeq = none := by
  rw [Together, halloc] at h
  exact Option.isSome_eq_false_iff.mp h |> Option.isNone_iff_eq_none.mp

/-- What lazy initialisation does, apart from the program and the worker. -/
structure Lazily (cfg : EngineConfig) (m m' : Model) : Prop where
  kept : Kept cfg m m'
  together : Together m'
  workers : m'.persistentWorkers = m.persistentWorkers
  program : m'.megakernelPaged = m.megakernelPaged

namespace Lazily

lemma refl (ht : Together m) : Lazily cfg m m := ⟨.refl, ht, rfl, rfl⟩

lemma trans (h : Lazily cfg m m') (h' : Lazily cfg m' m'') : Lazily cfg m m'' :=
  ⟨h.kept.trans h'.kept, h'.together, h'.workers.trans h.workers, h'.program.trans h.program⟩

end Lazily

lemma ensurePool_spec (ht : Together m) (h : ensurePool cfg env m = (r, m')) :
    Lazily cfg m m' ∧ m'.quantAllocator = m.quantAllocator ∧
      (PoolFails env m → r ≠ .ok () ∧ m' = m) ∧ (¬ PoolFails env m → r = .ok () ∧ Present m') := by
  rw [ensurePool] at h
  split at h
  · rename_i a halloc
    obtain ⟨rfl, rfl⟩ := Prod.ext_iff.mp h
    refine ⟨.refl ht, rfl, fun hfail => ?_, fun _ => ⟨rfl, ht.present (by rw [halloc]; rfl)⟩⟩
    rw [hfail.1] at halloc
    cases halloc
  · rename_i halloc
    split at h
    · rename_i c hc
      obtain ⟨rfl, rfl⟩ := Prod.ext_iff.mp h
      exact ⟨.refl ht, rfl, fun _ => ⟨by simp, rfl⟩, fun hno => absurd ⟨halloc, c, hc⟩ hno⟩
    · rename_i base hbase
      obtain ⟨rfl, rfl⟩ := Prod.ext_iff.mp h
      refine ⟨⟨⟨rfl, .inr ⟨ht.seq_none halloc, _, rfl, rfl⟩, .inr ⟨halloc, _, rfl, base, rfl⟩,
        .refl, rfl⟩, rfl, rfl, rfl⟩, rfl, fun hfail => ?_, fun _ => ⟨rfl, rfl, rfl⟩⟩
      obtain ⟨c, hc⟩ := hfail.2
      rw [hbase] at hc
      cases hc

lemma ensureQuant_spec {quantized : Bool} (ht : Together m)
    (h : ensureQuant cfg env quantized m = (r, m')) :
    Lazily cfg m m' ∧ (r = .ok () ↔ ¬ QuantFails env quantized m) := by
  unfold ensureQuant at h
  split at h
  · rename_i hquant
    split at h
    · rename_i c hc
      obtain ⟨rfl, rfl⟩ := Prod.ext_iff.mp h
      exact ⟨.refl ht, iff_of_false (by simp) (not_not.mpr ⟨rfl, hquant, c, hc⟩)⟩
    · rename_i base hbase
      obtain ⟨rfl, rfl⟩ := Prod.ext_iff.mp h
      refine ⟨⟨⟨rfl, .refl, .refl, .refl, rfl⟩, ht, rfl, rfl⟩, iff_of_true rfl ?_⟩
      rintro ⟨-, -, c, hc⟩
      rw [hbase] at hc
      cases hc
  · rename_i hno
    obtain ⟨rfl, rfl⟩ := Prod.ext_iff.mp h
    exact ⟨.refl ht, iff_of_true rfl fun hfail => hno hfail.1 hfail.2.1⟩

lemma ensureHost_lazily (ht : Together m) : Lazily cfg m (ensureHost cfg env m) := by
  rw [ensureHost]
  split
  · rename_i n base hnone _ _
    exact ⟨⟨rfl, .refl, .refl, .inr ⟨hnone, _, rfl, base, n, rfl⟩, rfl⟩, ht, rfl, rfl⟩
  · exact .refl ht

lemma ensurePagedDecodeState_spec {quantized : Bool} (ht : Together m)
    (h : ensurePagedDecodeState cfg env quantized m = (r, m')) :
    Lazily cfg m m' ∧ (r = .ok () ↔ ¬ PoolFails env m ∧ ¬ QuantFails env quantized m) ∧
      (PoolFails env m → m' = m) ∧ (¬ PoolFails env m → Present m') := by
  rw [ensurePagedDecodeState] at h
  rcases hp : ensurePool cfg env m with ⟨f | u, m₁⟩
  all_goals obtain ⟨hl₁, hq₁, hfail₁, hok₁⟩ := ensurePool_spec ht hp
  · simp only [hp] at h
    obtain ⟨rfl, rfl⟩ := Prod.ext_iff.mp h
    have hfails : PoolFails env m := by
      by_contra hno
      exact absurd (hok₁ hno).1 (by simp)
    exact ⟨hl₁, iff_of_false (by simp) fun hno => hno.1 hfails, fun _ => (hfail₁ hfails).2,
      fun hno => absurd hfails hno⟩
  have hno : ¬ PoolFails env m := fun hfails => (hfail₁ hfails).1 rfl
  have hpresent := (hok₁ hno).2
  simp only [hp] at h
  have hquant : QuantFails env quantized m₁ ↔ QuantFails env quantized m := by
    rw [QuantFails, QuantFails, hq₁]
  rcases hqu : ensureQuant cfg env quantized m₁ with ⟨f | u, m₂⟩
  all_goals
    obtain ⟨hl₂, hiff₂⟩ := ensureQuant_spec hl₁.together hqu
    rw [hquant] at hiff₂
    simp only [hqu] at h
    obtain ⟨rfl, rfl⟩ := Prod.ext_iff.mp h
  · refine ⟨hl₁.trans hl₂, iff_of_false (by simp) fun hnot => ?_, fun hfails => absurd hfails hno,
      fun _ => hl₂.kept.present hpresent⟩
    exact absurd (hiff₂.mpr hnot.2) (by simp)
  · have hl₃ : Lazily cfg m₂ (ensureHost cfg env m₂) := ensureHost_lazily hl₂.together
    exact ⟨(hl₁.trans hl₂).trans hl₃, iff_of_true rfl ⟨hno, hiff₂.mp rfl⟩,
      fun hfails => absurd hfails hno, fun _ => hl₃.kept.present (hl₂.kept.present hpresent)⟩

lemma ensureProgram_spec (h : ensureProgram cfg env m = (r, m')) :
    m' = { m with megakernelPaged := m'.megakernelPaged } ∧ (r = .ok () ↔ ¬ ProgramFails env m) ∧
      (r = .ok () → m'.megakernelPaged.isSome) ∧ (r ≠ .ok () → m' = m) := by
  rw [ensureProgram] at h
  split at h
  · rename_i p hp
    obtain ⟨rfl, rfl⟩ := Prod.ext_iff.mp h
    refine ⟨rfl, iff_of_true rfl fun hfail => ?_, fun _ => by rw [hp]; rfl, fun _ => rfl⟩
    rw [hfail.1] at hp
    cases hp
  · rename_i hp
    split at h
    · rename_i c hc
      obtain ⟨rfl, rfl⟩ := Prod.ext_iff.mp h
      exact ⟨rfl, iff_of_false (by simp) (not_not.mpr ⟨hp, c, hc⟩), (absurd · (by simp)),
        fun _ => rfl⟩
    · rename_i hc
      obtain ⟨rfl, rfl⟩ := Prod.ext_iff.mp h
      refine ⟨rfl, iff_of_true rfl fun hfail => ?_, fun _ => rfl, fun hr => absurd rfl hr⟩
      obtain ⟨c, hc'⟩ := hfail.2
      rw [hc] at hc'
      cases hc'

/-- **Spawning the worker**: it fails exactly if one of its allocations does, and otherwise the
worker runs. -/
lemma ensurePersistentWorkerSpawned_spec (ht : Together m)
    (h : Model.ensurePersistentWorkerSpawned cfg env m = (r, m')) :
    Kept cfg m m' ∧ Together m' ∧
      (SpawnFails cfg env m → r ≠ .ok () ∧ m'.persistentWorkers = m.persistentWorkers ∧
        (ProgramFails env m → m' = m) ∧ (¬ ProgramFails env m → m'.megakernelPaged.isSome)) ∧
      (¬ SpawnFails cfg env m → r = .ok () ∧ Spawned m' ∧ (Spawned m → m' = m) ∧
        (¬ Spawned m → Present m')) := by
  rw [Model.ensurePersistentWorkerSpawned] at h
  split_ifs at h with hs
  · obtain ⟨rfl, rfl⟩ := Prod.ext_iff.mp h
    exact ⟨.refl, ht, fun hfail => absurd hs hfail.1, fun _ => ⟨rfl, hs, fun _ => rfl,
      fun hno => absurd hs hno⟩⟩
  rcases hp : ensureProgram cfg env m with ⟨f | u, m₁⟩
  all_goals
    obtain ⟨hm₁, hiff₁, hprog₁, hsame₁⟩ := ensureProgram_spec hp
    have hkept₁ : Kept cfg m m₁ := by rw [hm₁]; exact ⟨rfl, .refl, .refl, .refl, rfl⟩
    have ht₁ : Together m₁ := by rw [hm₁]; exact ht
    have hworkers₁ : m₁.persistentWorkers = m.persistentWorkers := by rw [hm₁]
    simp only [hp] at h
  · obtain ⟨rfl, rfl⟩ := Prod.ext_iff.mp h
    have hfails : ProgramFails env m := not_not.mp fun hno => absurd (hiff₁.mpr hno) (by simp)
    exact ⟨hkept₁, ht₁, fun _ => ⟨by simp, hworkers₁, fun _ => hsame₁ (by simp),
      fun hno => absurd hfails hno⟩, fun hno => absurd ⟨hs, .inl hfails⟩ hno⟩
  have hpool₁ : PoolFails env m₁ ↔ PoolFails env m := by rw [hm₁]; rfl
  have hquant₁ : QuantFails env cfg.kvQuant m₁ ↔ QuantFails env cfg.kvQuant m := by rw [hm₁]; rfl
  have hprogram : ¬ ProgramFails env m := hiff₁.mp rfl
  rcases hd : ensurePagedDecodeState cfg env cfg.kvQuant m₁ with ⟨f | u, m₂⟩
  all_goals
    obtain ⟨hl₂, hiff₂, -, hpresent₂⟩ := ensurePagedDecodeState_spec ht₁ hd
    rw [hpool₁, hquant₁] at hiff₂
    have hprog₂ : m₂.megakernelPaged.isSome := hl₂.program ▸ hprog₁ rfl
    have hworkers₂ := hl₂.workers.trans hworkers₁
    simp only [hd] at h
  · obtain ⟨rfl, rfl⟩ := Prod.ext_iff.mp h
    refine ⟨hkept₁.trans hl₂.kept, hl₂.together, fun _ => ⟨by simp, hworkers₂,
      fun hf => absurd hf hprogram, fun _ => hprog₂⟩,
      fun hno => absurd (hiff₂.mpr ⟨fun hfail => ?_, fun hfail => ?_⟩) (by simp)⟩
    · exact hno ⟨hs, .inr (.inl hfail)⟩
    · exact hno ⟨hs, .inr (.inr (.inl hfail))⟩
  obtain ⟨hpool, hquant⟩ := hiff₂.mp rfl
  cases hdisp : env.dispatchInit with
  | error c =>
      simp only [hdisp] at h
      obtain ⟨rfl, rfl⟩ := Prod.ext_iff.mp h
      exact ⟨hkept₁.trans hl₂.kept, hl₂.together, fun _ => ⟨by simp, hworkers₂,
        fun hf => absurd hf hprogram, fun _ => hprog₂⟩,
        fun hno => absurd ⟨hs, .inr (.inr (.inr ⟨c, hdisp⟩))⟩ hno⟩
  | ok u =>
      simp only [hdisp] at h
      obtain ⟨rfl, rfl⟩ := Prod.ext_iff.mp h
      have hkept := hkept₁.trans hl₂.kept
      refine ⟨⟨hkept.heap, hkept.seq, hkept.vram, hkept.host, hkept.seqLen⟩, hl₂.together,
        fun hfail => ?_, fun _ => ⟨rfl, ⟨hprog₂, rfl⟩, fun hyes => absurd hyes hs, fun _ => ?_⟩⟩
      · rcases hfail.2 with hf | hf | hf | ⟨c, hf⟩
        · exact absurd hf hprogram
        · exact absurd hf hpool
        · exact absurd hf hquant
        · rw [hdisp] at hf
          cases hf
      · exact hpresent₂ fun hf => hpool (hpool₁.mp hf)

/-! ### Slabs -/

/-- The number of positions of the sequence, if there is one. -/
def len (m : Model) : ℕ := (m.pagedSeq.map fun seq => seq.positions.length).getD 0

lemma len_eq {seq : SequenceState} (h : m.pagedSeq = some seq) : len m = seq.positions.length := by
  rw [len, h]
  rfl

lemma Kept.len_eq (h : Kept cfg m m') : len m' = len m := by
  rcases h.seq with heq | ⟨hnone, seq, hseq, rfl⟩
  · rw [len, len, heq]
  · rw [len, len, hnone, hseq]
    rfl

/-- A slab that came to the point where it takes the sequence: it leaves a longer one or none, and
succeeds with a longer one only. -/
structure Took (m : Model) (r : Except ModelFault Unit) (m' : Model) : Prop where
  together : Together m'
  grown : m'.pagedSeq = none ∨ len m < len m'
  present : r = .ok () → Present m'

namespace Took

variable {f : ModelFault} {seq seq' : SequenceState}

/-- The sequence is lost, its allocator with it. -/
lemma lost (hseq : m'.pagedSeq = none) (halloc : m'.pageAllocator = none) :
    Took m (.error f) m' :=
  ⟨by rw [Together, hseq, halloc]; rfl, .inl hseq, fun h => by cases h⟩

/-- The tokens are appended. -/
lemma appended (hlen : len m = seq.positions.length)
    (hseq : m'.pagedSeq = some seq') (halloc : m'.pageAllocator.isSome)
    (hgrown : seq.positions.length < seq'.positions.length) : Took m r m' :=
  have hsome : m'.pagedSeq.isSome := by rw [hseq]; rfl
  ⟨hsome.trans halloc.symm, .inr (by rwa [hlen, len_eq hseq]), fun _ => ⟨hsome, halloc⟩⟩

end Took

/-- A slab's tokens make the sequence longer. -/
lemma lt_length_of_appendTokens {mem mem' : KvMem} {seq seq' : SequenceState} (hn : 0 < n)
    (happ : appendTokens mem seq (slabPositions startPos n) = .ok (mem', seq')) :
    seq.positions.length < seq'.positions.length := by
  rw [(appendTokens_positions happ).1, List.length_append, length_slabPositions]
  omega

lemma prefillSlabDense_took (hn : 0 < n) (h : prefillSlabDense env startPos k n m = (r, m'))
    (hpanic : ∀ f, r = .error f → ¬ f.IsPanic) : Took m r m' := by
  rw [prefillSlabDense] at h
  split at h
  · rename_i seq allocator hseq halloc
    split at h
    · obtain ⟨rfl, rfl⟩ := Prod.ext_iff.mp h
      exact .lost rfl rfl
    · rw [compilePrefillPagedPersistent] at h
      cases happ : appendTokens ⟨m.heap, allocator, none⟩ seq (slabPositions startPos n) with
      | error f =>
          simp only [happ] at h
          obtain ⟨rfl, rfl⟩ := Prod.ext_iff.mp h
          exact .lost rfl rfl
      | ok res =>
          obtain ⟨mem, seq'⟩ := res
          have hgrown := lt_length_of_appendTokens hn happ
          simp only [happ] at h
          split at h <;> obtain ⟨rfl, rfl⟩ := Prod.ext_iff.mp h
          · exact .lost rfl rfl
          · exact .appended (len_eq hseq) rfl rfl hgrown
          · exact .appended (len_eq hseq) rfl rfl hgrown
  · obtain ⟨rfl, rfl⟩ := Prod.ext_iff.mp h
    exact absurd trivial (hpanic _ rfl)

/-- What a slab of a MoE model does: it fails for want of a pool or before it takes the sequence,
or it takes the sequence. -/
inductive MixedOutcome (cfg : EngineConfig) (env : Env) (k : ℕ) (m : Model)
    (r : Except ModelFault Unit) (m' : Model) (bufs : Bool) : Prop
  | noPool (hr : r ≠ .ok ()) (hfail : PoolFails env m) (hm' : m' = m)
  | early (hr : r ≠ .ok ()) (hpool : ¬ PoolFails env m) (hslab : ∃ c, env.slab k = .early c)
      (hl : Lazily cfg m m') (hpresent : Present m') (hbufs : bufs = true)
  | took (hpool : ¬ PoolFails env m) (hslab : ∀ c, env.slab k ≠ .early c) (ht : Took m r m')

lemma prefillSlabMixed_outcome (hn : 0 < n) (ht : Together m)
    (h : prefillSlabMixed cfg env startPos k n m = (r, m'))
    (hpanic : ∀ f, r = .error f → ¬ f.IsPanic) :
    MixedOutcome cfg env k m r m' (mixedBufs cfg env b startPos k n m) := by
  rw [prefillSlabMixed] at h
  rcases hs : ensurePagedDecodeState cfg env false m with ⟨f | u, m₁⟩
  all_goals obtain ⟨hl, hiff, hsame, hpresent⟩ := ensurePagedDecodeState_spec ht hs
  · simp only [hs] at h
    obtain ⟨rfl, rfl⟩ := Prod.ext_iff.mp h
    have hfail : PoolFails env m := by
      by_contra hno
      exact absurd (hiff.mpr ⟨hno, fun hq => by cases hq.1⟩) (by simp)
    exact .noPool (by simp) hfail (hsame hfail)
  have hpool : ¬ PoolFails env m := (hiff.mp rfl).1
  have hlen : len m₁ = len m := hl.kept.len_eq
  simp only [hs] at h
  split at h
  · rename_i c hslab
    obtain ⟨rfl, rfl⟩ := Prod.ext_iff.mp h
    have hbufs : mixedBufs cfg env b startPos k n m = true := by
      simp only [mixedBufs, hs, hslab]
    exact .early (by simp) hpool ⟨c, hslab⟩ hl (hpresent hpool) hbufs
  · rename_i hslab
    refine .took hpool hslab ?_
    split at h
    · rename_i seq allocator hseq halloc
      rw [len_eq hseq] at hlen
      cases happ : appendTokens ⟨m₁.heap, allocator, m₁.hostPageAllocator⟩ seq
          (slabPositions startPos n) with
      | error f =>
          simp only [happ] at h
          obtain ⟨rfl, rfl⟩ := Prod.ext_iff.mp h
          exact .lost rfl rfl
      | ok res =>
          obtain ⟨mem, seq'⟩ := res
          have hgrown := lt_length_of_appendTokens hn happ
          simp only [happ] at h
          split at h <;> obtain ⟨rfl, rfl⟩ := Prod.ext_iff.mp h
          · exact .lost rfl rfl
          · exact .appended hlen.symm rfl rfl hgrown
          · exact .appended hlen.symm rfl rfl hgrown
    · obtain ⟨rfl, rfl⟩ := Prod.ext_iff.mp h
      exact absurd trivial (hpanic _ rfl)

/-! ### The slab loop -/

/-- What one slab of either prefill does. -/
inductive SlabResult (cfg : EngineConfig) (env : Env) (k : ℕ) (e : Buffered)
    (r : Except ModelFault Unit) (e' : Buffered) : Prop
  | noPool (hmoe : cfg.hasMoe = true) (hr : r ≠ .ok ()) (hfail : PoolFails env e.model)
      (hm' : e'.model = e.model)
  | early (hmoe : cfg.hasMoe = true) (hr : r ≠ .ok ()) (hpool : ¬ PoolFails env e.model)
      (hslab : ∃ c, env.slab k = .early c) (hl : Lazily cfg e.model e'.model)
      (hpresent : Present e'.model) (hbufs : e'.prefillBufs = true)
  | took (hpool : cfg.hasMoe = true → ¬ PoolFails env e.model)
      (hslab : cfg.hasMoe = true → ∀ c, env.slab k ≠ .early c) (ht : Took e.model r e'.model)

lemma prefillSlab_outcome (hn : 0 < n) (hw : e.model.persistentWorkers = true)
    (ht : Together e.model) (h : prefillSlab cfg env b startPos k n e = (r, e'))
    (hpanic : ∀ f, r = .error f → ¬ f.IsPanic) :
    SlabResult cfg env k e r e' := by
  obtain ⟨hmodel, -⟩ := prefillSlab_eq h hpanic
  have hbufs : cfg.hasMoe = true → e'.prefillBufs = mixedBufs cfg env b startPos k n e.model := by
    intro hmoe
    rw [prefillSlab, if_neg (by simp [hw])] at h
    obtain ⟨-, rfl⟩ := Prod.ext_iff.mp h
    exact if_pos hmoe
  rw [Model.prefillSlab] at hmodel
  split_ifs at hmodel with hmoe
  · have hout := prefillSlabMixed_outcome (b := b) hn ht hmodel hpanic
    rw [← hbufs hmoe] at hout
    cases hout with
    | noPool hr hfail hm' => exact .noPool hmoe hr hfail hm'
    | early hr hpool hslab hl hpresent hbufs =>
        exact .early hmoe hr hpool hslab hl hpresent hbufs
    | took hpool hslab ht => exact .took (fun _ => hpool) (fun _ => hslab) ht
  · exact .took (fun h => absurd h hmoe) (fun h => absurd h hmoe)
      (prefillSlabDense_took hn hmodel hpanic)

/-- The slabs behind the first: the sequence stays as long as it is, or is lost. -/
lemma prefillSlabs_tail {ks : List ℕ} (hks : ∀ k ∈ ks, k * chunkTokens < total)
    (hw : e.model.persistentWorkers = true) (hp : Present e.model)
    (h : prefillSlabs cfg env b startPos total ks e = (r, e'))
    (hpanic : ∀ f, r = .error f → ¬ f.IsPanic) :
    e'.model.pagedSeq = none ∨ len e.model ≤ len e'.model := by
  have ht : Together e.model := hp.1.trans hp.2.symm
  induction ks generalizing e with
  | nil =>
      obtain ⟨rfl, rfl⟩ := Prod.ext_iff.mp h
      exact .inr le_rfl
  | cons k ks ih =>
      have hk := hks k List.mem_cons_self
      have hn : 0 < min chunkTokens (total - k * chunkTokens) :=
        lt_min (by decide) (Nat.sub_pos_of_lt hk)
      rw [prefillSlabs] at h
      rcases hone : prefillSlab cfg env b (startPos + k * chunkTokens) k
        (min chunkTokens (total - k * chunkTokens)) e with ⟨f | u, e₁⟩
      all_goals simp only [hone] at h
      · obtain ⟨rfl, rfl⟩ := Prod.ext_iff.mp h
        cases prefillSlab_outcome hn hw ht hone hpanic with
        | noPool _ _ hfail hm' =>
            have := hp.2
            rw [hfail.1] at this
            cases this
        | early _ _ _ _ hl _ _ => exact .inr hl.kept.len_eq.ge
        | took _ _ ht => exact ht.grown.imp_right le_of_lt
      · cases prefillSlab_outcome hn hw ht hone not_isPanic_ok with
        | noPool _ hr _ _ => exact absurd rfl hr
        | early _ hr _ _ _ _ _ => exact absurd rfl hr
        | took _ _ ht₁ =>
            have hp₁ := ht₁.present rfl
            have hw₁ := (slab_frame (prefillSlab_eq hone not_isPanic_ok).1).workers.trans hw
            have hgrown := ih (fun k hk => hks k (List.mem_cons_of_mem _ hk)) hw₁ hp₁ h
              (hp₁.1.trans hp₁.2.symm)
            have hlt : len e.model < len e₁.model := by
              refine ht₁.grown.resolve_left fun hnone => ?_
              have := hp₁.1
              rw [hnone] at this
              cases this
            exact hgrown.imp_right fun hle => hlt.le.trans hle

lemma range_divCeil (htotal : total ≠ 0) :
    ∃ ks, List.range (divCeil total chunkTokens) = 0 :: ks := by
  have hpos : 0 < divCeil total chunkTokens := by
    rw [divCeil, chunkTokens]
    omega
  obtain ⟨n, hn⟩ := Nat.exists_eq_add_of_lt hpos
  rw [zero_add] at hn
  exact ⟨_, by rw [hn, List.range_succ_eq_map]⟩

lemma mul_chunkTokens_lt {k : ℕ} (hk : k ∈ List.range (divCeil total chunkTokens)) :
    k * chunkTokens < total := by
  rw [List.mem_range, divCeil, chunkTokens] at hk
  rw [chunkTokens]
  omega

/-- The engine, whose worker runs, is not as it was. -/
def Spoiled (m m' : Model) : Prop := ¬ Present m' ∨ len m < len m' ∨ m'.seqLen ≠ m.seqLen

lemma Spoiled.not_present (h : Spoiled m m') (hkept : Kept cfg m m') : ¬ Present m' := by
  rcases h with h | h | h
  · exact h
  · exact absurd hkept.len_eq h.ne'
  · exact absurd hkept.seqLen h

lemma not_present_of_none (hseq : m.pagedSeq = none) : ¬ Present m := by
  intro hp
  have := hp.1
  rw [hseq] at this
  cases this

/-- **The slab loop**: it fails in its first slab before it takes the sequence, or for want of a
pool, or it spoils the engine. -/
lemma prefillSlabs_failure (htotal : total ≠ 0) (hw : e.model.persistentWorkers = true)
    (ht : Together e.model)
    (h : prefillSlabs cfg env b startPos total (List.range (divCeil total chunkTokens)) e = (r, e'))
    (hpanic : ∀ f, r = .error f → ¬ f.IsPanic) :
    (cfg.hasMoe = true ∧ r ≠ .ok () ∧ ¬ PoolFails env e.model ∧ (∃ c, env.slab 0 = .early c) ∧
        Lazily cfg e.model e'.model ∧ Present e'.model ∧ e'.prefillBufs = true) ∨
      ((cfg.hasMoe = true → PoolFails env e.model ∨ ∀ c, env.slab 0 ≠ .early c) ∧
        (r = .ok () ∨ Spoiled e.model e'.model)) := by
  have hlt : ∀ k ∈ List.range (divCeil total chunkTokens), k * chunkTokens < total :=
    fun _ => mul_chunkTokens_lt
  obtain ⟨ks, hks⟩ := range_divCeil htotal
  rw [hks] at h hlt
  have hn : 0 < min chunkTokens (total - 0 * chunkTokens) :=
    lt_min (by decide) (by omega)
  rw [prefillSlabs] at h
  rcases hone : prefillSlab cfg env b (startPos + 0 * chunkTokens) 0
    (min chunkTokens (total - 0 * chunkTokens)) e with ⟨f | u, e₁⟩
  all_goals simp only [hone] at h
  · obtain ⟨rfl, rfl⟩ := Prod.ext_iff.mp h
    cases prefillSlab_outcome hn hw ht hone hpanic with
    | noPool hmoe hr hfail hm' =>
        rw [hm']
        exact .inr ⟨fun _ => .inl hfail, .inr (.inl (not_present_of_none (ht.seq_none hfail.1)))⟩
    | early hmoe hr hpool hslab hl hpresent hbufs =>
        exact .inl ⟨hmoe, hr, hpool, hslab, hl, hpresent, hbufs⟩
    | took hpool hslab htook =>
        refine .inr ⟨fun hmoe => .inr (hslab hmoe), .inr ?_⟩
        rcases htook.grown with hnone | hgrown
        · exact .inl (not_present_of_none hnone)
        · exact .inr (.inl hgrown)
  · cases prefillSlab_outcome hn hw ht hone not_isPanic_ok with
    | noPool _ hr _ _ => exact absurd rfl hr
    | early _ hr _ _ _ _ _ => exact absurd rfl hr
    | took hpool hslab htook =>
        have hp₁ := htook.present rfl
        have hw₁ := (slab_frame (prefillSlab_eq hone not_isPanic_ok).1).workers.trans hw
        have hgrown₁ : len e.model < len e₁.model := htook.grown.resolve_left fun hnone =>
          not_present_of_none hnone hp₁
        have hgrown :=
          prefillSlabs_tail (fun k hk => hlt k (List.mem_cons_of_mem _ hk)) hw₁ hp₁ h hpanic
        refine .inr ⟨fun hmoe => .inr (hslab hmoe), .inr ?_⟩
        rcases hgrown with hnone | hgrown
        · exact .inl (not_present_of_none hnone)
        · exact .inr (.inl (hgrown₁.trans_le hgrown))

/-- The failures of a prefill behind the spawning of the worker that leave the engine as it was. -/
def BodyClean (cfg : EngineConfig) (env : Env) (m : Model) : Prop :=
  if cfg.hasMoe = true then
    (Present m ∧ ∃ c, env.prefillAlloc = .error c) ∨
      (¬ PoolFails env m ∧ env.prefillAlloc = .ok () ∧ ∃ c, env.slab 0 = .early c)
  else ¬ PoolFails env m ∧ ∃ c, env.prefillAlloc = .error c

/-- The slab loop and what follows, from a state that differs from `m` in what is initialised
lazily. -/
lemma prefillLoop_failure {f : ModelFault} (htotal : total ≠ 0)
    (hw : e.model.persistentWorkers = true) (hl : Lazily cfg m e.model)
    (hpool : cfg.hasMoe = true → (PoolFails env e.model ↔ PoolFails env m))
    (halloc : env.prefillAlloc = .ok ())
    (h : prefillLoop cfg env b startPos total e = (.error f, e')) (hpanic : ¬ f.IsPanic) :
    (BodyClean cfg env m ∧ Kept cfg m e'.model ∧ e'.prefillBufs = true ∧ Present e'.model) ∨
      (¬ BodyClean cfg env m ∧ Spoiled m e'.model) := by
  have hclean : BodyClean cfg env m ↔
      cfg.hasMoe = true ∧ ¬ PoolFails env m ∧ ∃ c, env.slab 0 = .early c := by
    rw [BodyClean, halloc]
    split_ifs with hmoe <;> simp [hmoe]
  have hunclean : (cfg.hasMoe = true → PoolFails env e.model ∨ ∀ c, env.slab 0 ≠ .early c) →
      ¬ BodyClean cfg env m := by
    intro hno hc
    obtain ⟨hmoe, hnf, c, hslab⟩ := hclean.mp hc
    exact (hno hmoe).elim (fun hf => hnf ((hpool hmoe).mp hf)) fun hne => hne c hslab
  have hseqLen := hl.kept.seqLen
  rw [prefillLoop] at h
  rcases hsl : prefillSlabs cfg env b startPos total
    (List.range (divCeil total chunkTokens)) { e with prefillBufs := true } with ⟨g | u, e₁⟩
  all_goals
    have hspec :=
      prefillSlabs_failure (e := { e with prefillBufs := true }) htotal hw hl.together hsl
    simp only [hsl] at h
  · obtain ⟨hg, rfl⟩ := Prod.ext_iff.mp h
    obtain rfl := Except.error.inj hg
    rcases hspec fun g' hg' => Except.error.inj hg' ▸ hpanic with
      ⟨hmoe, -, hnf, hslab, hl', hp, hb⟩ | ⟨hno, hrest⟩
    · exact .inl ⟨hclean.mpr ⟨hmoe, fun hf => hnf ((hpool hmoe).mpr hf), hslab⟩,
        hl.kept.trans hl'.kept, hb, hp⟩
    · have hspoiled : Spoiled e.model e₁.model := hrest.resolve_left (by simp)
      rw [Spoiled, hl.kept.len_eq, hseqLen] at hspoiled
      exact .inr ⟨hunclean hno, hspoiled⟩
  · rcases hspec not_isPanic_ok with ⟨-, hr, -⟩ | ⟨hno, -⟩
    · exact absurd rfl hr
    · have hframe := slabs_frame (prefillSlabs_eq hsl not_isPanic_ok).1
      cases hlogits : env.logits with
      | ok v => simp [hlogits] at h
      | error c =>
          simp only [hlogits] at h
          obtain ⟨-, rfl⟩ := Prod.ext_iff.mp h
          have := hframe.seqLen
          refine .inr ⟨hunclean hno, .inr (.inr ?_)⟩
          dsimp only at this ⊢
          omega

lemma prefillBody_failure (htotal : total ≠ 0) (hw : e.model.persistentWorkers = true)
    (ht : Together e.model) {f : ModelFault} (h : prefillBody cfg env b total e = (.error f, e'))
    (hpanic : ¬ f.IsPanic) :
    (BodyClean cfg env e.model ∧ Kept cfg e.model e'.model ∧
        (e.prefillBufs = true → e'.prefillBufs = true) ∧ Present e'.model) ∨
      (¬ BodyClean cfg env e.model ∧ Spoiled e.model e'.model) := by
  -- from the slab loop on
  have hloop : ∀ m, Lazily cfg e.model m →
      (cfg.hasMoe = true → (PoolFails env m ↔ PoolFails env e.model)) → env.prefillAlloc = .ok () →
      prefillLoop cfg env b e.model.seqLen total { e with model := m } = (.error f, e') →
      (BodyClean cfg env e.model ∧ Kept cfg e.model e'.model ∧
          (e.prefillBufs = true → e'.prefillBufs = true) ∧ Present e'.model) ∨
        (¬ BodyClean cfg env e.model ∧ Spoiled e.model e'.model) := by
    intro m hl hpool halloc h
    rcases prefillLoop_failure htotal (hl.workers.trans hw) hl hpool halloc h hpanic with
      ⟨hc, hkept, hb, hp⟩ | hno
    · exact .inl ⟨hc, hkept, fun _ => hb, hp⟩
    · exact .inr hno
  rw [prefillBody] at h
  cases hmoe : cfg.hasMoe with
  | true =>
      rw [if_pos hmoe] at h
      simp only at h
      cases halloc : env.prefillAlloc with
      | error c =>
          simp only [halloc] at h
          obtain ⟨-, rfl⟩ := Prod.ext_iff.mp h
          by_cases hp : Present e.model
          · refine .inl ⟨?_, .refl, fun hb => by simp [hb], hp⟩
            rw [BodyClean, if_pos hmoe]
            exact .inl ⟨hp, c, halloc⟩
          · refine .inr ⟨?_, .inl hp⟩
            rw [BodyClean, if_pos hmoe, halloc]
            simp [hp]
      | ok u =>
          simp only [halloc] at h
          exact hloop e.model (.refl ht) (fun _ => Iff.rfl) halloc h
  | false =>
      have hno : ¬ cfg.hasMoe = true := by simp [hmoe]
      rw [if_neg hno] at h
      rcases hs : ensurePagedDecodeState cfg env false e.model with ⟨g | u, m⟩
      all_goals
        obtain ⟨hl, hiff, hsame, hpresent⟩ := ensurePagedDecodeState_spec ht hs
        simp only [hs] at h
      · obtain ⟨-, rfl⟩ := Prod.ext_iff.mp h
        have hfail : PoolFails env e.model := by
          by_contra hnf
          exact absurd (hiff.mpr ⟨hnf, fun hq => by cases hq.1⟩) (by simp)
        refine .inr ⟨?_, .inl ?_⟩
        · rw [BodyClean, if_neg hno]
          exact fun hc => hc.1 hfail
        · rw [hsame hfail]
          exact not_present_of_none (ht.seq_none hfail.1)
      · have hnf : ¬ PoolFails env e.model := (hiff.mp rfl).1
        have hp := hpresent hnf
        cases halloc : env.prefillAlloc with
        | error c =>
            simp only [halloc] at h
            obtain ⟨-, rfl⟩ := Prod.ext_iff.mp h
            refine .inl ⟨?_, hl.kept, fun hb => by simp [hb], hp⟩
            rw [BodyClean, if_neg hno]
            exact ⟨hnf, c, halloc⟩
        | ok u =>
            simp only [halloc] at h
            exact hloop m hl (fun hyes => absurd hyes hno) halloc h

/-! ### Reachable engines -/

/-- A worker that was spawned runs. -/
lemma spawned_of_ok (ht : Together m)
    (h : Model.ensurePersistentWorkerSpawned cfg env m = (.ok (), m')) : Spawned m' := by
  obtain ⟨-, -, hfails, hok⟩ := ensurePersistentWorkerSpawned_spec ht h
  exact (hok fun hf => (hfails hf).1 rfl).2.1

/-- A prefill is that of the model, unless the engine is stuck. -/
lemma prefill_eq (hready : Ready e) (hs : ¬ Stuck e)
    (h : prefill cfg env b total e = (r, e')) (hpanic : ∀ f, r = .error f → ¬ f.IsPanic) :
    Model.prefill cfg env total e.model = (r, e'.model) := by
  rw [prefill] at h
  rw [Model.prefill]
  split_ifs at h ⊢
  · obtain ⟨rfl, rfl⟩ := Prod.ext_iff.mp h
    rfl
  rcases hspawn : ensurePersistentWorkerSpawned cfg env e with ⟨f | u, e₁⟩
  all_goals
    have hmodel := (ensurePersistentWorkerSpawned_eq hready hs hspawn).1
    simp only [hspawn] at h
    simp only [hmodel]
  · obtain ⟨rfl, rfl⟩ := Prod.ext_iff.mp h
    rfl
  · exact (prefillBody_eq h hpanic).1

/-- A decode step is that of the model, unless the engine is stuck. -/
lemma decodeStep_eq {tokenId position : ℕ} (ht : Together e.model) (hready : Ready e)
    (hs : ¬ Stuck e) (h : decodeStep cfg env tokenId position e = (r, e')) :
    Model.decodeStep cfg env tokenId position e.model = (r, e'.model) := by
  rw [decodeStep] at h
  rcases hspawn : ensurePersistentWorkerSpawned cfg env e with ⟨f | u, e₁⟩
  all_goals
    have hmodel := (ensurePersistentWorkerSpawned_eq hready hs hspawn).1
    simp only [hspawn] at h
  · obtain ⟨rfl, rfl⟩ := Prod.ext_iff.mp h
    simp only [Model.decodeStep, decodePatch, hmodel]
  · have hspawned := spawned_of_ok ht hmodel
    rw [if_pos hspawned.2] at h
    obtain ⟨rfl, rfl⟩ := Prod.ext_iff.mp h
    have hagain : Model.ensurePersistentWorkerSpawned cfg env e₁.model = (.ok (), e₁.model) :=
      if_pos hspawned
    simp only [Model.decodeStep, decodePatch, hmodel, hagain]

/-- **A step** is one of the engine without buffers and dispatcher, unless the engine is stuck. -/
lemma Step.model {c : Call} (ht : Together e.model) (hready : Ready e) (hs : ¬ Stuck e)
    (h : Step cfg e c e') : Model.Step cfg e.model c.model e'.model := by
  obtain ⟨r, hcall, hok⟩ := h
  refine ⟨r, ?_, hok⟩
  cases c with
  | prefill env b total => exact prefill_eq hready hs hcall hok
  | decode env tokenId position => exact decodeStep_eq ht hready hs hcall
  | reset env =>
      obtain ⟨rfl, rfl⟩ := Prod.ext_iff.mp hcall
      rfl

lemma spawn_of_stuck (hs : Stuck e) :
    ensurePersistentWorkerSpawned cfg env e = (.ok (), e) :=
  if_pos ⟨hs.1, hs.2.1⟩

lemma ready_of_spawn (ht : Together e.model) (hready : Ready e) (hs : ¬ Stuck e)
    (h : ensurePersistentWorkerSpawned cfg env e = (r, e')) : Ready e' := by
  obtain ⟨hmodel, -, hok, herr⟩ := ensurePersistentWorkerSpawned_eq hready hs h
  obtain ⟨-, -, hfails, hspawned⟩ := ensurePersistentWorkerSpawned_spec ht hmodel
  by_cases hf : SpawnFails cfg env e.model
  · obtain ⟨hr, hworkers, hsame, hprogram⟩ := hfails hf
    refine ⟨fun hw => (herr hr).trans (hready.dispatcher (hworkers ▸ hw)), fun hw => ?_⟩
    by_cases hp : ProgramFails env e.model
    · rw [hsame hp]
      exact hready.program (hworkers ▸ hw)
    · exact hprogram hp
  · exact ⟨fun _ => hok (hspawned hf).1, fun _ => (hspawned hf).2.1.1⟩

/-- The worker, its program and the dispatcher are as they were behind the spawning. -/
lemma ready_of_body (hready : Ready e) (h : prefillBody cfg env b total e = (r, e'))
    (hpanic : ∀ f, r = .error f → ¬ f.IsPanic) : Ready e' := by
  obtain ⟨hmodel, hdisp⟩ := prefillBody_eq h hpanic
  obtain ⟨hworkers, hprogram⟩ := body_frame hmodel
  exact ⟨fun hw => hdisp ▸ hready.dispatcher (hworkers ▸ hw),
    fun hw => hprogram ▸ hready.program (hworkers ▸ hw)⟩

lemma ready_of_prefill (ht : Together e.model) (hready : Ready e)
    (h : prefill cfg env b total e = (r, e')) (hpanic : ∀ f, r = .error f → ¬ f.IsPanic) :
    Ready e' := by
  rw [prefill] at h
  split_ifs at h
  · obtain ⟨-, rfl⟩ := Prod.ext_iff.mp h
    exact hready
  by_cases hs : Stuck e
  · simp only [spawn_of_stuck hs] at h
    exact ready_of_body hready h hpanic
  rcases hspawn : ensurePersistentWorkerSpawned cfg env e with ⟨f | u, e₁⟩
  all_goals
    have hready₁ := ready_of_spawn ht hready hs hspawn
    simp only [hspawn] at h
  · obtain ⟨-, rfl⟩ := Prod.ext_iff.mp h
    exact hready₁
  · exact ready_of_body hready₁ h hpanic

/-- A decode step of a running worker keeps the program. -/
lemma decodeStep_program {tokenId position : ℕ} (hs : Spawned m)
    (h : Model.decodeStep cfg env tokenId position m = (r, m'))
    (hpanic : ∀ f, r = .error f → ¬ f.IsPanic) : m'.megakernelPaged.isSome := by
  have hpatch : ∀ {r m'}, decodePatch cfg env tokenId position m = (r, m') →
      m'.megakernelPaged.isSome := by
    intro r m' h
    have hspawned : Model.ensurePersistentWorkerSpawned cfg env m = (.ok (), m) := if_pos hs
    simp only [decodePatch, hspawned] at h
    split at h
    · split at h
      · obtain ⟨-, rfl⟩ := Prod.ext_iff.mp h
        exact hs.1
      · split at h <;> obtain ⟨-, rfl⟩ := Prod.ext_iff.mp h
        · exact hs.1
        · rfl
    · obtain ⟨-, rfl⟩ := Prod.ext_iff.mp h
      exact hs.1
  rw [Model.decodeStep] at h
  rcases hp : decodePatch cfg env tokenId position m with ⟨g | u, m₁⟩ <;> simp only [hp] at h
  · obtain ⟨-, rfl⟩ := Prod.ext_iff.mp h
    exact hpatch hp
  · rcases decodeFinish_spec h with ⟨seq, allocator, prog, s, n, -, -, -, -, rfl⟩ |
      ⟨-, -, -, -, -, -, -, -, rfl⟩ | ⟨f, hf, hp⟩
    · rfl
    · exact hpatch hp
    · exact absurd hp (hpanic f hf)

lemma ready_of_decode {tokenId position : ℕ} (ht : Together e.model) (hready : Ready e)
    (h : decodeStep cfg env tokenId position e = (r, e'))
    (hpanic : ∀ f, r = .error f → ¬ f.IsPanic) : Ready e' := by
  rw [decodeStep] at h
  rcases hspawn : ensurePersistentWorkerSpawned cfg env e with ⟨f | u, e₁⟩
  all_goals
    have hready₁ : Ready e₁ := by
      by_cases hs : Stuck e
      · rw [spawn_of_stuck hs] at hspawn
        obtain ⟨-, rfl⟩ := Prod.ext_iff.mp hspawn
        exact hready
      · exact ready_of_spawn ht hready hs hspawn
    simp only [hspawn] at h
  · obtain ⟨-, rfl⟩ := Prod.ext_iff.mp h
    exact hready₁
  split at h
  · rename_i hw
    obtain ⟨hr, rfl⟩ := Prod.ext_iff.mp h
    exact ⟨fun _ => hready₁.dispatcher hw,
      fun _ => decodeStep_program ⟨hready₁.program hw, hw⟩ (Prod.ext hr rfl) hpanic⟩
  · repeat' split at h
    all_goals
      obtain ⟨-, rfl⟩ := Prod.ext_iff.mp h
      exact hready₁

/-- What is known of a reachable engine. -/
structure Inv (cfg : EngineConfig) (e : Buffered) : Prop where
  sound : Sound cfg e.model
  ready : Ready e

lemma Inv.together (h : Inv cfg e) : Together e.model := h.sound.together

/-- A call of a stuck engine that does not panic. -/
lemma sound_of_stuck {c : Call} (hsound : Sound cfg e.model) (hs : Stuck e)
    (h : Step cfg e c e') : Sound cfg e'.model := by
  obtain ⟨r, hcall, hok⟩ := h
  cases c with
  | prefill env b total =>
      change prefill cfg env b total e = (r, e') at hcall
      rw [prefill] at hcall
      split_ifs at hcall
      · obtain ⟨-, rfl⟩ := Prod.ext_iff.mp hcall
        exact hsound
      · simp only [spawn_of_stuck hs] at hcall
        rcases prefillBody_spec (prefillBody_eq hcall hok).1 with hgrow | hlose
        · exact (hgrow.extends hsound).sound
        · exact (hlose.spec hsound).1
  | decode env tokenId position =>
      change decodeStep cfg env tokenId position e = (r, e') at hcall
      rw [decodeStep] at hcall
      simp only [spawn_of_stuck hs, hs.2.2, Bool.false_eq_true, if_false] at hcall
      repeat' split at hcall
      all_goals
        obtain ⟨-, rfl⟩ := Prod.ext_iff.mp hcall
        exact hsound
  | reset env =>
      obtain ⟨hr, rfl⟩ := Prod.ext_iff.mp hcall
      exact hsound.step (c := .reset env) ⟨r, Prod.ext hr rfl, hok⟩

lemma Inv.step {c : Call} (h : Inv cfg e) (hstep : Step cfg e c e') : Inv cfg e' := by
  refine ⟨?_, ?_⟩
  · by_cases hs : Stuck e
    · exact sound_of_stuck h.sound hs hstep
    · exact h.sound.step (hstep.model h.together h.ready hs)
  · obtain ⟨r, hcall, hok⟩ := hstep
    cases c with
    | prefill env b total => exact ready_of_prefill h.together h.ready hcall hok
    | decode env tokenId position => exact ready_of_decode h.together h.ready hcall hok
    | reset env =>
        obtain ⟨hr, rfl⟩ := Prod.ext_iff.mp hcall
        have hnone : (Model.resetState env e.model).2.persistentWorkers = false := by
          rcases hreset : Model.resetState env e.model with ⟨r', m⟩
          rcases resetState_spec h.together hreset with
            ⟨seq, allocator, quant, seq₁, mem, seq₂, -, -, -, -, -, rfl⟩ | ⟨-, n, rfl⟩ | ⟨f, hf, hp⟩
          · rfl
          · rfl
          · rw [call, resetState, hreset] at hr
            exact absurd hp (hok f (hr.symm.trans hf))
        exact ⟨fun hw => absurd hw (by simp [call, resetState, hnone]),
          fun hw => absurd hw (by simp [call, resetState, hnone])⟩

lemma inv_of_run {calls : List Call} (hrun : Run (Step cfg) (load cfg) calls e) : Inv cfg e :=
  hrun.invariant (fun _ _ _ h hstep => h.step hstep)
    ⟨.init, ⟨(fun h => by cases h), (fun h => by cases h)⟩⟩

/-! ### Failed calls -/

/-- The two phases of the call, seen from before it. -/
lemma failsClean_iff (ht : Together e.model) (hready : Ready e) (hstuck : ¬ Stuck e)
    (htotal : total ≠ 0) (hspawn : ¬ SpawnFails cfg env e.model) {m₁ : Model}
    (hs : Model.ensurePersistentWorkerSpawned cfg env e.model = (r, m₁)) :
    FailsClean cfg env total e ↔ BodyClean cfg env m₁ := by
  obtain ⟨-, hspawned, hsame, hnew⟩ := (ensurePersistentWorkerSpawned_spec ht hs).2.2.2 hspawn
  by_cases hu : Usable e
  · have hp : Present m₁ := by
      by_cases hyes : Spawned e.model
      · exact hsame hyes ▸ (hu hyes.1 (hready.dispatcher hyes.2)).2
      · exact hnew hyes
    have hpool : ¬ PoolFails env m₁ := by
      intro hfail
      have hsome := hp.2
      rw [hfail.1] at hsome
      cases hsome
    have hclean : FailsClean cfg env total e ↔ (∃ c, env.prefillAlloc = .error c) ∨
        (cfg.hasMoe = true ∧ ∃ c, env.slab 0 = .early c) := by
      simp [FailsClean, StopsEarly, hu, htotal, hspawn]
    rw [hclean, BodyClean]
    cases halloc : env.prefillAlloc <;> split_ifs with hmoe <;> simp [hmoe, hp, hpool]
  · obtain ⟨hprogram, hno⟩ := Classical.not_imp.mp hu
    obtain ⟨hdisp, hno⟩ := Classical.not_imp.mp hno
    have hw : e.model.persistentWorkers = true := by
      by_contra hw
      exact hstuck ⟨hprogram, hdisp, Bool.not_eq_true _ ▸ hw⟩
    obtain rfl := hsame ⟨hprogram, hw⟩
    have hnp : ¬ Present e.model := fun hp => hno ⟨hw, hp⟩
    have hnone : e.model.pageAllocator = none := by
      by_contra hsome
      exact hnp (ht.present (Option.isSome_iff_ne_none.mpr hsome))
    have hpool : ¬ PoolFails env e.model ↔ ∃ base, env.vramPool = .ok base := by
      cases hv : env.vramPool <;> simp [PoolFails, hnone, hv]
    have hclean : FailsClean cfg env total e ↔ Restarts cfg env total e := by
      simp [FailsClean, hu]
    rw [hclean, BodyClean, Restarts, hpool, and_iff_right hw, and_iff_right htotal]
    split_ifs with hmoe <;> simp [hnp]

/-- A failed spawning leaves the engine as it was where there is no dispatcher, or no program
either. -/
lemma leftAsItWas_of_spawn {f : ModelFault} (ht : Together e.model) (hready : Ready e)
    (hstuck : ¬ Stuck e) (h : ensurePersistentWorkerSpawned cfg env e = (.error f, e')) :
    SpawnFails cfg env e.model ∧ Usable e ∧
      (LeftAsItWas cfg e e' ↔ (e.dispatcher = true → ProgramFails env e.model)) := by
  obtain ⟨hmodel, hbufs, -, hdisp⟩ := ensurePersistentWorkerSpawned_eq hready hstuck h
  obtain ⟨hkept, -, hfails, hok⟩ := ensurePersistentWorkerSpawned_spec ht hmodel
  have hfail : SpawnFails cfg env e.model := by
    by_contra hno
    exact absurd (hok hno).1 (by simp)
  -- an engine with program and dispatcher has its worker
  have hnot : e.model.megakernelPaged.isSome → e.dispatcher = true → False := by
    intro hp hd
    by_cases hw : e.model.persistentWorkers = true
    · exact hfail.1 ⟨hp, hw⟩
    · exact hstuck ⟨hp, hd, Bool.not_eq_true _ ▸ hw⟩
  obtain ⟨hr, hworkers, hsame, hprogram⟩ := hfails hfail
  have hdisp := hdisp hr
  refine ⟨hfail, fun hp hd => (hnot hp hd).elim, fun hleft hd => ?_, fun hclean => ?_⟩
  · by_contra hno
    obtain ⟨hw, -⟩ := hleft.usable (hprogram hno) (hdisp.trans hd)
    exact hnot (hready.program (hworkers ▸ hw)) hd
  · refine ⟨hkept, fun hb => hbufs.trans hb, fun hp hd => ?_⟩
    rw [hsame (hclean (hdisp.symm.trans hd))] at hp
    exact (hnot hp (hdisp.symm.trans hd)).elim

/-- **A failed prefill leaves the engine as it was exactly if it fails before it takes the
sequence**, and not between the program and the worker of a dispatcher that is there. -/
theorem prefill_failure_iff (cfg : EngineConfig) (env : Env) (b : BufEnv) (total : ℕ)
    (calls : List Call) (e e' : Buffered) (f : ModelFault)
    (hrun : Run (Step cfg) (load cfg) calls e)
    (h : prefill cfg env b total e = (.error f, e')) (hf : ¬ f.IsPanic) :
    LeftAsItWas cfg e e' ↔ FailsClean cfg env total e := by
  have hinv := inv_of_run hrun
  have ht := hinv.together
  have hready := hinv.ready
  have hpanic : ∀ g, (.error f : Except ModelFault Unit) = .error g → ¬ g.IsPanic :=
    fun g hg => Except.error.inj hg ▸ hf
  rw [prefill] at h
  split_ifs at h with htotal
  · obtain ⟨-, rfl⟩ := Prod.ext_iff.mp h
    constructor
    · exact fun hleft => .inl ⟨hleft.usable, .inl htotal⟩
    · rintro (⟨hu, -⟩ | ⟨-, hre⟩)
      · exact ⟨.refl, id, hu⟩
      · exact absurd htotal hre.2.1
  by_cases hs : Stuck e
  · -- no call spawns the worker
    simp only [spawn_of_stuck hs] at h
    obtain ⟨hmodel, hdisp⟩ := prefillBody_eq h hpanic
    obtain ⟨hworkers, hprogram⟩ := body_frame hmodel
    have hno : ¬ e.model.persistentWorkers = true := by simp [hs.2.2]
    refine iff_of_false (fun hleft => hno ?_) ?_
    · exact hworkers ▸ (hleft.usable (hprogram ▸ hs.1) (hdisp.trans hs.2.1)).1
    · rintro (⟨hu, -⟩ | ⟨-, hre⟩)
      · exact hno (hu hs.1 hs.2.1).1
      · exact hno hre.1
  rcases hspawn : ensurePersistentWorkerSpawned cfg env e with ⟨g | u, e₁⟩ <;>
    simp only [hspawn] at h
  · obtain ⟨-, rfl⟩ := Prod.ext_iff.mp h
    obtain ⟨hfail, hu, hiff⟩ := leftAsItWas_of_spawn ht hready hs hspawn
    rw [hiff]
    simp [FailsClean, StopsEarly, hu, htotal, hfail]
  · obtain ⟨hmodel, hbufs₁, hdisp₁, -⟩ := ensurePersistentWorkerSpawned_eq hready hs hspawn
    obtain ⟨hkept, htog, hfails, hok⟩ := ensurePersistentWorkerSpawned_spec ht hmodel
    have hno : ¬ SpawnFails cfg env e.model := fun hfail => (hfails hfail).1 rfl
    obtain ⟨-, hspawned, -, -⟩ := hok hno
    rw [failsClean_iff ht hready hs htotal hno hmodel]
    obtain ⟨hbody, hdisp⟩ := prefillBody_eq h hpanic
    obtain ⟨hworkers, hprogram⟩ := body_frame hbody
    have hw := hworkers.trans hspawned.2
    rcases prefillBody_failure htotal hspawned.2 htog h hf with ⟨hc, hkept', hbufs, hp⟩ |
      ⟨hc, hspoiled⟩
    · exact iff_of_true ⟨hkept.trans hkept', fun hb => hbufs (hbufs₁.trans hb),
        fun _ _ => ⟨hw, hp⟩⟩ hc
    · refine iff_of_false (fun hleft => ?_) hc
      rw [Spoiled, hkept.len_eq, hkept.seqLen] at hspoiled
      exact Spoiled.not_present hspoiled hleft.kept
        (hleft.usable (hprogram ▸ hspawned.1) (hdisp.trans (hdisp₁ rfl))).2

/-- The second of two prefills cannot load its scratch memory: nothing has happened. -/
theorem prefill_failure_iff_alloc :
    ∃ e e', Run (Step (smallConfig false)) (load (smallConfig false))
        [.prefill (quietEnv 100000 900000) ⟨false, fun _ => false, false⟩ 2] e ∧
      prefill (smallConfig false) { quietEnv 100000 900000 with prefillAlloc := .error 2 }
        ⟨false, fun _ => false, false⟩ 3 e = (.error (.hip 2), e') ∧
      (LeftAsItWas (smallConfig false) e e' ↔ FailsClean (smallConfig false)
        { quietEnv 100000 900000 with prefillAlloc := .error 2 } 3 e) := by
  let cfg := smallConfig false
  let env := { quietEnv 100000 900000 with prefillAlloc := .error 2 }
  let b : BufEnv := ⟨false, fun _ => false, false⟩
  let first : Call := .prefill (quietEnv 100000 900000) b 2
  let e := ((load cfg).call cfg first).2
  have hrun : Run (Step cfg) (load cfg) [first] e :=
    Run.nil.snoc (.of_isOk cfg (by decide +kernel))
  have h : prefill cfg env b 3 e = (.error (.hip 2), (prefill cfg env b 3 e).2) :=
    Prod.ext (by decide +kernel) rfl
  exact ⟨e, _, hrun, h, prefill_failure_iff cfg env b 3 _ e _ _ hrun h id⟩

/-- Two tokens, then a prefill whose program cannot be compiled: sequence, pool and buffers are
gone, and the next decode step panics. -/
theorem prefill_failure_loses_sequence :
    ∃ e e', Run (Step (smallConfig false)) (load (smallConfig false))
        [.prefill (quietEnv 100000 900000) ⟨false, fun _ => false, false⟩ 2] e ∧
      prefill (smallConfig false) { quietEnv 100000 900000 with slab := fun _ => .compile 1 }
        ⟨false, fun _ => false, false⟩ 3 e = (.error (.hip 1), e') ∧
      e.model.pagedSeq.isSome ∧ e.prefillBufs = true ∧ e'.model.pagedSeq = none ∧
      e'.model.pageAllocator = none ∧ e'.prefillBufs = false ∧
      ¬ LeftAsItWas (smallConfig false) e e' ∧
      (decodeStep (smallConfig false) (quietEnv 100000 900000) 7 2 e').1 = .error .unwrapNone := by
  let cfg := smallConfig false
  let env := { quietEnv 100000 900000 with slab := fun _ => .compile 1 }
  let b : BufEnv := ⟨false, fun _ => false, false⟩
  let first : Call := .prefill (quietEnv 100000 900000) b 2
  let e := ((load cfg).call cfg first).2
  have hrun : Run (Step cfg) (load cfg) [first] e :=
    Run.nil.snoc (.of_isOk cfg (by decide +kernel))
  have hlost : (prefill cfg env b 3 e).2.model.pagedSeq = none :=
    Option.isNone_iff_eq_none.mp (by decide +kernel)
  have hspawned : (prefill cfg env b 3 e).2.model.megakernelPaged.isSome ∧
      (prefill cfg env b 3 e).2.dispatcher = true := by
    decide +kernel
  exact ⟨e, (prefill cfg env b 3 e).2, hrun, Prod.ext (by decide +kernel) rfl,
    by decide +kernel, by decide +kernel, hlost,
    Option.isNone_iff_eq_none.mp (by decide +kernel), by decide +kernel,
    fun hleft => not_present_of_none hlost (hleft.usable hspawned.1 hspawned.2).2,
    by decide +kernel⟩

end Buffered

end Braidinfer.Engine
