/-
A multi-GPU MoE engine and the KV caches of its workers (`model/state.rs`, `prefill_batched`;
`model/decode/mod.rs`, `decode_step_p2p_inner`).

Decode steps grow the sequence of GPU 0 only; a prefill grows it and then broadcasts it.

* `prefillToBroadcast_fits`: a prefill whose tokens fit in VRAM keeps the sequence;
* `MultiInv.step`: the workers hold a first part of GPU 0's tokens after every call;
* `workers_follow_of_run`: **every broadcast leaves the workers with the sequence and the bytes of
  GPU 0, as long as the tokens fit in VRAM**.
-/
import Braidinfer.Engine.Broadcast
import Braidinfer.Engine.QuantPages

namespace Braidinfer.Engine

open Braidinfer.Lib Braidinfer.PagedKv Braidinfer.Megakernel
open Model (SoundSeq SeqExtends)
open SequenceState (Filled order)

/-! ### The engine with its workers -/

/-- The KV state of a multi-GPU engine: the engine on GPU 0, whose id is `device`, the program of
its decode steps, and `MultiGpuContext.workers`, one for every GPU. -/
structure MultiModel where
  model : Model
  p2p : MegakernelProgram
  device : ℕ
  workers : List GpuWorker

/-- How a call fails. -/
inductive MultiFault
  | model (e : ModelFault)
  | broadcast (e : BroadcastFault)

/-- Whether a fault is a panic. -/
def MultiFault.IsPanic : MultiFault → Prop
  | .model e => e.IsPanic
  | .broadcast (.hip _) | .broadcast (.append _) => False
  | .broadcast _ => True

/-- What HIP answers during a decode step: before the token is appended, and afterwards. -/
structure P2pEnv where
  setup : HipStatus
  dispatch : HipStatus

namespace MultiModel

variable (cfg : EngineConfig)

/-- `enable_multi_gpu`: one worker for every GPU, with its pool if there is an attention layer;
`pools` has their addresses and what their VRAM holds. -/
def load (device : ℕ) (p2p : MegakernelProgram) (pools : List (ℕ × (ℕ → UInt8))) : MultiModel :=
  { model := .init, p2p, device
    workers := pools.map fun (base, bytes) =>
      if 0 < cfg.numAttnLayers then (GpuWorker.new bytes).initAttnBuffers cfg base
      else GpuWorker.new bytes }

/-- `prefill` up to the broadcast of `prefill_batched`; `sync` is its `stream.synchronize`. -/
def prefillToBroadcast (env : Env) (sync : HipStatus) (total : ℕ) (m : Model) :
    Except ModelFault Unit × Model :=
  if total = 0 then (.error (.missingWeight "empty token sequence"), m)
  else
    match Model.ensurePersistentWorkerSpawned cfg env m with
    | (.error e, m) => (.error e, m)
    | (.ok (), m) =>
        match env.prefillAlloc with
        | .error e => (.error (.hip e), m)
        | .ok () =>
            match Model.prefillSlabs cfg env m.seqLen total
                (List.range (divCeil total chunkTokens)) m with
            | (.error e, m) => (.error e, m)
            | (.ok (), m) =>
                let m := { m with seqLen := m.seqLen + total }
                match sync with
                | .error e => (.error (.hip e), m)
                | .ok () => (.ok (), m)

/-- `prefill` of a multi-GPU MoE model. -/
def prefill (env : Env) (peer : PeerEnv) (sync : HipStatus) (total : ℕ) (s : MultiModel) :
    Except MultiFault Unit × MultiModel :=
  match prefillToBroadcast cfg env sync total s.model with
  | (.error e, m) => (.error (.model e), { s with model := m })
  | (.ok (), m) =>
      match m.pagedSeq, m.pageAllocator with
      | some seq, some allocator =>
          match broadcastPagedChunksToWorkers peer m.heap seq allocator s.device s.workers with
          | (.error e, workers) => (.error (.broadcast e), { s with model := m, workers })
          | (.ok (), workers) =>
              match env.logits with
              | .error e => (.error (.model (.hip e)), { s with model := m, workers })
              | .ok () => (.ok (), { s with model := m, workers })
      | _, _ => (.error (.model .unwrapNone), { s with model := m })

/-- `has_head_parallel`: the first worker has a sequence. -/
def hasHeadParallel (s : MultiModel) : Bool :=
  match s.workers with
  | [] => false
  | w :: _ => w.pagedSeq.isSome

/-- The end of a decode step. -/
def finishDecode (env : P2pEnv) (position : ℕ) (s : MultiModel) :
    Except MultiFault Unit × MultiModel :=
  match env.dispatch with
  | .error e => (.error (.model (.hip e)), s)
  | .ok () => (.ok (), { s with model := { s.model with seqLen := position + 1 } })

/-- `decode_step_p2p_inner`: the token goes to the sequence of GPU 0 and to no other. -/
def decodeStepP2p (env : P2pEnv) (tokenId position : ℕ) (s : MultiModel) :
    Except MultiFault Unit × MultiModel :=
  match env.setup with
  | .error e => (.error (.model (.hip e)), s)
  | .ok () =>
      match s.model.pagedSeq, s.model.pageAllocator with
      | some seq, some allocator =>
          match seq.appendToken ⟨s.model.heap, allocator, s.model.hostPageAllocator⟩
              (toI32 position) with
          | .error e => (.error (.model (.ofFault e)), s)
          | .ok (mem, seq) =>
              let model := { s.model with
                heap := mem.heap
                pagedSeq := some seq
                pageAllocator := some mem.vram
                hostPageAllocator := mem.host }
              match updateStepPagedNoUpload s.p2p tokenId position mem.heap seq mem.vram with
              | .error e => (.error (.model (.panic e)), { s with model })
              | .ok (heap, p2p) =>
                  finishDecode env position { s with model := { model with heap }, p2p }
      | _, _ =>
          if s.hasHeadParallel then (.error (.model .unwrapNone), s)
          else finishDecode env position s

/-- The calls of a run. -/
inductive Call
  | prefill (env : Env) (peer : PeerEnv) (sync : HipStatus) (total : ℕ)
  | decode (env : P2pEnv) (tokenId position : ℕ)

/-- What a call returns and the state it leaves. -/
def call (s : MultiModel) : Call → Except MultiFault Unit × MultiModel
  | .prefill env peer sync total => prefill cfg env peer sync total s
  | .decode env tokenId position => decodeStepP2p env tokenId position s

/-- One step of a run: a call that does not panic. -/
def Step (s : MultiModel) (c : Call) (s' : MultiModel) : Prop :=
  ∃ r, s.call cfg c = (r, s') ∧ ∀ e, r = .error e → ¬ e.IsPanic

/-! ### Following GPU 0 -/

/-- Byte `off` of a chunk of GPU 0, in the pool its tier says. -/
def chunkByte (peer : PeerEnv) (m : Model) (allocator : PageAllocator) (h : ChunkHandle)
    (off : ℕ) : UInt8 :=
  match (chunk m.heap h).tier with
  | .vram => peer.gpu0 (allocator.slotPtr (slotIndex m.heap h) + off)
  | .hostPinned =>
      (m.hostPageAllocator.map fun ha =>
        peer.host (ha.slotPtr (chunk m.heap h).hostSlot + off)).getD 0

/-- The sequence `ws` of a worker is the sequence `seq` of GPU 0, and its chunks hold the same
bytes. -/
structure SameSequence (peer : PeerEnv) (m : Model) (seq : SequenceState)
    (allocator : PageAllocator) (w : GpuWorker) (vram : PageAllocator) (ws : SequenceState) :
    Prop where
  chunks : ws.chunks.length = seq.chunks.length
  lens : ws.chunks.map (fun h => (chunk w.heap h).len) =
    seq.chunks.map fun h => (chunk m.heap h).len
  positions : ws.positions = seq.positions
  seqLen : ws.seqLen = seq.seqLen
  bytes : ∀ (i : ℕ) (h h' : ChunkHandle), ws.chunks[i]? = some h → seq.chunks[i]? = some h' →
    ∀ off < allocator.chunkBytes,
      w.bytes (vram.slotPtr (slotIndex w.heap h) + off) = chunkByte peer m allocator h' off

/-- A worker that follows GPU 0. -/
def Follows (peer : PeerEnv) (m : Model) (seq : SequenceState) (allocator : PageAllocator)
    (w : GpuWorker) : Prop :=
  ∃ vram ws, w.pageAllocator = some vram ∧ w.pagedSeq = some ws ∧
    SameSequence peer m seq allocator w vram ws

/-- If the call broadcasts, every worker other than GPU 0 follows GPU 0 afterwards, and nothing but
HIP can make the broadcast fail. -/
def BroadcastFollows (s : MultiModel) : Call → Prop
  | .prefill env peer sync total =>
      ∀ m, prefillToBroadcast cfg env sync total s.model = (.ok (), m) →
        ∃ seq allocator, m.pagedSeq = some seq ∧ m.pageAllocator = some allocator ∧
          match broadcastPagedChunksToWorkers peer m.heap seq allocator s.device s.workers with
          | (.ok (), ws) =>
              ∀ g w, ws[g]? = some w → g ≠ s.device → Follows peer m seq allocator w
          | (.error e, _) => e.IsHip
  | .decode _ _ _ => True

/-- The tokens of a call fit in the VRAM pool of GPU 0, and no program of a prefill fails to
compile; without a host tier a decode step need not fit. -/
def Fits (s : MultiModel) : Call → Prop
  | .prefill env _ _ total =>
      s.model.tokens + total ≤ chunkTokens * cfg.vramChunks.toNat ∧
        ∀ k e, env.slab k ≠ .compile e
  | .decode _ _ _ =>
      s.model.tokens + 1 ≤ chunkTokens * cfg.vramChunks.toNat ∨ s.model.hostPageAllocator = none

/-! ### The invariant -/

/-- The positions of the tokens of GPU 0. -/
def positions (m : Model) : List ℤ := (m.pagedSeq.map (·.positions)).getD []

lemma positions_eq {m : Model} {seq : SequenceState} (h : m.pagedSeq = some seq) :
    positions m = seq.positions := by
  rw [positions, h]
  rfl

/-- The sequence of GPU 0 is filled chunk by chunk. -/
def FilledModel (m : Model) : Prop := ∀ seq, m.pagedSeq = some seq → Filled m.heap seq

/-- The workers hold a first part of the tokens of GPU 0, which fit in its pool. -/
structure MultiInv (cfg : EngineConfig) (s : MultiModel) : Prop where
  sound : Model.Sound cfg s.model
  filled : FilledModel s.model
  fits : s.model.tokens ≤ chunkTokens * cfg.vramChunks.toNat
  many : 1 < s.workers.length
  workers : AllMirror cfg (positions s.model) (fun _ _ => 0)
    (otherGpus s.device s.workers.length) 0 s.workers

section Grows

variable {cfg : EngineConfig} {env : Env} {m m' : Model}

lemma filledModel_of_grows (h : Model.Grows cfg env m m') (hm : Model.Sound cfg m)
    (hf : FilledModel m) : FilledModel m' := by
  induction h with
  | refl => exact hf
  | tail hfirst hstep ih =>
      have hs := (Model.Grows.extends hfirst hm).sound
      cases hstep with
      | setup hsetup =>
          cases hsetup with
          | pool base hnone =>
              intro seq hseq
              obtain rfl := Option.some.inj hseq
              intro i h hi
              simp [SequenceState.new] at hi
          | _ => exact ih
      | append seq seq' allocator mem host position hseq halloc hoff happ =>
          intro seq₁ hseq₁
          obtain rfl := Option.some.inj hseq₁
          have hsound := hs.seq seq allocator hseq halloc
          exact SequenceState.appendToken_filled hsound.exclusive hsound.shape (ih seq hseq) happ

/-- A series of small changes adds positions at the end. -/
lemma positions_of_extends (hext : Model.Extends cfg env m m') (hm : Model.Sound cfg m) :
    positions m <+: positions m' := by
  cases hseq' : m'.pagedSeq with
  | none =>
      have hseq : m.pagedSeq = none := by
        by_contra hsome
        have halloc := hext.pool (hm.together ▸ Option.isSome_iff_ne_none.mpr hsome)
        rw [← hext.sound.together, hseq'] at halloc
        cases halloc
      rw [positions, positions, hseq, hseq']
  | some seq' =>
      obtain ⟨allocator', halloc'⟩ : ∃ a, m'.pageAllocator = some a :=
        Option.isSome_iff_exists.mp (by rw [← hext.sound.together, hseq']; rfl)
      rcases hext.seq seq' allocator' hseq' halloc' with
        ⟨seq, allocator, hseq, -, hgrown⟩ | ⟨hnone, -⟩
      · rw [positions_eq hseq, positions_eq hseq']
        exact hgrown.positions
      · have hseq := hm.together
        rw [hnone, Option.isSome_none, Option.isSome_eq_false_iff, Option.isNone_iff_eq_none]
          at hseq
        rw [positions, hseq]
        exact List.nil_prefix

variable {r : Except ModelFault Unit} {startPos k n total : ℕ}

/-- A slab that fits is appended or changes nothing. -/
lemma prefillSlab_fits (hmoe : cfg.hasMoe = true) (hcompile : ∀ k e, env.slab k ≠ .compile e)
    (hm : Model.Sound cfg m) (hfits : m.tokens + n ≤ chunkTokens * cfg.vramChunks.toNat)
    (h : Model.prefillSlab cfg env startPos k n m = (r, m')) :
    Model.Grows cfg env m m' ∧ m'.tokens ≤ m.tokens + n := by
  have hspec := Model.prefillSlab_spec h
  cases hspec with
  | same hs => exact ⟨hs.grows, (hs.tokens hm).le.trans (Nat.le_add_right _ _)⟩
  | appended m₁ seq seq' allocator host mem hs hseq halloc hoff happ hs' =>
      have hgrow := hs.grows.trans (Model.appendTokens_grows hseq halloc rfl hoff happ)
      refine ⟨hgrow.trans hs'.grows, ?_⟩
      rw [hs'.tokens (Model.Grows.extends hgrow hm).sound, Model.tokens_eq rfl,
        (appendTokens_positions happ).2, length_slabPositions, ← Model.tokens_eq hseq,
        hs.tokens hm]
  | lost hr hlost hstatus =>
      rcases hstatus with ⟨e, he⟩ | ⟨hdense, -⟩
      · exact absurd he (hcompile k e)
      · rw [hmoe] at hdense
        cases hdense
  | exhausted m₁ seq allocator host e hr hlost hs hseq halloc happ =>
      have hsound := (hs.grows.extends hm).sound.seq seq allocator hseq halloc
      obtain ⟨r', hok⟩ := @Model.appendTokens_ok (slabPositions startPos n)
        ⟨m₁.heap, allocator, host⟩ seq hsound.exclusive hsound.shape (by
          rw [length_slabPositions, hsound.chunkTokens, hsound.capacity, ← Model.tokens_eq hseq,
            hs.tokens hm]
          exact hfits)
      rw [happ] at hok
      cases hok

lemma prefillSlabs_fits (hmoe : cfg.hasMoe = true) (hcompile : ∀ k e, env.slab k ≠ .compile e)
    {ks : List ℕ} (hm : Model.Sound cfg m)
    (hfits : m.tokens + Model.slabTokens total ks ≤ chunkTokens * cfg.vramChunks.toNat)
    (h : Model.prefillSlabs cfg env startPos total ks m = (r, m')) :
    Model.Grows cfg env m m' ∧ m'.tokens ≤ m.tokens + Model.slabTokens total ks ∧
      (r = .ok () → m'.tokens = m.tokens + Model.slabTokens total ks) := by
  induction ks generalizing m with
  | nil =>
      obtain ⟨-, rfl⟩ := Prod.ext_iff.mp h
      exact ⟨.refl, Nat.le_add_right _ _, fun _ => rfl⟩
  | cons k ks ih =>
      rw [Model.slabTokens, List.map_cons, List.sum_cons, ← Model.slabTokens] at hfits ⊢
      rw [Model.prefillSlabs] at h
      rcases hone : Model.prefillSlab cfg env (startPos + k * chunkTokens) k
        (min chunkTokens (total - k * chunkTokens)) m with ⟨e | u, m₁⟩ <;> simp only [hone] at h
      · obtain ⟨rfl, rfl⟩ := Prod.ext_iff.mp h
        obtain ⟨hgrow, htok⟩ := prefillSlab_fits hmoe hcompile hm (by omega) hone
        exact ⟨hgrow, htok.trans (by omega), fun hr => by cases hr⟩
      · obtain ⟨hgrow, -⟩ := prefillSlab_fits hmoe hcompile hm (by omega) hone
        obtain ⟨hm₁, htok⟩ := Model.prefillSlab_tokens hm hone
        obtain ⟨hgrow', hle, heq⟩ := ih hm₁ (by omega) h
        exact ⟨hgrow.trans hgrow', by omega, fun hr => by rw [heq hr]; omega⟩

/-- **A prefill that fits**, up to its broadcast: the sequence grows, and if it gets that far there
is one. -/
lemma prefillToBroadcast_fits {sync : HipStatus} (hmoe : cfg.hasMoe = true)
    (hcompile : ∀ k e, env.slab k ≠ .compile e) (hm : Model.Sound cfg m)
    (hfits : m.tokens + total ≤ chunkTokens * cfg.vramChunks.toNat)
    (h : prefillToBroadcast cfg env sync total m = (r, m')) :
    Model.Grows cfg env m m' ∧ m'.tokens ≤ m.tokens + total ∧
      (r = .ok () → 0 < m'.tokens) := by
  rw [prefillToBroadcast] at h
  split_ifs at h with hzero
  · obtain ⟨rfl, rfl⟩ := Prod.ext_iff.mp h
    exact ⟨.refl, Nat.le_add_right _ _, fun hr => by cases hr⟩
  rcases hs : Model.ensurePersistentWorkerSpawned cfg env m with ⟨e | u, m₁⟩ <;> simp only [hs] at h
  · obtain ⟨rfl, rfl⟩ := Prod.ext_iff.mp h
    have hsetup := Model.ensurePersistentWorkerSpawned_setups hs
    exact ⟨hsetup.grows, (hsetup.tokens hm).le.trans (Nat.le_add_right _ _),
      fun hr => by cases hr⟩
  have hsetup := Model.ensurePersistentWorkerSpawned_setups hs
  have htok₁ := hsetup.tokens hm
  cases halloc : env.prefillAlloc with
  | error e =>
      simp only [halloc] at h
      obtain ⟨rfl, rfl⟩ := Prod.ext_iff.mp h
      exact ⟨hsetup.grows, htok₁.le.trans (Nat.le_add_right _ _), fun hr => by cases hr⟩
  | ok u =>
      simp only [halloc] at h
      rcases hslabs : Model.prefillSlabs cfg env m₁.seqLen total
        (List.range (divCeil total chunkTokens)) m₁ with ⟨r₂, m₂⟩
      obtain ⟨hgrow, hle, heq⟩ := prefillSlabs_fits hmoe hcompile (hsetup.grows.extends hm).sound
        (by rw [Model.slabTokens_range, htok₁]; exact hfits) hslabs
      rw [Model.slabTokens_range, htok₁] at hle heq
      rcases r₂ with e | u <;> simp only [hslabs] at h
      · obtain ⟨rfl, rfl⟩ := Prod.ext_iff.mp h
        exact ⟨hsetup.grows.trans hgrow, hle, fun hr => by cases hr⟩
      · have hdone : Model.Grows cfg env m { m₂ with seqLen := m₂.seqLen + total } :=
          (hsetup.grows.trans hgrow).tail
            (.setup (.aux m₂ m₂.persistentWorkers (m₂.seqLen + total) m₂.prefillTables .inl))
        have hpos : 0 < ({ m₂ with seqLen := m₂.seqLen + total } : Model).tokens := by
          have := heq rfl
          change 0 < m₂.tokens
          omega
        cases sync <;> obtain ⟨rfl, rfl⟩ := Prod.ext_iff.mp h
        · exact ⟨hdone, hle, fun hr => by cases hr⟩
        · exact ⟨hdone, hle, fun _ => hpos⟩

end Grows

section Runs

variable {cfg : EngineConfig} {s s' : MultiModel} {env : Env} {peer : PeerEnv} {m : Model}
  {seq : SequenceState} {allocator : PageAllocator}

/-- GPU 0's pool is no larger than a worker's. -/
lemma vramChunks_le (hchunks : cfg.maxPagedChunks < 2 ^ 32) :
    cfg.vramChunks.toNat ≤ cfg.forWorker.vramChunks.toNat := by
  have hworker : cfg.forWorker.vramChunks.toNat = cfg.maxPagedChunks :=
    UInt32.toNat_ofNat_of_lt' hchunks
  rw [hworker, EngineConfig.vramChunks]
  cases cfg.vramKvChunks with
  | none => exact (UInt32.toNat_ofNat_of_lt' hchunks).le
  | some n =>
      have hmin : min n cfg.maxPagedChunks < 2 ^ 32 :=
        Nat.lt_of_le_of_lt (Nat.min_le_right _ _) hchunks
      exact (UInt32.toNat_ofNat_of_lt' hmin).le.trans (Nat.min_le_right _ _)

/-- The bytes of GPU 0 by chunk. -/
def gpu0Data (peer : PeerEnv) (m : Model) (seq : SequenceState) (allocator : PageAllocator)
    (i off : ℕ) : UInt8 :=
  (seq.chunks[i]?.map fun h => chunkByte peer m allocator h off).getD 0

/-- A sequence in VRAM is a source for a broadcast. -/
lemma source_of_fits (hchunks : cfg.maxPagedChunks < 2 ^ 32) (hm : Model.Sound cfg m)
    (hf : FilledModel m) (hseq : m.pagedSeq = some seq) (halloc : m.pageAllocator = some allocator)
    (hfits : m.tokens ≤ chunkTokens * cfg.vramChunks.toNat) (peer : PeerEnv) :
    Source cfg peer m.heap seq allocator (gpu0Data peer m seq allocator) := by
  have hs := hm.seq seq allocator hseq halloc
  rw [Model.tokens_eq hseq] at hfits
  refine ⟨hs, hf seq hseq, ?_, fun i h hi off hoff => ?_⟩
  · rw [hs.shape.positions]
    exact hfits.trans (Nat.mul_le_mul_left _ (vramChunks_le hchunks))
  · have hvram := (hs.vram_of_le (hs.length_le_iff.mpr hfits) (List.mem_of_getElem? hi)).2
    rw [gpu0Data, hi, Option.map_some, Option.getD_some, chunkByte, hvram]

/-- A worker that holds all chunks of GPU 0 follows it. -/
lemma Follows.of_mirrors {w : GpuWorker} (hs : SoundSeq cfg m.heap allocator seq)
    (hf : Filled m.heap seq)
    (h : Mirrors cfg seq.positions (gpu0Data peer m seq allocator) seq.chunks.length w) :
    Follows peer m seq allocator w := by
  obtain ⟨vram, ws, hvram, hws, hw⟩ := h
  have hall : seq.positions.length ≤ ws.positions.length := by
    have hle := (hs.shape.length_le_iff seq.chunks.length).mp (Nat.le_refl _)
    have hreached := hw.reached
    rw [hs.chunkTokens, ← hs.shape.positions] at hle
    rw [Nat.min_eq_left hle] at hreached
    exact hreached.trans hw.sound.shape.positions.ge
  have hpos : ws.positions = seq.positions :=
    hw.tokens.eq_of_length (Nat.le_antisymm hw.tokens.length_le hall)
  have hlen : ws.seqLen = seq.seqLen := by
    rw [← hw.sound.shape.positions, hpos, hs.shape.positions]
  have htok : ws.chunkTokens = seq.chunkTokens := hw.sound.chunkTokens.trans hs.chunkTokens.symm
  have hchunks : ws.chunks.length = seq.chunks.length := by
    have hiff : ∀ n, ws.chunks.length ≤ n ↔ seq.chunks.length ≤ n := fun n => by
      rw [hw.sound.shape.length_le_iff, hs.shape.length_le_iff, hlen, htok]
    exact Nat.le_antisymm ((hiff _).mpr (Nat.le_refl _)) ((hiff _).mp (Nat.le_refl _))
  refine ⟨vram, ws, hvram, hws, hchunks, ?_, hpos, hlen, fun i h h' hi hi' off hoff => ?_⟩
  · refine List.ext_getElem (by rw [List.length_map, List.length_map, hchunks]) fun i hi hi' => ?_
    rw [List.length_map] at hi hi'
    rw [List.getElem_map, List.getElem_map, hw.filled i _ (List.getElem?_eq_getElem hi),
      hf i _ (List.getElem?_eq_getElem hi'), hlen, htok]
  · rw [SequenceState.slotIndex_eq_order hw.sound.exclusive hi,
      hw.copied i (List.getElem?_eq_some_iff.mp hi').1 off (hs.chunkBytes ▸ hoff), gpu0Data, hi']
    rfl

/-- **A broadcast** of an engine whose tokens fit. -/
lemma MultiInv.broadcast (hchunks : cfg.maxPagedChunks < 2 ^ 32) (h : MultiInv cfg s)
    (hgrow : Model.Grows cfg env s.model m) (hfits : m.tokens ≤ chunkTokens * cfg.vramChunks.toNat)
    (hseq : m.pagedSeq = some seq) (halloc : m.pageAllocator = some allocator) (peer : PeerEnv) :
    ∃ r ws, broadcastPagedChunksToWorkers peer m.heap seq allocator s.device s.workers = (r, ws) ∧
      LoopSpec cfg seq.positions (gpu0Data peer m seq allocator)
        (otherGpus s.device s.workers.length) 0 seq.chunks.length s.workers r ws := by
  have hext := hgrow.extends h.sound
  refine broadcast_spec s.device (source_of_fits hchunks hext.sound
    (filledModel_of_grows hgrow h.sound h.filled) hseq halloc hfits peer) (fun g hg => ?_) h.many
  obtain ⟨w, hw, hmir⟩ := h.workers g hg
  exact ⟨w, hw, hmir.extend (positions_eq hseq ▸ positions_of_extends hext h.sound)⟩

/-- The workers after GPU 0 grew. -/
lemma MultiInv.grow (h : MultiInv cfg s) (hgrow : Model.Grows cfg env s.model m)
    (hfits : m.tokens ≤ chunkTokens * cfg.vramChunks.toNat) :
    MultiInv cfg { s with model := m } := by
  have hext := hgrow.extends h.sound
  refine ⟨hext.sound, filledModel_of_grows hgrow h.sound h.filled, hfits, h.many, fun g hg => ?_⟩
  obtain ⟨w, hw, hmir⟩ := h.workers g hg
  exact ⟨w, hw, hmir.extend (positions_of_extends hext h.sound)⟩

/-- The workers after a broadcast. -/
lemma MultiInv.of_loopSpec {ws : List GpuWorker} {r : Except BroadcastFault Unit}
    {data : ℕ → ℕ → UInt8} {k : ℕ} (h : MultiInv cfg s) (hseq : s.model.pagedSeq = some seq)
    (hspec : LoopSpec cfg seq.positions data (otherGpus s.device s.workers.length) 0 k s.workers r
      ws) : MultiInv cfg { s with workers := ws } := by
  refine ⟨h.sound, h.filled, h.fits, hspec.length ▸ h.many, fun g hg => ?_⟩
  rw [show ({ s with workers := ws } : MultiModel).workers.length = s.workers.length from
    hspec.length] at hg
  rcases hspec.result with ⟨-, hall⟩ | ⟨e, -, hall⟩ <;>
  · obtain ⟨w, hw, hmir⟩ := hall g hg
    exact ⟨w, hw, hmir.extend (positions_eq hseq ▸ List.prefix_rfl)⟩

/-- A decode step that fits. -/
lemma MultiInv.decode {env : P2pEnv} {tokenId position : ℕ} (h : MultiInv cfg s)
    (hfits : Fits cfg s (.decode env tokenId position))
    {r : Except MultiFault Unit} (hcall : decodeStepP2p env tokenId position s = (r, s'))
    (hno : ∀ e, r = .error e → ¬ e.IsPanic) : MultiInv cfg s' := by
  have hfinish : ∀ s₁ : MultiModel, MultiInv cfg s₁ → finishDecode env position s₁ = (r, s') →
      MultiInv cfg s' := by
    intro s₁ h₁ hf
    rw [finishDecode] at hf
    split at hf <;> obtain ⟨-, rfl⟩ := Prod.ext_iff.mp hf
    · exact h₁
    · exact ⟨h₁.sound.of_same rfl rfl rfl h₁.sound.hostOff h₁.sound.workers, h₁.filled, h₁.fits,
        h₁.many, h₁.workers⟩
  rw [decodeStepP2p] at hcall
  split at hcall
  · obtain ⟨-, rfl⟩ := Prod.ext_iff.mp hcall
    exact h
  split at hcall
  · rename_i seq allocator hseq halloc
    have hs := h.sound.seq seq allocator hseq halloc
    rcases happ : seq.appendToken ⟨s.model.heap, allocator, s.model.hostPageAllocator⟩
      (toI32 position) with e | ⟨⟨heap₁, vram₁, host₁⟩, seq₁⟩ <;> simp only [happ] at hcall
    · obtain ⟨-, rfl⟩ := Prod.ext_iff.mp hcall
      exact h
    obtain ⟨hs₁, hext⟩ := hs.append h.sound.hostOff happ
    have hf₁ := SequenceState.appendToken_filled hs.exclusive hs.shape (h.filled seq hseq) happ
    rcases hup : updateStepPagedNoUpload s.p2p tokenId position heap₁ seq₁ vram₁
      with e | ⟨heap₂, p2p⟩ <;> simp only [hup] at hcall
    · obtain ⟨rfl, -⟩ := Prod.ext_iff.mp hcall
      exact absurd trivial (hno _ rfl)
    have hsame := (updateStepPagedNoUpload_spec hup).sameView seq₁.chunks
    refine hfinish _ ?_ hcall
    refine ⟨⟨rfl, fun hnone => ?_, h.sound.workers, fun seq₂ allocator₂ hs₂ ha₂ => ?_⟩,
      fun seq₂ hs₂ => ?_, ?_, h.many, fun g hg => ?_⟩
    · exact SequenceState.appendToken_host_none happ (h.sound.hostOff hnone)
    · obtain rfl := Option.some.inj hs₂
      obtain rfl := Option.some.inj ha₂
      exact hs₁.congr hsame rfl rfl rfl rfl
    · obtain rfl := Option.some.inj hs₂
      exact hf₁.congr hsame rfl rfl rfl
    · change seq₁.seqLen ≤ _
      rcases hfits with hfits | hnone
      · rw [Model.tokens_eq hseq] at hfits
        rw [(appendToken_positions happ).2]
        exact hfits
      · -- without a host tier the token was appended because there was room for it
        rw [← hs₁.length_le_iff, ← hs.capacity]
        refine SequenceState.appendToken_length_le hs.exclusive happ hnone ?_
        rw [hs.capacity, hs.length_le_iff, ← Model.tokens_eq hseq]
        exact h.fits
    · obtain ⟨w, hw, hmir⟩ := h.workers g hg
      refine ⟨w, hw, hmir.extend ?_⟩
      rw [positions_eq hseq]
      exact hext.positions
  · split_ifs at hcall
    · obtain ⟨rfl, -⟩ := Prod.ext_iff.mp hcall
      exact absurd trivial (hno _ rfl)
    · exact hfinish s h hcall

/-- **Every call that fits keeps the invariant.** -/
lemma MultiInv.step (hmoe : cfg.hasMoe = true) (hchunks : cfg.maxPagedChunks < 2 ^ 32)
    {c : Call} (h : MultiInv cfg s) (hfits : Fits cfg s c) (hstep : Step cfg s c s') :
    MultiInv cfg s' := by
  obtain ⟨r, hcall, hno⟩ := hstep
  cases c with
  | decode env tokenId position => exact h.decode hfits hcall hno
  | prefill env peer sync total =>
      obtain ⟨hroom, hcompile⟩ := hfits
      rw [call, prefill] at hcall
      rcases hpre : prefillToBroadcast cfg env sync total s.model with ⟨r₁, m⟩
      obtain ⟨hgrow, hle, -⟩ := prefillToBroadcast_fits hmoe hcompile h.sound hroom hpre
      have hfits := hle.trans hroom
      have hm := h.grow hgrow hfits
      rcases r₁ with e | u <;> simp only [hpre] at hcall
      · obtain ⟨-, rfl⟩ := Prod.ext_iff.mp hcall
        exact hm
      split at hcall
      · rename_i seq allocator hseq halloc
        obtain ⟨r₂, ws, hrun, hspec⟩ := h.broadcast hchunks hgrow hfits hseq halloc peer
        have hws : MultiInv cfg { s with model := m, workers := ws } := hm.of_loopSpec hseq hspec
        simp only [hrun] at hcall
        rcases r₂ with e | u
        · obtain ⟨-, rfl⟩ := Prod.ext_iff.mp hcall
          exact hws
        · dsimp only at hcall
          split at hcall <;> obtain ⟨-, rfl⟩ := Prod.ext_iff.mp hcall <;> exact hws
      · obtain ⟨-, rfl⟩ := Prod.ext_iff.mp hcall
        exact hm

lemma MultiInv.load (hattn : 0 < cfg.numAttnLayers) {pools : List (ℕ × (ℕ → UInt8))}
    (hmany : 1 < pools.length) (device : ℕ) (p2p : MegakernelProgram) :
    MultiInv cfg (MultiModel.load cfg device p2p pools) := by
  refine ⟨.init, (fun seq hseq => by cases hseq), Nat.zero_le _, ?_, fun g hg => ?_⟩
  · simpa [MultiModel.load] using hmany
  · obtain ⟨hlt, -⟩ := mem_otherGpus.mp hg
    refine ⟨_, List.getElem?_eq_getElem hlt, ?_⟩
    simp only [MultiModel.load, List.getElem_map, if_pos hattn]
    refine ⟨_, _, rfl, rfl, SoundSeq.new _ _, fun i h hi => ?_, List.nil_prefix, by simp,
      fun i hi => absurd hi (Nat.not_lt_zero i)⟩
    simp [SequenceState.new] at hi

/-- **Worker sequences follow GPU 0.**  In every run of prefills and decode steps whose tokens fit
in GPU 0's VRAM pool, every broadcast leaves each worker with as many chunks as GPU 0, of the same
lengths, with the same positions and bytes, and no index is out of range and no worker's pool
exhausted. -/
theorem workers_follow_of_run (cfg : EngineConfig) (hmoe : cfg.hasMoe = true)
    (hattn : 0 < cfg.numAttnLayers) (hchunks : cfg.maxPagedChunks < 2 ^ 32) (device : ℕ)
    (p2p : MegakernelProgram) (pools : List (ℕ × (ℕ → UInt8))) (hmany : 1 < pools.length)
    (calls : List Call) (s : MultiModel)
    (hrun : Run (guarded (Fits cfg) (Step cfg)) (load cfg device p2p pools) calls s) (c : Call)
    (hfits : Fits cfg s c) : BroadcastFollows cfg s c := by
  have h : MultiInv cfg s := hrun.invariant
    (fun _ _ _ h hstep => h.step hmoe hchunks hstep.1 hstep.2) (.load hattn hmany device p2p)
  cases c with
  | decode env tokenId position => trivial
  | prefill env peer sync total =>
      obtain ⟨hroom, hcompile⟩ := hfits
      intro m hpre
      obtain ⟨hgrow, hle, hpos⟩ := prefillToBroadcast_fits hmoe hcompile h.sound hroom hpre
      have hsound := (hgrow.extends h.sound).sound
      obtain ⟨seq, hseq⟩ : ∃ seq, m.pagedSeq = some seq := by
        by_contra hnone
        have htok := hpos rfl
        rw [Model.tokens, Option.eq_none_iff_forall_ne_some.mpr
          fun seq hseq => hnone ⟨seq, hseq⟩] at htok
        exact Nat.lt_irrefl 0 htok
      obtain ⟨allocator, halloc⟩ : ∃ a, m.pageAllocator = some a :=
        Option.isSome_iff_exists.mp (by rw [← hsound.together, hseq]; rfl)
      refine ⟨seq, allocator, hseq, halloc, ?_⟩
      obtain ⟨r, ws, hbroad, hspec⟩ := h.broadcast hchunks hgrow (hle.trans hroom) hseq halloc peer
      rw [hbroad]
      rcases hspec.result with ⟨rfl, hall⟩ | ⟨e, rfl, -⟩
      · intro g w hw hne
        have hlt : g < s.workers.length := hspec.length ▸ (List.getElem?_eq_some_iff.mp hw).1
        obtain ⟨w', hw', hmir⟩ := hall g (mem_otherGpus.mpr ⟨hlt, hne⟩)
        obtain rfl := Option.some.inj (hw.symm.trans hw')
        exact .of_mirrors (hsound.seq seq allocator hseq halloc)
          (filledModel_of_grows hgrow h.sound h.filled seq hseq) hmir
      · trivial

end Runs

/-! ### Small engines -/

/-- Byte `off` of chunk `i` of the worker `g` after the broadcast of a prefill, and of GPU 0. -/
def broadcastBytes (env : Env) (peer : PeerEnv) (sync : HipStatus) (total : ℕ) (s : MultiModel)
    (g i off : ℕ) : Option (UInt8 × UInt8) :=
  match prefillToBroadcast cfg env sync total s.model with
  | (.error _, _) => none
  | (.ok (), m) =>
      m.pagedSeq.bind fun seq => m.pageAllocator.bind fun allocator =>
        match broadcastPagedChunksToWorkers peer m.heap seq allocator s.device s.workers with
        | (.error _, _) => none
        | (.ok (), ws) =>
            ws[g]?.bind fun w => w.pageAllocator.bind fun vram => w.pagedSeq.bind fun wseq =>
              wseq.chunks[i]?.bind fun h => seq.chunks[i]?.bind fun h' =>
                if off < allocator.chunkBytes then
                  some (w.bytes (vram.slotPtr (slotIndex w.heap h) + off),
                    chunkByte peer m allocator h' off)
                else none

/-- A worker that follows GPU 0 holds its bytes. -/
lemma BroadcastFollows.bytes_eq {cfg : EngineConfig} {env : Env} {peer : PeerEnv}
    {sync : HipStatus} {total g i off : ℕ} {s : MultiModel} {a b : UInt8}
    (h : BroadcastFollows cfg s (.prefill env peer sync total)) (hg : g ≠ s.device)
    (hbytes : broadcastBytes cfg env peer sync total s g i off = some (a, b)) : a = b := by
  rw [broadcastBytes] at hbytes
  split at hbytes
  · cases hbytes
  rename_i m hpre
  obtain ⟨seq, allocator, hseq, halloc, hfollow⟩ := h m hpre
  rw [hseq, Option.bind_some, halloc, Option.bind_some] at hbytes
  split at hbytes
  · cases hbytes
  rename_i ws hbroad
  rw [hbroad] at hfollow
  simp only [Option.bind_eq_some_iff, Option.ite_none_right_eq_some, Option.some.injEq,
    Prod.mk.injEq] at hbytes
  obtain ⟨w, hw, vram, hvram, wseq, hwseq, h₁, hh₁, h₂, hh₂, hoff, rfl, rfl⟩ := hbytes
  obtain ⟨vram', wseq', hvram', hwseq', hsame⟩ := hfollow g w hw hg
  obtain rfl := Option.some.inj (hvram.symm.trans hvram')
  obtain rfl := Option.some.inj (hwseq.symm.trans hwseq')
  exact hsame.bytes i h₁ h₂ hh₁ hh₂ off hoff

/-- A call that succeeds is a step. -/
lemma Step.of_isOk {cfg : EngineConfig} {s : MultiModel} {c : Call}
    (h : (s.call cfg c).1.isOk = true) : Step cfg s c (s.call cfg c).2 := by
  refine ⟨(s.call cfg c).1, rfl, fun e he => ?_⟩
  rw [he] at h
  cases h

/-- Copies that succeed, from a GPU 0 that holds zeros and a host that holds ones. -/
def quietPeer : PeerEnv :=
  { gpu0 := fun _ => 0, host := fun _ => 1, copy := fun _ _ => .ok (), sync := fun _ => .ok () }

/-- The small MoE model on two GPUs. -/
def twoGpus (cfg : EngineConfig) : MultiModel :=
  load cfg 0 (Model.freshProgram cfg (quietEnv 65536 131072))
    [(65536, fun _ => 7), (65536, fun _ => 7)]

/-- The small engine as a MoE model. -/
def smallMoe : EngineConfig := { smallConfig false with hasMoe := true }

/-- The small engine after a prompt of 60 tokens. -/
def afterPrompt : MultiModel :=
  ((twoGpus smallMoe).call smallMoe (.prefill (quietEnv 65536 131072) quietPeer (.ok ()) 60)).2

/-- A prompt, a decode step and a second prompt that crosses two chunk boundaries. -/
theorem workers_follow_second_prompt :
    BroadcastFollows smallMoe (afterPrompt.call smallMoe (.decode ⟨.ok (), .ok ()⟩ 1 60)).2
      (.prefill (quietEnv 65536 131072) quietPeer (.ok ()) 100) := by
  have hprompt : guarded (Fits smallMoe) (Step smallMoe) (twoGpus smallMoe)
      (.prefill (quietEnv 65536 131072) quietPeer (.ok ()) 60) afterPrompt :=
    ⟨⟨by decide +kernel, fun _ _ h => by cases h⟩, Step.of_isOk (by decide +kernel)⟩
  have hdecode : guarded (Fits smallMoe) (Step smallMoe) afterPrompt
      (.decode ⟨.ok (), .ok ()⟩ 1 60)
      (afterPrompt.call smallMoe (.decode ⟨.ok (), .ok ()⟩ 1 60)).2 :=
    ⟨.inl (by decide +kernel), Step.of_isOk (by decide +kernel)⟩
  exact workers_follow_of_run smallMoe rfl (by decide) (by decide) 0 _ _ (by decide) _ _
    ((Run.nil.snoc hprompt).snoc hdecode) _ ⟨by decide +kernel, fun _ _ h => by cases h⟩

/-- A VRAM pool of one chunk with a host chunk behind it, as a MoE model. -/
def tieredMoe : EngineConfig := { Model.tieredConfig with hasMoe := true }

/-- A prompt of 65 tokens: the second chunk of GPU 0 is host-pinned, its slot index is `u32::MAX`,
and what the worker gets is not what the host chunk holds. -/
theorem workers_differ_on_host_chunk :
    ¬ ∀ (cfg : EngineConfig), cfg.hasMoe = true → 0 < cfg.numAttnLayers →
      cfg.maxPagedChunks < 2 ^ 32 →
      ∀ (device : ℕ) (p2p : MegakernelProgram) (pools : List (ℕ × (ℕ → UInt8))),
        1 < pools.length → ∀ (calls : List Call) (s : MultiModel),
          Run (Step cfg) (load cfg device p2p pools) calls s → ∀ c, BroadcastFollows cfg s c := by
  intro h
  have hfollow := h tieredMoe rfl (by decide) (by decide) 0 _ _ (by decide) [] (twoGpus tieredMoe)
    .nil (.prefill Model.tieredEnv quietPeer (.ok ()) 65)
  have hbytes : broadcastBytes tieredMoe Model.tieredEnv quietPeer (.ok ()) 65 (twoGpus tieredMoe)
      1 1 0 = some (0, 1) := by
    decide +kernel
  exact absurd (hfollow.bytes_eq (by decide) hbytes) (by decide)

end MultiModel

end Braidinfer.Engine
