/-
The single-GPU engine (`model/mod.rs`, `model/state.rs`, `model/decode/mod.rs`): its KV
state and the three calls that change it, `prefill`, `decode_step` and `reset_state`.

What HIP answers in a call, the addresses of fresh buffers included, is an argument of the
call (`Env`).  A call returns its result together with the state it leaves: a prefill that
fails while it holds the sequence and its allocator leaves neither behind, and the next call
starts a new sequence on a new pool.
-/
import Braidinfer.Megakernel.Prefill

namespace Braidinfer.Engine

open Braidinfer.Lib Braidinfer.PagedKv Braidinfer.Megakernel

/-- What the engine is configured with: the model and the environment variables. -/
structure EngineConfig where
  attn : AttnConfig
  layers : List LayerCode
  tail : List ℕ
  maxSeqLen : ℕ
  hasMoe : Bool
  /-- `BRAIDINFER_VRAM_KV_CHUNKS`, if set to a positive number. -/
  vramKvChunks : Option ℕ
  /-- `BRAIDINFER_HOST_KV_CHUNKS`, if set to a positive number. -/
  hostKvChunks : Option UInt32
  /-- `KV_QUANT=1`. -/
  kvQuant : Bool

namespace EngineConfig

variable (cfg : EngineConfig)

/-- `max_paged_chunks`. -/
def maxPagedChunks : ℕ := (cfg.maxSeqLen + chunkTokens - 1) / chunkTokens

/-- `num_attn_layers`. -/
def numAttnLayers : ℕ :=
  cfg.layers.countP fun
    | .attention => true
    | .other _ => false

/-- `chunk_kv_bytes`. -/
def chunkKvBytes : ℕ :=
  cfg.numAttnLayers * 2 * chunkTokens * (cfg.attn.numKvHeads * cfg.attn.headDim) * f32Bytes

/-- `quantized_chunk_kv_bytes`. -/
def quantizedChunkKvBytes : ℕ :=
  let dataBytes := cfg.attn.numKvHeads * chunkTokens * cfg.attn.headDim / 2
  let scaleBytes := cfg.attn.numKvHeads * cfg.attn.headDim * f32Bytes
  cfg.numAttnLayers * (2 * (2 * (dataBytes + scaleBytes)))

/-- `vram_chunks`: the size of the VRAM pool. -/
def vramChunks : UInt32 :=
  match cfg.vramKvChunks with
  | some n => .ofNat (min n cfg.maxPagedChunks)
  | none => .ofNat cfg.maxPagedChunks

end EngineConfig

/-- How a slab of a prefill fares beyond its KV bookkeeping: a failure before the tokens are
appended, one while its program is compiled, or one in its dispatch. -/
inductive SlabStatus
  | ok
  | early (code : ℕ)
  | compile (code : ℕ)
  | dispatch (code : ℕ)

/-- What HIP answers during one call. -/
structure Env where
  compile : HipStatus
  pageTablePtr : ℕ
  positionTablePtr : ℕ
  quantScratch : ℕ
  quantPageTablePtr : ℕ
  vramPool : Except ℕ ℕ
  quantPool : Except ℕ ℕ
  hostPool : Option ℕ
  dispatchInit : HipStatus
  prefillAlloc : HipStatus
  slab : ℕ → SlabStatus
  logits : HipStatus
  mirror : HipStatus
  clear : HipStatus

/-- How a call fails. -/
inductive ModelFault
  | missingWeight (what : String)
  | hip (code : ℕ)
  | panic (p : StepPanic)
  | pagedPanic (p : Panic)
  | unwrapNone
deriving DecidableEq, Repr

/-- A fault of the paged KV cache as a fault of the call. -/
def ModelFault.ofFault : Fault → ModelFault
  | .hip code => .hip code
  | .panic p => .pagedPanic p

/-- A fault of a decode step as a fault of the call. -/
def ModelFault.ofStep : StepFault → ModelFault
  | .hip code => .hip code
  | .panic p => .panic p

/-- Whether a fault is a panic. -/
def ModelFault.IsPanic : ModelFault → Prop
  | .panic _ | .pagedPanic _ | .unwrapNone => True
  | _ => False

/-- `Model`: the fields that hold KV state. -/
structure Model where
  heap : ChunkHeap
  megakernelPaged : Option MegakernelProgram
  persistentWorkers : Bool
  pageAllocator : Option PageAllocator
  pagedSeq : Option SequenceState
  quantAllocator : Option PageAllocator
  hostPageAllocator : Option HostPageAllocator
  prefillTables : PrefillTables
  filled : QuantMemory
  seqLen : ℕ

namespace Model

/-- The engine as loaded. -/
def init : Model :=
  { heap := .empty, megakernelPaged := none, persistentWorkers := false, pageAllocator := none,
    pagedSeq := none, quantAllocator := none, hostPageAllocator := none,
    prefillTables := ⟨fun _ => 0, fun _ => 0⟩, filled := fun _ => none, seqLen := 0 }

variable (cfg : EngineConfig) (env : Env)

/-! ### Lazy initialisation -/

/-- The VRAM part of `ensure_paged_decode_state`: a pool with a new, empty sequence. -/
def ensurePool (m : Model) : Except ModelFault Unit × Model :=
  match m.pageAllocator with
  | some _ => (.ok (), m)
  | none =>
      match env.vramPool with
      | .error e => (.error (.hip e), m)
      | .ok base =>
          (.ok (), { m with
            pageAllocator := some (.new base cfg.chunkKvBytes cfg.vramChunks)
            pagedSeq := some (.new chunkTokens) })

/-- The quantized part of `ensure_paged_decode_state`. -/
def ensureQuant (quantized : Bool) (m : Model) : Except ModelFault Unit × Model :=
  match quantized, m.quantAllocator with
  | true, none =>
      match env.quantPool with
      | .error e => (.error (.hip e), m)
      | .ok base =>
          let q := .new base cfg.quantizedChunkKvBytes (.ofNat cfg.maxPagedChunks)
          (.ok (), { m with quantAllocator := some q })
  | _, _ => (.ok (), m)

/-- The host part of `ensure_paged_decode_state`: a failed allocation leaves the host tier
off. -/
def ensureHost (m : Model) : Model :=
  match m.hostPageAllocator, cfg.hostKvChunks, env.hostPool with
  | none, some n, some base =>
      { m with hostPageAllocator := some (.new base cfg.chunkKvBytes n) }
  | _, _, _ => m

/-- `ensure_paged_decode_state`. -/
def ensurePagedDecodeState (quantized : Bool) (m : Model) : Except ModelFault Unit × Model :=
  match ensurePool cfg env m with
  | (.error e, m) => (.error e, m)
  | (.ok (), m) =>
      match ensureQuant cfg env quantized m with
      | (.error e, m) => (.error e, m)
      | (.ok (), m) => (.ok (), ensureHost cfg env m)

/-- The program of the first `ensure_persistent_worker_spawned`. -/
def freshProgram : MegakernelProgram :=
  let p := initPagedBuffers (compilePaged cfg.attn cfg.maxSeqLen cfg.layers cfg.tail)
    env.pageTablePtr env.positionTablePtr
  if cfg.kvQuant then enableQuantizedKv p cfg.attn env.quantScratch env.quantPageTablePtr else p

/-- The program part of `ensure_persistent_worker_spawned`. -/
def ensureProgram (m : Model) : Except ModelFault Unit × Model :=
  match m.megakernelPaged with
  | some _ => (.ok (), m)
  | none =>
      match env.compile with
      | .error e => (.error (.hip e), m)
      | .ok () => (.ok (), { m with megakernelPaged := some (freshProgram cfg env) })

/-- `ensure_persistent_worker_spawned`. -/
def ensurePersistentWorkerSpawned (m : Model) : Except ModelFault Unit × Model :=
  if m.megakernelPaged.isSome ∧ m.persistentWorkers then (.ok (), m)
  else
    match ensureProgram cfg env m with
    | (.error e, m) => (.error e, m)
    | (.ok (), m) =>
        match ensurePagedDecodeState cfg env cfg.kvQuant m with
        | (.error e, m) => (.error e, m)
        | (.ok (), m) =>
            match env.dispatchInit with
            | .error e => (.error (.hip e), m)
            | .ok () => (.ok (), { m with persistentWorkers := true })

/-! ### Prefill -/

/-- The handles of a sequence that goes out of scope are dropped. -/
def dropChunks (heap : ChunkHeap) (cs : List ChunkHandle) : ChunkHeap := cs.foldl .drop heap

/-- A failure while the sequence and its allocator are taken out of the model. -/
def loseSequence (m : Model) (seq : SequenceState) : Model :=
  { m with heap := dropChunks m.heap seq.chunks, pagedSeq := none, pageAllocator := none }

/-- One slab of `prefill_paged`: `n` tokens from `startPos`. -/
def prefillSlabDense (startPos k n : ℕ) (m : Model) : Except ModelFault Unit × Model :=
  match m.pagedSeq, m.pageAllocator with
  | some seq, some allocator =>
      match env.slab k with
      | .early e => (.error (.hip e), m.loseSequence seq)
      | status =>
          match compilePrefillPagedPersistent m.heap seq allocator m.prefillTables startPos n with
          | .error e => (.error (.ofFault e), m.loseSequence seq)
          | .ok (heap, seq, allocator, prefillTables) =>
              let m := { m with heap, prefillTables, pagedSeq := some seq,
                                pageAllocator := some allocator }
              match status with
              | .compile e => (.error (.hip e), m.loseSequence seq)
              | .dispatch e => (.error (.hip e), m)
              | _ => (.ok (), m)
  | _, _ => (.error .unwrapNone, m)

/-- One slab of `prefill_mixed_chunk_paged`: `n` tokens from `startPos`, with the host tier
as fallback.  A failure to append takes the host allocator with it. -/
def prefillSlabMixed (startPos k n : ℕ) (m : Model) : Except ModelFault Unit × Model :=
  match ensurePagedDecodeState cfg env false m with
  | (.error e, m) => (.error e, m)
  | (.ok (), m) =>
      match env.slab k with
      | .early e => (.error (.hip e), m)
      | status =>
          match m.pagedSeq, m.pageAllocator with
          | some seq, some allocator =>
              match appendTokens ⟨m.heap, allocator, m.hostPageAllocator⟩ seq
                  (slabPositions startPos n) with
              | .error e =>
                  (.error (.ofFault e), { m.loseSequence seq with hostPageAllocator := none })
              | .ok (mem, seq) =>
                  let prefillTables := compilePrefillSegmentPaged mem.heap seq mem.vram
                    m.prefillTables startPos n
                  let m := { m with heap := mem.heap, prefillTables, pagedSeq := some seq,
                                    pageAllocator := some mem.vram, hostPageAllocator := mem.host }
                  match status with
                  | .compile e => (.error (.hip e), m.loseSequence seq)
                  | .dispatch e => (.error (.hip e), m)
                  | _ => (.ok (), m)
          | _, _ => (.error .unwrapNone, m)

/-- One slab of either prefill. -/
def prefillSlab (startPos k n : ℕ) (m : Model) : Except ModelFault Unit × Model :=
  if cfg.hasMoe then prefillSlabMixed cfg env startPos k n m
  else prefillSlabDense env startPos k n m

/-- The slab loop: slab `k` covers the tokens from `k * CHUNK_TOKENS`. -/
def prefillSlabs (startPos total : ℕ) : List ℕ → Model → Except ModelFault Unit × Model
  | [], m => (.ok (), m)
  | k :: ks, m =>
      let offset := k * chunkTokens
      match prefillSlab cfg env (startPos + offset) k (min chunkTokens (total - offset)) m with
      | (.error e, m) => (.error e, m)
      | (.ok (), m) => prefillSlabs startPos total ks m

/-- `prefill_paged` and `prefill_batched`, after the worker was spawned. -/
def prefillBody (total : ℕ) (m : Model) : Except ModelFault Unit × Model :=
  let startPos := m.seqLen
  match (if cfg.hasMoe then (.ok (), m) else ensurePagedDecodeState cfg env false m) with
  | (.error e, m) => (.error e, m)
  | (.ok (), m) =>
      match env.prefillAlloc with
      | .error e => (.error (.hip e), m)
      | .ok () =>
          match prefillSlabs cfg env startPos total (List.range (divCeil total chunkTokens)) m with
          | (.error e, m) => (.error e, m)
          | (.ok (), m) =>
              let m := { m with seqLen := m.seqLen + total }
              match env.logits with
              | .error e => (.error (.hip e), m)
              | .ok () => (.ok (), m)

/-- `prefill` of a prompt of `total` tokens. -/
def prefill (total : ℕ) (m : Model) : Except ModelFault Unit × Model :=
  if total = 0 then (.error (.missingWeight "empty token sequence"), m)
  else
    match ensurePersistentWorkerSpawned cfg env m with
    | (.error e, m) => (.error e, m)
    | (.ok (), m) => prefillBody cfg env total m

/-! ### Decode -/

/-- `decode_step_persistent` up to and including `update_step_paged_no_upload`. -/
def decodePatch (tokenId position : ℕ) (m : Model) : Except ModelFault Unit × Model :=
  match ensurePersistentWorkerSpawned cfg env m with
  | (.error e, m) => (.error e, m)
  | (.ok (), m) =>
      match m.pagedSeq, m.pageAllocator, m.megakernelPaged with
      | some seq, some allocator, some prog =>
          match seq.appendToken ⟨m.heap, allocator, m.hostPageAllocator⟩ (toI32 position) with
          | .error e => (.error (.ofFault e), m)
          | .ok (mem, seq) =>
              let m := { m with heap := mem.heap, pagedSeq := some seq,
                                pageAllocator := some mem.vram, hostPageAllocator := mem.host }
              match updateStepPagedNoUpload prog tokenId position mem.heap seq mem.vram with
              | .error e => (.error (.panic e), m)
              | .ok (heap, prog) => (.ok (), { m with heap, megakernelPaged := some prog })
      | _, _, _ => (.error .unwrapNone, m)

/-- `decode_step_persistent` after the dispatch: seal the chunk, mirror it, count. -/
def decodeFinish (position : ℕ) (m : Model) : Except ModelFault Unit × Model :=
  match m.pagedSeq, m.pageAllocator, m.megakernelPaged with
  | some seq, some allocator, some prog =>
      match postStepPaged ⟨prog, seq, m.quantAllocator, m.filled⟩ position m.heap allocator with
      | .error e => (.error (.ofStep e), m)
      | .ok s =>
          let m := { m with megakernelPaged := some s.prog, pagedSeq := some s.seq,
                            quantAllocator := s.quant, filled := s.filled }
          match env.mirror with
          | .error e =>
              if (position + 1) % chunkTokens = 0 then (.error (.hip e), m)
              else (.ok (), { m with seqLen := position + 1 })
          | .ok () => (.ok (), { m with seqLen := position + 1 })
  | _, _, _ => (.error .unwrapNone, m)

/-- `decode_step_persistent`. -/
def decodeStep (tokenId position : ℕ) (m : Model) : Except ModelFault Unit × Model :=
  match decodePatch cfg env tokenId position m with
  | (.error e, m) => (.error e, m)
  | (.ok (), m) => decodeFinish env position m

/-! ### Reset -/

/-- The quantized slots of a sequence go back to their pool, if there is one. -/
def releaseQuant (m : Model) (seq : SequenceState) :
    Except Panic (Option PageAllocator × SequenceState) :=
  match m.quantAllocator with
  | none => .ok (none, seq)
  | some q =>
      match SequenceState.freeQuantSlots q seq.quantSlots with
      | .error p => .error p
      | .ok q => .ok (some q, { seq with quantSlots := [] })

/-- `reset_state`: tear down the worker and the host pool, clear the recurrent state, and
give every slot back. -/
def resetState (m : Model) : Except ModelFault Unit × Model :=
  let m := { m with persistentWorkers := false, hostPageAllocator := none }
  match env.clear with
  | .error e => (.error (.hip e), m)
  | .ok () =>
      let m := { m with seqLen := 0 }
      match m.pagedSeq with
      | none => (.ok (), m)
      | some seq =>
          match m.releaseQuant seq with
          | .error p => (.error (.pagedPanic p), m)
          | .ok (quantAllocator, seq) =>
              let m := { m with quantAllocator, pagedSeq := some seq }
              match m.pageAllocator with
              | none => (.ok (), m)
              | some allocator =>
                  match seq.reset ⟨m.heap, allocator, none⟩ with
                  | .error p => (.error (.pagedPanic p), m)
                  | .ok (mem, seq) =>
                      (.ok (), { m with heap := mem.heap, pageAllocator := some mem.vram,
                                        pagedSeq := some seq })

/-! ### Runs -/

/-- The calls of a run. -/
inductive Call
  | prefill (env : Env) (total : ℕ)
  | decode (env : Env) (tokenId position : ℕ)
  | reset (env : Env)

/-- What a call returns and the state it leaves. -/
def call (m : Model) : Call → Except ModelFault Unit × Model
  | .prefill env total => prefill cfg env total m
  | .decode env tokenId position => decodeStep cfg env tokenId position m
  | .reset env => resetState env m

/-- One step of a run: a call that does not panic. -/
def Step (m : Model) (c : Call) (m' : Model) : Prop :=
  ∃ r, m.call cfg c = (r, m') ∧ ∀ e, r = .error e → ¬ e.IsPanic

/-- A call that succeeds is a step. -/
lemma Step.of_isOk {cfg : EngineConfig} {m : Model} {c : Call}
    (h : (m.call cfg c).1.isOk = true) : Step cfg m c (m.call cfg c).2 := by
  refine ⟨(m.call cfg c).1, rfl, fun e he => ?_⟩
  rw [he] at h
  cases h

lemma eq_of_isOk {r : Except ModelFault Unit × Model} (h : r.1.isOk = true) :
    r = (.ok (), r.2) := by
  obtain ⟨e | u, m⟩ := r
  · cases h
  · rfl

end Model

/-! ### A small engine -/

/-- A model with one attention layer of one head and a context of four chunks. -/
def smallConfig (kvQuant : Bool) : EngineConfig :=
  { attn := { hiddenSize := 1, numQHeads := 1, numKvHeads := 1, headDim := 2, ropeDim := 2,
              hasOutputGate := false, hasQkNorm := true, mropeSections := (1, 0, 0),
              rmsNormEps := 0x358637bd }
    layers := [.attention]
    tail := [0]
    maxSeqLen := 256
    hasMoe := false
    vramKvChunks := none
    hostKvChunks := none
    kvQuant }

/-- A call during which every HIP call succeeds, the pools at the given addresses. -/
def quietEnv (vramPool quantPool : ℕ) : Env :=
  { compile := .ok (), pageTablePtr := 4096, positionTablePtr := 8192, quantScratch := 16384,
    quantPageTablePtr := 32768, vramPool := .ok vramPool, quantPool := .ok quantPool,
    hostPool := none, dispatchInit := .ok (), prefillAlloc := .ok (), slab := fun _ => .ok,
    logits := .ok (), mirror := .ok (), clear := .ok () }

end Braidinfer.Engine
