/-
The broadcast of GPU 0's KV chunks to the worker GPUs (`multi_gpu.rs`, `init_attn_buffers` and
`broadcast_paged_chunks_to_workers`).

Every worker has a pool and a sequence of its own.  For each chunk of GPU 0 and each worker the
broadcast appends the positions the worker lacks, until it has the chunk and the chunk its length,
and then copies the chunk whole.

* `catchUp_spec`: the two loops that extend a worker's sequence stop where they should;
* `copyChunk_spec`: what one copy does to a worker;
* `broadcast_spec`: **the broadcast leaves every worker with all chunks of GPU 0, or HIP failed**.
-/
import Braidinfer.Engine.HostTier
import Braidinfer.Megakernel.PositionTables
import Braidinfer.Lib.RowMem

namespace Braidinfer.Engine

open Braidinfer.Lib Braidinfer.PagedKv Braidinfer.Megakernel

/-! ### Workers -/

/-- `GpuWorker`: its paged KV state, and the bytes of its VRAM. -/
structure GpuWorker where
  heap : ChunkHeap
  pageAllocator : Option PageAllocator
  pagedSeq : Option SequenceState
  bytes : ℕ → UInt8

/-- What a broadcast finds outside of the engine: the bytes of GPU 0's VRAM and of the host, and
the outcome of every copy, by chunk and GPU, and of the flag kernel of every GPU. -/
structure PeerEnv where
  gpu0 : ℕ → UInt8
  host : ℕ → UInt8
  copy : ℕ → ℕ → HipStatus
  sync : ℕ → HipStatus

/-- How a broadcast fails. -/
inductive BroadcastFault
  | uninitialised
  | workerIndex
  | positionIndex
  | chunkIndex
  | append (e : Fault)
  | hip (code : ℕ)
deriving DecidableEq, Repr

/-- The failures of HIP; the others are an exhausted pool and panics. -/
def BroadcastFault.IsHip : BroadcastFault → Prop
  | .hip _ => True
  | _ => False

namespace GpuWorker

/-- A worker of `MultiGpuContext::init`. -/
def new (bytes : ℕ → UInt8) : GpuWorker :=
  { heap := .empty, pageAllocator := none, pagedSeq := none, bytes }

/-- `init_attn_buffers` for one worker, its pool at the address `base`. -/
def initAttnBuffers (cfg : EngineConfig) (base : ℕ) (w : GpuWorker) : GpuWorker :=
  { w with
    pageAllocator := some (.new base cfg.chunkKvBytes (.ofNat cfg.maxPagedChunks))
    pagedSeq := some (.new chunkTokens) }

/-- The state of a worker after its sequence was extended. -/
def withKv (w : GpuWorker) (m : KvMem) (seq : SequenceState) : GpuWorker :=
  { w with heap := m.heap, pageAllocator := some m.vram, pagedSeq := some seq }

end GpuWorker

/-- A `while` loop that appends the positions `ps` to a worker's sequence; running out of them
is an index out of bounds. -/
def catchUp (behind : ChunkHeap → SequenceState → Bool) :
    List ℤ → KvMem → SequenceState → Except BroadcastFault Unit × KvMem × SequenceState
  | [], m, s => if behind m.heap s then (.error .positionIndex, m, s) else (.ok (), m, s)
  | p :: ps, m, s =>
      if behind m.heap s then
        match s.appendToken m p with
        | .error e => (.error (.append e), m, s)
        | .ok (m, s) => catchUp behind ps m s
      else (.ok (), m, s)

/-- The condition of the first loop: there is no chunk at `idx` yet. -/
def fewChunks (idx : ℕ) (_ : ChunkHeap) (s : SequenceState) : Bool := s.chunks.length ≤ idx

/-- The condition of the second loop: the chunk at `idx` holds fewer than `len` tokens. -/
def shortChunk (idx len : ℕ) (heap : ChunkHeap) (s : SequenceState) : Bool :=
  match s.chunks[idx]? with
  | none => false
  | some h => (chunk heap h).len < len

/-- Both loops for the chunk at `idx`; the next position is the one at the worker's own length. -/
def extendWorker (positions : List ℤ) (idx len : ℕ) (m : KvMem) (s : SequenceState) :
    Except BroadcastFault Unit × KvMem × SequenceState :=
  match catchUp (fewChunks idx) (positions.drop s.positions.length) m s with
  | (.error e, m, s) => (.error e, m, s)
  | (.ok (), m, s) => catchUp (shortChunk idx len) (positions.drop s.positions.length) m s

/-! ### The loops of one worker -/

/-- The pool of a worker as a configuration: the full one, without a host tier. -/
def EngineConfig.forWorker (cfg : EngineConfig) : EngineConfig :=
  { cfg with vramKvChunks := none, hostKvChunks := none }

open Model (SoundSeq SeqExtends)
open SequenceState (Filled order)

section CatchUp

variable {cfg : EngineConfig} {behind : ChunkHeap → SequenceState → Bool}
  {positions : List ℤ} {heap : ChunkHeap} {vram : PageAllocator} {seq : SequenceState}

/-- A worker's sequence after it was extended by tokens of `positions` up to the length `n`. -/
structure Extended (cfg : EngineConfig) (positions : List ℤ) (n : ℕ) (heap : ChunkHeap)
    (vram : PageAllocator) (seq : SequenceState) (m : KvMem) (seq' : SequenceState) : Prop where
  host : m.host = none
  sound : SoundSeq cfg m.heap m.vram seq'
  filled : Filled m.heap seq'
  grown : SeqExtends heap vram seq m.heap m.vram seq'
  positions : seq'.positions <+: positions
  seqLen : seq'.seqLen = n

/-- **A loop that runs while the sequence is shorter than `t`** stops at the length `t`, if there
are that many positions and room for them. -/
lemma catchUp_spec (lo t : ℕ) {ps : List ℤ} (ht : t ≤ positions.length)
    (hroom : positions.length ≤ chunkTokens * cfg.vramChunks.toNat)
    (hbehind : ∀ heap vram seq, SoundSeq cfg heap vram seq → Filled heap seq → lo ≤ seq.seqLen →
      (behind heap seq = true ↔ seq.seqLen < t))
    (hs : SoundSeq cfg heap vram seq) (hf : Filled heap seq) (hlo : lo ≤ seq.seqLen)
    (hps : seq.positions ++ ps = positions) :
    ∃ m seq', catchUp behind ps ⟨heap, vram, none⟩ seq = (.ok (), m, seq') ∧
      Extended cfg positions (max seq.seqLen t) heap vram seq m seq' := by
  have hpre : seq.positions <+: positions := ⟨ps, hps⟩
  have hlen : seq.seqLen + ps.length = positions.length := by
    rw [← hps, List.length_append, hs.shape.positions]
  have hstop : ¬ seq.seqLen < t →
      Extended cfg positions (max seq.seqLen t) heap vram seq ⟨heap, vram, none⟩ seq := fun hge =>
    ⟨rfl, hs, hf, .refl, hpre, (Nat.max_eq_left (Nat.le_of_not_lt hge)).symm⟩
  have hiff := hbehind heap vram seq hs hf hlo
  induction ps generalizing heap vram seq with
  | nil =>
      rw [List.length_nil, Nat.add_zero] at hlen
      have hge : ¬ seq.seqLen < t := by omega
      exact ⟨_, _, by rw [catchUp, if_neg (hiff.not.mpr hge)], hstop hge⟩
  | cons p ps ih =>
      by_cases hlt : seq.seqLen < t
      · rw [List.length_cons] at hlen
        obtain ⟨⟨⟨heap₁, vram₁, host₁⟩, seq₁⟩, happ⟩ := @SequenceState.appendToken_ok
          ⟨heap, vram, none⟩ seq p hs.exclusive hs.shape (by
            rw [hs.chunkTokens, hs.capacity]
            omega)
        obtain rfl : host₁ = none := SequenceState.appendToken_host_none happ rfl
        obtain ⟨hs₁, hext⟩ := hs.append (fun _ => rfl) happ
        have hf₁ := SequenceState.appendToken_filled hs.exclusive hs.shape hf happ
        obtain ⟨hpos₁, hlen₁⟩ := appendToken_positions happ
        have hps₁ : seq₁.positions ++ ps = positions := by
          rw [hpos₁, List.append_assoc, List.singleton_append, hps]
        have hlo₁ : lo ≤ seq₁.seqLen := by omega
        obtain ⟨m, seq', hrun, hx⟩ := ih hs₁ hf₁ hlo₁ hps₁ ⟨ps, hps₁⟩ (by omega)
          (fun hge => ⟨rfl, hs₁, hf₁, .refl, ⟨ps, hps₁⟩,
            (Nat.max_eq_left (Nat.le_of_not_lt hge)).symm⟩) (hbehind _ _ _ hs₁ hf₁ hlo₁)
        refine ⟨m, seq', ?_, hx.host, hx.sound, hx.filled, hext.trans hx.grown, hx.positions, ?_⟩
        · rw [catchUp, if_pos (hiff.mpr hlt)]
          simp only [happ, hrun]
        · rw [hx.seqLen]
          omega
      · exact ⟨_, _, by rw [catchUp, if_neg (hiff.not.mpr hlt)], hstop hlt⟩

/-- There is no chunk at `idx` exactly up to `idx` full chunks of tokens. -/
lemma fewChunks_iff (hs : SoundSeq cfg heap vram seq) (idx : ℕ) :
    fewChunks idx heap seq = true ↔ seq.seqLen < chunkTokens * idx + 1 := by
  rw [fewChunks, decide_eq_true_iff, hs.shape.length_le_iff, hs.chunkTokens, Nat.lt_succ_iff]

/-- The chunk at `idx` is shorter than GPU 0's exactly as long as the sequence does not reach to the
end of it. -/
lemma shortChunk_iff (hs : SoundSeq cfg heap vram seq) (hf : Filled heap seq) {idx n : ℕ}
    (hlo : chunkTokens * idx + 1 ≤ seq.seqLen) :
    shortChunk idx (min chunkTokens (n - chunkTokens * idx)) heap seq = true ↔
      seq.seqLen < min n (chunkTokens * (idx + 1)) := by
  have hlt : idx < seq.chunks.length := by
    have hmany := (fewChunks_iff hs idx).not.mpr (by omega)
    rw [fewChunks, decide_eq_true_iff] at hmany
    omega
  rw [shortChunk, List.getElem?_eq_getElem hlt]
  simp only [decide_eq_true_iff]
  rw [hf idx _ (List.getElem?_eq_getElem hlt), hs.chunkTokens, Nat.mul_succ]
  have hct : chunkTokens = 64 := rfl
  rw [hct] at hlo ⊢
  omega

/-- **Both loops** extend the sequence to the end of GPU 0's chunk at `idx`. -/
lemma extendWorker_spec {idx : ℕ} (hidx : chunkTokens * idx < positions.length)
    (hroom : positions.length ≤ chunkTokens * cfg.vramChunks.toNat)
    (hs : SoundSeq cfg heap vram seq) (hf : Filled heap seq) (hpre : seq.positions <+: positions) :
    ∃ m seq', extendWorker positions idx
          (min chunkTokens (positions.length - chunkTokens * idx)) ⟨heap, vram, none⟩ seq =
        (.ok (), m, seq') ∧
      Extended cfg positions (max seq.seqLen (min positions.length (chunkTokens * (idx + 1))))
        heap vram seq m seq' ∧ idx < seq'.chunks.length := by
  have hdrop : ∀ s : SequenceState, s.positions <+: positions →
      s.positions ++ positions.drop s.positions.length = positions := by
    rintro s ⟨rest, rfl⟩
    rw [List.drop_left]
  obtain ⟨⟨heap₁, vram₁, host₁⟩, seq₁, hrun₁, hx₁⟩ := catchUp_spec 0 (chunkTokens * idx + 1) hidx
    hroom (fun _ _ _ hs _ _ => fewChunks_iff hs idx) hs hf (Nat.zero_le _) (hdrop seq hpre)
  obtain rfl : host₁ = none := hx₁.host
  have hlen₁ := hx₁.seqLen
  obtain ⟨m, seq', hrun, hx⟩ := catchUp_spec (chunkTokens * idx + 1)
    (min positions.length (chunkTokens * (idx + 1))) (Nat.min_le_left _ _) hroom
    (fun _ _ _ hs hf hlo => shortChunk_iff hs hf hlo) hx₁.sound hx₁.filled (by omega)
    (hdrop seq₁ hx₁.positions)
  have hlen := hx.seqLen
  have hmul : chunkTokens * (idx + 1) = chunkTokens * idx + chunkTokens := Nat.mul_succ _ _
  have hct : 0 < chunkTokens := by decide
  refine ⟨m, seq', ?_, ⟨hx.host, hx.sound, hx.filled, hx₁.grown.trans hx.grown, hx.positions, ?_⟩,
    ?_⟩
  · rw [extendWorker, hrun₁]
    exact hrun
  · omega
  · have hmany := (fewChunks_iff hx.sound idx).not.mpr (by omega)
    rw [fewChunks, decide_eq_true_iff] at hmany
    omega

end CatchUp

section Broadcast

variable (peer : PeerEnv) (heap : ChunkHeap) (gpu0 : SequenceState) (allocator : PageAllocator)

/-- The turn of one worker for the chunk `h` of GPU 0, the one at `idx`. -/
def copyChunk (idx : ℕ) (h : ChunkHandle) (gpu : ℕ) (w : GpuWorker) :
    Except BroadcastFault Unit × GpuWorker :=
  match w.pageAllocator, w.pagedSeq with
  | some vram, some seq =>
      match extendWorker gpu0.positions idx (chunk heap h).len ⟨w.heap, vram, none⟩ seq with
      | (.error e, m, s) => (.error e, w.withKv m s)
      | (.ok (), m, s) =>
          match s.chunks[idx]? with
          | none => (.error .chunkIndex, w.withKv m s)
          | some wh =>
              match peer.copy idx gpu with
              | .error e => (.error (.hip e), w.withKv m s)
              | .ok () =>
                  (.ok (), { w.withKv m s with
                    bytes := copyRange peer.gpu0 (allocator.slotPtr (slotIndex heap h)) w.bytes
                      (m.vram.slotPtr (slotIndex m.heap wh)) allocator.chunkBytes })
  | _, _ => (.error .uninitialised, w)

/-- The inner loop: one chunk to the workers `gpus`. -/
def broadcastChunk (idx : ℕ) (h : ChunkHandle) :
    List ℕ → List GpuWorker → Except BroadcastFault Unit × List GpuWorker
  | [], ws => (.ok (), ws)
  | gpu :: gpus, ws =>
      match ws[gpu]? with
      | none => (.error .workerIndex, ws)
      | some w =>
          match copyChunk peer heap gpu0 allocator idx h gpu w with
          | (.error e, w) => (.error e, ws.set gpu w)
          | (.ok (), w) => broadcastChunk idx h gpus (ws.set gpu w)

/-- The outer loop, over the chunks `hs` of GPU 0 from `idx` on. -/
def broadcastChunks (gpus : List ℕ) : ℕ → List ChunkHandle → List GpuWorker →
    Except BroadcastFault Unit × List GpuWorker
  | _, [], ws => (.ok (), ws)
  | idx, h :: hs, ws =>
      match broadcastChunk peer heap gpu0 allocator idx h gpus ws with
      | (.error e, ws) => (.error e, ws)
      | (.ok (), ws) => broadcastChunks gpus (idx + 1) hs ws

/-- The loop that waits for the copies. -/
def syncWorkers : List ℕ → Except BroadcastFault Unit
  | [] => .ok ()
  | gpu :: gpus =>
      match peer.sync gpu with
      | .error e => .error (.hip e)
      | .ok () => syncWorkers gpus

/-- The GPUs a broadcast goes to: all but GPU 0, whose id is `device`. -/
def otherGpus (device numDevices : ℕ) : List ℕ := (List.range numDevices).filter (· ≠ device)

/-- `broadcast_paged_chunks_to_workers`. -/
def broadcastPagedChunksToWorkers (device : ℕ) (ws : List GpuWorker) :
    Except BroadcastFault Unit × List GpuWorker :=
  if ws.length ≤ 1 then (.ok (), ws)
  else
    let gpus := otherGpus device ws.length
    match broadcastChunks peer heap gpu0 allocator gpus 0 gpu0.chunks ws with
    | (.error e, ws) => (.error e, ws)
    | (.ok (), ws) => (syncWorkers peer gpus, ws)

end Broadcast

/-! ### What a broadcast leaves -/

/-- A worker that holds tokens of `positions`, those of the first `k` chunks at least, with the
bytes `data` in these chunks. -/
structure WorkerSeq (cfg : EngineConfig) (positions : List ℤ) (data : ℕ → ℕ → UInt8) (k : ℕ)
    (heap : ChunkHeap) (vram : PageAllocator) (seq : SequenceState) (bytes : ℕ → UInt8) :
    Prop where
  sound : SoundSeq cfg.forWorker heap vram seq
  filled : Filled heap seq
  tokens : seq.positions <+: positions
  reached : min positions.length (chunkTokens * k) ≤ seq.seqLen
  copied : ∀ i < k, ∀ off < cfg.chunkKvBytes,
    bytes (vram.slotPtr ((order heap vram seq).getD i u32Max) + off) = data i off

/-- The sequence of the worker is such a sequence. -/
def Mirrors (cfg : EngineConfig) (positions : List ℤ) (data : ℕ → ℕ → UInt8) (k : ℕ)
    (w : GpuWorker) : Prop :=
  ∃ vram seq, w.pageAllocator = some vram ∧ w.pagedSeq = some seq ∧
    WorkerSeq cfg positions data k w.heap vram seq w.bytes

lemma Mirrors.mono {cfg : EngineConfig} {positions : List ℤ} {data : ℕ → ℕ → UInt8} {k k' : ℕ}
    {w : GpuWorker} (h : Mirrors cfg positions data k w) (hle : k' ≤ k) :
    Mirrors cfg positions data k' w := by
  obtain ⟨vram, seq, hvram, hseq, hw⟩ := h
  have hmul := Nat.mul_le_mul_left chunkTokens hle
  have hreached := hw.reached
  exact ⟨vram, seq, hvram, hseq, hw.sound, hw.filled, hw.tokens, by omega,
    fun i hi => hw.copied i (Nat.lt_of_lt_of_le hi hle)⟩

/-- A worker that holds no chunk yet may be compared with a longer sequence. -/
lemma Mirrors.extend {cfg : EngineConfig} {positions positions' : List ℤ}
    {data data' : ℕ → ℕ → UInt8} {k : ℕ} {w : GpuWorker} (h : Mirrors cfg positions data k w)
    (hpre : positions <+: positions') : Mirrors cfg positions' data' 0 w := by
  obtain ⟨vram, seq, hvram, hseq, hw⟩ := h
  exact ⟨vram, seq, hvram, hseq, hw.sound, hw.filled, hw.tokens.trans hpre, by simp,
    fun i hi => absurd hi (Nat.not_lt_zero i)⟩

section BroadcastSpec

variable {cfg : EngineConfig} {peer : PeerEnv} {heap : ChunkHeap} {gpu0 : SequenceState}
  {allocator : PageAllocator} {data : ℕ → ℕ → UInt8} {idx : ℕ} {h : ChunkHandle} {gpu : ℕ}
  {w : GpuWorker} {gpus : List ℕ} {ws : List GpuWorker}

/-- What a broadcast relies on in GPU 0: its chunks are filled in order, they fit in the pools of
the workers, and `data` is what it finds at their slots. -/
structure Source (cfg : EngineConfig) (peer : PeerEnv) (heap : ChunkHeap) (gpu0 : SequenceState)
    (allocator : PageAllocator) (data : ℕ → ℕ → UInt8) : Prop where
  sound : SoundSeq cfg heap allocator gpu0
  filled : Filled heap gpu0
  room : gpu0.positions.length ≤ chunkTokens * cfg.forWorker.vramChunks.toNat
  data : ∀ i h, gpu0.chunks[i]? = some h → ∀ off < cfg.chunkKvBytes,
    data i off = peer.gpu0 (allocator.slotPtr (slotIndex heap h) + off)

/-- The chunk at `idx` of GPU 0 begins before the end of its tokens. -/
lemma Source.lt_length (hsrc : Source cfg peer heap gpu0 allocator data)
    (hh : gpu0.chunks[idx]? = some h) : chunkTokens * idx < gpu0.positions.length := by
  have hlt : idx < gpu0.chunks.length := (List.getElem?_eq_some_iff.mp hh).1
  have hmany := (hsrc.sound.shape.length_le_iff idx).not.mp (by omega)
  rw [hsrc.sound.chunkTokens, ← hsrc.sound.shape.positions] at hmany
  omega

/-- **One copy**: it succeeds unless HIP fails, and the worker has one chunk more. -/
lemma copyChunk_spec (hsrc : Source cfg peer heap gpu0 allocator data)
    (hh : gpu0.chunks[idx]? = some h) (hw : Mirrors cfg gpu0.positions data idx w) (gpu : ℕ) :
    ∃ r w', copyChunk peer heap gpu0 allocator idx h gpu w = (r, w') ∧
      ((r = .ok () ∧ Mirrors cfg gpu0.positions data (idx + 1) w') ∨
        ∃ e, r = .error (.hip e) ∧ Mirrors cfg gpu0.positions data idx w') := by
  obtain ⟨vram, seq, hvram, hseq, hw⟩ := hw
  have hlen : (chunk heap h).len =
      min chunkTokens (gpu0.positions.length - chunkTokens * idx) := by
    rw [hsrc.filled idx h hh, hsrc.sound.chunkTokens, hsrc.sound.shape.positions]
  obtain ⟨m, seq', hrun, hx, hlt⟩ := extendWorker_spec (hsrc.lt_length hh) hsrc.room hw.sound
    hw.filled hw.tokens
  have hget : seq'.chunks[idx]? = some seq'.chunks[idx] := List.getElem?_eq_getElem hlt
  have hlen' := hx.seqLen
  have hreached := hw.reached
  -- the slots of the worker stay where they are
  have hcopied : ∀ i < idx, ∀ off < cfg.chunkKvBytes,
      w.bytes (m.vram.slotPtr ((order m.heap m.vram seq').getD i u32Max) + off) = data i off := by
    intro i hi off hoff
    rw [hx.grown.order, hx.grown.toSlotsKept.slotPtr]
    exact hw.copied i hi off hoff
  rw [copyChunk, hvram, hseq]
  simp only [hlen, hrun, hget]
  cases peer.copy idx gpu with
  | error e =>
      refine ⟨_, _, rfl, .inr ⟨e, rfl, m.vram, seq', rfl, rfl, hx.sound, hx.filled, hx.positions,
        by omega, hcopied⟩⟩
  | ok u =>
      refine ⟨_, _, rfl, .inl ⟨rfl, m.vram, seq', rfl, rfl, hx.sound, hx.filled, hx.positions,
        by omega, fun i hi off hoff => ?_⟩⟩
      have hbytes : allocator.chunkBytes = cfg.chunkKvBytes := hsrc.sound.chunkBytes
      have hbytes' : m.vram.chunkBytes = cfg.chunkKvBytes := hx.sound.chunkBytes
      have hslot := SequenceState.slotIndex_eq_order hx.sound.exclusive hget
      change copyRange _ _ _ _ _
        (m.vram.slotPtr ((order m.heap m.vram seq').getD i u32Max) + off) = _
      rw [hslot, hbytes]
      rcases Nat.lt_succ_iff_lt_or_eq.mp hi with hi | rfl
      · -- the slots of two chunks are different, so an earlier copy stays
        have hle : idx < (order m.heap m.vram seq').length := by
          rw [hx.sound.exclusive.order_perm.length_eq, List.length_range, hx.sound.capacity]
          exact Nat.lt_of_lt_of_le hlt (hx.sound.fits rfl)
        have hne : (order m.heap m.vram seq').getD i u32Max ≠
            (order m.heap m.vram seq').getD idx u32Max := by
          rw [List.getD_eq_getElem _ _ (Nat.lt_trans hi hle), List.getD_eq_getElem _ _ hle]
          intro heq
          have hnd := hx.sound.exclusive.order_perm.nodup_iff.mpr List.nodup_range
          have hij : i = idx := hnd.getElem_inj_iff.mp heq
          omega
        have hapart := SlotPool.slotPtr_add_notMem m.vram.toSlotPool hne (hbytes' ▸ hoff)
        rw [hbytes'] at hapart
        rw [copyRange_of_notMem hapart]
        exact hcopied i hi off hoff
      · rw [copyRange_add hoff, hsrc.data i h hh off hoff]

/-- All the workers `gpus` hold the first `k` chunks. -/
def AllMirror (cfg : EngineConfig) (positions : List ℤ) (data : ℕ → ℕ → UInt8) (gpus : List ℕ)
    (k : ℕ) (ws : List GpuWorker) : Prop :=
  ∀ g ∈ gpus, ∃ w, ws[g]? = some w ∧ Mirrors cfg positions data k w

/-- What a loop of the broadcast over the workers `gpus` ends with: they hold `k` chunks, or HIP
failed. -/
structure LoopSpec (cfg : EngineConfig) (positions : List ℤ) (data : ℕ → ℕ → UInt8)
    (gpus : List ℕ) (j k : ℕ) (ws : List GpuWorker) (r : Except BroadcastFault Unit)
    (ws' : List GpuWorker) : Prop where
  length : ws'.length = ws.length
  frame : ∀ g ∉ gpus, ws'[g]? = ws[g]?
  result : (r = .ok () ∧ AllMirror cfg positions data gpus k ws') ∨
    ∃ e, r = .error (.hip e) ∧ AllMirror cfg positions data gpus j ws'

/-- **The inner loop.** -/
lemma broadcastChunk_spec (hsrc : Source cfg peer heap gpu0 allocator data)
    (hh : gpu0.chunks[idx]? = some h) (hnd : gpus.Nodup)
    (hall : AllMirror cfg gpu0.positions data gpus idx ws) :
    ∃ r ws', broadcastChunk peer heap gpu0 allocator idx h gpus ws = (r, ws') ∧
      LoopSpec cfg gpu0.positions data gpus idx (idx + 1) ws r ws' := by
  induction gpus generalizing ws with
  | nil =>
      exact ⟨_, _, rfl, rfl, fun _ _ => rfl, .inl ⟨rfl, fun g hg => absurd hg List.not_mem_nil⟩⟩
  | cons g gpus ih =>
      obtain ⟨hg, hnd'⟩ := List.nodup_cons.mp hnd
      obtain ⟨w, hget, hw⟩ := hall g List.mem_cons_self
      have hlt : g < ws.length := (List.getElem?_eq_some_iff.mp hget).1
      obtain ⟨r, w', hcopy, hr⟩ := copyChunk_spec hsrc hh hw g
      have hother : ∀ g' ≠ g, (ws.set g w')[g']? = ws[g']? := fun g' hne =>
        List.getElem?_set_ne hne.symm
      have hrest : AllMirror cfg gpu0.positions data gpus idx (ws.set g w') := by
        intro g' hg'
        obtain ⟨w₁, hw₁, hm₁⟩ := hall g' (List.mem_cons_of_mem _ hg')
        exact ⟨w₁, (hother g' (by rintro rfl; exact hg hg')).trans hw₁, hm₁⟩
      have hframe : ∀ g' ∉ g :: gpus, (ws.set g w')[g']? = ws[g']? := fun g' hg' =>
        hother g' (List.ne_of_not_mem_cons hg')
      rcases hr with ⟨rfl, hm⟩ | ⟨e, rfl, hm⟩
      · obtain ⟨r, ws', hrun, hspec⟩ := ih hnd' hrest
        have hself : ws'[g]? = some w' :=
          (hspec.frame g hg).trans (List.getElem?_set_self hlt)
        refine ⟨r, ws', by rw [broadcastChunk, hget]; simp only [hcopy, hrun],
          hspec.length.trans List.length_set, fun g' hg' => ?_, ?_⟩
        · exact (hspec.frame g' fun hmem => hg' (List.mem_cons_of_mem _ hmem)).trans
            (hframe g' hg')
        · rcases hspec.result with ⟨rfl, hok⟩ | ⟨e, rfl, herr⟩
          · exact .inl ⟨rfl, List.forall_mem_cons.mpr ⟨⟨w', hself, hm⟩, hok⟩⟩
          · exact .inr ⟨e, rfl, List.forall_mem_cons.mpr
              ⟨⟨w', hself, hm.mono (Nat.le_succ _)⟩, herr⟩⟩
      · refine ⟨_, _, by rw [broadcastChunk, hget]; simp only [hcopy], List.length_set, hframe,
          .inr ⟨e, rfl, List.forall_mem_cons.mpr
            ⟨⟨w', List.getElem?_set_self hlt, hm⟩, hrest⟩⟩⟩

/-- **The outer loop.** -/
lemma broadcastChunks_spec {hs : List ChunkHandle}
    (hsrc : Source cfg peer heap gpu0 allocator data) (hhs : gpu0.chunks.drop idx = hs)
    (hidx : idx ≤ gpu0.chunks.length) (hnd : gpus.Nodup)
    (hall : AllMirror cfg gpu0.positions data gpus idx ws) :
    ∃ r ws', broadcastChunks peer heap gpu0 allocator gpus idx hs ws = (r, ws') ∧
      LoopSpec cfg gpu0.positions data gpus 0 gpu0.chunks.length ws r ws' := by
  induction hs generalizing idx ws with
  | nil =>
      have hend : idx = gpu0.chunks.length := by
        have hlen := congrArg List.length hhs
        rw [List.length_drop, List.length_nil] at hlen
        omega
      exact ⟨_, _, rfl, rfl, fun _ _ => rfl, .inl ⟨rfl, hend ▸ hall⟩⟩
  | cons h hs ih =>
      have hget : gpu0.chunks[idx]? = some h := by
        rw [← Nat.add_zero idx, ← List.getElem?_drop, hhs]
        rfl
      have hlt : idx < gpu0.chunks.length := (List.getElem?_eq_some_iff.mp hget).1
      have hdrop : gpu0.chunks.drop (idx + 1) = hs := by
        rw [← List.tail_drop, hhs, List.tail_cons]
      obtain ⟨r, ws₁, hone, hspec⟩ := broadcastChunk_spec hsrc hget hnd hall
      rcases hspec.result with ⟨rfl, hok⟩ | ⟨e, rfl, herr⟩
      · obtain ⟨r, ws', hrun, hspec'⟩ := ih hdrop hlt hok
        exact ⟨r, ws', by rw [broadcastChunks]; simp only [hone, hrun],
          hspec'.length.trans hspec.length,
          fun g hg => (hspec'.frame g hg).trans (hspec.frame g hg), hspec'.result⟩
      · refine ⟨_, _, by rw [broadcastChunks]; simp only [hone], hspec.length, hspec.frame,
          .inr ⟨e, rfl, fun g hg => ?_⟩⟩
        obtain ⟨w, hw, hm⟩ := herr g hg
        exact ⟨w, hw, hm.mono (Nat.zero_le _)⟩

lemma syncWorkers_error {e : BroadcastFault} (h : syncWorkers peer gpus = .error e) :
    ∃ code, e = .hip code := by
  induction gpus with
  | nil => cases h
  | cons g gpus ih =>
      rw [syncWorkers] at h
      split at h
      · exact ⟨_, (Except.error.inj h).symm⟩
      · exact ih h

lemma mem_otherGpus {device n g : ℕ} : g ∈ otherGpus device n ↔ g < n ∧ g ≠ device := by
  rw [otherGpus, List.mem_filter, List.mem_range, decide_eq_true_iff]

/-- **The broadcast**: the workers other than GPU 0 hold all its chunks, or HIP failed. -/
lemma broadcast_spec (device : ℕ) (hsrc : Source cfg peer heap gpu0 allocator data)
    (hall : AllMirror cfg gpu0.positions data (otherGpus device ws.length) 0 ws)
    (hmany : 1 < ws.length) :
    ∃ r ws', broadcastPagedChunksToWorkers peer heap gpu0 allocator device ws = (r, ws') ∧
      LoopSpec cfg gpu0.positions data (otherGpus device ws.length) 0 gpu0.chunks.length ws r
        ws' := by
  have hnd : (otherGpus device ws.length).Nodup := List.nodup_range.filter _
  obtain ⟨r, ws', hrun, hspec⟩ := broadcastChunks_spec hsrc List.drop_zero (Nat.zero_le _) hnd hall
  rw [broadcastPagedChunksToWorkers, if_neg (by omega)]
  simp only [hrun]
  rcases hspec.result with ⟨rfl, hok⟩ | ⟨e, rfl, herr⟩
  · refine ⟨_, _, rfl, hspec.length, hspec.frame, ?_⟩
    cases hsync : syncWorkers peer (otherGpus device ws.length) with
    | ok u => exact .inl ⟨rfl, hok⟩
    | error e =>
        obtain ⟨code, rfl⟩ := syncWorkers_error hsync
        refine .inr ⟨code, rfl, fun g hg => ?_⟩
        obtain ⟨w, hw, hm⟩ := hok g hg
        exact ⟨w, hw, hm.mono (Nat.zero_le _)⟩
  · exact ⟨_, _, rfl, hspec.length, hspec.frame, .inr ⟨e, rfl, herr⟩⟩

end BroadcastSpec

end Braidinfer.Engine
