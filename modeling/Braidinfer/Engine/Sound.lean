/-
The engine's sequence over whole runs.

* `Sound`: the sequence and its pool are there together, the sequence is the only holder of
  its chunks, and its lengths fit;
* `SeqExtends`: a sequence that grew, its slots where they were;
* `Extends`: what a series of small changes does to the engine (`Grows.extends`);
* `Sound.step`: **every call keeps the engine sound**.
-/
import Mathlib.Data.List.Infix
import Braidinfer.Engine.Calls
import Braidinfer.Lib.Run
import Braidinfer.Megakernel.Update

namespace Braidinfer.Engine

open Braidinfer.Lib Braidinfer.PagedKv Braidinfer.Megakernel

namespace Model

/-! ### One sequence -/

/-- A sequence on its pool. -/
structure SoundSeq (cfg : EngineConfig) (heap : ChunkHeap) (allocator : PageAllocator)
    (seq : SequenceState) : Prop where
  exclusive : SequenceState.Exclusive heap allocator seq
  shape : SequenceState.Shape heap seq
  chunkTokens : seq.chunkTokens = chunkTokens
  chunkBytes : allocator.chunkBytes = cfg.chunkKvBytes
  capacity : allocator.slots.capacity = cfg.vramChunks.toNat
  fits : cfg.hostKvChunks = none → seq.chunks.length ≤ cfg.vramChunks.toNat

/-- The chunks of a sequence, possibly more of them now, sit where they sat: the slots of
the pool are in the same order. -/
structure SlotsKept (heap : ChunkHeap) (allocator : PageAllocator) (seq : SequenceState)
    (heap' : ChunkHeap) (allocator' : PageAllocator) (seq' : SequenceState) : Prop where
  order : SequenceState.order heap' allocator' seq' = SequenceState.order heap allocator seq
  pool : allocator'.pool = allocator.pool
  chunkBytes : allocator'.chunkBytes = allocator.chunkBytes
  chunks : seq.chunks <+: seq'.chunks

/-- A sequence that grew. -/
structure SeqExtends (heap : ChunkHeap) (allocator : PageAllocator) (seq : SequenceState)
    (heap' : ChunkHeap) (allocator' : PageAllocator) (seq' : SequenceState) : Prop
    extends SlotsKept heap allocator seq heap' allocator' seq' where
  positions : seq.positions <+: seq'.positions
  quantSlots : seq'.quantSlots = seq.quantSlots

variable {cfg : EngineConfig} {heap heap' heap'' : ChunkHeap}
  {allocator allocator' allocator'' : PageAllocator} {seq seq' seq'' : SequenceState}

lemma SlotsKept.slotPtr (h : SlotsKept heap allocator seq heap' allocator' seq') (slot : ℕ) :
    allocator'.slotPtr slot = allocator.slotPtr slot := by
  rw [SlotPool.slotPtr, SlotPool.slotPtr, h.pool, h.chunkBytes]

namespace SeqExtends

lemma refl : SeqExtends heap allocator seq heap allocator seq :=
  ⟨⟨rfl, rfl, rfl, List.prefix_rfl⟩, List.prefix_rfl, rfl⟩

lemma trans (h : SeqExtends heap allocator seq heap' allocator' seq')
    (h' : SeqExtends heap' allocator' seq' heap'' allocator'' seq'') :
    SeqExtends heap allocator seq heap'' allocator'' seq'' :=
  ⟨⟨h'.order.trans h.order, h'.pool.trans h.pool, h'.chunkBytes.trans h.chunkBytes,
    h.chunks.trans h'.chunks⟩, h.positions.trans h'.positions, h'.quantSlots.trans h.quantSlots⟩

/-- A sequence without chunks looks the same on every heap. -/
lemma ofEmpty (hseq : seq.chunks = []) : SeqExtends heap allocator seq heap' allocator seq := by
  refine ⟨⟨?_, rfl, rfl, List.prefix_rfl⟩, List.prefix_rfl, rfl⟩
  rw [SequenceState.order, SequenceState.order, hseq]
  rfl

end SeqExtends

lemma chunks_prefix_of_append {m m' : KvMem} {position : ℤ}
    (happ : seq.appendToken m position = .ok (m', seq')) : seq.chunks <+: seq'.chunks := by
  obtain ⟨-, rfl, rfl⟩ | ⟨-, slot, ptr, vram, -, rfl, rfl⟩ |
    ⟨-, -, ha, slot, ptr, ha', -, -, rfl, rfl⟩ := SequenceState.appendToken_cases happ
  · exact List.prefix_rfl
  · exact List.prefix_append _ _
  · exact List.prefix_append _ _

namespace SoundSeq

lemma new (base : ℕ) (heap : ChunkHeap) :
    SoundSeq cfg heap (.new base cfg.chunkKvBytes cfg.vramChunks)
      (.new PagedKv.chunkTokens) :=
  ⟨.new _ _ _ _ _, ⟨by decide, rfl, .inl ⟨rfl, rfl⟩⟩, rfl, rfl, rfl, fun _ => Nat.zero_le _⟩

/-- One more token. -/
lemma append {host host' : Option HostPageAllocator} {position : ℤ}
    (hs : SoundSeq cfg heap allocator seq) (hoff : cfg.hostKvChunks = none → host = none)
    (happ : seq.appendToken ⟨heap, allocator, host⟩ position =
      .ok (⟨heap', allocator', host'⟩, seq')) :
    SoundSeq cfg heap' allocator' seq' ∧
      SeqExtends heap allocator seq heap' allocator' seq' := by
  obtain ⟨hx, horder⟩ := SequenceState.appendToken_order hs.exclusive happ
  obtain ⟨hshape, -, hpos, htok, hquant⟩ :=
    SequenceState.appendToken_shape hs.exclusive hs.shape happ
  obtain ⟨hpool, hbytes⟩ := SequenceState.appendToken_pool happ
  have hcap := SequenceState.appendToken_capacity hs.exclusive happ
  refine ⟨⟨hx, hshape, htok.trans hs.chunkTokens, hbytes.trans hs.chunkBytes,
    hcap.trans hs.capacity, fun hnone => ?_⟩,
    ⟨⟨horder, hpool, hbytes, chunks_prefix_of_append happ⟩, ?_, hquant⟩⟩
  · rw [← hs.capacity]
    refine SequenceState.appendToken_length_le hs.exclusive happ (hoff hnone) ?_
    exact (hs.fits hnone).trans hs.capacity.ge
  · rw [hpos]
    exact List.prefix_append _ _

/-- A heap and a sequence that look the same. -/
lemma congr (hs : SoundSeq cfg heap allocator seq)
    (hv : SequenceState.SameView seq.chunks heap heap') (hchunks : seq'.chunks = seq.chunks)
    (hlen : seq'.seqLen = seq.seqLen) (hpos : seq'.positions = seq.positions)
    (htok : seq'.chunkTokens = seq.chunkTokens) : SoundSeq cfg heap' allocator seq' :=
  ⟨hs.exclusive.congr hv hchunks, hs.shape.congr hv hchunks hlen hpos htok,
    htok.trans hs.chunkTokens, hs.chunkBytes, hs.capacity, by rw [hchunks]; exact hs.fits⟩

end SoundSeq

/-! ### The engine -/

/-- The number of tokens of the sequence. -/
def tokens (m : Model) : ℕ := (m.pagedSeq.map (·.seqLen)).getD 0

lemma tokens_eq {m : Model} (h : m.pagedSeq = some seq) : m.tokens = seq.seqLen := by
  rw [tokens, h]
  rfl

/-- The sequence and its pool are there together, and the sequence is sound. -/
structure Sound (cfg : EngineConfig) (m : Model) : Prop where
  together : m.pagedSeq.isSome = m.pageAllocator.isSome
  hostOff : cfg.hostKvChunks = none → m.hostPageAllocator = none
  workers : m.persistentWorkers = true → cfg.kvQuant = true → m.quantAllocator.isSome
  seq : ∀ seq allocator, m.pagedSeq = some seq → m.pageAllocator = some allocator →
    SoundSeq cfg m.heap allocator seq

variable {m m' m'' : Model} {env : Env}

lemma Sound.init : Sound cfg Model.init :=
  ⟨rfl, fun _ => rfl, (fun h => by cases h), fun _ _ h => by cases h⟩

/-- The sequence of `m'` is the one of `m`, grown, or it was started on a new pool. -/
def SeqGrown (cfg : EngineConfig) (m m' : Model) : Prop :=
  ∀ seq' allocator', m'.pagedSeq = some seq' → m'.pageAllocator = some allocator' →
    (∃ seq allocator, m.pagedSeq = some seq ∧ m.pageAllocator = some allocator ∧
      SeqExtends m.heap allocator seq m'.heap allocator' seq') ∨
    (m.pageAllocator = none ∧ ∃ base,
      SeqExtends m.heap (.new base cfg.chunkKvBytes cfg.vramChunks) (.new chunkTokens)
        m'.heap allocator' seq')

/-- What a series of small changes does to the engine. -/
structure Extends (cfg : EngineConfig) (env : Env) (m m' : Model) : Prop where
  sound : Sound cfg m'
  seq : SeqGrown cfg m m'
  pool : m.pageAllocator.isSome → m'.pageAllocator.isSome
  program : m'.megakernelPaged = m.megakernelPaged ∨
    (m.megakernelPaged = none ∧ m'.megakernelPaged = some (freshProgram cfg env))
  quant : m'.quantAllocator = m.quantAllocator ∨
    (m.quantAllocator = none ∧ cfg.kvQuant = true ∧ ∃ base, env.quantPool = .ok base ∧
      m'.quantAllocator =
        some (.new base cfg.quantizedChunkKvBytes (.ofNat cfg.maxPagedChunks)))
  filled : m'.filled = m.filled

namespace Extends

lemma refl (hm : Sound cfg m) : Extends cfg env m m :=
  ⟨hm, fun seq allocator hseq halloc => .inl ⟨seq, allocator, hseq, halloc, .refl⟩, id, .inl rfl,
    .inl rfl, rfl⟩

lemma trans (h : Extends cfg env m m') (h' : Extends cfg env m' m'') : Extends cfg env m m'' := by
  refine ⟨h'.sound, fun seq'' allocator'' hseq halloc => ?_, fun hp => h'.pool (h.pool hp), ?_, ?_,
    h'.filled.trans h.filled⟩
  · rcases h'.seq seq'' allocator'' hseq halloc with
      ⟨seq', allocator', hseq', halloc', hext'⟩ | ⟨hnone', base, hext'⟩
    · rcases h.seq seq' allocator' hseq' halloc' with
        ⟨seq, allocator, hseq, halloc, hext⟩ | ⟨hnone, base, hext⟩
      · exact .inl ⟨seq, allocator, hseq, halloc, hext.trans hext'⟩
      · exact .inr ⟨hnone, base, hext.trans hext'⟩
    · have hnone : m.pageAllocator = none := by
        by_contra hsome
        have := h.pool (Option.isSome_iff_ne_none.mpr hsome)
        rw [hnone'] at this
        cases this
      exact .inr ⟨hnone, base, (SeqExtends.ofEmpty rfl).trans hext'⟩
  · rcases h.program with hp | ⟨hnone, hp⟩
    · rw [← hp]
      exact h'.program
    · rcases h'.program with hp' | ⟨hnone', -⟩
      · exact .inr ⟨hnone, hp'.trans hp⟩
      · rw [hp] at hnone'
        cases hnone'
  · rcases h.quant with hq | ⟨hnone, hon, base, hbase, hq⟩
    · rw [← hq]
      exact h'.quant
    · rcases h'.quant with hq' | ⟨hnone', -⟩
      · exact .inr ⟨hnone, hon, base, hbase, hq'.trans hq⟩
      · rw [hq] at hnone'
        cases hnone'

end Extends

/-- A change that leaves the sequence and its pool alone. -/
lemma Sound.of_same (hm : Sound cfg m) (hheap : m'.heap = m.heap)
    (hseq : m'.pagedSeq = m.pagedSeq) (hpool : m'.pageAllocator = m.pageAllocator)
    (hoff : cfg.hostKvChunks = none → m'.hostPageAllocator = none)
    (hwork : m'.persistentWorkers = true → cfg.kvQuant = true → m'.quantAllocator.isSome) :
    Sound cfg m' := by
  refine ⟨by rw [hseq, hpool]; exact hm.together, hoff, hwork, fun seq allocator hs ha => ?_⟩
  rw [hheap]
  exact hm.seq seq allocator (hseq ▸ hs) (hpool ▸ ha)

lemma SeqGrown.of_same (hheap : m'.heap = m.heap) (hseq : m'.pagedSeq = m.pagedSeq)
    (hpool : m'.pageAllocator = m.pageAllocator) : SeqGrown cfg m m' := by
  intro seq allocator hs ha
  refine .inl ⟨seq, allocator, hseq ▸ hs, hpool ▸ ha, ?_⟩
  rw [hheap]
  exact .refl

lemma Setup.extends (h : Setup cfg env m m') (hm : Sound cfg m) : Extends cfg env m m' := by
  cases h with
  | program hnone =>
      exact ⟨hm.of_same rfl rfl rfl hm.hostOff hm.workers, .of_same rfl rfl rfl, id,
        .inr ⟨hnone, rfl⟩, .inl rfl, rfl⟩
  | pool base hnone =>
      refine ⟨⟨rfl, hm.hostOff, hm.workers, ?_⟩, ?_, fun _ => rfl, .inl rfl, .inl rfl, rfl⟩
      · rintro seq allocator hs ha
        obtain rfl := Option.some.inj hs
        obtain rfl := Option.some.inj ha
        exact .new base m.heap
      · rintro seq allocator hs ha
        obtain rfl := Option.some.inj hs
        obtain rfl := Option.some.inj ha
        exact .inr ⟨hnone, base, .refl⟩
  | quantPool base hnone hq hbase =>
      exact ⟨hm.of_same rfl rfl rfl hm.hostOff fun _ _ => rfl, .of_same rfl rfl rfl, id, .inl rfl,
        .inr ⟨hnone, hq, base, hbase, rfl⟩, rfl⟩
  | hostPool host hoff =>
      exact ⟨hm.of_same rfl rfl rfl (fun hnone => hoff hnone (hm.hostOff hnone)) hm.workers,
        .of_same rfl rfl rfl, id, .inl rfl, .inl rfl, rfl⟩
  | aux workers n tables hready =>
      refine ⟨hm.of_same rfl rfl rfl hm.hostOff fun hw hq => ?_, .of_same rfl rfl rfl, id,
        .inl rfl, .inl rfl, rfl⟩
      rcases hready hw with hold | hsome
      · exact hm.workers hold hq
      · exact hsome hq

lemma Grow.extends (h : Grow cfg env m m') (hm : Sound cfg m) : Extends cfg env m m' := by
  cases h with
  | setup h => exact h.extends hm
  | append seq seq' allocator mem host position hseq halloc hoff happ =>
      obtain ⟨hs, hext⟩ := (hm.seq seq allocator hseq halloc).append
        (fun hnone => hoff hnone (hm.hostOff hnone)) happ
      refine ⟨⟨rfl, hm.hostOff, hm.workers, ?_⟩, ?_, fun _ => rfl, .inl rfl, .inl rfl, rfl⟩
      · rintro seq₁ allocator₁ hs₁ ha₁
        obtain rfl := Option.some.inj hs₁
        obtain rfl := Option.some.inj ha₁
        exact hs
      · rintro seq₁ allocator₁ hs₁ ha₁
        obtain rfl := Option.some.inj hs₁
        obtain rfl := Option.some.inj ha₁
        exact .inl ⟨seq, allocator, hseq, halloc, hext⟩

/-- **A series of small changes.** -/
theorem Grows.extends (h : Grows cfg env m m') (hm : Sound cfg m) : Extends cfg env m m' := by
  induction h with
  | refl => exact .refl hm
  | tail _ hstep ih => exact ih.trans (hstep.extends ih.sound)

/-- Initialisation adds no token. -/
lemma Setups.tokens (h : Setups cfg env m m') (hm : Sound cfg m) : m'.tokens = m.tokens := by
  induction h with
  | refl => rfl
  | tail hfirst hstep ih =>
      rw [← ih]
      have hs := ((Setups.grows hfirst).extends hm).sound
      cases hstep with
      | pool base hnone =>
          have hseq := hs.together
          rw [hnone, Option.isSome_none, Option.isSome_eq_false_iff, Option.isNone_iff_eq_none]
            at hseq
          rw [Model.tokens, Model.tokens, hseq]
          rfl
      | _ => rfl

/-- A lost sequence leaves neither sequence nor pool. -/
lemma Loses.spec (h : Loses cfg env m m') (hm : Sound cfg m) :
    Sound cfg m' ∧ m'.pagedSeq = none ∧ m'.pageAllocator = none ∧
      ∃ m₁, Extends cfg env m m₁ ∧ m'.megakernelPaged = m₁.megakernelPaged ∧
        m'.quantAllocator = m₁.quantAllocator ∧ m'.filled = m₁.filled := by
  obtain ⟨m₁, seq, host, hgrow, -, hoff, rfl⟩ := h
  have hext := hgrow.extends hm
  exact ⟨⟨rfl, fun hnone => hoff (hext.sound.hostOff hnone), hext.sound.workers,
    fun _ _ h => by cases h⟩, rfl, rfl, m₁,
    hext, rfl, rfl, rfl⟩

/-! ### The calls -/

lemma sameView_rfl (cs : List ChunkHandle) : SequenceState.SameView cs heap heap :=
  ⟨fun _ _ => rfl, fun _ _ => rfl, fun _ _ => rfl, fun _ _ => rfl⟩

section Patched

variable {tokenId position : ℕ}

/-- The sequence and the tables of a decode step that was patched. -/
structure PatchedSpec (cfg : EngineConfig) (env : Env) (tokenId position : ℕ) (m m' : Model)
    (P : Patched cfg env tokenId position m m') : Prop where
  init : Extends cfg env m P.init
  appended : SoundSeq cfg P.mem.heap P.mem.vram P.seq'
  grown : SeqExtends P.init.heap P.allocator P.seq P.mem.heap P.mem.vram P.seq'
  updated : Updated P.prog P.prog' position P.mem.heap P.heap' P.seq' P.mem.vram
  same : SequenceState.SameView P.seq'.chunks P.mem.heap P.heap'
  sound : Sound cfg m'

lemma Patched.spec (P : Patched cfg env tokenId position m m') (hm : Sound cfg m) :
    PatchedSpec cfg env tokenId position m m' P := by
  have hinit := P.setups.grows.extends hm
  obtain ⟨hs, hext⟩ := (hinit.sound.seq P.seq P.allocator P.hseq P.halloc).append
    hinit.sound.hostOff P.happ
  have hup := updateStepPagedNoUpload_spec P.hupdate
  have hsame := hup.sameView P.seq'.chunks
  refine ⟨hinit, hs, hext, hup, hsame, ⟨by rw [P.after]; rfl, fun hnone => ?_,
    by rw [P.after]; exact hinit.sound.workers, fun seq allocator hseq halloc => ?_⟩⟩
  · rw [P.after]
    exact SequenceState.appendToken_host_none P.happ (hinit.sound.hostOff hnone)
  rw [P.after] at hseq halloc ⊢
  obtain rfl := Option.some.inj hseq
  obtain rfl := Option.some.inj halloc
  exact hs.congr hsame rfl rfl rfl rfl

end Patched

lemma Sound.sealed {s : SealState} {position n : ℕ} {prog : MegakernelProgram}
    (hm : Sound cfg m) (hseq : m.pagedSeq = some seq) (halloc : m.pageAllocator = some allocator)
    (hpost : postStepPaged ⟨prog, seq, m.quantAllocator, m.filled⟩ position m.heap allocator =
      .ok s) : Sound cfg (m.sealed s n) := by
  obtain ⟨hs, -, -⟩ := postStepPaged_frame hpost
  refine ⟨by rw [Model.sealed, halloc]; rfl, hm.hostOff, fun hw hq => ?_,
    fun seq₁ allocator₁ hseq₁ halloc₁ => ?_⟩
  · have hsome := hm.workers hw hq
    rcases postStepPaged_cases hpost with
      ⟨rfl, -⟩ | ⟨-, -, q, sealed, slot, ptr, q', kv, -, -, -, -, rfl⟩
    · exact hsome
    · rfl
  obtain rfl := Option.some.inj hseq₁
  obtain rfl : allocator = allocator₁ := Option.some.inj (halloc.symm.trans halloc₁)
  refine (hm.seq seq allocator hseq halloc).congr (sameView_rfl _) ?_ ?_ ?_ ?_ <;> rw [hs]

lemma releaseQuant_frame {quant : Option PageAllocator}
    (h : m.releaseQuant seq = .ok (quant, seq')) :
    seq' = { seq with quantSlots := seq'.quantSlots } := by
  rw [releaseQuant] at h
  split at h
  · obtain ⟨-, rfl⟩ := Prod.mk.inj (Except.ok.inj h)
    rfl
  · split at h
    · cases h
    · obtain ⟨-, rfl⟩ := Prod.mk.inj (Except.ok.inj h)
      rfl

/-- The sequence whose quantized slots were given back. -/
lemma Sound.releaseQuant {quant : Option PageAllocator} (hm : Sound cfg m)
    (hseq : m.pagedSeq = some seq) (halloc : m.pageAllocator = some allocator)
    (hrel : m.releaseQuant seq = .ok (quant, seq')) : SoundSeq cfg m.heap allocator seq' := by
  refine (hm.seq seq allocator hseq halloc).congr (sameView_rfl _) ?_ ?_ ?_ ?_ <;>
    rw [releaseQuant_frame hrel]

/-- The slots of the sequence went back to the pool, in reverse order. -/
structure ResetSpec (cfg : EngineConfig) (heap : ChunkHeap) (allocator : PageAllocator)
    (seq : SequenceState) (mem : KvMem) (seq₂ : SequenceState) : Prop where
  sound : SoundSeq cfg mem.heap mem.vram seq₂
  empty : seq₂.chunks = [] ∧ seq₂.seqLen = 0 ∧ seq₂.positions = []
  quantSlots : seq₂.quantSlots = seq.quantSlots
  pool : mem.vram.pool = allocator.pool
  chunkBytes : mem.vram.chunkBytes = allocator.chunkBytes
  order : SequenceState.order mem.heap mem.vram seq₂ =
    (SequenceState.vramSlots heap seq.chunks).reverse ++ allocator.slots.free

lemma SoundSeq.reset {mem : KvMem} {seq₂ : SequenceState} (hs : SoundSeq cfg heap allocator seq)
    (hreset : seq.reset ⟨heap, allocator, none⟩ = .ok (mem, seq₂)) :
    ResetSpec cfg heap allocator seq mem seq₂ := by
  obtain ⟨heap', vram', s', hok, rfl, hx, hcap, hpool, hbytes, horder⟩ :=
    SequenceState.reset_order hs.exclusive
  obtain ⟨rfl, rfl⟩ := Prod.mk.inj (Except.ok.inj (hok.symm.trans hreset))
  exact ⟨⟨hx, ⟨hs.shape.tokens_pos, rfl, .inl ⟨rfl, rfl⟩⟩, hs.chunkTokens,
    hbytes.trans hs.chunkBytes, hcap.trans hs.capacity, fun _ => Nat.zero_le _⟩,
    ⟨rfl, rfl, rfl⟩, rfl, hpool, hbytes, horder⟩

lemma Sound.cleared {quant : Option PageAllocator} {mem : KvMem} {seq₂ : SequenceState}
    (hs : SoundSeq cfg mem.heap mem.vram seq₂) : Sound cfg (m.cleared quant mem seq₂) := by
  refine ⟨rfl, fun _ => rfl, (fun h => by cases h), fun seq allocator hseq halloc => ?_⟩
  obtain rfl := Option.some.inj hseq
  obtain rfl := Option.some.inj halloc
  exact hs

/-- **Every call keeps the engine sound.** -/
theorem Sound.step {c : Call} (hm : Sound cfg m) (h : Step cfg m c m') : Sound cfg m' := by
  obtain ⟨r, hcall, hok⟩ := h
  have hno : ¬ ∃ e, r = .error e ∧ e.IsPanic := fun ⟨e, he, hp⟩ => hok e he hp
  cases c with
  | prefill env total =>
      rcases prefill_spec hcall with hgrow | hlose
      · exact (hgrow.extends hm).sound
      · exact (hlose.spec hm).1
  | decode env tokenId position =>
      rw [call, decodeStep] at hcall
      rcases hpatch : decodePatch cfg env tokenId position m with ⟨e | u, m₁⟩ <;>
        simp only [hpatch] at hcall
      · obtain ⟨rfl, rfl⟩ := Prod.ext_iff.mp hcall
        rcases decodePatch_spec hpatch with ⟨hr, -⟩ | ⟨-, hgrow⟩ | hpanic
        · cases hr
        · exact (hgrow.grows.extends hm).sound
        · exact absurd hpanic hno
      · have hsound : Sound cfg m₁ := by
          rcases decodePatch_spec hpatch with ⟨-, ⟨P⟩⟩ | ⟨hr, -⟩ | ⟨e, hr, -⟩
          · exact (P.spec hm).sound
          · exact absurd rfl hr
          · cases hr
        rcases decodeFinish_spec hcall with
          ⟨seq, allocator, prog, s, n, hseq, halloc, -, hpost, rfl⟩ |
          ⟨-, -, -, -, -, -, -, -, rfl⟩ | hpanic
        · exact hsound.sealed hseq halloc hpost
        · exact hsound
        · exact absurd hpanic hno
  | reset env =>
      rcases resetState_spec hm.together hcall with
        ⟨seq, allocator, quant, seq₁, mem, seq₂, -, hseq, halloc, hrel, hreset, rfl⟩ |
        ⟨-, n, rfl⟩ | hpanic
      · exact .cleared ((hm.releaseQuant hseq halloc hrel).reset hreset).sound
      · exact hm.of_same rfl rfl rfl (fun _ => rfl) fun h => by cases h
      · exact absurd hpanic hno

end Model

end Braidinfer.Engine
