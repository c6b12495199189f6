/-
Quantized pages over runs of prefills, decode steps and resets.

`post_step_paged` quantizes a chunk on the decode step whose absolute position ends it; the
reader takes every chunk but the last for quantized.

* `QuantSafe`: the calls after which the two agree: prefills that finish no chunk and lose no
  quantized slot, decode steps at the position the sequence is at, and no chunk outside of
  VRAM;
* `QuantInv`, `QuantInv.step`: the quantized slots of the sequence, in order, are those of
  its full chunks, entered in the table and filled from them;
* `quantPages_exist_of_run`: **over runs of such calls every quantized page that attention
  reads exists, and every quantized slot is released exactly once**.
-/
import Braidinfer.Engine.Sound
import Braidinfer.Megakernel.AttnView
import Braidinfer.Megakernel.PositionTables

namespace Braidinfer.Engine

open Braidinfer.Lib Braidinfer.PagedKv Braidinfer.Megakernel

namespace Model

/-- The quantized slots of the sequence. -/
def quantHeld (m : Model) : List ℕ := (m.pagedSeq.map (·.quantSlots)).getD []

/-! ### The condition -/

/-- The calls that keep the quantized pages complete. -/
def QuantSafe (cfg : EngineConfig) (m : Model) : Call → Prop
  | .prefill env total =>
      (m.tokens + total) / chunkTokens = m.tokens / chunkTokens ∧
        (m.tokens + total ≤ chunkTokens * cfg.vramChunks.toNat ∨
          (cfg.hostKvChunks = none ∧ m.quantHeld = [])) ∧
        (m.quantHeld = [] ∨ ¬ LosesSlab cfg (env.slab 0)) ∧
        ∀ base, env.quantPool = .ok base → 0 < base
  | .decode env _ position =>
      position = m.tokens ∧
        (m.tokens < chunkTokens * cfg.vramChunks.toNat ∨ cfg.hostKvChunks = none) ∧
        ∀ base, env.quantPool = .ok base → 0 < base
  | .reset _ => True

/-! ### The property -/

/-- Quantized slot `slot` belongs to chunk `i` of the sequence: it is entered in the table
and was filled from that chunk, which has a VRAM slot to be read at. -/
def SealedEntry (m : Model) (i slot : ℕ) : Prop :=
  ∃ seq allocator prog kv q h, m.pagedSeq = some seq ∧ m.pageAllocator = some allocator ∧
    m.megakernelPaged = some prog ∧ prog.quantKv = some kv ∧ m.quantAllocator = some q ∧
    kv.quantPageTable i = q.slotPtr slot ∧ seq.chunks[i]? = some h ∧
    slotIndex m.heap h ≠ u32Max ∧
    m.filled (q.slotPtr slot) = some (h, allocator.slotPtr (slotIndex m.heap h))

/-- Every page that an enabled `OP_ATTN_PAGED_Q` reads is a quantized slot of this sequence,
not null, and filled from the chunk it stands for. -/
def QuantPagesOk (m : Model) : Prop :=
  ∀ prog inst, m.megakernelPaged = some prog → inst ∈ attnQs prog.instructions →
    inst.gridX ≠ 0 → inst.quantSeqLen % chunkTokens = 0 ∧
      ∃ kv q, prog.quantKv = some kv ∧ m.quantAllocator = some q ∧
        inst.quantPageTable = kv.quantPageTablePtr ∧
        ∀ i < inst.quantSeqLen / chunkTokens, ∃ slot ∈ m.quantHeld,
          kv.quantPageTable i = q.slotPtr slot ∧ q.slotPtr slot ≠ 0 ∧ SealedEntry m i slot

/-- The slots of the quantized pool are free or held by the sequence, none both and none
twice. -/
def QuantAccounted (m : Model) : Prop :=
  ∀ q, m.quantAllocator = some q →
    (q.slots.free ++ m.quantHeld).Perm (List.range q.slots.capacity)

/-! ### The invariant -/

/-- What holds before and after every call, and in the middle of a decode step. -/
structure QuantCore (cfg : EngineConfig) (m : Model) : Prop where
  sound : Sound cfg m
  program : ∀ prog, m.megakernelPaged = some prog → prog.AttnIndexed ∧
    prog.quantizedKv = true ∧ prog.quantKv.isSome ∧ prog.maxSeqLen = cfg.maxSeqLen
  pool : ∀ q, m.quantAllocator = some q → 0 < q.pool ∧
    q.chunkBytes = cfg.quantizedChunkKvBytes ∧ q.slots.capacity = cfg.maxPagedChunks ∧
    q.slots.Holds m.quantHeld
  noPool : m.quantAllocator = none → m.quantHeld = []
  entries : ∀ (i slot : ℕ), m.quantHeld[i]? = some slot → SealedEntry m i slot

/-- What holds before and after every call: the quantized slots are those of the full
chunks. -/
structure QuantInv (cfg : EngineConfig) (m : Model) : Prop extends QuantCore cfg m where
  sealed : m.quantHeld.length = m.tokens / chunkTokens

variable {cfg : EngineConfig} {env : Env} {m m' : Model}

lemma QuantInv.init : QuantInv cfg Model.init :=
  ⟨⟨.init, fun _ h => by simp [Model.init] at h, fun _ h => by simp [Model.init] at h,
    fun _ => rfl, fun _ _ h => by simp [quantHeld, Model.init] at h⟩, rfl⟩

lemma quantHeld_eq {seq : SequenceState} (h : m.pagedSeq = some seq) :
    m.quantHeld = seq.quantSlots := by
  rw [quantHeld, h]
  rfl

/-- Chunk `i` of a sequence that grew sits where it sat. -/
lemma SlotsKept.slotIndex {heap heap' : ChunkHeap} {allocator allocator' : PageAllocator}
    {seq seq' : SequenceState} (hext : SlotsKept heap allocator seq heap' allocator' seq')
    (hx : SequenceState.Exclusive heap allocator seq)
    (hx' : SequenceState.Exclusive heap' allocator' seq') {i : ℕ} {h : ChunkHandle}
    (hi : seq.chunks[i]? = some h) :
    seq'.chunks[i]? = some h ∧ PagedKv.slotIndex heap' h = PagedKv.slotIndex heap h := by
  have hi' : seq'.chunks[i]? = some h := by
    obtain ⟨rest, hrest⟩ := hext.chunks
    rw [← hrest, List.getElem?_append_left (List.getElem?_eq_some_iff.mp hi).1]
    exact hi
  refine ⟨hi', ?_⟩
  rw [SequenceState.slotIndex_eq_order hx' hi', hext.order, SequenceState.slotIndex_eq_order hx hi]

/-- An entry survives while its chunk, its table entry and its slot do. -/
lemma SealedEntry.transfer {i slot : ℕ} (h : SealedEntry m i slot) (hm : Sound cfg m)
    (hm' : Sound cfg m') (hseq : ∀ seq allocator, m.pagedSeq = some seq →
      m.pageAllocator = some allocator → ∃ seq' allocator', m'.pagedSeq = some seq' ∧
        m'.pageAllocator = some allocator' ∧
        SlotsKept m.heap allocator seq m'.heap allocator' seq')
    (htable : ∀ prog kv, m.megakernelPaged = some prog → prog.quantKv = some kv →
      ∃ prog' kv', m'.megakernelPaged = some prog' ∧ prog'.quantKv = some kv' ∧
        kv'.quantPageTable i = kv.quantPageTable i)
    (hpool : ∀ q, m.quantAllocator = some q → ∃ q', m'.quantAllocator = some q' ∧
      q'.slotPtr slot = q.slotPtr slot ∧ m'.filled (q.slotPtr slot) = m.filled (q.slotPtr slot)) :
    SealedEntry m' i slot := by
  obtain ⟨seq, allocator, prog, kv, q, c, hs, ha, hp, hkv, hq, hentry, hc, hvram, hfilled⟩ := h
  obtain ⟨seq', allocator', hs', ha', hext⟩ := hseq seq allocator hs ha
  obtain ⟨prog', kv', hp', hkv', hentry'⟩ := htable prog kv hp hkv
  obtain ⟨q', hq', hptr, hfilled'⟩ := hpool q hq
  obtain ⟨hc', hslot⟩ := hext.slotIndex (hm.seq seq allocator hs ha).exclusive
    (hm'.seq seq' allocator' hs' ha').exclusive hc
  refine ⟨seq', allocator', prog', kv', q', c, hs', ha', hp', hkv', hq', ?_, hc', ?_, ?_⟩
  · rw [hentry', hentry, hptr]
  · rwa [hslot]
  · rw [hptr, hfilled', hfilled, hslot, hext.slotPtr]

/-- The program of a quantized engine, as compiled. -/
lemma freshProgram_quant (hquant : cfg.kvQuant = true) :
    (freshProgram cfg env).AttnIndexed ∧ (freshProgram cfg env).quantizedKv = true ∧
      (freshProgram cfg env).quantKv.isSome ∧
      (freshProgram cfg env).maxSeqLen = cfg.maxSeqLen := by
  obtain ⟨count, hi, -, -⟩ := compilePaged_attn cfg.attn cfg.maxSeqLen cfg.layers cfg.tail
  rw [freshProgram, if_pos hquant]
  refine ⟨?_, rfl, rfl, rfl⟩
  exact (enableQuantizedKv_attn (p := initPagedBuffers (compilePaged cfg.attn cfg.maxSeqLen
    cfg.layers cfg.tail) env.pageTablePtr env.positionTablePtr) hi cfg.attn env.quantScratch
    env.quantPageTablePtr).1

lemma Sound.noSeq (hm : Sound cfg m) (hnone : m.pageAllocator = none) : m.pagedSeq = none := by
  have hseq := hm.together
  rwa [hnone, Option.isSome_none, Option.isSome_eq_false_iff, Option.isNone_iff_eq_none] at hseq

lemma Extends.quantHeld (hext : Extends cfg env m m') (hm : Sound cfg m) :
    m'.quantHeld = m.quantHeld := by
  cases hseq' : m'.pagedSeq with
  | none =>
      have hpool : m.pageAllocator = none := by
        by_contra hsome
        have hp := hext.pool (Option.isSome_iff_ne_none.mpr hsome)
        rw [← hext.sound.together, hseq'] at hp
        cases hp
      rw [Model.quantHeld, Model.quantHeld, hseq', hm.noSeq hpool]
  | some seq' =>
      obtain ⟨allocator', halloc'⟩ : ∃ a, m'.pageAllocator = some a :=
        Option.isSome_iff_exists.mp (by rw [← hext.sound.together, hseq']; rfl)
      rw [quantHeld_eq hseq']
      rcases hext.seq seq' allocator' hseq' halloc' with
        ⟨seq, allocator, hseq, halloc, hgrown⟩ | ⟨hnone, base, hgrown⟩
      · rw [hgrown.quantSlots, quantHeld_eq hseq]
      · rw [hgrown.quantSlots, Model.quantHeld, hm.noSeq hnone]
        rfl

/-- The grown sequence of an engine that had one. -/
lemma Extends.seq_of_some (hext : Extends cfg env m m') {seq : SequenceState}
    {allocator : PageAllocator} (hseq : m.pagedSeq = some seq)
    (halloc : m.pageAllocator = some allocator) :
    ∃ seq' allocator', m'.pagedSeq = some seq' ∧ m'.pageAllocator = some allocator' ∧
      SeqExtends m.heap allocator seq m'.heap allocator' seq' := by
  obtain ⟨allocator', halloc'⟩ := Option.isSome_iff_exists.mp (hext.pool (by rw [halloc]; rfl))
  obtain ⟨seq', hseq'⟩ := Option.isSome_iff_exists.mp
    (hext.sound.together.trans (by rw [halloc']; rfl) : m'.pagedSeq.isSome = true)
  rcases hext.seq seq' allocator' hseq' halloc' with
    ⟨seq₁, allocator₁, hseq₁, halloc₁, hgrown⟩ | ⟨hnone, -⟩
  · obtain rfl := Option.some.inj (hseq.symm.trans hseq₁)
    obtain rfl := Option.some.inj (halloc.symm.trans halloc₁)
    exact ⟨seq', allocator', hseq', halloc', hgrown⟩
  · rw [halloc] at hnone
    cases hnone

/-- The sequence of a patched decode step. -/
lemma PatchedSpec.extended {tokenId position : ℕ} {P : Patched cfg env tokenId position m m'}
    (hspec : PatchedSpec cfg env tokenId position m m' P) :
    SeqExtends P.init.heap P.allocator P.seq P.heap' P.mem.vram P.seq' :=
  hspec.grown.trans ⟨⟨hspec.same.order rfl, rfl, rfl, List.prefix_rfl⟩, List.prefix_rfl, rfl⟩

section Config

variable (hquant : cfg.kvQuant = true) (hchunks : cfg.maxPagedChunks < 2 ^ 32)

include hquant hchunks

/-- A series of small changes keeps the quantized slots. -/
lemma QuantCore.extends (h : QuantCore cfg m) (hext : Extends cfg env m m')
    (hbase : ∀ base, env.quantPool = .ok base → 0 < base) : QuantCore cfg m' := by
  have hheld := hext.quantHeld h.sound
  refine ⟨hext.sound, fun prog hprog => ?_, fun q hq => ?_, fun hnone => ?_, fun i slot hslot => ?_⟩
  · rcases hext.program with hsame | ⟨-, hfresh⟩
    · exact h.program prog (hsame ▸ hprog)
    · obtain rfl := Option.some.inj (hfresh.symm.trans hprog)
      exact freshProgram_quant hquant
  · rw [hheld]
    rcases hext.quant with hsame | ⟨hnone, -, base, henv, hnew⟩
    · exact h.pool q (hsame ▸ hq)
    · obtain rfl := Option.some.inj (hnew.symm.trans hq)
      rw [h.noPool hnone]
      refine ⟨hbase base henv, rfl, ?_, FreePool.full_holds _⟩
      exact UInt32.toNat_ofNat_of_lt' hchunks
  · rw [hheld]
    rcases hext.quant with hsame | ⟨hnone', -⟩
    · exact h.noPool (hsame ▸ hnone)
    · exact h.noPool hnone'
  · rw [hheld] at hslot
    refine (h.entries i slot hslot).transfer h.sound hext.sound
      (fun seq allocator hs ha => ?_) (fun prog kv hp hkv => ?_) fun q hq => ?_
    · obtain ⟨seq', allocator', hs', ha', hgrown⟩ := hext.seq_of_some hs ha
      exact ⟨seq', allocator', hs', ha', hgrown.toSlotsKept⟩
    · rcases hext.program with hsame | ⟨hnone, -⟩
      · exact ⟨prog, kv, hsame.trans hp, hkv, rfl⟩
      · rw [hp] at hnone
        cases hnone
    · rcases hext.quant with hsame | ⟨hnone, -⟩
      · exact ⟨q, hsame.trans hq, rfl, by rw [hext.filled]⟩
      · rw [hq] at hnone
        cases hnone

/-! ### Decode steps -/

/-- A patched decode step keeps the quantized slots. -/
lemma QuantCore.patched {tokenId position : ℕ} (h : QuantCore cfg m)
    (hbase : ∀ base, env.quantPool = .ok base → 0 < base)
    (P : Patched cfg env tokenId position m m') :
    QuantCore cfg m' ∧ m'.quantHeld = m.quantHeld ∧ m'.tokens = m.tokens + 1 := by
  have hspec := P.spec h.sound
  have hinit := h.extends hquant hchunks hspec.init hbase
  have hseq' : m'.pagedSeq = some P.seq' := congrArg Model.pagedSeq P.after
  have halloc' : m'.pageAllocator = some P.mem.vram := congrArg Model.pageAllocator P.after
  have hprog' : m'.megakernelPaged = some P.prog' := congrArg Model.megakernelPaged P.after
  have hquant' : m'.quantAllocator = P.init.quantAllocator :=
    (congrArg Model.quantAllocator P.after).trans rfl
  have hfilled' : m'.filled = P.init.filled := (congrArg Model.filled P.after).trans rfl
  have hheap' : m'.heap = P.heap' := congrArg Model.heap P.after
  have hheld : m'.quantHeld = P.init.quantHeld := by
    rw [quantHeld_eq hseq', quantHeld_eq P.hseq]
    exact hspec.grown.quantSlots
  have hsound := hspec.init.sound.seq P.seq P.allocator P.hseq P.halloc
  refine ⟨⟨hspec.sound, fun prog hprog => ?_, fun q hq => ?_, fun hnone => ?_,
    fun i slot hslot => ?_⟩, hheld.trans (hspec.init.quantHeld h.sound), ?_⟩
  · obtain rfl := Option.some.inj (hprog'.symm.trans hprog)
    obtain ⟨hi, hquantized, hkv, hmax⟩ := hinit.program P.prog P.hprog
    exact ⟨(updateStepPagedNoUpload_attn hi P.hupdate).1,
      hspec.updated.quantizedKv.trans hquantized,
      by rw [hspec.updated.quantKv]; exact hkv, hspec.updated.maxSeqLen.trans hmax⟩
  · rw [hheld]
    exact hinit.pool q (hquant' ▸ hq)
  · rw [hheld]
    exact hinit.noPool (hquant' ▸ hnone)
  · rw [hheld] at hslot
    refine (hinit.entries i slot hslot).transfer hinit.sound hspec.sound
      (fun seq allocator hs ha => ?_) (fun prog kv hp hkv => ?_) fun q hq => ?_
    · obtain rfl := Option.some.inj (P.hseq.symm.trans hs)
      obtain rfl := Option.some.inj (P.halloc.symm.trans ha)
      refine ⟨P.seq', P.mem.vram, hseq', halloc', ?_⟩
      rw [hheap']
      exact hspec.extended.toSlotsKept
    · obtain rfl := Option.some.inj (P.hprog.symm.trans hp)
      exact ⟨P.prog', kv, hprog', hspec.updated.quantKv.trans hkv, rfl⟩
    · exact ⟨q, hquant'.trans hq, rfl, by rw [hfilled']⟩
  · rw [tokens_eq hseq',
      (SequenceState.appendToken_shape hsound.exclusive hsound.shape P.happ).2.1,
      ← tokens_eq P.hseq, P.setups.tokens h.sound]

end Config

/-! ### Sealing -/

/-- A chunk within the size of the VRAM pool has a slot there. -/
lemma SoundSeq.slotIndex_ne_max {heap : ChunkHeap} {allocator : PageAllocator}
    {seq : SequenceState} (hs : SoundSeq cfg heap allocator seq) {i : ℕ} {h : ChunkHandle}
    (hi : seq.chunks[i]? = some h) (hlt : i < cfg.vramChunks.toNat) :
    slotIndex heap h ≠ u32Max := by
  have hperm := hs.exclusive.order_perm
  have hlen : i < (SequenceState.order heap allocator seq).length := by
    rwa [hperm.length_eq, List.length_range, hs.capacity]
  rw [SequenceState.slotIndex_eq_order hs.exclusive hi, List.getD_eq_getElem _ _ hlen]
  exact PoolInv.ne_max hs.exclusive.capacity_lt
    (List.mem_range.mp (hperm.mem_iff.mp (List.getElem_mem hlen)))

/-- The slot a chunk is sealed into: its pool, and the addresses of the others. -/
lemma quantAlloc_spec {q q' : PageAllocator} {slot ptr : ℕ} {held : List ℕ}
    (hheld : q.slots.Holds held) (hbytes : 0 < q.chunkBytes)
    (ha : q.alloc = some (slot, ptr, q')) :
    q'.slots.Holds (held ++ [slot]) ∧ q'.slots.capacity = q.slots.capacity ∧
      q'.pool = q.pool ∧ q'.chunkBytes = q.chunkBytes ∧ ptr = q.slotPtr slot ∧
      ∀ other ∈ held, q.slotPtr other ≠ ptr := by
  have ha' := PageAllocator.alloc_eq_some_iff.mp ha
  obtain ⟨-, hptr, hpool, hbytes'⟩ := SlotPool.alloc_eq_some_iff.mp ha'
  obtain ⟨hholds, hcap⟩ := SlotPool.alloc_holds hheld ha'
  refine ⟨hholds.perm (List.perm_append_singleton slot held).symm, hcap, hpool, hbytes', hptr,
    fun other hother heq => ?_⟩
  have hslot : other = slot := by
    rw [hptr, SlotPool.slotPtr, SlotPool.slotPtr] at heq
    exact Nat.eq_of_mul_eq_mul_right hbytes (Nat.add_left_cancel heq)
  exact (List.nodup_cons.mp hholds.held_nodup).1 (hslot ▸ hother)

/-- The end of a decode step at the position of its token: a finished chunk is sealed. -/
lemma QuantCore.sealed {s : SealState} {position n : ℕ} {prog : MegakernelProgram}
    {seq : SequenceState} {allocator : PageAllocator} (h : QuantCore cfg m)
    (hbytes : 0 < cfg.quantizedChunkKvBytes)
    (hheld : m.quantHeld.length = position / chunkTokens) (htok : m.tokens = position + 1)
    (hvram : position < chunkTokens * cfg.vramChunks.toNat ∨ cfg.hostKvChunks = none)
    (hready : m.quantAllocator.isSome) (hseq : m.pagedSeq = some seq)
    (halloc : m.pageAllocator = some allocator) (hprog : m.megakernelPaged = some prog)
    (hpost : postStepPaged ⟨prog, seq, m.quantAllocator, m.filled⟩ position m.heap allocator =
      .ok s) : QuantInv cfg (m.sealed s n) := by
  have hsound' := h.sound.sealed (n := n) hseq halloc hpost
  have hct : chunkTokens = 64 := rfl
  obtain ⟨hi, hquantized, hkv, hmax⟩ := h.program prog hprog
  rcases postStepPaged_cases hpost with
    ⟨rfl, hno⟩ | ⟨hmod, -, q, last, slot, ptr, q', kv, hq, hlast, ha, hkv', rfl⟩
  · -- no chunk is finished
    have hnot : ¬ (position + 1) % chunkTokens = 0 := fun hmod => hno ⟨hmod, hquantized, hready⟩
    have hsame : m.sealed ⟨prog, seq, m.quantAllocator, m.filled⟩ n = { m with seqLen := n } := by
      rw [Model.sealed, ← hprog, ← hseq]
    rw [hsame] at hsound' ⊢
    refine ⟨⟨hsound', h.program, h.pool, h.noPool, h.entries⟩, ?_⟩
    change m.quantHeld.length = m.tokens / chunkTokens
    rw [hheld, htok, hct]
    rw [hct] at hnot
    omega
  · have hs := h.sound.seq seq allocator hseq halloc
    obtain ⟨hpos, hqbytes, hcap, hholds⟩ := h.pool q hq
    obtain ⟨hholds', hcap', hpool', hbytes', hptr, hother⟩ :=
      quantAlloc_spec hholds (hqbytes ▸ hbytes) ha
    have hheldEq : m.quantHeld = seq.quantSlots := quantHeld_eq hseq
    have hchunksLen : seq.chunks.length = position / chunkTokens + 1 := by
      rw [hs.shape.length_chunks (by rw [← tokens_eq hseq, htok]), hs.chunkTokens]
    have hidx : seq.chunks[position / chunkTokens]? = some last := by
      rw [List.getLast?_eq_getElem?, hchunksLen] at hlast
      exact hlast
    have hslotPtr : ∀ j, q'.slotPtr j = q.slotPtr j := fun j => by
      rw [SlotPool.slotPtr, SlotPool.slotPtr, hpool', hbytes']
    refine ⟨⟨hsound', fun prog' hprog' => ?_, fun q₁ hq₁ => ?_, (fun hnone => by cases hnone),
      fun i slot' hslot' => ?_⟩, ?_⟩
    · obtain rfl := Option.some.inj hprog'
      exact ⟨hi, hquantized, rfl, hmax⟩
    · obtain rfl := Option.some.inj hq₁
      refine ⟨by rw [hpool']; exact hpos, hbytes'.trans hqbytes, hcap'.trans hcap, ?_⟩
      rw [hheldEq] at hholds'
      exact hholds'
    · change (seq.quantSlots ++ [slot])[i]? = some slot' at hslot'
      rw [← hheldEq] at hslot'
      rcases Nat.lt_or_ge i m.quantHeld.length with hlt | hge
      · -- an older chunk
        rw [List.getElem?_append_left hlt] at hslot'
        refine (h.entries i slot' hslot').transfer h.sound hsound'
          (fun seq₁ allocator₁ hs₁ ha₁ => ?_)
          (fun prog₁ kv₁ hp₁ hkv₁ => ?_) fun q₁ hq₁ => ?_
        · obtain rfl := Option.some.inj (hseq.symm.trans hs₁)
          obtain rfl := Option.some.inj (halloc.symm.trans ha₁)
          exact ⟨_, allocator, rfl, halloc, rfl, rfl, rfl, List.prefix_rfl⟩
        · obtain rfl := Option.some.inj (hprog.symm.trans hp₁)
          obtain rfl := Option.some.inj (hkv'.symm.trans hkv₁)
          refine ⟨_, _, rfl, rfl, Function.update_of_ne ?_ _ _⟩
          rw [hchunksLen]
          omega
        · obtain rfl := Option.some.inj (hq.symm.trans hq₁)
          refine ⟨q', rfl, hslotPtr slot', Function.update_of_ne ?_ _ _⟩
          exact hother slot' (List.mem_of_getElem? hslot')
      · -- the chunk just finished
        rw [List.getElem?_append_right hge, List.getElem?_singleton] at hslot'
        split_ifs at hslot' with hzero
        obtain rfl := Option.some.inj hslot'
        have hi' : i = position / chunkTokens := by omega
        refine ⟨_, allocator, _, _, q', last, rfl, halloc, rfl, rfl, rfl, ?_, ?_, ?_, ?_⟩
        · rw [hslotPtr, ← hptr, hi']
          change Function.update kv.quantPageTable (seq.chunks.length - 1) ptr
            (position / chunkTokens) = ptr
          rw [hchunksLen, Nat.add_sub_cancel, Function.update_self]
        · rw [hi']
          exact hidx
        · refine hs.slotIndex_ne_max hidx ?_
          rcases hvram with hlt | hoff
          · exact Nat.div_lt_of_lt_mul hlt
          · have := hs.fits hoff
            omega
        · rw [hslotPtr, ← hptr]
          change Function.update m.filled ptr _ ptr = _
          rw [Function.update_self]
          rfl
    · change (seq.quantSlots ++ [slot]).length = seq.seqLen / chunkTokens
      rw [← hheldEq, List.length_append, hheld, List.length_singleton, ← tokens_eq hseq, htok, hct]
      rw [hct] at hmod
      omega

/-! ### Prefills that finish no chunk -/

/-- Within the size of the VRAM pool a slab finds room. -/
lemma appendTokens_ok (ps : List ℤ) {mem : KvMem} {seq : SequenceState}
    (hx : SequenceState.Exclusive mem.heap mem.vram seq) (hs : SequenceState.Shape mem.heap seq)
    (hlt : seq.seqLen + ps.length ≤ seq.chunkTokens * mem.vram.slots.capacity) :
    ∃ r, appendTokens mem seq ps = .ok r := by
  induction ps generalizing mem seq with
  | nil => exact ⟨_, rfl⟩
  | cons p ps ih =>
      rw [List.length_cons] at hlt
      obtain ⟨⟨mem₁, seq₁⟩, hone⟩ := SequenceState.appendToken_ok p hx hs (by omega)
      obtain ⟨hs₁, hlen, -, htok, -⟩ := SequenceState.appendToken_shape hx hs hone
      obtain ⟨hx₁, -⟩ := SequenceState.appendToken_order hx hone
      rw [appendTokens, hone]
      refine ih hx₁ hs₁ ?_
      rw [hlen, htok, SequenceState.appendToken_capacity hx hone]
      omega

/-- A prefill of less than a chunk is one slab. -/
lemma prefill_small {total : ℕ} {r : Except ModelFault Unit} (hlt : total < chunkTokens)
    (h : prefill cfg env total m = (r, m')) :
    Setups cfg env m m' ∨ ∃ m₁ startPos r₁ m₂, Setups cfg env m m₁ ∧
      SlabOutcome cfg env startPos 0 total m₁ r₁ m₂ ∧ Setups cfg env m₂ m' := by
  rw [prefill] at h
  split_ifs at h with hzero
  · obtain ⟨-, rfl⟩ := Prod.ext_iff.mp h
    exact .inl .refl
  have hslab : List.range (divCeil total chunkTokens) = [0] := by
    have hone : divCeil total chunkTokens = 1 := by
      have hct : chunkTokens = 64 := rfl
      rw [divCeil, hct]
      omega
    rw [hone]
    rfl
  rcases hs : ensurePersistentWorkerSpawned cfg env m with ⟨e | u, m₁⟩ <;> simp only [hs] at h
  · obtain ⟨-, rfl⟩ := Prod.ext_iff.mp h
    exact .inl (ensurePersistentWorkerSpawned_setups hs)
  have hinit := ensurePersistentWorkerSpawned_setups hs
  rw [prefillBody] at h
  rcases hp : (if cfg.hasMoe then ((.ok (), m₁) : Except ModelFault Unit × Model)
    else ensurePagedDecodeState cfg env false m₁) with ⟨e | u, m₂⟩ <;> simp only [hp] at h
  · obtain ⟨-, rfl⟩ := Prod.ext_iff.mp h
    split_ifs at hp
    · cases hp
    · exact .inl (hinit.trans (ensurePagedDecodeState_setups (by simp) hp))
  have hinit₂ : Setups cfg env m m₂ := by
    split_ifs at hp
    · obtain ⟨-, rfl⟩ := Prod.ext_iff.mp hp
      exact hinit
    · exact hinit.trans (ensurePagedDecodeState_setups (by simp) hp)
  split at h
  · obtain ⟨-, rfl⟩ := Prod.ext_iff.mp h
    exact .inl hinit₂
  rw [hslab, prefillSlabs] at h
  have hmin : min chunkTokens (total - 0 * chunkTokens) = total := by
    rw [Nat.zero_mul, Nat.sub_zero, Nat.min_eq_right hlt.le]
  rw [hmin] at h
  rcases hone : prefillSlab cfg env (m₁.seqLen + 0 * chunkTokens) 0 total m₂ with ⟨e | u, m₃⟩ <;>
    simp only [hone, prefillSlabs] at h
  · obtain ⟨-, rfl⟩ := Prod.ext_iff.mp h
    exact .inr ⟨m₂, _, _, m₃, hinit₂, prefillSlab_spec hone, .refl⟩
  · refine .inr ⟨m₂, _, _, m₃, hinit₂, prefillSlab_spec hone, ?_⟩
    split at h <;> obtain ⟨-, rfl⟩ := Prod.ext_iff.mp h <;>
      exact .single (.aux m₃ m₃.persistentWorkers (m₃.seqLen + total) m₃.prefillTables .inl)

section Config

variable (hquant : cfg.kvQuant = true) (hchunks : cfg.maxPagedChunks < 2 ^ 32)

include hquant hchunks

/-- Initialisation keeps the invariant. -/
lemma QuantInv.setups (h : QuantInv cfg m) (hs : Setups cfg env m m')
    (hbase : ∀ base, env.quantPool = .ok base → 0 < base) : QuantInv cfg m' := by
  have hext := hs.grows.extends h.sound
  refine ⟨h.toQuantCore.extends hquant hchunks hext hbase, ?_⟩
  rw [hext.quantHeld h.sound, hs.tokens h.sound]
  exact h.sealed

/-- A sequence without quantized slots may be lost. -/
lemma QuantInv.loses (h : QuantInv cfg m) (hl : Loses cfg env m m') (hheld : m.quantHeld = [])
    (hbase : ∀ base, env.quantPool = .ok base → 0 < base) : QuantInv cfg m' := by
  obtain ⟨hsound, hseq, -, m₁, hext, hprog, hpool, hfilled⟩ := hl.spec h.sound
  have hcore := h.toQuantCore.extends hquant hchunks hext hbase
  have hheld' : m'.quantHeld = [] := by rw [quantHeld, hseq]; rfl
  have hheld₁ : m₁.quantHeld = [] := (hext.quantHeld h.sound).trans hheld
  refine ⟨⟨hsound, by rw [hprog]; exact hcore.program, fun q hq => ?_, fun _ => hheld',
    fun i slot hslot => ?_⟩, ?_⟩
  · rw [hheld', ← hheld₁]
    exact hcore.pool q (hpool ▸ hq)
  · rw [hheld'] at hslot
    cases hslot
  · rw [hheld', tokens, hseq]
    rfl

/-- **Prefill**: the invariant is kept if no chunk is finished and no quantized slot lost. -/
lemma QuantInv.prefill {total : ℕ} {r : Except ModelFault Unit} (h : QuantInv cfg m)
    (hsafe : QuantSafe cfg m (.prefill env total))
    (hcall : Model.prefill cfg env total m = (r, m')) : QuantInv cfg m' := by
  obtain ⟨hsame, hroom, hkeep, hbase⟩ := hsafe
  have hct : chunkTokens = 64 := rfl
  have hlt : total < chunkTokens := by
    rw [hct] at hsame ⊢
    omega
  rcases prefill_small hlt hcall with hs | ⟨m₁, startPos, r₁, m₂, hs₁, hslab, hs₂⟩
  · exact h.setups hquant hchunks hs hbase
  have h₁ := h.setups hquant hchunks hs₁ hbase
  have htok₁ := hs₁.tokens h.sound
  have hheld₁ := (hs₁.grows.extends h.sound).quantHeld h.sound
  suffices h₂ : QuantInv cfg m₂ from h₂.setups hquant hchunks hs₂ hbase
  cases hslab with
  | same hs => exact h₁.setups hquant hchunks hs hbase
  | appended m₃ seq seq' allocator host mem hs hseq halloc hoff happ hs' =>
      have h₃ := h₁.setups hquant hchunks hs hbase
      have hgrow : Grows cfg env m₃ _ := appendTokens_grows hseq halloc rfl hoff happ
      have hext := hgrow.extends h₃.sound
      have hcore := h₃.toQuantCore.extends hquant hchunks hext hbase
      refine QuantInv.setups hquant hchunks ⟨hcore, ?_⟩ hs' hbase
      have htok₃ : seq.seqLen = m.tokens := by
        rw [← tokens_eq hseq, hs.tokens h₁.sound, htok₁]
      have hlen : seq'.seqLen = seq.seqLen + total := by
        rw [(appendTokens_positions happ).2, length_slabPositions]
      rw [hext.quantHeld h₃.sound, h₃.sealed, tokens_eq hseq, tokens_eq rfl, hlen, htok₃]
      exact hsame.symm
  | lost hr hlost hstatus =>
      refine h₁.loses hquant hchunks hlost ?_ hbase
      exact hheld₁.trans (hkeep.resolve_right fun hno => hno hstatus)
  | exhausted m₃ seq allocator host e hr hlost hs hseq halloc happ =>
      refine h₁.loses hquant hchunks hlost (hheld₁.trans ?_) hbase
      rcases hroom with hroom | ⟨-, hempty⟩
      · -- there is room, so the slab is appended
        have hsound := (h₁.setups hquant hchunks hs hbase).sound.seq seq allocator hseq halloc
        obtain ⟨r', hok⟩ :=
          @appendTokens_ok (slabPositions startPos total) ⟨m₃.heap, allocator, host⟩ seq
          hsound.exclusive hsound.shape (by
            rw [length_slabPositions, hsound.chunkTokens, hsound.capacity, ← tokens_eq hseq,
              hs.tokens h₁.sound, htok₁]
            exact hroom)
        rw [happ] at hok
        cases hok
      · exact hempty

end Config

/-! ### Resets -/

/-- The quantized slots can be given back. -/
lemma QuantCore.releaseQuant (h : QuantCore cfg m) {seq : SequenceState}
    (hseq : m.pagedSeq = some seq) :
    ∃ quant seq₁, m.releaseQuant seq = .ok (quant, seq₁) ∧ seq₁.quantSlots = [] ∧
      ∀ q, quant = some q → 0 < q.pool ∧ q.chunkBytes = cfg.quantizedChunkKvBytes ∧
        q.slots.capacity = cfg.maxPagedChunks ∧ q.slots.Holds [] := by
  rw [Model.releaseQuant]
  cases hq : m.quantAllocator with
  | none =>
      refine ⟨none, seq, rfl, ?_, fun q h => by cases h⟩
      rw [← quantHeld_eq hseq]
      exact h.noPool hq
  | some q =>
      obtain ⟨hpos, hbytes, hcap, hholds⟩ := h.pool q hq
      rw [quantHeld_eq hseq] at hholds
      obtain ⟨q', hfree, hnil, hcap', hpool', hbytes'⟩ := SequenceState.freeQuantSlots_holds hholds
      refine ⟨some q', _, by simp only [hfree]; rfl, rfl, fun q₁ hq₁ => ?_⟩
      obtain rfl := Option.some.inj hq₁
      exact ⟨hpool' ▸ hpos, hbytes'.trans hbytes, hcap'.trans hcap, hnil⟩

/-- **Reset**: the quantized slots go back to their pool. -/
lemma QuantInv.reset {r : Except ModelFault Unit} (h : QuantInv cfg m)
    (hcall : resetState env m = (r, m')) (hno : ¬ ∃ e, r = .error e ∧ e.IsPanic) :
    QuantInv cfg m' := by
  have hsound := h.sound.step (c := .reset env) ⟨r, hcall, fun e he hp => hno ⟨e, he, hp⟩⟩
  rcases resetState_spec h.sound.together hcall with
    ⟨seq, allocator, quant, seq₁, mem, seq₂, -, hseq, halloc, hrel, hreset, rfl⟩ |
    ⟨-, n, rfl⟩ | hpanic
  · obtain ⟨quant', seq', hrel', hnil, hpool⟩ := h.toQuantCore.releaseQuant hseq
    obtain ⟨rfl, rfl⟩ := Prod.mk.inj (Except.ok.inj (hrel.symm.trans hrel'))
    have hspec := (h.sound.releaseQuant hseq halloc hrel).reset hreset
    have hheld : (m.cleared quant mem seq₂).quantHeld = [] := hspec.quantSlots.trans hnil
    refine ⟨⟨hsound, h.program, fun q hq => ?_, fun _ => hheld, fun i slot hslot => ?_⟩, ?_⟩
    · rw [hheld]
      exact hpool q hq
    · rw [hheld] at hslot
      cases hslot
    · rw [hheld, tokens_eq (m := m.cleared quant mem seq₂) rfl, hspec.empty.2.1]
      rfl
  · exact ⟨⟨hsound, h.program, h.pool, h.noPool, h.entries⟩, h.sealed⟩
  · exact absurd hpanic hno

/-- A reset that succeeds leaves the sequence no quantized slot. -/
lemma QuantInv.reset_empty (h : QuantInv cfg m) (hcall : resetState env m = (.ok (), m')) :
    m'.quantHeld = [] := by
  rcases resetState_spec h.sound.together hcall with
    ⟨seq, allocator, quant, seq₁, mem, seq₂, -, hseq, halloc, hrel, hreset, rfl⟩ |
    ⟨hkeep, n, rfl⟩ | ⟨e, he, -⟩
  · obtain ⟨quant', seq', hrel', hnil, -⟩ := h.toQuantCore.releaseQuant hseq
    obtain ⟨rfl, rfl⟩ := Prod.mk.inj (Except.ok.inj (hrel.symm.trans hrel'))
    exact ((h.sound.releaseQuant hseq halloc hrel).reset hreset).quantSlots.trans hnil
  · cases hclear : env.clear with
    | ok u =>
        rw [Model.quantHeld, show m.pagedSeq = none from hkeep hclear]
        rfl
    | error code => simp [resetState, hclear] at hcall
  · cases he

/-- No reset frees a slot twice, or out of range. -/
lemma QuantInv.reset_no_panic (h : QuantInv cfg m) {e : ModelFault}
    (he : (resetState env m).1 = .error e) : ¬ e.IsPanic := by
  rw [resetState] at he
  cases hclear : env.clear with
  | error code =>
      simp only [hclear, Except.error.injEq] at he
      rw [← he]
      exact id
  | ok u =>
      simp only [hclear] at he
      cases hseq : m.pagedSeq with
      | none => simp [hseq] at he
      | some seq =>
          obtain ⟨allocator, halloc⟩ : ∃ a, m.pageAllocator = some a :=
            Option.isSome_iff_exists.mp (by rw [← h.sound.together, hseq]; rfl)
          obtain ⟨quant, seq₁, hrel, -, -⟩ := h.toQuantCore.releaseQuant hseq
          obtain ⟨heap', vram', s', hok, -⟩ :=
            SequenceState.reset_order (h.sound.releaseQuant hseq halloc hrel).exclusive
          have hrel' : ∀ m₁ : Model, m₁.quantAllocator = m.quantAllocator →
              m₁.releaseQuant seq = .ok (quant, seq₁) := fun m₁ hq => by
            rw [← hrel, Model.releaseQuant, hq]
            rfl
          simp only [hseq, hrel', halloc, hok] at he
          cases he

/-! ### Whole calls and runs -/

/-- Within the context a quantized slot is left for every chunk. -/
lemma QuantCore.alloc_ne_none (h : QuantCore cfg m) {q : PageAllocator}
    (hq : m.quantAllocator = some q) (hlt : m.quantHeld.length < cfg.maxPagedChunks) :
    q.alloc ≠ none := by
  intro hnone
  obtain ⟨-, -, hcap, hholds⟩ := h.pool q hq
  have hlen := hholds.length_eq
  rw [PageAllocator.alloc_eq_none_iff.mp hnone, List.nil_append, List.length_range, hcap] at hlen
  omega

section Config

variable (hquant : cfg.kvQuant = true) (hchunks : cfg.maxPagedChunks < 2 ^ 32)

include hquant hchunks

/-- **Decode**: at the position of its token a step keeps the invariant. -/
lemma QuantInv.decode {tokenId position : ℕ} {r : Except ModelFault Unit} (h : QuantInv cfg m)
    (hbytes : 0 < cfg.quantizedChunkKvBytes)
    (hsafe : QuantSafe cfg m (.decode env tokenId position))
    (hcall : decodeStep cfg env tokenId position m = (r, m'))
    (hno : ¬ ∃ e, r = .error e ∧ e.IsPanic) : QuantInv cfg m' := by
  obtain ⟨hpos, hvram, hbase⟩ := hsafe
  rw [decodeStep] at hcall
  rcases hpatch : decodePatch cfg env tokenId position m with ⟨e | u, m₁⟩ <;>
    simp only [hpatch] at hcall
  · obtain ⟨rfl, rfl⟩ := Prod.ext_iff.mp hcall
    rcases decodePatch_spec hpatch with ⟨hr, -⟩ | ⟨-, hsetup⟩ | hpanic
    · cases hr
    · exact h.setups hquant hchunks hsetup hbase
    · exact absurd hpanic hno
  obtain ⟨P⟩ : Nonempty (Patched cfg env tokenId position m m₁) := by
    rcases decodePatch_spec hpatch with ⟨-, hP⟩ | ⟨hr, -⟩ | ⟨e, hr, -⟩
    · exact hP
    · exact absurd rfl hr
    · cases hr
  obtain ⟨hcore, hheld, htok⟩ := h.toQuantCore.patched hquant hchunks hbase P
  have hlen : m₁.quantHeld.length = position / chunkTokens := by rw [hheld, h.sealed, hpos]
  have hready : m₁.quantAllocator.isSome :=
    hcore.sound.workers ((congrArg Model.persistentWorkers P.after).trans P.ready) hquant
  rcases decodeFinish_spec hcall with
    ⟨seq, allocator, prog, s, n, hseq, halloc, hprog, hpost, rfl⟩ |
    ⟨seq, allocator, prog, code, hseq, halloc, hprog, hpost, rfl⟩ | hpanic
  · exact hcore.sealed hbytes hlen (by rw [htok, hpos]) (by rwa [hpos]) hready hseq halloc hprog
      hpost
  · -- the position lies in the context, so a slot is left
    obtain ⟨q, hq, hnone⟩ := postStepPaged_hip hpost
    refine absurd hnone (hcore.alloc_ne_none hq ?_)
    have hup := (P.spec h.sound).updated
    have hmax := (hcore.program P.prog' (congrArg Model.megakernelPaged P.after)).2.2.2
    have hin : position < cfg.maxSeqLen := by
      rw [← hmax, hup.maxSeqLen]
      exact hup.inRange
    have hct : chunkTokens = 64 := rfl
    rw [hlen, EngineConfig.maxPagedChunks, hct]
    omega
  · exact absurd hpanic hno

/-- **Every call of the condition keeps the invariant.** -/
theorem QuantInv.step {c : Call} (h : QuantInv cfg m) (hbytes : 0 < cfg.quantizedChunkKvBytes)
    (hstep : guarded (QuantSafe cfg) (Step cfg) m c m') : QuantInv cfg m' := by
  obtain ⟨hsafe, r, hcall, hok⟩ := hstep
  have hno : ¬ ∃ e, r = .error e ∧ e.IsPanic := fun ⟨e, he, hp⟩ => hok e he hp
  cases c with
  | prefill env total => exact h.prefill hquant hchunks hsafe hcall
  | decode env tokenId position => exact h.decode hquant hchunks hbytes hsafe hcall hno
  | reset env => exact h.reset hcall hno

lemma QuantInv.of_run {calls : List Call} (hbytes : 0 < cfg.quantizedChunkKvBytes)
    (hrun : Run (guarded (QuantSafe cfg) (Step cfg)) Model.init calls m) : QuantInv cfg m :=
  hrun.invariant (fun _ _ _ h hstep => h.step hquant hchunks hbytes hstep) .init

/-- What the quantized instruction of a patched step reads. -/
lemma QuantInv.pagesOk {tokenId position : ℕ} (h : QuantInv cfg m)
    (hbase : ∀ base, env.quantPool = .ok base → 0 < base)
    (P : Patched cfg env tokenId position m m') : QuantPagesOk m' := by
  obtain ⟨hcore, hheld, htok⟩ := h.toQuantCore.patched hquant hchunks hbase P
  have hspec := P.spec h.sound
  have hinit := h.toQuantCore.extends hquant hchunks hspec.init hbase
  have hseq' : m'.pagedSeq = some P.seq' := congrArg Model.pagedSeq P.after
  have hprog' : m'.megakernelPaged = some P.prog' := congrArg Model.megakernelPaged P.after
  have hlen : P.seq'.chunks.length - 1 = m'.quantHeld.length := by
    rw [hspec.appended.shape.length_chunks (by rw [← tokens_eq hseq', htok]),
      hspec.appended.chunkTokens, hheld, h.sealed, Nat.add_sub_cancel]
  intro prog inst hprog hinst hgrid
  obtain rfl := Option.some.inj (hprog'.symm.trans hprog)
  cases (updateStepPagedNoUpload_attn (hinit.program P.prog P.hprog).1 P.hupdate).2.1 with
  | whole hone hqs hfs =>
      -- a step that does not split disables every quantized instruction
      rw [hqs] at hinst
      obtain ⟨old, -, rfl⟩ := List.mem_map.mp hinst
      exact absurd rfl hgrid
  | split kv f hq hmany hkv hf hqs hfs =>
      rw [hqs] at hinst
      obtain ⟨old, -, rfl⟩ := List.mem_map.mp hinst
      have hready : m'.quantAllocator.isSome :=
        hcore.sound.workers ((congrArg Model.persistentWorkers P.after).trans P.ready) hquant
      obtain ⟨q, hq⟩ := Option.isSome_iff_exists.mp hready
      refine ⟨Nat.mul_mod_left _ _, kv, q, hspec.updated.quantKv.trans hkv, hq, rfl,
        fun i hi => ?_⟩
      have hi' : i < m'.quantHeld.length := by
        rw [← hlen]
        simpa only [splitQ, Nat.mul_div_cancel _ (by decide : 0 < chunkTokens)] using hi
      have hentry := hcore.entries i _ (List.getElem?_eq_getElem hi')
      refine ⟨m'.quantHeld[i], List.getElem_mem hi', ?_, ?_, hentry⟩
      · obtain ⟨-, -, prog₁, kv₁, q₁, -, -, -, hp₁, hkv₁, hq₁, htable, -⟩ := hentry
        obtain rfl := Option.some.inj (hprog'.symm.trans hp₁)
        obtain rfl := Option.some.inj ((hspec.updated.quantKv.trans hkv).symm.trans hkv₁)
        obtain rfl := Option.some.inj (hq.symm.trans hq₁)
        exact htable
      · have hpos := (hcore.pool q hq).1
        rw [SlotPool.slotPtr]
        omega

end Config

/-- **Quantized pages.**  Take an engine with quantized KV, in any run of prefills that
finish no chunk and lose no quantized slot, decode steps at the position of their token and
resets, without chunks outside of VRAM.  Whenever the next step enables `OP_ATTN_PAGED_Q`,
every page it reads is a quantized slot of the sequence that was filled from the chunk it
stands for.  At every point of the run the quantized slots are free or held by the sequence,
each once; no reset frees a slot twice, and one that succeeds leaves the sequence none. -/
theorem quantPages_exist_of_run (cfg : EngineConfig) (hquant : cfg.kvQuant = true)
    (hbytes : 0 < cfg.quantizedChunkKvBytes) (hchunks : cfg.maxPagedChunks < 2 ^ 32)
    (calls : List Call) (m : Model)
    (hrun : Run (guarded (QuantSafe cfg) (Step cfg)) Model.init calls m) :
    (∀ env tokenId position m', (∀ base, env.quantPool = .ok base → 0 < base) →
        decodePatch cfg env tokenId position m = (.ok (), m') → QuantPagesOk m') ∧
      QuantAccounted m ∧
      (∀ env e, (resetState env m).1 = .error e → ¬ e.IsPanic) ∧
      ∀ env m', resetState env m = (.ok (), m') → m'.quantHeld = [] ∧ QuantAccounted m' := by
  have hinv := QuantInv.of_run hquant hchunks hbytes hrun
  refine ⟨fun env tokenId position m' hbase hpatch => ?_, fun q hq => (hinv.pool q hq).2.2.2,
    fun env e he => hinv.reset_no_panic he, fun env m' hcall => ?_⟩
  · rcases decodePatch_spec hpatch with ⟨-, ⟨P⟩⟩ | ⟨hr, -⟩ | ⟨e, hr, -⟩
    · exact hinv.pagesOk hquant hchunks hbase P
    · exact absurd rfl hr
    · cases hr
  · have hinv' := hinv.reset hcall (fun ⟨e, he, _⟩ => by cases he)
    exact ⟨hinv.reset_empty hcall, fun q hq => (hinv'.pool q hq).2.2.2⟩

/-- A prompt of 63 tokens and a decode step that seals the chunk: the next step reads its
page. -/
theorem quantPages_exist_of_run_sealed :
    ∃ m m', Run (guarded (QuantSafe (smallConfig true)) (Step (smallConfig true))) Model.init
        [.prefill (quietEnv 100000 900000) 63, .decode (quietEnv 100000 900000) 7 63] m ∧
      decodePatch (smallConfig true) (quietEnv 100000 900000) 7 64 m = (.ok (), m') ∧
      m'.quantHeld = [0] ∧ QuantPagesOk m' := by
  let cfg := smallConfig true
  let env := quietEnv 100000 900000
  let m₁ := (Model.init.call cfg (.prefill env 63)).2
  let m₂ := (m₁.call cfg (.decode env 7 63)).2
  have hbase : ∀ base, env.quantPool = .ok base → 0 < base := fun base h => by
    rw [← Except.ok.inj h]
    decide
  have hrun : Run (guarded (QuantSafe cfg) (Step cfg)) Model.init
      [.prefill env 63, .decode env 7 63] m₂ :=
    (Run.nil.snoc ⟨⟨by decide +kernel, .inl (by decide +kernel), .inl (by decide +kernel), hbase⟩,
      .of_isOk (by decide +kernel)⟩).snoc
        ⟨⟨by decide +kernel, .inl (by decide +kernel), hbase⟩, .of_isOk (by decide +kernel)⟩
  have hpatch := eq_of_isOk (r := decodePatch cfg env 7 64 m₂) (by decide +kernel)
  exact ⟨m₂, _, hrun, hpatch, by decide +kernel,
    (quantPages_exist_of_run cfg rfl (by decide +kernel) (by decide +kernel) _ m₂ hrun).1 env 7 64 _
      hbase hpatch⟩

/-- A prompt of 64 tokens fills a chunk and quantizes nothing: the next decode step reads a
page that is not there. -/
theorem quantPages_missing_after_prefill :
    ¬ ∀ (cfg : EngineConfig) (env : Env) (calls : List Call) (tokenId position : ℕ)
      (m m' : Model), cfg.kvQuant = true → Run (Step cfg) Model.init calls m →
      decodePatch cfg env tokenId position m = (.ok (), m') → QuantPagesOk m' := by
  intro hall
  let cfg := smallConfig true
  let env := quietEnv 100000 900000
  let m₁ := (Model.init.call cfg (.prefill env 64)).2
  have hrun : Run (Step cfg) Model.init [.prefill env 64] m₁ :=
    Run.nil.snoc (.of_isOk (by decide +kernel))
  have hpatch := eq_of_isOk (r := decodePatch cfg env 7 64 m₁) (by decide +kernel)
  have hpages := hall cfg env _ 7 64 m₁ _ rfl hrun hpatch
  let m₂ := (decodePatch cfg env 7 64 m₁).2
  let prog := m₂.megakernelPaged.get (by decide +kernel)
  let inst := (attnQs prog.instructions)[0]?.get (by decide +kernel)
  have hprog : m₂.megakernelPaged = some prog := (Option.some_get _).symm
  have hinst : (attnQs prog.instructions)[0]? = some inst := (Option.some_get _).symm
  obtain ⟨-, kv, q, -, -, -, hread⟩ := hpages prog inst hprog (List.mem_of_getElem? hinst)
    (by decide +kernel)
  obtain ⟨slot, hslot, -⟩ := hread 0 (by decide +kernel)
  have hnone : m₂.quantHeld = [] := by decide +kernel
  rw [hnone] at hslot
  cases hslot

end Model

end Braidinfer.Engine
