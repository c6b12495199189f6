/-
Addresses handed to the GPU when the VRAM pool runs out (`append_token`, step 3 and step 5 of
`update_step_paged_no_upload`, the tables of the prefill compilers).

With a host tier `append_token` falls back to a host-pinned chunk, whose VRAM slot is `u32::MAX`.
Nothing promotes such a chunk before its slot index is used.

* `GpuPatch`: what one patch of a call hands to the GPU;
* `GpuPatch.InPool`: all of it lies inside the VRAM pool;
* `SoundSeq.vram_of_le`, `SoundSeq.pinned_of_lt`: the chunks of a sequence are in VRAM exactly as
  long as they fit;
* `gpuPointers_inPool_of_run`: **every patch of a call is inside the pool if the tokens fit in VRAM,
  and a call that succeeds is outside otherwise**.
-/
import Braidinfer.Engine.Sound
import Braidinfer.Megakernel.KvLayout

namespace Braidinfer.Engine

open Braidinfer.Lib Braidinfer.PagedKv Braidinfer.Megakernel

/-! ### Patches -/

/-- What a patch hands to the GPU: the destinations of the KV copies, the page-table entries, and
the chunks whose slot index it reads. -/
structure GpuPatch where
  heap : ChunkHeap
  vram : PageAllocator
  seq : SequenceState
  kvDsts : List ℕ
  entries : List ℕ
  derefs : List ChunkHandle

namespace GpuPatch

/-- The patch of `update_step_paged_no_upload`, from `p` to `p'`. -/
def update (p p' : MegakernelProgram) (heap : ChunkHeap) (vram : PageAllocator)
    (seq : SequenceState) : GpuPatch :=
  { heap, vram, seq
    kvDsts := (kvCopies p'.instructions).map fun c => c.dst.off
    entries := if needsRewrite p seq then chunkPtrs heap vram seq.chunks else []
    derefs := (p.kvWriteIndices.flatMap fun _ => seq.chunks.getLast?.toList) ++
      if needsRewrite p seq then seq.chunks else [] }

/-- The page table of a prefill compiler. -/
def tables (mem : KvMem) (seq : SequenceState) : GpuPatch :=
  { heap := mem.heap, vram := mem.vram, seq
    kvDsts := []
    entries := chunkPtrs mem.heap mem.vram seq.chunks
    derefs := seq.chunks }

/-- An address inside the VRAM pool. -/
def Inside (vram : PageAllocator) (ptr : ℕ) : Prop :=
  ∃ s < vram.slots.capacity, ∃ offset < vram.chunkBytes, ptr = vram.slotPtr s + offset

/-- No address outside the VRAM pool, and no host-pinned chunk read through its slot index. -/
structure InPool (P : GpuPatch) : Prop where
  kvDsts : ∀ ptr ∈ P.kvDsts, Inside P.vram ptr
  entries : ∀ ptr ∈ P.entries, Inside P.vram ptr
  derefs : ∀ h ∈ P.derefs, (chunk P.heap h).tier = .vram

end GpuPatch

namespace Model

section Patches

variable (cfg : EngineConfig) (env : Env)

/-- The patch of a decode step, if it gets that far. -/
def decodeGpuPatch (tokenId position : ℕ) (m : Model) : Option GpuPatch :=
  match decodePatch cfg env tokenId position m with
  | (.error _, _) => none
  | (.ok (), m') =>
      match (ensurePersistentWorkerSpawned cfg env m).2.megakernelPaged, m'.megakernelPaged,
        m'.pagedSeq, m'.pageAllocator with
      | some p, some p', some seq, some allocator => some (.update p p' m'.heap allocator seq)
      | _, _, _, _ => none

/-- The model a slab works on: the mixed prefill initialises before each slab. -/
def slabReady (m : Model) : Option Model :=
  if cfg.hasMoe then
    match ensurePagedDecodeState cfg env false m with
    | (.error _, _) => none
    | (.ok (), m) => some m
  else some m

/-- The memory and the sequence a slab appends to: only the mixed prefill passes the host tier. -/
def slabKv (m : Model) : Option (KvMem × SequenceState) :=
  match m.pagedSeq, m.pageAllocator with
  | some seq, some allocator =>
      some (⟨m.heap, allocator, if cfg.hasMoe then m.hostPageAllocator else none⟩, seq)
  | _, _ => none

/-- The patch of one slab, if it gets that far. -/
def slabGpuPatch (startPos k n : ℕ) (m : Model) : Option GpuPatch :=
  match env.slab k with
  | .early _ => none
  | _ =>
      match (slabReady cfg env m).bind (slabKv cfg) with
      | none => none
      | some (mem, seq) =>
          match appendTokens mem seq (slabPositions startPos n) with
          | .error _ => none
          | .ok (mem, seq) => some (.tables mem seq)

/-- The patches of the slab loop. -/
def slabGpuPatches (startPos total : ℕ) : List ℕ → Model → List GpuPatch
  | [], _ => []
  | k :: ks, m =>
      let offset := k * chunkTokens
      let n := min chunkTokens (total - offset)
      (slabGpuPatch cfg env (startPos + offset) k n m).toList ++
        match prefillSlab cfg env (startPos + offset) k n m with
        | (.error _, _) => []
        | (.ok (), m) => slabGpuPatches startPos total ks m

/-- The patches of a prefill. -/
def prefillGpuPatches (total : ℕ) (m : Model) : List GpuPatch :=
  if total = 0 then []
  else
    match ensurePersistentWorkerSpawned cfg env m with
    | (.error _, _) => []
    | (.ok (), m) =>
        match (if cfg.hasMoe then (.ok (), m) else ensurePagedDecodeState cfg env false m) with
        | (.error _, _) => []
        | (.ok (), m₁) =>
            match env.prefillAlloc with
            | .error _ => []
            | .ok () =>
                slabGpuPatches cfg env m.seqLen total (List.range (divCeil total chunkTokens)) m₁

/-- The patches of a call. -/
def gpuPatches (m : Model) : Call → List GpuPatch
  | .prefill env total => prefillGpuPatches cfg env total m
  | .decode env tokenId position => (decodeGpuPatch cfg env tokenId position m).toList
  | .reset _ => []

/-- The tokens a call appends. -/
def newTokens : Call → ℕ
  | .prefill _ total => total
  | .decode _ _ _ => 1
  | .reset _ => 0

/-- The sequence fits in the VRAM pool after the call. -/
def FitsVram (m : Model) (c : Call) : Prop :=
  m.tokens + newTokens c ≤ chunkTokens * cfg.vramChunks.toNat

instance (m : Model) (c : Call) : Decidable (FitsVram cfg m c) :=
  inferInstanceAs (Decidable (_ ≤ _))

end Patches

/-! ### The chunks of a sequence -/

section Chunks

variable {cfg : EngineConfig} {heap : ChunkHeap} {vram : PageAllocator} {seq : SequenceState}
  {h : ChunkHandle}

/-- The tokens fit exactly if the chunks do. -/
lemma SoundSeq.length_le_iff (hs : SoundSeq cfg heap vram seq) :
    seq.chunks.length ≤ cfg.vramChunks.toNat ↔
      seq.seqLen ≤ PagedKv.chunkTokens * cfg.vramChunks.toNat := by
  rw [hs.shape.length_le_iff, hs.chunkTokens]

/-- Chunks that fit in the pool all sit in the pool. -/
lemma SoundSeq.vram_of_le (hs : SoundSeq cfg heap vram seq)
    (hle : seq.chunks.length ≤ cfg.vramChunks.toNat) (hh : h ∈ seq.chunks) :
    slotIndex heap h < vram.slots.capacity ∧ (chunk heap h).tier = .vram := by
  obtain ⟨i, hi⟩ := List.getElem?_of_mem hh
  have hilt : i < seq.chunks.length := (List.getElem?_eq_some_iff.mp hi).1
  have hperm := hs.exclusive.order_perm
  have hlen : i < (SequenceState.order heap vram seq).length := by
    rw [hperm.length_eq, List.length_range, hs.capacity]
    omega
  have hslot : slotIndex heap h < vram.slots.capacity := by
    rw [SequenceState.slotIndex_eq_order hs.exclusive hi, List.getD_eq_getElem _ _ hlen]
    exact List.mem_range.mp (hperm.mem_iff.mp (List.getElem_mem hlen))
  refine ⟨hslot, ?_⟩
  cases htier : (chunk heap h).tier with
  | vram => rfl
  | hostPinned =>
      have hmax := (hs.exclusive.tier h hh).mp htier
      exact absurd hmax (PoolInv.ne_max hs.exclusive.capacity_lt hslot)

/-- Once there are more chunks than slots, the last one is host-pinned. -/
lemma SoundSeq.pinned_of_lt (hs : SoundSeq cfg heap vram seq)
    (hlt : cfg.vramChunks.toNat < seq.chunks.length) (hlast : seq.chunks.getLast? = some h) :
    (chunk heap h).tier = .hostPinned := by
  refine (hs.exclusive.tier h (List.mem_of_getLast? hlast)).mpr ?_
  rw [List.getLast?_eq_getElem?] at hlast
  have hlen : (SequenceState.order heap vram seq).length = cfg.vramChunks.toNat := by
    rw [hs.exclusive.order_perm.length_eq, List.length_range, hs.capacity]
  change slotIndex heap h = u32Max
  rw [SequenceState.slotIndex_eq_order hs.exclusive hlast, List.getD_eq_default]
  omega

/-- The entry of a chunk in the pool. -/
lemma SoundSeq.inside (hs : SoundSeq cfg heap vram seq) (hbytes : 0 < cfg.chunkKvBytes)
    (hle : seq.chunks.length ≤ cfg.vramChunks.toNat) {ptr : ℕ}
    (hptr : ptr ∈ chunkPtrs heap vram seq.chunks) : GpuPatch.Inside vram ptr := by
  obtain ⟨h, hh, rfl⟩ := List.mem_map.mp hptr
  exact ⟨_, (hs.vram_of_le hle hh).1, 0, hs.chunkBytes ▸ hbytes, rfl⟩

end Chunks

/-! ### Programs over whole runs -/

variable {cfg : EngineConfig} {env : Env} {m m' : Model} {r : Except ModelFault Unit}

/-- The program of the engine keeps track of its KV copies. -/
def ProgramOk (cfg : EngineConfig) (m : Model) : Prop :=
  ∀ p, m.megakernelPaged = some p → KvProgram cfg.attn cfg.numAttnLayers p

/-- The scratch pointers of the quantized instructions are no KV copies. -/
lemma enableQuantizedKv_sameKv (p : MegakernelProgram) (attn : AttnConfig) (scratch table : ℕ) :
    SameKv p.instructions (enableQuantizedKv p attn scratch table).instructions := by
  rw [enableQuantizedKv]
  dsimp only
  refine SameKv.trans (SameKv.patchEnum (fun k => ?_) _ _) (SameKv.patchEnum (fun k => ?_) _ _)
  · exact asKvCopy_patchAttnQ _
  · exact asKvCopy_patchAttn _

lemma freshProgram_kv (cfg : EngineConfig) (env : Env) :
    KvProgram cfg.attn cfg.numAttnLayers (freshProgram cfg env) := by
  have hc := compilePaged_kv cfg.attn cfg.maxSeqLen cfg.layers cfg.tail
  have hp : KvProgram cfg.attn cfg.numAttnLayers (initPagedBuffers
      (compilePaged cfg.attn cfg.maxSeqLen cfg.layers cfg.tail) env.pageTablePtr
      env.positionTablePtr) := ⟨hc.indexed, hc.headDim, hc.stride⟩
  rw [freshProgram]
  split_ifs
  · exact ⟨(enableQuantizedKv_sameKv _ _ _ _).indexed hp.indexed, hp.headDim, hp.stride⟩
  · exact hp

lemma ProgramOk.extends (h : ProgramOk cfg m) (hext : Extends cfg env m m') : ProgramOk cfg m' := by
  intro p hp
  rcases hext.program with hsame | ⟨-, hfresh⟩
  · exact h p (hsame ▸ hp)
  · obtain rfl := Option.some.inj (hfresh.symm.trans hp)
    exact freshProgram_kv cfg env

lemma ProgramOk.patched {tokenId position : ℕ} (h : ProgramOk cfg m) (hm : Sound cfg m)
    (P : Patched cfg env tokenId position m m') : ProgramOk cfg m' := by
  intro p hp
  rw [P.after] at hp
  obtain rfl := Option.some.inj hp
  exact (updateStepPagedNoUpload_kv (h.extends (P.spec hm).init P.prog P.hprog) P.hupdate).1

lemma ProgramOk.sealed {s : SealState} {position n : ℕ} {prog : MegakernelProgram}
    {seq : SequenceState} {allocator : PageAllocator} (h : ProgramOk cfg m)
    (hprog : m.megakernelPaged = some prog)
    (hpost : postStepPaged ⟨prog, seq, m.quantAllocator, m.filled⟩ position m.heap allocator =
      .ok s) : ProgramOk cfg (m.sealed s n) := by
  intro p hp
  obtain rfl := Option.some.inj hp
  have hold := h prog hprog
  rcases postStepPaged_cases hpost with
    ⟨rfl, -⟩ | ⟨-, -, q, sealed, slot, ptr, q', kv, -, -, -, -, rfl⟩
  · exact hold
  · exact ⟨hold.indexed, hold.headDim, hold.stride⟩

/-- **Every call keeps track of the KV copies.** -/
lemma ProgramOk.step {c : Call} (h : ProgramOk cfg m) (hm : Sound cfg m) (hstep : Step cfg m c m') :
    ProgramOk cfg m' := by
  obtain ⟨r, hcall, hok⟩ := hstep
  have hno : ¬ ∃ e, r = .error e ∧ e.IsPanic := fun ⟨e, he, hp⟩ => hok e he hp
  cases c with
  | prefill env total =>
      rcases prefill_spec hcall with hgrow | hlose
      · exact h.extends (hgrow.extends hm)
      · obtain ⟨-, -, -, m₁, hext, hprog, -, -⟩ := hlose.spec hm
        intro p hp
        exact h.extends hext p (hprog ▸ hp)
  | decode env tokenId position =>
      rw [call, decodeStep] at hcall
      rcases hpatch : decodePatch cfg env tokenId position m with ⟨e | u, m₁⟩ <;>
        simp only [hpatch] at hcall
      · obtain ⟨rfl, rfl⟩ := Prod.ext_iff.mp hcall
        rcases decodePatch_spec hpatch with ⟨hr, -⟩ | ⟨-, hgrow⟩ | hpanic
        · cases hr
        · exact h.extends (hgrow.grows.extends hm)
        · exact absurd hpanic hno
      · have hok₁ : ProgramOk cfg m₁ := by
          rcases decodePatch_spec hpatch with ⟨-, ⟨P⟩⟩ | ⟨hr, -⟩ | ⟨e, hr, -⟩
          · exact h.patched hm P
          · exact absurd rfl hr
          · cases hr
        rcases decodeFinish_spec hcall with
          ⟨seq, allocator, prog, s, n, -, -, hprog, hpost, rfl⟩ |
          ⟨-, -, -, -, -, -, -, -, rfl⟩ | hpanic
        · exact hok₁.sealed hprog hpost
        · exact hok₁
        · exact absurd hpanic hno
  | reset env =>
      rcases resetState_spec hm.together hcall with
        ⟨seq, allocator, quant, seq₁, mem, seq₂, -, -, -, -, -, rfl⟩ | ⟨-, n, rfl⟩ | hpanic
      · exact h
      · exact h
      · exact absurd hpanic hno

/-- What is known of the engine after every run. -/
lemma sound_of_run {calls : List Call} (hrun : Run (Step cfg) Model.init calls m) :
    Sound cfg m ∧ ProgramOk cfg m :=
  hrun.invariant (I := fun m => Sound cfg m ∧ ProgramOk cfg m)
    (fun _ _ _ h hstep => ⟨h.1.step hstep, h.2.step h.1 hstep⟩) ⟨.init, fun _ h => by cases h⟩

/-! ### Patches of a call -/

/-- The destinations of the copies of a program. -/
lemma mem_programCopies {attn : AttnConfig} {L : ℕ} {dst : ℕ → ℕ → ℕ × ℕ} {c : D2dCopyInst}
    (hc : c ∈ programCopies attn L dst) :
    ∃ l < L, ∃ h < attn.numKvHeads, c.dst.off = (dst l h).1 ∨ c.dst.off = (dst l h).2 := by
  simp only [programCopies, layerCopies, headCopies, List.mem_flatMap, List.mem_range,
    List.mem_cons, List.not_mem_nil, or_false] at hc
  obtain ⟨l, hl, h, hh, hc⟩ := hc
  refine ⟨l, hl, h, hh, ?_⟩
  rcases hc with rfl | rfl
  · exact .inl rfl
  · exact .inr rfl

/-- The destinations of a decode step are rows of the last chunk. -/
lemma SoundSeq.kvDst_inside {heap : ChunkHeap} {vram : PageAllocator} {seq : SequenceState}
    {p : MegakernelProgram} (hs : SoundSeq cfg heap vram seq)
    (hp : KvProgram cfg.attn cfg.numAttnLayers p) (hbytes : 0 < cfg.chunkKvBytes)
    (hpos : 0 < seq.seqLen) (hle : seq.chunks.length ≤ cfg.vramChunks.toNat) {c : D2dCopyInst}
    (hc : c ∈ programCopies cfg.attn cfg.numAttnLayers (stepDst p heap seq vram)) :
    GpuPatch.Inside vram c.dst.off := by
  rcases hs.shape.last with ⟨-, hzero⟩ | ⟨last, hlast, hge, htok, -⟩
  · omega
  obtain ⟨l, hl, h, hh, hdst⟩ := mem_programCopies hc
  have hoff : seq.currentChunkOffset heap - 1 < PagedKv.chunkTokens := by
    rw [SequenceState.currentChunkOffset, hlast]
    rw [hs.chunkTokens] at htok
    dsimp only
    omega
  have hdim : 0 < cfg.attn.headDim * f32Bytes := by
    refine Nat.pos_of_ne_zero fun h0 => ?_
    have hhd : cfg.attn.headDim = 0 := by simpa [f32Bytes] using h0
    simp [EngineConfig.chunkKvBytes, hhd] at hbytes
  have hslot := (hs.vram_of_le hle (List.mem_of_getLast? hlast)).1
  have hrow : ∀ isV, rowOffset cfg.attn l isV h (seq.currentChunkOffset heap - 1) <
      vram.chunkBytes := by
    intro isV
    have hin : rowOffset cfg.attn l isV h _ + _ ≤ _ := rowOffset_add_le hl hh hoff
    rw [hs.chunkBytes]
    change _ < Megakernel.chunkKvBytes cfg.attn cfg.numAttnLayers
    omega
  rw [stepDst, hp.stride, hp.headDim, kvDst_eq, lastBase, hlast] at hdst
  rcases hdst with hdst | hdst
  · exact ⟨_, hslot, _, hrow false, hdst⟩
  · exact ⟨_, hslot, _, hrow true, hdst⟩

/-- The patch of a decode step is that of its update. -/
lemma decodeGpuPatch_cases {tokenId position : ℕ} {P : GpuPatch}
    (h : decodeGpuPatch cfg env tokenId position m = some P) :
    ∃ m', ∃ D : Patched cfg env tokenId position m m',
      P = .update D.prog D.prog' D.heap' D.mem.vram D.seq' := by
  rw [decodeGpuPatch, decodePatch] at h
  rcases hs : ensurePersistentWorkerSpawned cfg env m with ⟨e | u, m₁⟩ <;> simp only [hs] at h
  · cases h
  have hinit := ensurePersistentWorkerSpawned_setups hs
  cases hseq : m₁.pagedSeq with
  | none => simp [hseq] at h
  | some seq =>
      cases halloc : m₁.pageAllocator with
      | none => simp [hseq, halloc] at h
      | some allocator =>
          cases hprog : m₁.megakernelPaged with
          | none => simp [hseq, halloc, hprog] at h
          | some prog =>
              simp only [hseq, halloc, hprog] at h
              rcases happ : seq.appendToken ⟨m₁.heap, allocator, m₁.hostPageAllocator⟩
                (toI32 position) with e | ⟨mem, seq'⟩ <;> simp only [happ] at h
              · cases h
              rcases hup : updateStepPagedNoUpload prog tokenId position mem.heap seq' mem.vram
                with e | ⟨heap', prog'⟩ <;> simp only [hup] at h
              · cases h
              obtain rfl := Option.some.inj h
              exact ⟨_, ⟨m₁, seq, seq', allocator, mem, prog, heap', prog', hinit,
                ensurePersistentWorkerSpawned_ready hs, hseq, halloc, hprog, happ, hup, rfl⟩, rfl⟩

/-- **The patch of a decode step** is inside the pool exactly if the appended token fits. -/
lemma decodeGpuPatch_inPool_iff {tokenId position : ℕ} {P : GpuPatch} (hm : Sound cfg m)
    (hp : ProgramOk cfg m) (hbytes : 0 < cfg.chunkKvBytes)
    (h : decodeGpuPatch cfg env tokenId position m = some P) :
    P.InPool ↔ m.tokens + 1 ≤ chunkTokens * cfg.vramChunks.toNat := by
  obtain ⟨m', D, rfl⟩ := decodeGpuPatch_cases h
  have hspec := D.spec hm
  have hprog := hp.extends hspec.init D.prog D.hprog
  have hkept := hspec.init.sound.seq D.seq D.allocator D.hseq D.halloc
  have hlen : D.seq'.seqLen = m.tokens + 1 := by
    rw [(SequenceState.appendToken_shape hkept.exclusive hkept.shape D.happ).2.1,
      ← D.setups.tokens hm, tokens_eq D.hseq]
  have hs : SoundSeq cfg D.heap' D.mem.vram D.seq' :=
    hspec.appended.congr hspec.same rfl rfl rfl rfl
  rw [← hlen, ← hs.length_le_iff]
  constructor
  · intro hin
    by_contra hlt
    obtain ⟨last, hlast⟩ : ∃ last, D.seq'.chunks.getLast? = some last := by
      rcases hs.shape.last with ⟨-, hzero⟩ | ⟨last, hlast, -⟩
      · omega
      · exact ⟨last, hlast⟩
    -- some layer patches its copies to the last chunk
    have hlayers : 0 < D.prog.kvWriteIndices.length := by
      rw [hprog.indexed.length]
      refine Nat.pos_of_ne_zero fun h0 => ?_
      simp [EngineConfig.chunkKvBytes, h0] at hbytes
    obtain ⟨indices, hmem⟩ := List.exists_mem_of_length_pos hlayers
    have hderef := hin.derefs last (List.mem_append_left _
      (List.mem_flatMap.mpr ⟨indices, hmem, by simp [hlast]⟩))
    rw [show (GpuPatch.update D.prog D.prog' D.heap' D.mem.vram D.seq').heap = D.heap' from rfl,
      hs.pinned_of_lt (Nat.lt_of_not_le hlt) hlast] at hderef
    cases hderef
  · intro hle
    refine ⟨fun ptr hptr => ?_, fun ptr hptr => ?_, fun h hh => ?_⟩
    · obtain ⟨c, hc, rfl⟩ := List.mem_map.mp hptr
      rw [(updateStepPagedNoUpload_kv hprog D.hupdate).2] at hc
      exact hspec.appended.kvDst_inside hprog hbytes (by omega) hle hc
    · change ptr ∈ (if needsRewrite D.prog D.seq' then _ else _) at hptr
      split_ifs at hptr
      · exact hs.inside hbytes hle hptr
      · cases hptr
    · have hmem : h ∈ D.seq'.chunks := by
        rcases List.mem_append.mp hh with hh | hh
        · obtain ⟨-, -, hh⟩ := List.mem_flatMap.mp hh
          exact List.mem_of_getLast? (Option.mem_toList.mp hh)
        · split_ifs at hh
          · exact hh
          · cases hh
      exact (hs.vram_of_le hle hmem).2

section Slabs

variable {startPos k n total : ℕ}

lemma slabReady_setups {m₁ : Model} (h : slabReady cfg env m = some m₁) : Setups cfg env m m₁ := by
  rw [slabReady] at h
  split_ifs at h
  · rcases hs : ensurePagedDecodeState cfg env false m with ⟨e | u, m₂⟩ <;> simp only [hs] at h
    · cases h
    · obtain rfl := Option.some.inj h
      exact ensurePagedDecodeState_setups (by simp) hs
  · obtain rfl := Option.some.inj h
    exact .refl

/-- The patch of a slab: the page table of the sequence with the tokens of the slab. -/
lemma slabGpuPatch_cases {P : GpuPatch} (hm : Sound cfg m)
    (h : slabGpuPatch cfg env startPos k n m = some P) :
    ∃ mem seq, P = .tables mem seq ∧ SoundSeq cfg mem.heap mem.vram seq ∧
      seq.seqLen = m.tokens + n := by
  rw [slabGpuPatch] at h
  split at h
  · cases h
  cases hready : slabReady cfg env m with
  | none => simp [hready] at h
  | some m₁ =>
      have hsetup := slabReady_setups hready
      have hm₁ := (hsetup.grows.extends hm).sound
      rw [hready, Option.bind_some, slabKv] at h
      cases hseq : m₁.pagedSeq with
      | none => simp [hseq] at h
      | some seq =>
          cases halloc : m₁.pageAllocator with
          | none => simp [hseq, halloc] at h
          | some allocator =>
              simp only [hseq, halloc] at h
              split at h
              · cases h
              · rename_i mem seq' happ
                obtain rfl := Option.some.inj h
                have hgrow : Grows cfg env m₁ _ := appendTokens_grows hseq halloc rfl
                  (fun _ hnone => by simp only [hnone, ite_self]) happ
                have hs := (hgrow.extends hm₁).sound.seq seq' mem.vram rfl rfl
                have hkept := hm₁.seq seq allocator hseq halloc
                refine ⟨mem, seq', rfl, hs, ?_⟩
                rw [(appended_slab hkept.exclusive hkept.shape happ).seqLen, slabPositions,
                  List.length_map, List.length_range, ← hsetup.tokens hm, tokens_eq hseq]

/-- A slab that succeeds writes its patch to the prefill tables. -/
lemma prefillSlab_ok (h : prefillSlab cfg env startPos k n m = (.ok (), m')) :
    ∃ mem seq table, slabGpuPatch cfg env startPos k n m = some (.tables mem seq) ∧
      m'.pagedSeq = some seq ∧
      m'.prefillTables.pageTable =
        writeEntries table (GpuPatch.tables mem seq).entries := by
  rw [prefillSlab] at h
  rw [slabGpuPatch, slabReady]
  split_ifs at h ⊢ with hmoe
  · rw [prefillSlabMixed] at h
    rcases hs : ensurePagedDecodeState cfg env false m with ⟨e | u, m₁⟩ <;> simp only [hs] at h ⊢
    · cases (Prod.ext_iff.mp h).1
    simp only [Option.bind_some, slabKv, hmoe, if_true]
    cases hseq : m₁.pagedSeq with
    | none => cases hstatus : env.slab k <;> simp [hseq, hstatus] at h
    | some seq =>
        cases halloc : m₁.pageAllocator with
        | none => cases hstatus : env.slab k <;> simp [hseq, halloc, hstatus] at h
        | some allocator =>
            cases happ : appendTokens ⟨m₁.heap, allocator, m₁.hostPageAllocator⟩ seq
                (slabPositions startPos n) with
            | error e => cases hstatus : env.slab k <;> simp [hseq, halloc, happ, hstatus] at h
            | ok r =>
                cases hstatus : env.slab k <;> simp [hseq, halloc, happ, hstatus] at h
                refine ⟨r.1, r.2, m₁.prefillTables.pageTable, by simp [happ], ?_, ?_⟩ <;> rw [← h]
                rfl
  · rw [prefillSlabDense] at h
    simp only [Option.bind_some, slabKv, hmoe]
    cases hseq : m.pagedSeq with
    | none => simp [hseq] at h
    | some seq =>
        cases halloc : m.pageAllocator with
        | none => simp [hseq, halloc] at h
        | some allocator =>
            cases happ : appendTokens ⟨m.heap, allocator, none⟩ seq
                (slabPositions startPos n) with
            | error e =>
                cases hstatus : env.slab k <;>
                  simp [hseq, halloc, compilePrefillPagedPersistent, happ, hstatus] at h
            | ok r =>
                cases hstatus : env.slab k <;>
                  simp [hseq, halloc, compilePrefillPagedPersistent, happ, hstatus] at h
                refine ⟨r.1, r.2, m.prefillTables.pageTable, by simp [happ], ?_, ?_⟩ <;> rw [← h]
                rfl

/-- The tokens of the slabs `ks`. -/
def slabTokens (total : ℕ) (ks : List ℕ) : ℕ :=
  (ks.map fun k => min chunkTokens (total - k * chunkTokens)).sum

lemma slabTokens_range (total : ℕ) :
    slabTokens total (List.range (divCeil total chunkTokens)) = total := by
  have hsum : ∀ K, slabTokens total (List.range K) = min (K * chunkTokens) total := by
    intro K
    induction K with
    | zero => simp [slabTokens]
    | succ K ih =>
        rw [slabTokens, List.range_succ, List.map_append, List.sum_append, ← slabTokens, ih,
          List.map_singleton, List.sum_singleton]
        simp only [chunkTokens]
        omega
  rw [hsum, divCeil]
  simp only [chunkTokens]
  omega

/-- **The patch of a slab** is inside the pool exactly if its tokens fit. -/
lemma slabGpuPatch_inPool_iff {P : GpuPatch} (hm : Sound cfg m) (hbytes : 0 < cfg.chunkKvBytes)
    (h : slabGpuPatch cfg env startPos k n m = some P) :
    P.InPool ↔ m.tokens + n ≤ chunkTokens * cfg.vramChunks.toNat := by
  obtain ⟨mem, seq, rfl, hs, hlen⟩ := slabGpuPatch_cases hm h
  rw [← hlen, ← hs.length_le_iff]
  constructor
  · intro hin
    by_contra hlt
    rcases hs.shape.last with ⟨hempty, -⟩ | ⟨last, hlast, -⟩
    · rw [hempty] at hlt
      exact hlt (Nat.zero_le _)
    · have hderef := hin.derefs last (List.mem_of_getLast? hlast)
      rw [show (GpuPatch.tables mem seq).heap = mem.heap from rfl,
        hs.pinned_of_lt (Nat.lt_of_not_le hlt) hlast] at hderef
      cases hderef
  · intro hle
    refine ⟨fun ptr hptr => absurd hptr List.not_mem_nil, fun ptr hptr => ?_, fun h hh => ?_⟩
    · exact hs.inside hbytes hle hptr
    · exact (hs.vram_of_le hle hh).2

/-- A slab that succeeds added its tokens. -/
lemma prefillSlab_tokens (hm : Sound cfg m)
    (h : prefillSlab cfg env startPos k n m = (.ok (), m')) :
    Sound cfg m' ∧ m'.tokens = m.tokens + n := by
  refine ⟨?_, ?_⟩
  · rcases (prefillSlab_spec h).grows_or_loses with hgrow | ⟨hr, -⟩
    · exact (hgrow.extends hm).sound
    · exact absurd rfl hr
  · obtain ⟨mem, seq, -, hpatch, hseq, -⟩ := prefillSlab_ok h
    obtain ⟨mem', seq', heq, -, hlen⟩ := slabGpuPatch_cases hm hpatch
    have hsame : seq = seq' := congrArg GpuPatch.seq heq
    rw [tokens_eq hseq, hsame, hlen]

/-- The patches of the slab loop are inside the pool if all its tokens fit. -/
lemma slabGpuPatches_inPool {ks : List ℕ} (hm : Sound cfg m) (hbytes : 0 < cfg.chunkKvBytes)
    (hfits : m.tokens + slabTokens total ks ≤ chunkTokens * cfg.vramChunks.toNat) :
    ∀ P ∈ slabGpuPatches cfg env startPos total ks m, P.InPool := by
  induction ks generalizing m with
  | nil => simp [slabGpuPatches]
  | cons k ks ih =>
      intro P hP
      rw [slabTokens, List.map_cons, List.sum_cons, ← slabTokens] at hfits
      rw [slabGpuPatches] at hP
      rcases List.mem_append.mp hP with hP | hP
      · refine (slabGpuPatch_inPool_iff hm hbytes (Option.mem_toList.mp hP)).mpr ?_
        omega
      · rcases hone : prefillSlab cfg env (startPos + k * chunkTokens) k
          (min chunkTokens (total - k * chunkTokens)) m with ⟨e | u, m₁⟩ <;> simp only [hone] at hP
        · cases hP
        · obtain ⟨hm₁, htok⟩ := prefillSlab_tokens hm hone
          exact ih hm₁ (by omega) P hP

/-- If the slab loop succeeds, the patch of its last slab has all the tokens. -/
lemma slabGpuPatches_last {ks : List ℕ} (hm : Sound cfg m) (hbytes : 0 < cfg.chunkKvBytes)
    (hne : ks ≠ []) (h : prefillSlabs cfg env startPos total ks m = (.ok (), m'))
    (hin : ∀ P ∈ slabGpuPatches cfg env startPos total ks m, P.InPool) :
    m.tokens + slabTokens total ks ≤ chunkTokens * cfg.vramChunks.toNat := by
  induction ks generalizing m with
  | nil => exact absurd rfl hne
  | cons k ks ih =>
      rw [prefillSlabs] at h
      rcases hone : prefillSlab cfg env (startPos + k * chunkTokens) k
        (min chunkTokens (total - k * chunkTokens)) m with ⟨e | u, m₁⟩ <;> simp only [hone] at h
      · cases (Prod.ext_iff.mp h).1
      obtain ⟨hm₁, htok⟩ := prefillSlab_tokens hm hone
      obtain ⟨mem, seq, -, hpatch, -, -⟩ := prefillSlab_ok hone
      rw [slabGpuPatches] at hin
      simp only [hone] at hin
      rw [slabTokens, List.map_cons, List.sum_cons, ← slabTokens]
      cases ks with
      | nil =>
          have hfirst := hin _ (List.mem_append_left _ (Option.mem_toList.mpr hpatch))
          have hle := (slabGpuPatch_inPool_iff hm hbytes hpatch).mp hfirst
          simpa [slabTokens] using hle
      | cons k' ks =>
          have hrest := ih hm₁ (List.cons_ne_nil _ _) h fun P hP =>
            hin P (List.mem_append_right _ hP)
          omega

end Slabs

/-- What a prefill initialises before its slabs. -/
lemma prefillReady_setups (h : (if cfg.hasMoe then ((.ok (), m) : Except ModelFault Unit × Model)
    else ensurePagedDecodeState cfg env false m) = (r, m')) : Setups cfg env m m' := by
  split_ifs at h
  · obtain ⟨-, rfl⟩ := Prod.ext_iff.mp h
    exact .refl
  · exact ensurePagedDecodeState_setups (by simp) h

/-- The patches of a prefill are those of a slab loop over all its tokens. -/
lemma prefillGpuPatches_cases (hm : Sound cfg m) (env : Env) (total : ℕ) :
    prefillGpuPatches cfg env total m = [] ∨
      ∃ m₁ startPos, Sound cfg m₁ ∧ m₁.tokens = m.tokens ∧
        prefillGpuPatches cfg env total m =
          slabGpuPatches cfg env startPos total (List.range (divCeil total chunkTokens)) m₁ := by
  rw [prefillGpuPatches]
  by_cases hzero : total = 0
  · exact .inl (if_pos hzero)
  rw [if_neg hzero]
  rcases hs : ensurePersistentWorkerSpawned cfg env m with ⟨e | u, m₁⟩
  · exact .inl rfl
  have hsetup := ensurePersistentWorkerSpawned_setups hs
  rcases hd : (if cfg.hasMoe then ((.ok (), m₁) : Except ModelFault Unit × Model)
    else ensurePagedDecodeState cfg env false m₁) with ⟨e | u, m₂⟩ <;> simp only [hd]
  · exact .inl trivial
  cases env.prefillAlloc with
  | error e => exact .inl rfl
  | ok u =>
      have hall : Setups cfg env m m₂ := hsetup.trans (prefillReady_setups hd)
      exact .inr ⟨m₂, m₁.seqLen, (hall.grows.extends hm).sound, hall.tokens hm, rfl⟩

/-- A prefill that succeeds ran that loop to its end. -/
lemma prefill_ok {total : ℕ} (hm : Sound cfg m) (h : prefill cfg env total m = (.ok (), m')) :
    0 < total ∧ ∃ m₁ m₂ startPos, Sound cfg m₁ ∧ m₁.tokens = m.tokens ∧
      prefillSlabs cfg env startPos total (List.range (divCeil total chunkTokens)) m₁ =
        (.ok (), m₂) ∧
      prefillGpuPatches cfg env total m =
        slabGpuPatches cfg env startPos total (List.range (divCeil total chunkTokens)) m₁ := by
  rw [prefill] at h
  by_cases hzero : total = 0
  · rw [if_pos hzero] at h
    cases (Prod.ext_iff.mp h).1
  rw [if_neg hzero] at h
  rw [prefillGpuPatches, if_neg hzero]
  refine ⟨Nat.pos_of_ne_zero hzero, ?_⟩
  rcases hs : ensurePersistentWorkerSpawned cfg env m with ⟨e | u, m₁⟩ <;> simp only [hs] at h ⊢
  · cases (Prod.ext_iff.mp h).1
  have hsetup := ensurePersistentWorkerSpawned_setups hs
  rw [prefillBody] at h
  rcases hd : (if cfg.hasMoe then ((.ok (), m₁) : Except ModelFault Unit × Model)
    else ensurePagedDecodeState cfg env false m₁) with ⟨e | u, m₂⟩ <;> simp only [hd] at h ⊢
  · cases (Prod.ext_iff.mp h).1
  cases halloc : env.prefillAlloc with
  | error e =>
      simp only [halloc] at h
      cases (Prod.ext_iff.mp h).1
  | ok u =>
      simp only [halloc] at h
      have hall : Setups cfg env m m₂ := hsetup.trans (prefillReady_setups hd)
      rcases hslabs : prefillSlabs cfg env m₁.seqLen total
        (List.range (divCeil total chunkTokens)) m₂ with ⟨e | u, m₃⟩ <;> simp only [hslabs] at h
      · cases (Prod.ext_iff.mp h).1
      · exact ⟨m₂, m₃, m₁.seqLen, (hall.grows.extends hm).sound, hall.tokens hm, hslabs, rfl⟩

/-- A decode step that succeeds was patched. -/
lemma decodeGpuPatch_of_ok {tokenId position : ℕ}
    (h : decodeStep cfg env tokenId position m = (.ok (), m')) :
    ∃ P, decodeGpuPatch cfg env tokenId position m = some P := by
  rw [decodeStep] at h
  rw [decodeGpuPatch, decodePatch]
  rw [decodePatch] at h
  rcases hs : ensurePersistentWorkerSpawned cfg env m with ⟨e | u, m₁⟩ <;> simp only [hs] at h ⊢
  · cases (Prod.ext_iff.mp h).1
  cases hseq : m₁.pagedSeq with
  | none => simp [hseq] at h
  | some seq =>
      cases halloc : m₁.pageAllocator with
      | none => simp [hseq, halloc] at h
      | some allocator =>
          cases hprog : m₁.megakernelPaged with
          | none => simp [hseq, halloc, hprog] at h
          | some prog =>
              simp only [hseq, halloc, hprog] at h ⊢
              rcases happ : seq.appendToken ⟨m₁.heap, allocator, m₁.hostPageAllocator⟩
                (toI32 position) with e | ⟨mem, seq'⟩ <;> simp only [happ] at h ⊢
              · cases (Prod.ext_iff.mp h).1
              rcases hup : updateStepPagedNoUpload prog tokenId position mem.heap seq' mem.vram
                with e | ⟨heap', prog'⟩ <;> simp only [hup] at h ⊢
              · cases (Prod.ext_iff.mp h).1
              · exact ⟨_, rfl⟩

/-- **Addresses handed to the GPU.**  After any run of prefills, decode steps and resets, every
patch of the next call lies inside the VRAM pool if the sequence fits in the pool after the call; if
it does not fit and the call appends its tokens all the same, some patch lies outside. -/
theorem gpuPointers_inPool_of_run (cfg : EngineConfig) (hbytes : 0 < cfg.chunkKvBytes)
    (calls : List Call) (m : Model) (hrun : Run (Step cfg) Model.init calls m) (c : Call) :
    (FitsVram cfg m c → ∀ P ∈ gpuPatches cfg m c, P.InPool) ∧
      (0 < newTokens c → (m.call cfg c).1 = .ok () → (∀ P ∈ gpuPatches cfg m c, P.InPool) →
        FitsVram cfg m c) := by
  obtain ⟨hm, hp⟩ := sound_of_run hrun
  cases c with
  | prefill env total =>
      constructor
      · intro hfits P hP
        rcases prefillGpuPatches_cases hm env total with
          hnil | ⟨m₁, startPos, hm₁, htok, heq⟩
        · rw [gpuPatches, hnil] at hP
          cases hP
        · rw [gpuPatches, heq] at hP
          refine slabGpuPatches_inPool hm₁ hbytes ?_ P hP
          rw [slabTokens_range, htok]
          exact hfits
      · intro _ hok hin
        obtain ⟨hpos, m₁, m₂, startPos, hm₁, htok, hslabs, heq⟩ :=
          prefill_ok hm (Prod.ext hok rfl : prefill cfg env total m = (.ok (), _))
        rw [gpuPatches, heq] at hin
        have hne : List.range (divCeil total chunkTokens) ≠ [] := by
          rw [Ne, List.range_eq_nil, divCeil]
          simp only [chunkTokens]
          omega
        have hle := slabGpuPatches_last hm₁ hbytes hne hslabs hin
        rwa [slabTokens_range, htok] at hle
  | decode env tokenId position =>
      constructor
      · intro hfits P hP
        exact (decodeGpuPatch_inPool_iff hm hp hbytes (Option.mem_toList.mp hP)).mpr hfits
      · intro _ hok hin
        obtain ⟨P, hP⟩ := decodeGpuPatch_of_ok
          (Prod.ext hok rfl : decodeStep cfg env tokenId position m = (.ok (), _))
        exact (decodeGpuPatch_inPool_iff hm hp hbytes hP).mp
          (hin P (Option.mem_toList.mpr hP))
  | reset env =>
      refine ⟨fun _ P hP => absurd hP List.not_mem_nil, fun hpos _ _ => ?_⟩
      exact absurd hpos (Nat.lt_irrefl 0)

/-- A pool of one VRAM chunk with one host chunk behind it. -/
def tieredConfig : EngineConfig :=
  { smallConfig false with
    vramKvChunks := some 1
    hostKvChunks := some 1 }

/-- A call during which every HIP call succeeds, the host pool included. -/
def tieredEnv : Env :=
  { quietEnv 65536 131072 with
    hostPool := some 262144 }

/-- The last token that fits. -/
theorem gpuPointers_inPool_full_chunk :
    FitsVram tieredConfig ((Model.init.call tieredConfig (.prefill tieredEnv 63)).2)
        (.decode tieredEnv 1 63) ∧
      ∀ P ∈ gpuPatches tieredConfig ((Model.init.call tieredConfig (.prefill tieredEnv 63)).2)
        (.decode tieredEnv 1 63), P.InPool := by
  have hfits : FitsVram tieredConfig
      ((Model.init.call tieredConfig (.prefill tieredEnv 63)).2) (.decode tieredEnv 1 63) := by
    decide +kernel
  exact ⟨hfits, (gpuPointers_inPool_of_run tieredConfig (by decide) [.prefill tieredEnv 63] _
    (Run.nil.snoc (Step.of_isOk (by decide +kernel))) (.decode tieredEnv 1 63)).1 hfits⟩

/-- The first token that does not: its copies go to the slot `u32::MAX`, outside the pool, and the
slot index of a host-pinned chunk is read. -/
theorem gpuPointers_outside_after_full_chunk :
    ¬ ∀ (cfg : EngineConfig) (calls : List Call) (m : Model) (c : Call),
      0 < cfg.chunkKvBytes → cfg.hostKvChunks.isSome → Run (Step cfg) Model.init calls m →
      ∀ P ∈ gpuPatches cfg m c, P.InPool := by
  intro h
  have hrun : Run (Step tieredConfig) Model.init [.prefill tieredEnv 64]
      (Model.init.call tieredConfig (.prefill tieredEnv 64)).2 :=
    Run.nil.snoc (Step.of_isOk (by decide +kernel))
  have hall := h tieredConfig _ _ (.decode tieredEnv 1 64) (by decide) rfl hrun
  have hbad : ∃ P ∈ gpuPatches tieredConfig
      ((Model.init.call tieredConfig (.prefill tieredEnv 64)).2) (.decode tieredEnv 1 64),
      ∃ c ∈ P.derefs, (chunk P.heap c).tier ≠ .vram := by
    decide +kernel
  obtain ⟨P, hP, c, hc, hne⟩ := hbad
  exact hne ((hall P hP).derefs c hc)

end Model

end Braidinfer.Engine
