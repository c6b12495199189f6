/-
What the calls of the engine can do, said once.

* `Setup`, `Grow`: the small changes that initialisation and prefill are made of: a program
  or a pool where there was none, bookkeeping outside of the sequence, and one more token;
* `prefill_spec`: a prefill is a series of such changes, after which it may lose the
  sequence;
* `decodePatch_spec`, `decodeFinish_spec`, `resetState_spec`: the other calls.
-/
import Mathlib.Logic.Relation
import Braidinfer.Engine.Model
import Braidinfer.PagedKv.Accounting

namespace Braidinfer.Engine

open Braidinfer.Lib Braidinfer.PagedKv Braidinfer.Megakernel

namespace Model

/-- One small change of lazy initialisation. -/
inductive Setup (cfg : EngineConfig) (env : Env) : Model → Model → Prop
  | program (m : Model) (hnone : m.megakernelPaged = none) :
      Setup cfg env m { m with megakernelPaged := some (freshProgram cfg env) }
  | pool (m : Model) (base : ℕ) (hnone : m.pageAllocator = none) :
      Setup cfg env m { m with
        pageAllocator := some (.new base cfg.chunkKvBytes cfg.vramChunks)
        pagedSeq := some (.new chunkTokens) }
  | quantPool (m : Model) (base : ℕ) (hnone : m.quantAllocator = none) (hq : cfg.kvQuant = true)
      (hbase : env.quantPool = .ok base) :
      Setup cfg env m { m with
        quantAllocator := some
          (.new base cfg.quantizedChunkKvBytes (.ofNat cfg.maxPagedChunks)) }
  | hostPool (m : Model) (host : Option HostPageAllocator)
      (hoff : cfg.hostKvChunks = none → m.hostPageAllocator = none → host = none) :
      Setup cfg env m { m with hostPageAllocator := host }
  | aux (m : Model) (persistentWorkers : Bool) (seqLen : ℕ) (prefillTables : PrefillTables)
      (hready : persistentWorkers = true → m.persistentWorkers = true ∨
        (cfg.kvQuant = true → m.quantAllocator.isSome)) :
      Setup cfg env m { m with persistentWorkers, seqLen, prefillTables }

/-- One small change of a prefill: initialisation, or one more token. -/
inductive Grow (cfg : EngineConfig) (env : Env) : Model → Model → Prop
  | setup {m m' : Model} (h : Setup cfg env m m') : Grow cfg env m m'
  | append (m : Model) (seq seq' : SequenceState) (allocator : PageAllocator) (mem : KvMem)
      (host : Option HostPageAllocator) (position : ℤ) (hseq : m.pagedSeq = some seq)
      (halloc : m.pageAllocator = some allocator)
      (hoff : cfg.hostKvChunks = none → m.hostPageAllocator = none → host = none)
      (happ : seq.appendToken ⟨m.heap, allocator, host⟩ position = .ok (mem, seq')) :
      Grow cfg env m { m with
        heap := mem.heap
        pagedSeq := some seq'
        pageAllocator := some mem.vram }

/-- A series of small changes of lazy initialisation. -/
abbrev Setups (cfg : EngineConfig) (env : Env) : Model → Model → Prop :=
  Relation.ReflTransGen (Setup cfg env)

/-- A series of small changes. -/
abbrev Grows (cfg : EngineConfig) (env : Env) : Model → Model → Prop :=
  Relation.ReflTransGen (Grow cfg env)

lemma Setups.grows {cfg : EngineConfig} {env : Env} {m m' : Model} (h : Setups cfg env m m') :
    Grows cfg env m m' :=
  Relation.ReflTransGen.lift id (fun _ _ => Grow.setup) _ _ h

/-- The sequence was lost after a series of small changes. -/
def Loses (cfg : EngineConfig) (env : Env) (m m' : Model) : Prop :=
  ∃ m₁ seq host, Grows cfg env m m₁ ∧ m₁.pagedSeq = some seq ∧
    (m₁.hostPageAllocator = none → host = none) ∧
    m' = { m₁.loseSequence seq with hostPageAllocator := host }

variable {cfg : EngineConfig} {env : Env} {m m' m₁ : Model} {r : Except ModelFault Unit}

lemma Loses.of_grows (h : Grows cfg env m m₁) (h' : Loses cfg env m₁ m') : Loses cfg env m m' := by
  obtain ⟨m₂, seq, host, h₂, hseq, hoff, rfl⟩ := h'
  exact ⟨m₂, seq, host, h.trans h₂, hseq, hoff, rfl⟩

lemma Loses.intro {seq : SequenceState} (h : Grows cfg env m m₁) (hseq : m₁.pagedSeq = some seq) :
    Loses cfg env m (m₁.loseSequence seq) :=
  ⟨m₁, seq, m₁.hostPageAllocator, h, hseq, id, rfl⟩

/-! ### Initialisation -/

lemma ensurePool_setups (h : ensurePool cfg env m = (r, m')) : Setups cfg env m m' := by
  rw [ensurePool] at h
  split at h
  · obtain ⟨-, rfl⟩ := Prod.ext_iff.mp h
    exact .refl
  · split at h <;> obtain ⟨-, rfl⟩ := Prod.ext_iff.mp h
    · exact .refl
    · exact .single (.pool m _ ‹_›)

lemma ensureQuant_setups {quantized : Bool} (hq : quantized = true → cfg.kvQuant = true)
    (h : ensureQuant cfg env quantized m = (r, m')) : Setups cfg env m m' := by
  unfold ensureQuant at h
  split at h
  · split at h <;> obtain ⟨-, rfl⟩ := Prod.ext_iff.mp h
    · exact .refl
    · exact .single (.quantPool m _ ‹_› (hq rfl) ‹_›)
  · obtain ⟨-, rfl⟩ := Prod.ext_iff.mp h
    exact .refl

lemma ensureHost_setups : Setups cfg env m (ensureHost cfg env m) := by
  rw [ensureHost]
  split
  · rename_i hsome _
    exact .single (.hostPool m _ fun hnone => by simp [hsome] at hnone)
  · exact .refl

lemma ensurePagedDecodeState_setups {quantized : Bool}
    (hq : quantized = true → cfg.kvQuant = true)
    (h : ensurePagedDecodeState cfg env quantized m = (r, m')) : Setups cfg env m m' := by
  rw [ensurePagedDecodeState] at h
  rcases hp : ensurePool cfg env m with ⟨e | u, m₁⟩ <;> simp only [hp] at h
  · obtain ⟨-, rfl⟩ := Prod.ext_iff.mp h
    exact ensurePool_setups hp
  rcases hqu : ensureQuant cfg env quantized m₁ with ⟨e | u, m₂⟩ <;> simp only [hqu] at h
  · obtain ⟨-, rfl⟩ := Prod.ext_iff.mp h
    exact (ensurePool_setups hp).trans (ensureQuant_setups hq hqu)
  · obtain ⟨-, rfl⟩ := Prod.ext_iff.mp h
    exact ((ensurePool_setups hp).trans (ensureQuant_setups hq hqu)).trans ensureHost_setups

lemma ensureQuant_some {u : Unit} (h : ensureQuant cfg env true m = (.ok u, m')) :
    m'.quantAllocator.isSome := by
  unfold ensureQuant at h
  split at h
  · split at h
    · cases (Prod.ext_iff.mp h).1
    · obtain ⟨-, rfl⟩ := Prod.ext_iff.mp h
      rfl
  · rename_i hsome
    obtain ⟨-, rfl⟩ := Prod.ext_iff.mp h
    exact Option.isSome_iff_ne_none.mpr fun hnone => hsome rfl hnone

/-- With quantized KV there is a quantized pool afterwards. -/
lemma ensurePagedDecodeState_quant {quantized : Bool}
    (h : ensurePagedDecodeState cfg env quantized m = (.ok (), m')) (hq : quantized = true) :
    m'.quantAllocator.isSome := by
  rw [ensurePagedDecodeState] at h
  rcases hp : ensurePool cfg env m with ⟨e | u, m₁⟩ <;> simp only [hp] at h
  · cases (Prod.ext_iff.mp h).1
  rcases hqu : ensureQuant cfg env quantized m₁ with ⟨e | u, m₂⟩ <;> simp only [hqu] at h
  · cases (Prod.ext_iff.mp h).1
  · obtain ⟨-, rfl⟩ := Prod.ext_iff.mp h
    have hsome : m₂.quantAllocator.isSome := ensureQuant_some (hq ▸ hqu)
    change (ensureHost cfg env m₂).quantAllocator.isSome
    rw [ensureHost]
    split <;> exact hsome

lemma ensureProgram_setups (h : ensureProgram cfg env m = (r, m')) : Setups cfg env m m' := by
  rw [ensureProgram] at h
  split at h
  · obtain ⟨-, rfl⟩ := Prod.ext_iff.mp h
    exact .refl
  · split at h <;> obtain ⟨-, rfl⟩ := Prod.ext_iff.mp h
    · exact .refl
    · exact .single (.program m ‹_›)

lemma ensurePersistentWorkerSpawned_setups
    (h : ensurePersistentWorkerSpawned cfg env m = (r, m')) : Setups cfg env m m' := by
  rw [ensurePersistentWorkerSpawned] at h
  split_ifs at h with hready
  · obtain ⟨-, rfl⟩ := Prod.ext_iff.mp h
    exact .refl
  rcases hp : ensureProgram cfg env m with ⟨e | u, m₁⟩ <;> simp only [hp] at h
  · obtain ⟨-, rfl⟩ := Prod.ext_iff.mp h
    exact ensureProgram_setups hp
  rcases hs : ensurePagedDecodeState cfg env cfg.kvQuant m₁ with ⟨e | u, m₂⟩ <;>
    simp only [hs] at h
  · obtain ⟨-, rfl⟩ := Prod.ext_iff.mp h
    exact (ensureProgram_setups hp).trans (ensurePagedDecodeState_setups id hs)
  have hgrow := (ensureProgram_setups hp).trans (ensurePagedDecodeState_setups id hs)
  cases hd : env.dispatchInit with
  | error e =>
      simp only [hd] at h
      obtain ⟨-, rfl⟩ := Prod.ext_iff.mp h
      exact hgrow
  | ok u =>
      simp only [hd] at h
      obtain ⟨-, rfl⟩ := Prod.ext_iff.mp h
      exact hgrow.tail (.aux m₂ true m₂.seqLen m₂.prefillTables fun _ =>
        .inr (ensurePagedDecodeState_quant hs))

lemma ensurePersistentWorkerSpawned_ready
    (h : ensurePersistentWorkerSpawned cfg env m = (.ok (), m')) :
    m'.persistentWorkers = true := by
  rw [ensurePersistentWorkerSpawned] at h
  split_ifs at h with hready
  · obtain ⟨-, rfl⟩ := Prod.ext_iff.mp h
    exact hready.2
  rcases hp : ensureProgram cfg env m with ⟨e | u, m₁⟩ <;> simp only [hp] at h
  · cases (Prod.ext_iff.mp h).1
  rcases hs : ensurePagedDecodeState cfg env cfg.kvQuant m₁ with ⟨e | u, m₂⟩ <;>
    simp only [hs] at h
  · cases (Prod.ext_iff.mp h).1
  cases hd : env.dispatchInit with
  | error e =>
      simp only [hd] at h
      cases (Prod.ext_iff.mp h).1
  | ok u =>
      simp only [hd] at h
      obtain ⟨-, rfl⟩ := Prod.ext_iff.mp h
      rfl

/-! ### Prefill -/

/-- A slab's tokens, appended one by one. -/
lemma appendTokens_grows {ps : List ℤ} {seq seq' : SequenceState} {mem mem' : KvMem}
    (hseq : m.pagedSeq = some seq) (halloc : m.pageAllocator = some mem.vram)
    (hheap : m.heap = mem.heap)
    (hoff : cfg.hostKvChunks = none → m.hostPageAllocator = none → mem.host = none)
    (happ : appendTokens mem seq ps = .ok (mem', seq')) :
    Grows cfg env m { m with
      heap := mem'.heap
      pagedSeq := some seq'
      pageAllocator := some mem'.vram } := by
  induction ps generalizing m mem seq with
  | nil =>
      simp only [appendTokens, Except.ok.injEq, Prod.mk.injEq] at happ
      obtain ⟨rfl, rfl⟩ := happ
      have hsame : { m with heap := mem.heap, pagedSeq := some seq,
                            pageAllocator := some mem.vram } = m := by
        rw [← hseq, ← halloc, ← hheap]
      rw [hsame]
  | cons p ps ih =>
      rw [appendTokens] at happ
      cases hone : seq.appendToken mem p with
      | error e => simp [hone] at happ
      | ok r =>
          obtain ⟨mem₁, seq₁⟩ := r
          simp only [hone] at happ
          have hone' : seq.appendToken ⟨m.heap, mem.vram, mem.host⟩ p = .ok (mem₁, seq₁) := by
            rw [hheap]
            exact hone
          have hstep : Grow cfg env m _ := .append m seq seq₁ mem.vram mem₁ mem.host p
            hseq halloc hoff hone'
          refine .head hstep (ih rfl rfl rfl (fun hc hm => ?_) happ)
          exact SequenceState.appendToken_host_none hone (hoff hc hm)

lemma appendTokens_host_none {ps : List ℤ} {seq seq' : SequenceState} {mem mem' : KvMem}
    (happ : appendTokens mem seq ps = .ok (mem', seq')) (hhost : mem.host = none) :
    mem'.host = none := by
  induction ps generalizing mem seq with
  | nil =>
      simp only [appendTokens, Except.ok.injEq, Prod.mk.injEq] at happ
      exact happ.1 ▸ hhost
  | cons p ps ih =>
      rw [appendTokens] at happ
      cases hone : seq.appendToken mem p with
      | error e => simp [hone] at happ
      | ok r =>
          obtain ⟨mem₁, seq₁⟩ := r
          simp only [hone] at happ
          exact ih happ (SequenceState.appendToken_host_none hone hhost)

/-- The failures of a slab that lose the sequence: one of the compilation, and in the dense
path also one before it. -/
def LosesSlab (cfg : EngineConfig) (status : SlabStatus) : Prop :=
  (∃ e, status = .compile e) ∨ (cfg.hasMoe = false ∧ ∃ e, status = .early e)

/-- **Everything a slab can do**: initialise only, append its tokens, or lose the sequence,
either because of its status or because the pools are exhausted. -/
inductive SlabOutcome (cfg : EngineConfig) (env : Env) (startPos k n : ℕ) (m : Model)
    (r : Except ModelFault Unit) (m' : Model) : Prop
  | same (h : Setups cfg env m m')
  | appended (m₁ : Model) (seq seq' : SequenceState) (allocator : PageAllocator)
      (host : Option HostPageAllocator) (mem : KvMem) (hs : Setups cfg env m m₁)
      (hseq : m₁.pagedSeq = some seq) (halloc : m₁.pageAllocator = some allocator)
      (hoff : cfg.hostKvChunks = none → m₁.hostPageAllocator = none → host = none)
      (happ : appendTokens ⟨m₁.heap, allocator, host⟩ seq (slabPositions startPos n) =
        .ok (mem, seq'))
      (hs' : Setups cfg env { m₁ with
        heap := mem.heap
        pagedSeq := some seq'
        pageAllocator := some mem.vram } m')
  | lost (hr : r ≠ .ok ()) (hlost : Loses cfg env m m') (hstatus : LosesSlab cfg (env.slab k))
  | exhausted (m₁ : Model) (seq : SequenceState) (allocator : PageAllocator)
      (host : Option HostPageAllocator) (e : Fault) (hr : r ≠ .ok ()) (hlost : Loses cfg env m m')
      (hs : Setups cfg env m m₁) (hseq : m₁.pagedSeq = some seq)
      (halloc : m₁.pageAllocator = some allocator)
      (happ : appendTokens ⟨m₁.heap, allocator, host⟩ seq (slabPositions startPos n) = .error e)

variable {startPos k n : ℕ}

lemma SlabOutcome.grows_or_loses (h : SlabOutcome cfg env startPos k n m r m') :
    Grows cfg env m m' ∨ (r ≠ .ok () ∧ Loses cfg env m m') := by
  cases h with
  | same h => exact .inl h.grows
  | appended m₁ seq seq' allocator host mem hs hseq halloc hoff happ hs' =>
      exact .inl ((hs.grows.trans (appendTokens_grows hseq halloc rfl hoff happ)).trans hs'.grows)
  | lost hr hlost => exact .inr ⟨hr, hlost⟩
  | exhausted m₁ seq allocator host e hr hlost => exact .inr ⟨hr, hlost⟩

lemma prefillSlabDense_spec (hdense : cfg.hasMoe = false)
    (h : prefillSlabDense env startPos k n m = (r, m')) :
    SlabOutcome cfg env startPos k n m r m' := by
  rw [prefillSlabDense] at h
  split at h
  · rename_i seq allocator hseq halloc
    split at h
    · rename_i e hstatus
      obtain ⟨rfl, rfl⟩ := Prod.ext_iff.mp h
      exact .lost (by simp) (.intro .refl hseq) (.inr ⟨hdense, e, hstatus⟩)
    · rw [compilePrefillPagedPersistent] at h
      cases happ : appendTokens ⟨m.heap, allocator, none⟩ seq (slabPositions startPos n) with
      | error e =>
          simp only [happ] at h
          obtain ⟨rfl, rfl⟩ := Prod.ext_iff.mp h
          exact .exhausted m seq allocator none e (by simp) (.intro .refl hseq) .refl hseq halloc
            happ
      | ok r' =>
          obtain ⟨mem, seq'⟩ := r'
          simp only [happ] at h
          have hoff : cfg.hostKvChunks = none → m.hostPageAllocator = none →
              (none : Option HostPageAllocator) = none := fun _ _ => rfl
          have htables : Setup cfg env _ _ := .aux
            { m with heap := mem.heap, pagedSeq := some seq', pageAllocator := some mem.vram }
            m.persistentWorkers m.seqLen
            { pageTable := writeEntries m.prefillTables.pageTable
                (chunkPtrs mem.heap mem.vram seq'.chunks)
              positionTable := densePositionTable m.prefillTables.positionTable startPos n }
            .inl
          have hgrow : Grows cfg env m _ :=
            (appendTokens_grows hseq halloc rfl hoff happ).tail (.setup htables)
          have hkeep := SlabOutcome.appended (r := r) (k := k) m seq seq' allocator none mem .refl
            hseq halloc hoff happ (.single htables)
          cases hstatus : env.slab k with
          | compile e =>
              rw [hstatus] at h
              obtain ⟨rfl, rfl⟩ := Prod.ext_iff.mp h
              exact .lost (by simp) (.intro hgrow rfl) (.inl ⟨e, hstatus⟩)
          | ok => rw [hstatus] at h; obtain ⟨-, rfl⟩ := Prod.ext_iff.mp h; exact hkeep
          | early e => rw [hstatus] at h; obtain ⟨-, rfl⟩ := Prod.ext_iff.mp h; exact hkeep
          | dispatch e => rw [hstatus] at h; obtain ⟨-, rfl⟩ := Prod.ext_iff.mp h; exact hkeep
  · obtain ⟨-, rfl⟩ := Prod.ext_iff.mp h
    exact .same .refl

lemma prefillSlabMixed_spec (h : prefillSlabMixed cfg env startPos k n m = (r, m')) :
    SlabOutcome cfg env startPos k n m r m' := by
  rw [prefillSlabMixed] at h
  rcases hs : ensurePagedDecodeState cfg env false m with ⟨e | u, m₁⟩ <;> simp only [hs] at h
  · obtain ⟨-, rfl⟩ := Prod.ext_iff.mp h
    exact .same (ensurePagedDecodeState_setups (by simp) hs)
  have hinit : Setups cfg env m m₁ := ensurePagedDecodeState_setups (by simp) hs
  split at h
  · obtain ⟨-, rfl⟩ := Prod.ext_iff.mp h
    exact .same hinit
  · split at h
    · rename_i seq allocator hseq halloc
      cases happ : appendTokens ⟨m₁.heap, allocator, m₁.hostPageAllocator⟩ seq
          (slabPositions startPos n) with
      | error e =>
          simp only [happ] at h
          obtain ⟨rfl, rfl⟩ := Prod.ext_iff.mp h
          exact .exhausted m₁ seq allocator _ e (by simp)
            ⟨m₁, seq, none, hinit.grows, hseq, fun _ => rfl, rfl⟩
            hinit hseq halloc happ
      | ok r' =>
          obtain ⟨mem, seq'⟩ := r'
          simp only [happ] at h
          have hoff : cfg.hostKvChunks = none → m₁.hostPageAllocator = none →
              m₁.hostPageAllocator = none := fun _ h => h
          have hhost : Setup cfg env _ _ := .hostPool
            { m₁ with heap := mem.heap, pagedSeq := some seq', pageAllocator := some mem.vram }
            mem.host fun _ hnone => appendTokens_host_none happ hnone
          have htables : Setup cfg env _ _ := .aux
            { m₁ with heap := mem.heap, pagedSeq := some seq', pageAllocator := some mem.vram,
                      hostPageAllocator := mem.host }
            m₁.persistentWorkers m₁.seqLen
            (compilePrefillSegmentPaged mem.heap seq' mem.vram m₁.prefillTables startPos n) .inl
          have hgrow := ((hinit.grows.trans (appendTokens_grows hseq halloc rfl
            hoff happ)).tail (.setup hhost)).tail (.setup htables)
          have hkeep := SlabOutcome.appended (r := r) (k := k) m₁ seq seq' allocator _ mem hinit
            hseq halloc hoff happ (.tail (.single hhost) htables)
          cases hstatus : env.slab k with
          | compile e =>
              rw [hstatus] at h
              obtain ⟨rfl, rfl⟩ := Prod.ext_iff.mp h
              exact .lost (by simp) (.intro hgrow rfl) (.inl ⟨e, hstatus⟩)
          | ok => rw [hstatus] at h; obtain ⟨-, rfl⟩ := Prod.ext_iff.mp h; exact hkeep
          | early e => rw [hstatus] at h; obtain ⟨-, rfl⟩ := Prod.ext_iff.mp h; exact hkeep
          | dispatch e => rw [hstatus] at h; obtain ⟨-, rfl⟩ := Prod.ext_iff.mp h; exact hkeep
    · obtain ⟨-, rfl⟩ := Prod.ext_iff.mp h
      exact .same hinit

lemma prefillSlab_spec (h : prefillSlab cfg env startPos k n m = (r, m')) :
    SlabOutcome cfg env startPos k n m r m' := by
  rw [prefillSlab] at h
  split_ifs at h with hmoe
  · exact prefillSlabMixed_spec h
  · exact prefillSlabDense_spec (Bool.not_eq_true _ ▸ hmoe) h

lemma prefillSlabs_spec {total : ℕ} {ks : List ℕ}
    (h : prefillSlabs cfg env startPos total ks m = (r, m')) :
    Grows cfg env m m' ∨ (r ≠ .ok () ∧ Loses cfg env m m') := by
  induction ks generalizing m with
  | nil =>
      obtain ⟨-, rfl⟩ := Prod.ext_iff.mp h
      exact .inl .refl
  | cons k ks ih =>
      rw [prefillSlabs] at h
      rcases hone : prefillSlab cfg env (startPos + k * chunkTokens) k
        (min chunkTokens (total - k * chunkTokens)) m with ⟨e | u, m₁⟩ <;> simp only [hone] at h
      · obtain ⟨rfl, rfl⟩ := Prod.ext_iff.mp h
        exact (prefillSlab_spec hone).grows_or_loses
      · rcases (prefillSlab_spec hone).grows_or_loses with hgrow | ⟨hr, -⟩
        · rcases ih h with hrest | ⟨hr, hlose⟩
          · exact .inl (hgrow.trans hrest)
          · exact .inr ⟨hr, hlose.of_grows hgrow⟩
        · exact absurd rfl hr

lemma prefillBody_spec {total : ℕ} (h : prefillBody cfg env total m = (r, m')) :
    Grows cfg env m m' ∨ Loses cfg env m m' := by
  rw [prefillBody] at h
  rcases hs : (if cfg.hasMoe then ((.ok (), m) : Except ModelFault Unit × Model)
    else ensurePagedDecodeState cfg env false m) with ⟨e | u, m₁⟩ <;> simp only [hs] at h
  · obtain ⟨-, rfl⟩ := Prod.ext_iff.mp h
    split_ifs at hs
    · cases hs
    · exact .inl ((ensurePagedDecodeState_setups (by simp) hs).grows)
  have hinit : Grows cfg env m m₁ := by
    split_ifs at hs
    · obtain ⟨-, rfl⟩ := Prod.ext_iff.mp hs
      exact .refl
    · exact (ensurePagedDecodeState_setups (by simp) hs).grows
  split at h
  · obtain ⟨-, rfl⟩ := Prod.ext_iff.mp h
    exact .inl hinit
  rcases hslabs : prefillSlabs cfg env m.seqLen total
    (List.range (divCeil total chunkTokens)) m₁ with ⟨e | u, m₂⟩ <;> simp only [hslabs] at h
  · obtain ⟨-, rfl⟩ := Prod.ext_iff.mp h
    rcases prefillSlabs_spec hslabs with hgrow | ⟨-, hlose⟩
    · exact .inl (hinit.trans hgrow)
    · exact .inr (hlose.of_grows hinit)
  · rcases prefillSlabs_spec hslabs with hgrow | ⟨hr, -⟩
    · have hdone := (hinit.trans hgrow).tail
        (.setup (.aux m₂ m₂.persistentWorkers (m₂.seqLen + total) m₂.prefillTables .inl))
      split at h <;> obtain ⟨-, rfl⟩ := Prod.ext_iff.mp h <;> exact .inl hdone
    · exact absurd rfl hr

/-- **A prefill** is a series of small changes, after which it may lose the sequence. -/
theorem prefill_spec {total : ℕ} (h : prefill cfg env total m = (r, m')) :
    Grows cfg env m m' ∨ Loses cfg env m m' := by
  rw [prefill] at h
  split_ifs at h
  · obtain ⟨-, rfl⟩ := Prod.ext_iff.mp h
    exact .inl .refl
  rcases hs : ensurePersistentWorkerSpawned cfg env m with ⟨e | u, m₁⟩ <;> simp only [hs] at h
  · obtain ⟨-, rfl⟩ := Prod.ext_iff.mp h
    exact .inl ((ensurePersistentWorkerSpawned_setups hs).grows)
  · rcases prefillBody_spec h with hgrow | hlose
    · exact .inl (((ensurePersistentWorkerSpawned_setups hs).grows).trans hgrow)
    · exact .inr (hlose.of_grows ((ensurePersistentWorkerSpawned_setups hs).grows))

/-! ### Decode -/

/-- A decode step up to its dispatch: initialisation, one more token, and the patched
program. -/
structure Patched (cfg : EngineConfig) (env : Env) (tokenId position : ℕ) (m m' : Model) where
  init : Model
  seq : SequenceState
  seq' : SequenceState
  allocator : PageAllocator
  mem : KvMem
  prog : MegakernelProgram
  heap' : ChunkHeap
  prog' : MegakernelProgram
  setups : Setups cfg env m init
  ready : init.persistentWorkers = true
  hseq : init.pagedSeq = some seq
  halloc : init.pageAllocator = some allocator
  hprog : init.megakernelPaged = some prog
  happ : seq.appendToken ⟨init.heap, allocator, init.hostPageAllocator⟩ (toI32 position) =
    .ok (mem, seq')
  hupdate : updateStepPagedNoUpload prog tokenId position mem.heap seq' mem.vram =
    .ok (heap', prog')
  after : m' = { init with
    heap := heap'
    pagedSeq := some seq'
    pageAllocator := some mem.vram
    hostPageAllocator := mem.host
    megakernelPaged := some prog' }

/-- **A decode step up to its dispatch**: it patches the program, or it fails and keeps the
sequence, or it panics. -/
theorem decodePatch_spec {tokenId position : ℕ}
    (h : decodePatch cfg env tokenId position m = (r, m')) :
    (r = .ok () ∧ Nonempty (Patched cfg env tokenId position m m')) ∨
      (r ≠ .ok () ∧ Setups cfg env m m') ∨ ∃ e, r = .error e ∧ e.IsPanic := by
  rw [decodePatch] at h
  rcases hs : ensurePersistentWorkerSpawned cfg env m with ⟨e | u, m₁⟩ <;> simp only [hs] at h
  · obtain ⟨rfl, rfl⟩ := Prod.ext_iff.mp h
    exact .inr (.inl ⟨by simp, ensurePersistentWorkerSpawned_setups hs⟩)
  have hinit := ensurePersistentWorkerSpawned_setups hs
  split at h
  · rename_i seq allocator prog hseq halloc hprog
    rcases happ : seq.appendToken ⟨m₁.heap, allocator, m₁.hostPageAllocator⟩ (toI32 position)
      with e | ⟨mem, seq'⟩ <;> simp only [happ] at h
    · obtain ⟨rfl, rfl⟩ := Prod.ext_iff.mp h
      exact .inr (.inl ⟨by simp, hinit⟩)
    rcases hup : updateStepPagedNoUpload prog tokenId position mem.heap seq' mem.vram
      with e | ⟨heap', prog'⟩ <;> simp only [hup] at h
    · obtain ⟨rfl, rfl⟩ := Prod.ext_iff.mp h
      exact .inr (.inr ⟨_, rfl, trivial⟩)
    · obtain ⟨rfl, rfl⟩ := Prod.ext_iff.mp h
      exact .inl ⟨rfl, ⟨m₁, seq, seq', allocator, mem, prog, heap', prog', hinit,
        ensurePersistentWorkerSpawned_ready hs, hseq, halloc,
        hprog, happ, hup, rfl⟩⟩
  · obtain ⟨rfl, rfl⟩ := Prod.ext_iff.mp h
    exact .inr (.inr ⟨_, rfl, trivial⟩)

/-- The state after a decode step sealed its chunk. -/
def sealed (m : Model) (s : SealState) (seqLen : ℕ) : Model :=
  { m with
    megakernelPaged := some s.prog
    pagedSeq := some s.seq
    quantAllocator := s.quant
    filled := s.filled
    seqLen := seqLen }

/-- **A decode step from its dispatch on**: it seals the chunk, or it fails and changes
nothing, or it panics. -/
theorem decodeFinish_spec {position : ℕ} (h : decodeFinish env position m = (r, m')) :
    (∃ seq allocator prog s n, m.pagedSeq = some seq ∧ m.pageAllocator = some allocator ∧
        m.megakernelPaged = some prog ∧
        postStepPaged ⟨prog, seq, m.quantAllocator, m.filled⟩ position m.heap allocator = .ok s ∧
        m' = m.sealed s n) ∨
      (∃ seq allocator prog code, m.pagedSeq = some seq ∧ m.pageAllocator = some allocator ∧
        m.megakernelPaged = some prog ∧
        postStepPaged ⟨prog, seq, m.quantAllocator, m.filled⟩ position m.heap allocator =
          .error (.hip code) ∧ m' = m) ∨ ∃ e, r = .error e ∧ e.IsPanic := by
  rw [decodeFinish] at h
  split at h
  · rename_i seq allocator prog hseq halloc hprog
    rcases hpost : postStepPaged ⟨prog, seq, m.quantAllocator, m.filled⟩ position m.heap
      allocator with e | s <;> simp only [hpost] at h
    · obtain ⟨rfl, rfl⟩ := Prod.ext_iff.mp h
      cases e with
      | hip code =>
          exact .inr (.inl ⟨seq, allocator, prog, code, hseq, halloc, hprog, hpost, rfl⟩)
      | panic p => exact .inr (.inr ⟨_, rfl, trivial⟩)
    · refine .inl ⟨seq, allocator, prog, s, m'.seqLen, hseq, halloc, hprog, hpost, ?_⟩
      split at h
      · split_ifs at h <;> obtain ⟨-, rfl⟩ := Prod.ext_iff.mp h <;> rfl
      · obtain ⟨-, rfl⟩ := Prod.ext_iff.mp h
        rfl
  · obtain ⟨rfl, rfl⟩ := Prod.ext_iff.mp h
    exact .inr (.inr ⟨_, rfl, trivial⟩)

/-! ### Reset -/

/-- The state after `reset_state` gave the slots of a sequence back. -/
def cleared (m : Model) (quant : Option PageAllocator) (mem : KvMem) (seq : SequenceState) :
    Model :=
  { m with
    heap := mem.heap
    persistentWorkers := false
    pageAllocator := some mem.vram
    pagedSeq := some seq
    quantAllocator := quant
    hostPageAllocator := none
    seqLen := 0 }

/-- **A reset** of an engine that has a sequence exactly if it has a pool: it gives the
slots of the sequence back, or there is no sequence or the recurrent state could not be
cleared, or it panics. -/
theorem resetState_spec (htogether : m.pagedSeq.isSome = m.pageAllocator.isSome)
    (h : resetState env m = (r, m')) :
    (∃ seq allocator quant seq₁ mem seq₂, env.clear = .ok () ∧ m.pagedSeq = some seq ∧
        m.pageAllocator = some allocator ∧ m.releaseQuant seq = .ok (quant, seq₁) ∧
        seq₁.reset ⟨m.heap, allocator, none⟩ = .ok (mem, seq₂) ∧
        m' = m.cleared quant mem seq₂) ∨
      ((env.clear = .ok () → m.pagedSeq = none) ∧ ∃ n, m' = { m with
        persistentWorkers := false
        hostPageAllocator := none
        seqLen := n }) ∨
      ∃ e, r = .error e ∧ e.IsPanic := by
  rw [resetState] at h
  cases hclear : env.clear with
  | error e =>
      simp only [hclear] at h
      obtain ⟨-, rfl⟩ := Prod.ext_iff.mp h
      exact .inr (.inl ⟨by simp, m.seqLen, rfl⟩)
  | ok u =>
      simp only [hclear] at h
      cases hseq : m.pagedSeq with
      | none =>
          simp only [hseq] at h
          obtain ⟨-, rfl⟩ := Prod.ext_iff.mp h
          exact .inr (.inl ⟨fun _ => rfl, 0, by rw [← hseq]⟩)
      | some seq =>
          rw [hseq] at htogether
          obtain ⟨allocator, halloc⟩ := Option.isSome_iff_exists.mp htogether.symm
          simp only [hseq] at h
          split at h
          · obtain ⟨rfl, -⟩ := Prod.ext_iff.mp h
            exact .inr (.inr ⟨_, rfl, trivial⟩)
          · rename_i quant seq₁ hrel
            simp only [halloc] at h
            split at h
            · obtain ⟨rfl, -⟩ := Prod.ext_iff.mp h
              exact .inr (.inr ⟨_, rfl, trivial⟩)
            · rename_i mem seq₂ hreset
              obtain ⟨-, rfl⟩ := Prod.ext_iff.mp h
              exact .inl ⟨seq, allocator, quant, seq₁, mem, seq₂, rfl, rfl, halloc, hrel, hreset,
                rfl⟩

end Model

end Braidinfer.Engine
