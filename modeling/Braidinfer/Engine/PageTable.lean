/-
The decode page table over runs of prefills, decode steps and resets.

`update_step_paged_no_upload` rewrites the table only when the number of chunks differs from
the number it wrote last.  In between, a reset gives the slots of the sequence back in
reverse, and a failed prefill replaces the pool.  `Drift` records what happened to the slots
since the table was written.

* `Drift.moved`: where the slot of chunk `i` was when the table was written;
* `PageInv`, `PageInv.step`: the table holds the slots as they were then;
* `pageTable_coherent_of_run`: **a decode step leaves a coherent page table when it rewrites
  it or when no slot has moved since**.
-/
import Braidinfer.Engine.Sound

namespace Braidinfer.Engine

open Braidinfer.Lib Braidinfer.PagedKv Braidinfer.Megakernel

/-! ### What happened to the slots -/

/-- Giving `c` slots back in order and taking them again: slot `i` comes from place
`flip c i`. -/
def flip (c i : ℕ) : ℕ := if i < c then c - 1 - i else i

lemma getD_flip {α : Type*} (l r : List α) (i : ℕ) (d : α) :
    (l.reverse ++ r).getD i d = (l ++ r).getD (flip l.length i) d := by
  rw [flip, List.getD_eq_getElem?_getD, List.getD_eq_getElem?_getD]
  split_ifs with hi
  · rw [List.getElem?_append_left (by rwa [List.length_reverse]),
      List.getElem?_append_left (by omega), List.getElem?_reverse hi]
  · rw [List.getElem?_append_right (by rw [List.length_reverse]; omega), List.length_reverse,
      List.getElem?_append_right (by omega)]

lemma flip_lt_iff {c n i : ℕ} (hc : c ≤ n) : flip c i < n ↔ i < n := by
  rw [flip]
  split_ifs <;> omega

/-- What happened to the slots since the page table was written: the numbers of VRAM chunks
that resets gave back, newest first, and whether the pool is another one. -/
structure Drift where
  flips : List ℕ
  replaced : Bool

namespace Drift

/-- Nothing was written yet. -/
def start : Drift := ⟨[], true⟩

/-- The table was just written. -/
def fresh : Drift := ⟨[], false⟩

/-- Where the slot of chunk `i` was when the table was written. -/
def moved (d : Drift) (i : ℕ) : ℕ := d.flips.foldl (fun i c => flip c i) i

lemma moved_lt_iff {d : Drift} {n i : ℕ} (hd : ∀ c ∈ d.flips, c ≤ n) : d.moved i < n ↔ i < n := by
  obtain ⟨flips, replaced⟩ := d
  simp only [moved] at hd ⊢
  induction flips generalizing i with
  | nil => rfl
  | cons c flips ih =>
      rw [List.foldl_cons, ih fun c hc => hd c (List.mem_cons_of_mem _ hc),
        flip_lt_iff (hd c List.mem_cons_self)]

lemma moved_of_le {d : Drift} {n i : ℕ} (hd : ∀ c ∈ d.flips, c ≤ n) (hi : n ≤ i) :
    d.moved i = i := by
  obtain ⟨flips, replaced⟩ := d
  simp only [moved] at hd ⊢
  induction flips with
  | nil => rfl
  | cons c flips ih =>
      have hc := hd c List.mem_cons_self
      rw [List.foldl_cons, flip, if_neg (by omega)]
      exact ih fun c hc => hd c (List.mem_cons_of_mem _ hc)

end Drift

namespace Model

variable (cfg : EngineConfig)

/-- `last_page_table_len`. -/
def tableLen (m : Model) : ℕ := (m.megakernelPaged.map (·.pagedKv.lastPageTableLen)).getD 0

/-- The chunks of the sequence once the next token is appended. -/
def chunksAfter (m : Model) : ℕ := m.tokens / chunkTokens + 1

/-- The next decode step rewrites the page table. -/
def Rewrites (m : Model) : Prop := m.chunksAfter ≠ m.tableLen

instance (m : Model) : Decidable m.Rewrites := inferInstanceAs (Decidable (_ ≠ _))

/-- The number of chunks of the sequence that have a VRAM slot. -/
def vramChunkCount (m : Model) : ℕ :=
  (m.pagedSeq.map fun s => (SequenceState.vramSlots m.heap s.chunks).length).getD 0

end Model

/-- What a call adds to the record. -/
def Drift.next (cfg : EngineConfig) (m : Model) (c : Model.Call) (m' : Model) (d : Drift) :
    Drift :=
  match c with
  | .prefill _ _ => { d with replaced := d.replaced || m'.pageAllocator.isNone }
  | .decode env tokenId position =>
      if (m.decodePatch cfg env tokenId position).1.isOk ∧ m.Rewrites then .fresh else d
  | .reset env =>
      if env.clear.isOk ∧ m.pagedSeq.isSome then { d with flips := m.vramChunkCount :: d.flips }
      else d

namespace Model

variable {cfg : EngineConfig} {env : Env} {m m' : Model} {d d' : Drift}

/-! ### The invariant -/

/-- The decode page table agrees with the sequence. -/
def PageCoherent (m : Model) : Prop :=
  ∀ seq allocator prog, m.pagedSeq = some seq → m.pageAllocator = some allocator →
    m.megakernelPaged = some prog → ∀ i h, seq.chunks[i]? = some h →
      prog.pagedKv.pageTable i = allocator.slotPtr (slotIndex m.heap h)

/-- The slots in the order `written` in which they were when the table was written. -/
structure Written (d : Drift) (order written : List ℕ) : Prop where
  perm : written.Perm order
  flips : ∀ c ∈ d.flips, c ≤ written.length
  moved : ∀ i, order.getD i u32Max = written.getD (d.moved i) u32Max

/-- The page table holds the slots as they were when it was written. -/
structure PageInv (cfg : EngineConfig) (m : Model) (d : Drift) : Prop where
  sound : Sound cfg m
  pool : d.replaced = false → m.pageAllocator.isSome
  clean : ∀ prog, m.megakernelPaged = some prog → prog.pagedKv.pageTableDirty = false
  table : d.replaced = false → ∀ seq allocator, m.pagedSeq = some seq →
    m.pageAllocator = some allocator →
    ∃ written, Written d (SequenceState.order m.heap allocator seq) written ∧
      ∀ prog, m.megakernelPaged = some prog → ∀ i < prog.pagedKv.lastPageTableLen,
        prog.pagedKv.pageTable i = allocator.slotPtr (written.getD i u32Max)

lemma PageInv.init : PageInv cfg Model.init Drift.start :=
  ⟨.init, by simp [Drift.start], fun _ h => by simp [Model.init] at h, by simp [Drift.start]⟩

lemma freshProgram_pagedKv (env : Env) :
    (freshProgram cfg env).pagedKv.pageTableDirty = false ∧
      (freshProgram cfg env).pagedKv.lastPageTableLen = 0 := by
  rw [freshProgram]
  split_ifs <;> exact ⟨rfl, rfl⟩

/-- A series of small changes keeps the invariant. -/
lemma PageInv.extends (h : PageInv cfg m d) (hext : Extends cfg env m m') : PageInv cfg m' d := by
  refine ⟨hext.sound, fun hd => hext.pool (h.pool hd), fun prog hprog => ?_,
    fun hd seq' allocator' hseq' halloc' => ?_⟩
  · rcases hext.program with hsame | ⟨-, hfresh⟩
    · exact h.clean prog (hsame ▸ hprog)
    · obtain rfl := Option.some.inj (hfresh.symm.trans hprog)
      exact (freshProgram_pagedKv env).1
  · rcases hext.seq seq' allocator' hseq' halloc' with
      ⟨seq, allocator, hseq, halloc, hgrown⟩ | ⟨hnone, -⟩
    · obtain ⟨written, hw, htable⟩ := h.table hd seq allocator hseq halloc
      refine ⟨written, by rwa [hgrown.order], fun prog hprog i hi => ?_⟩
      rw [hgrown.slotPtr]
      rcases hext.program with hsame | ⟨-, hfresh⟩
      · exact htable prog (hsame ▸ hprog) i hi
      · obtain rfl := Option.some.inj (hfresh.symm.trans hprog)
        rw [(freshProgram_pagedKv env).2] at hi
        exact absurd hi (Nat.not_lt_zero i)
    · have hsome := h.pool hd
      rw [hnone] at hsome
      cases hsome

/-! ### Decode steps -/

section Patched

variable {tokenId position : ℕ}

/-- The chunk count after the append. -/
lemma Patched.length_chunks (P : Patched cfg env tokenId position m m') (hm : Sound cfg m) :
    P.seq'.chunks.length = m.chunksAfter := by
  have hspec := P.spec hm
  have hsound := hspec.init.sound.seq P.seq P.allocator P.hseq P.halloc
  have hlen : P.seq'.seqLen = m.tokens + 1 := by
    rw [(SequenceState.appendToken_shape hsound.exclusive hsound.shape P.happ).2.1,
      ← P.setups.tokens hm, tokens_eq P.hseq]
  rw [hspec.appended.shape.length_chunks hlen, hspec.appended.chunkTokens, chunksAfter]

/-- The step rewrites the table if that count is not the one written last. -/
lemma Patched.rewrites_iff (P : Patched cfg env tokenId position m m') (h : PageInv cfg m d) :
    needsRewrite P.prog P.seq' ↔ m.Rewrites := by
  have hspec := P.spec h.sound
  have hclean := (h.extends hspec.init).clean P.prog P.hprog
  have hchunks := P.length_chunks h.sound
  have htable : P.prog.pagedKv.lastPageTableLen = m.tableLen := by
    rcases hspec.init.program with hsame | ⟨hnone, hfresh⟩
    · rw [tableLen, ← hsame, P.hprog]
      rfl
    · obtain hp := Option.some.inj (hfresh.symm.trans P.hprog)
      rw [← hp, (freshProgram_pagedKv env).2, tableLen, hnone]
      rfl
  rw [needsRewrite, hclean, hchunks, htable]
  simp [Rewrites]

lemma Patched.order_eq (P : Patched cfg env tokenId position m m') (hm : Sound cfg m) :
    SequenceState.order P.heap' P.mem.vram P.seq' =
      SequenceState.order P.init.heap P.allocator P.seq := by
  have hspec := P.spec hm
  exact (hspec.same.order rfl).trans hspec.grown.order

/-- A patched decode step keeps the invariant. -/
lemma PageInv.patched (h : PageInv cfg m d) (P : Patched cfg env tokenId position m m') :
    PageInv cfg m' (if m.Rewrites then .fresh else d) := by
  have hspec := P.spec h.sound
  have hinit := h.extends hspec.init
  refine ⟨hspec.sound, fun _ => by rw [P.after]; rfl, fun prog hprog => ?_,
    fun hd seq allocator hseq halloc => ?_⟩
  · rw [P.after] at hprog
    obtain rfl := Option.some.inj hprog
    exact hspec.updated.pageTableDirty
  rw [P.after] at hseq halloc ⊢
  obtain rfl := Option.some.inj hseq
  obtain rfl := Option.some.inj halloc
  by_cases hrw : m.Rewrites
  · -- the table is written from the slots as they are
    rw [if_pos hrw]
    refine ⟨_, ⟨.refl _, by simp [Drift.fresh], fun i => rfl⟩, fun prog hprog i hi => ?_⟩
    obtain rfl := Option.some.inj hprog
    rw [hspec.updated.lastPageTableLen] at hi
    rw [hspec.updated.pageTable, if_pos ((P.rewrites_iff h).mpr hrw), writeEntries, chunkPtrs,
      List.getD_eq_getElem?_getD, List.getElem?_map, List.getElem?_eq_getElem hi]
    change P.mem.vram.slotPtr (slotIndex P.mem.heap P.seq'.chunks[i]) = _
    rw [SequenceState.slotIndex_eq_order hspec.appended.exclusive (List.getElem?_eq_getElem hi),
      ← hspec.same.order rfl]
  · rw [if_neg hrw] at hd ⊢
    obtain ⟨written, hw, htable⟩ := hinit.table hd P.seq P.allocator P.hseq P.halloc
    refine ⟨written, by rwa [P.order_eq h.sound], fun prog hprog i hi => ?_⟩
    obtain rfl := Option.some.inj hprog
    have hno := (P.rewrites_iff h).not.mpr hrw
    rw [hspec.updated.pageTable, if_neg hno, hspec.grown.slotPtr]
    refine htable P.prog P.hprog i ?_
    rw [hspec.updated.lastPageTableLen] at hi
    rwa [← not_not.mp (not_or.mp hno).2]

end Patched

/-! ### The other calls -/

lemma PageInv.of_same (h : PageInv cfg m d) (hheap : m'.heap = m.heap)
    (hseq : m'.pagedSeq = m.pagedSeq) (hpool : m'.pageAllocator = m.pageAllocator)
    (hprog : m'.megakernelPaged = m.megakernelPaged)
    (hoff : cfg.hostKvChunks = none → m'.hostPageAllocator = none)
    (hwork : m'.persistentWorkers = true → cfg.kvQuant = true → m'.quantAllocator.isSome) :
    PageInv cfg m' d := by
  refine ⟨h.sound.of_same hheap hseq hpool hoff hwork, by rw [hpool]; exact h.pool,
    by rw [hprog]; exact h.clean, ?_⟩
  rw [hseq, hpool, hprog, hheap]
  exact h.table

/-- Sealing a chunk keeps the invariant. -/
lemma PageInv.sealed {s : SealState} {position n : ℕ} {prog : MegakernelProgram}
    {seq : SequenceState} {allocator : PageAllocator} (h : PageInv cfg m d)
    (hseq : m.pagedSeq = some seq) (halloc : m.pageAllocator = some allocator)
    (hprog : m.megakernelPaged = some prog)
    (hpost : postStepPaged ⟨prog, seq, m.quantAllocator, m.filled⟩ position m.heap allocator =
      .ok s) : PageInv cfg (m.sealed s n) d := by
  obtain ⟨hs, hp, -⟩ := postStepPaged_frame hpost
  refine ⟨h.sound.sealed hseq halloc hpost, h.pool, fun prog' hprog' => ?_,
    fun hd seq' allocator' hseq' halloc' => ?_⟩
  · obtain rfl := Option.some.inj hprog'
    rw [hp]
    exact h.clean prog hprog
  · obtain rfl := Option.some.inj hseq'
    obtain rfl : allocator = allocator' := Option.some.inj (halloc.symm.trans halloc')
    obtain ⟨written, hw, htable⟩ := h.table hd seq allocator hseq halloc
    refine ⟨written, ?_, fun prog' hprog' => ?_⟩
    · rw [(sameView_rfl seq.chunks).order (by rw [hs] : s.seq.chunks = seq.chunks)]
      exact hw
    · obtain rfl := Option.some.inj hprog'
      rw [hp]
      exact htable prog hprog

/-- A reset turns the slots of the sequence around. -/
lemma PageInv.cleared {seq seq₁ seq₂ : SequenceState} {allocator : PageAllocator}
    {quant : Option PageAllocator} {mem : KvMem} (h : PageInv cfg m d)
    (hseq : m.pagedSeq = some seq) (halloc : m.pageAllocator = some allocator)
    (hrel : m.releaseQuant seq = .ok (quant, seq₁))
    (hreset : seq₁.reset ⟨m.heap, allocator, none⟩ = .ok (mem, seq₂)) :
    PageInv cfg (m.cleared quant mem seq₂) { d with flips := m.vramChunkCount :: d.flips } := by
  have hframe := releaseQuant_frame hrel
  have hspec := (h.sound.releaseQuant hseq halloc hrel).reset hreset
  have hcount : m.vramChunkCount = (SequenceState.vramSlots m.heap seq.chunks).length := by
    rw [vramChunkCount, hseq]
    rfl
  have hchunks : seq₁.chunks = seq.chunks := by rw [hframe]
  refine ⟨.cleared hspec.sound, fun _ => rfl, h.clean, fun hd seq' allocator' hseq' halloc' => ?_⟩
  obtain rfl := Option.some.inj hseq'
  obtain rfl := Option.some.inj halloc'
  obtain ⟨written, hw, htable⟩ := h.table hd seq allocator hseq halloc
  have horder : SequenceState.order (m.cleared quant mem seq₂).heap mem.vram seq₂ =
      (SequenceState.vramSlots m.heap seq.chunks).reverse ++ allocator.slots.free := by
    rw [← hchunks]
    exact hspec.order
  refine ⟨written, ⟨?_, fun c hc => ?_, fun i => ?_⟩, fun prog hprog i hi => ?_⟩
  · rw [horder]
    exact hw.perm.trans ((List.reverse_perm _).symm.append_right _)
  · rcases List.mem_cons.mp hc with rfl | hc
    · rw [hcount, hw.perm.length_eq, SequenceState.order, List.length_append]
      omega
    · exact hw.flips c hc
  · rw [horder, getD_flip, ← hcount]
    exact hw.moved _
  · rw [SlotPool.slotPtr, hspec.pool, hspec.chunkBytes]
    exact htable prog hprog i hi

/-- **Every call keeps the invariant.** -/
theorem PageInv.step {c : Call} (h : PageInv cfg m d) (hstep : Step cfg m c m') :
    PageInv cfg m' (d.next cfg m c m') := by
  obtain ⟨r, hcall, hok⟩ := hstep
  have hno : ¬ ∃ e, r = .error e ∧ e.IsPanic := fun ⟨e, he, hp⟩ => hok e he hp
  cases c with
  | prefill env total =>
      rcases prefill_spec hcall with hgrow | hlose
      · have hext := hgrow.extends h.sound
        have hinv := h.extends hext
        simp only [Drift.next]
        cases hpool : m'.pageAllocator with
        | some allocator => simpa using hinv
        | none =>
            refine ⟨hinv.sound, by simp, hinv.clean, by simp⟩
      · obtain ⟨hsound, -, hpool, m₁, hext, hprog, -, -⟩ := hlose.spec h.sound
        simp only [Drift.next, hpool, Option.isNone_none, Bool.or_true]
        exact ⟨hsound, by simp, by rw [hprog]; exact (h.extends hext).clean, by simp⟩
  | decode env tokenId position =>
      simp only [Drift.next]
      rw [call, decodeStep] at hcall
      rcases hpatch : decodePatch cfg env tokenId position m with ⟨e | u, m₁⟩ <;>
        simp only [hpatch] at hcall
      · obtain ⟨rfl, rfl⟩ := Prod.ext_iff.mp hcall
        simp only [Except.isOk, Except.toBool, Bool.false_eq_true, false_and, if_false]
        rcases decodePatch_spec hpatch with ⟨hr, -⟩ | ⟨-, hsetup⟩ | hpanic
        · cases hr
        · exact h.extends (hsetup.grows.extends h.sound)
        · exact absurd hpanic hno
      · simp only [Except.isOk, Except.toBool, true_and]
        have hinv : PageInv cfg m₁ (if m.Rewrites then .fresh else d) := by
          rcases decodePatch_spec hpatch with ⟨-, ⟨P⟩⟩ | ⟨hr, -⟩ | ⟨e, hr, -⟩
          · exact h.patched P
          · exact absurd rfl hr
          · cases hr
        rcases decodeFinish_spec hcall with
          ⟨seq, allocator, prog, s, n, hseq, halloc, hprog, hpost, rfl⟩ |
          ⟨-, -, -, -, -, -, -, -, rfl⟩ | hpanic
        · exact hinv.sealed hseq halloc hprog hpost
        · exact hinv
        · exact absurd hpanic hno
  | reset env =>
      simp only [Drift.next]
      rcases resetState_spec h.sound.together hcall with
        ⟨seq, allocator, quant, seq₁, mem, seq₂, hclear, hseq, halloc, hrel, hreset, rfl⟩ |
        ⟨hkeep, n, rfl⟩ | hpanic
      · rw [hclear, hseq, if_pos ⟨rfl, rfl⟩]
        exact h.cleared hseq halloc hrel hreset
      · rw [if_neg]
        · exact h.of_same rfl rfl rfl rfl (fun _ => rfl) fun h => by cases h
        · rintro ⟨hclear, hseq⟩
          cases hc : env.clear with
          | error e => simp [hc, Except.isOk, Except.toBool] at hclear
          | ok u => simp [hkeep hc] at hseq
      · exact absurd hpanic hno

lemma PageInv.of_run {calls : List Call}
    (hrun : Run (tracked (Drift.next cfg) (Step cfg)) (Model.init, Drift.start) calls (m, d)) :
    PageInv cfg m d :=
  hrun.invariant (I := fun s => PageInv cfg s.1 s.2)
    (fun _ _ _ h ⟨hstep, hnext⟩ => by rw [hnext]; exact h.step hstep) .init

/-! ### Coherence -/

/-- After a patched step, the table is coherent if no slot has moved since it was
written. -/
lemma PageInv.coherent (h : PageInv cfg m d) (hd : d.replaced = false) {n : ℕ}
    (hlen : ∀ prog, m.megakernelPaged = some prog → prog.pagedKv.lastPageTableLen = n)
    (hseq : ∀ seq, m.pagedSeq = some seq → seq.chunks.length = n)
    (hmoved : ∀ i < n, d.moved i = i) : PageCoherent m := by
  intro seq allocator prog hs ha hp i c hi
  obtain ⟨written, hw, htable⟩ := h.table hd seq allocator hs ha
  have hin : i < n := hseq seq hs ▸ (List.getElem?_eq_some_iff.mp hi).1
  rw [htable prog hp i (by rwa [hlen prog hp]),
    SequenceState.slotIndex_eq_order (h.sound.seq seq allocator hs ha).exclusive hi, hw.moved,
    hmoved i hin]

/-- Conversely, in a pool of nonempty chunks a coherent table means that no slot has
moved. -/
lemma PageInv.moved_of_coherent (h : PageInv cfg m d) (hd : d.replaced = false) {n : ℕ}
    {seq : SequenceState} {allocator : PageAllocator} {prog : MegakernelProgram}
    (hs : m.pagedSeq = some seq) (ha : m.pageAllocator = some allocator)
    (hp : m.megakernelPaged = some prog) (hlen : prog.pagedKv.lastPageTableLen = n)
    (hseq : seq.chunks.length = n) (hbytes : 0 < cfg.chunkKvBytes) (hco : PageCoherent m) :
    ∀ i < n, d.moved i = i := by
  intro i hi
  obtain ⟨written, hw, htable⟩ := h.table hd seq allocator hs ha
  have hsound := h.sound.seq seq allocator hs ha
  have hget : seq.chunks[i]? = some (seq.chunks[i]) := List.getElem?_eq_getElem _
  have hptr := hco seq allocator prog hs ha hp i _ hget
  rw [htable prog hp i (by rwa [hlen]), SequenceState.slotIndex_eq_order hsound.exclusive hget,
    hw.moved, SlotPool.slotPtr, SlotPool.slotPtr, hsound.chunkBytes] at hptr
  have hslot := Nat.eq_of_mul_eq_mul_right hbytes (Nat.add_left_cancel hptr)
  rcases Nat.lt_or_ge i written.length with hlt | hge
  · have hlt' := (Drift.moved_lt_iff hw.flips).mpr hlt
    rw [List.getD_eq_getElem _ _ hlt, List.getD_eq_getElem _ _ hlt'] at hslot
    have hnodup : written.Nodup := (hw.perm.trans hsound.exclusive.order_perm).nodup_iff.mpr
      List.nodup_range
    exact ((List.Nodup.getElem_inj_iff hnodup).mp hslot).symm
  · exact Drift.moved_of_le hw.flips hge

/-- **Page-table coherence.**  After any run of prefills, decode steps and resets, the next
successful update leaves a page table that agrees with the sequence if it rewrites it, that
is, if the chunk count differs from the one written last, or if since then the pool was not
replaced and the resets have left the slots of the sequence in their places.  If the pool
was not replaced, the table agrees with the sequence only then. -/
theorem pageTable_coherent_of_run (cfg : EngineConfig) (env : Env) (calls : List Call)
    (tokenId position : ℕ) (m m' : Model) (d : Drift)
    (hrun : Run (tracked (Drift.next cfg) (Step cfg)) (Model.init, Drift.start) calls (m, d))
    (hpatch : decodePatch cfg env tokenId position m = (.ok (), m')) :
    (m.Rewrites ∨ (d.replaced = false ∧ ∀ i < m.chunksAfter, d.moved i = i) → PageCoherent m') ∧
      (d.replaced = false → 0 < cfg.chunkKvBytes → PageCoherent m' →
        m.Rewrites ∨ ∀ i < m.chunksAfter, d.moved i = i) := by
  have hinv := PageInv.of_run hrun
  rcases decodePatch_spec hpatch with ⟨-, ⟨P⟩⟩ | ⟨hr, -⟩ | ⟨e, hr, -⟩
  · have hafter := hinv.patched P
    have hspec := P.spec hinv.sound
    have hseq : m'.pagedSeq = some P.seq' := congrArg Model.pagedSeq P.after
    have halloc : m'.pageAllocator = some P.mem.vram := congrArg Model.pageAllocator P.after
    have hprog : m'.megakernelPaged = some P.prog' := congrArg Model.megakernelPaged P.after
    have hchunks : P.seq'.chunks.length = m.chunksAfter := P.length_chunks hinv.sound
    have hlen : P.prog'.pagedKv.lastPageTableLen = m.chunksAfter :=
      hspec.updated.lastPageTableLen.trans hchunks
    have hlen' : ∀ prog, m'.megakernelPaged = some prog →
        prog.pagedKv.lastPageTableLen = m.chunksAfter := by
      intro prog hp
      rwa [← Option.some.inj (hprog.symm.trans hp)]
    have hseq' : ∀ seq, m'.pagedSeq = some seq → seq.chunks.length = m.chunksAfter := by
      intro seq hs
      rwa [← Option.some.inj (hseq.symm.trans hs)]
    constructor
    · intro hcond
      by_cases hrw : m.Rewrites
      · rw [if_pos hrw] at hafter
        exact hafter.coherent rfl hlen' hseq' fun _ _ => rfl
      · rw [if_neg hrw] at hafter
        obtain ⟨hd, hmoved⟩ := hcond.resolve_left hrw
        exact hafter.coherent hd hlen' hseq' hmoved
    · intro hd hbytes hco
      by_cases hrw : m.Rewrites
      · exact .inl hrw
      · rw [if_neg hrw] at hafter
        exact .inr (hafter.moved_of_coherent hd hseq halloc hprog hlen hchunks hbytes hco)
  · exact absurd rfl hr
  · cases hr

/-- A prompt of three tokens, then a decode step, which writes the table. -/
theorem pageTable_coherent_of_run_prompt :
    ∃ m m' d, Run (tracked (Drift.next (smallConfig false)) (Step (smallConfig false)))
        (Model.init, Drift.start) [.prefill (quietEnv 100000 900000) 3] (m, d) ∧
      decodePatch (smallConfig false) (quietEnv 100000 900000) 7 3 m = (.ok (), m') ∧
      m.Rewrites ∧ m'.megakernelPaged.isSome ∧ PageCoherent m' := by
  let cfg := smallConfig false
  let env := quietEnv 100000 900000
  let m := (Model.init.call cfg (.prefill env 3)).2
  have hrun : Run (tracked (Drift.next cfg) (Step cfg)) (Model.init, Drift.start)
      [.prefill env 3] (m, Drift.start.next cfg Model.init (.prefill env 3) m) :=
    Run.nil.snoc ⟨.of_isOk (by decide +kernel), rfl⟩
  have hpatch := eq_of_isOk (r := decodePatch cfg env 7 3 m) (by decide +kernel)
  have hrewrites : m.Rewrites := by decide +kernel
  exact ⟨m, _, _, hrun, hpatch, hrewrites, by decide +kernel,
    (pageTable_coherent_of_run cfg env _ 7 3 m _ _ hrun hpatch).1 (.inl hrewrites)⟩

/-- A prompt of 64 tokens and a decode step, a reset, and the same again: the second
sequence has its two chunks on the same two slots the other way round, and the table still
lists them in the old order. -/
theorem pageTable_stale_after_reset :
    ¬ ∀ (cfg : EngineConfig) (env : Env) (calls : List Call) (tokenId position : ℕ)
      (m m' : Model), Run (Step cfg) Model.init calls m →
      decodePatch cfg env tokenId position m = (.ok (), m') → PageCoherent m' := by
  intro hall
  let cfg := smallConfig false
  let env := quietEnv 100000 900000
  let m₁ := (Model.init.call cfg (.prefill env 64)).2
  let m₂ := (m₁.call cfg (.decode env 7 64)).2
  let m₃ := (m₂.call cfg (.reset env)).2
  let m₄ := (m₃.call cfg (.prefill env 64)).2
  have hrun : Run (Step cfg) Model.init
      [.prefill env 64, .decode env 7 64, .reset env, .prefill env 64] m₄ :=
    (((Run.nil.snoc (.of_isOk (by decide +kernel))).snoc (.of_isOk (by decide +kernel))).snoc
      (.of_isOk (by decide +kernel))).snoc (.of_isOk (by decide +kernel))
  have hpatch := eq_of_isOk (r := decodePatch cfg env 7 64 m₄) (by decide +kernel)
  have hco := hall cfg env _ 7 64 m₄ _ hrun hpatch
  have hentry := hco ((decodePatch cfg env 7 64 m₄).2.pagedSeq.get (by decide +kernel))
    ((decodePatch cfg env 7 64 m₄).2.pageAllocator.get (by decide +kernel))
    ((decodePatch cfg env 7 64 m₄).2.megakernelPaged.get (by decide +kernel))
    (Option.some_get _).symm (Option.some_get _).symm (Option.some_get _).symm 0 2
    (by decide +kernel)
  exact absurd hentry (by decide +kernel)

end Model

end Braidinfer.Engine
