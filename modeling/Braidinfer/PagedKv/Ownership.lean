/-
Slot ownership: who holds the slots of the two pools while any number of sequences share
them.

* `World`, `Op`, `World.apply`: a heap, the two pools, the sequences and the handles held
  outside of them, with every operation that moves a slot;
* `SlotOwnership`: the free slots and the slots of the live chunks partition both pools;
* `slotOwnership_of_run`: **every run keeps slot ownership and no `free` assertion fails**,
  provided that no `make_exclusive` has its copy fail;
* `slotOwnership_lost_by_failed_copy`: a failed copy in `make_exclusive` loses a slot.
-/
import Braidinfer.Lib.Run
import Braidinfer.PagedKv.Accounting

namespace Braidinfer.PagedKv

open Braidinfer.Lib

/-! ### Worlds -/

/-- A heap with the two pools, the sequences that share them, and the handles held outside
of any sequence. -/
structure World where
  tiers : Tiers
  seqs : List SequenceState
  loose : List ChunkHandle
deriving DecidableEq, Repr

/-- Where a handle is held. -/
inductive Place
  | loose (k : ℕ)
  | chunk (s k : ℕ)
deriving DecidableEq, Repr

/-- Where a handle that an operation returns goes. -/
inductive Dest
  | loose
  | push (s : ℕ)
deriving DecidableEq, Repr

namespace World

/-- Every handle there is. -/
def handles (w : World) : List ChunkHandle :=
  w.seqs.flatMap SequenceState.chunks ++ w.loose

/-- The handle at a place. -/
def handle? (w : World) : Place → Option ChunkHandle
  | .loose k => w.loose[k]?
  | .chunk s k =>
      match w.seqs[s]? with
      | none => none
      | some seq => seq.chunks[k]?

/-- Store a handle: keep it outside of the sequences, or push it on the chunks of one. -/
def put (w : World) (h : ChunkHandle) : Dest → Option World
  | .loose => some { w with loose := h :: w.loose }
  | .push s =>
      match w.seqs[s]? with
      | none => none
      | some seq => some { w with seqs := w.seqs.set s { seq with chunks := seq.chunks ++ [h] } }

/-- Overwrite the handle at a place. -/
def assign (w : World) (h : ChunkHandle) : Place → World
  | .loose k => { w with loose := w.loose.set k h }
  | .chunk s k =>
      match w.seqs[s]? with
      | none => w
      | some seq => { w with seqs := w.seqs.set s { seq with chunks := seq.chunks.set k h } }

/-- The world before anything was allocated: two full pools and empty sequences. -/
def initial (vram : PageAllocator) (host : HostPageAllocator) (chunkTokens : List ℕ) : World :=
  ⟨⟨.empty, vram, host⟩, chunkTokens.map .new, []⟩

end World

/-- The operations that move slots, with the outcomes of the HIP calls they make. -/
inductive Op
  | appendToken (s : ℕ) (position : ℤ) (withHost : Bool)
  | clone (src : Place) (dst : Dest)
  | makeExclusive (src : Place) (dst : Dest) (memcpy : HipStatus)
  | assignExclusive (src : Place) (memcpy : HipStatus)
  | allocWithHostBacking (dst : Dest)
  | promoteChunk (src : Place) (memcpy : HipStatus)
  | evictChunkAndFree (src : Place) (memcpy sync : HipStatus)
  | reset (s : ℕ)

/-- What an operation returns and how it leaves the world; `none` for an operation on a
sequence or a handle that is not there.  `assignExclusive` is
`*h = h.make_exclusive(..)?`, which drops the handle it replaces. -/
def World.apply (w : World) : Op → Option (Except Fault Unit × World)
  | .appendToken s position withHost => do
      let seq ← w.seqs[s]?
      match SequenceState.appendToken
          ⟨w.tiers.heap, w.tiers.vram, if withHost then some w.tiers.host else none⟩
          seq position with
      | .error e => some (.error e, w)
      | .ok (m, seq) =>
          let tiers := ⟨m.heap, m.vram, m.host.getD w.tiers.host⟩
          some (.ok (), { w with tiers, seqs := w.seqs.set s seq })
  | .clone src dst => do
      let h ← w.handle? src
      let w ← { w with tiers.heap := w.tiers.heap.clone h }.put h dst
      some (.ok (), w)
  | .makeExclusive src dst memcpy => do
      let h ← w.handle? src
      match makeExclusive w.tiers.heap h w.tiers.vram memcpy with
      | (.error e, heap, vram) =>
          some (.error e, { w with tiers := ⟨heap, vram, w.tiers.host⟩ })
      | (.ok h', heap, vram) =>
          let w ← { w with tiers := ⟨heap, vram, w.tiers.host⟩ }.put h' dst
          some (.ok (), w)
  | .assignExclusive src memcpy => do
      let h ← w.handle? src
      match makeExclusive w.tiers.heap h w.tiers.vram memcpy with
      | (.error e, heap, vram) =>
          some (.error e, { w with tiers := ⟨heap, vram, w.tiers.host⟩ })
      | (.ok h', heap, vram) =>
          let w := { w with tiers := ⟨heap.drop h, vram, w.tiers.host⟩ }
          some (.ok (), w.assign h' src)
  | .allocWithHostBacking dst =>
      match allocWithHostBacking w.tiers with
      | (.error e, tiers) => some (.error e, { w with tiers })
      | (.ok h, tiers) => do
          let w ← { w with tiers }.put h dst
          some (.ok (), w)
  | .promoteChunk src memcpy => do
      let h ← w.handle? src
      let (r, tiers) := promoteChunk w.tiers h memcpy
      some (r, { w with tiers })
  | .evictChunkAndFree src memcpy sync => do
      let h ← w.handle? src
      let (r, tiers) := evictChunkAndFree w.tiers h memcpy sync
      some (r, { w with tiers })
  | .reset s => do
      let seq ← w.seqs[s]?
      match SequenceState.reset w.tiers.mem seq with
      | .error p => some (.error (.panic p), w)
      | .ok (m, seq) =>
          let tiers := ⟨m.heap, m.vram, m.host.getD w.tiers.host⟩
          some (.ok (), { w with tiers, seqs := w.seqs.set s seq })

/-- One step of a run: an operation that does not panic. -/
def World.Step (w : World) (op : Op) (w' : World) : Prop :=
  ∃ r, w.apply op = some (r, w') ∧ ∀ p, r ≠ .error (.panic p)

/-! ### Slot ownership -/

/-- Chunk `h` is live and holds slot `s` in the pool behind the field `f`. -/
def Uses (f : ChunkRef → ℕ) (heap : ChunkHeap) (h : ChunkHandle) (s : ℕ) : Prop :=
  ∃ c, heap.get? h = some c ∧ 0 < heap.strongCount h ∧ f c = s ∧ s ≠ u32Max

/-- The free slots and the slots of the live chunks partition a pool. -/
structure PoolOwnership (p : FreePool) (f : ChunkRef → ℕ) (heap : ChunkHeap) : Prop where
  free_nodup : p.free.Nodup
  free_lt : ∀ s ∈ p.free, s < p.capacity
  not_free : ∀ h s, Uses f heap h s → s ∉ p.free
  distinct : ∀ h h' s, Uses f heap h s → Uses f heap h' s → h = h'
  whole : ∀ s, s < p.capacity ↔ s ∈ p.free ∨ ∃ h, Uses f heap h s

/-- Slot ownership: both pools are partitioned into free slots and slots of live chunks. -/
structure SlotOwnership (w : World) : Prop where
  vram : PoolOwnership w.tiers.vram.slots ChunkRef.vramSlot w.tiers.heap
  host : PoolOwnership w.tiers.host.slots ChunkRef.hostSlot w.tiers.heap

lemma mem_slotsOf {f : ChunkRef → ℕ} {c : ChunkRef} {s : ℕ} :
    s ∈ slotsOf f c ↔ f c = s ∧ s ≠ u32Max := by
  rw [slotsOf]
  split_ifs with h
  · simp only [List.not_mem_nil, false_iff, not_and, not_not]
    rintro rfl
    exact h
  · rw [List.mem_singleton]
    constructor
    · rintro rfl
      exact ⟨rfl, h⟩
    · rintro ⟨rfl, -⟩
      rfl

lemma PoolInv.ownership {p : SlotPool} {f : ChunkRef → ℕ} {heap : ChunkHeap}
    (hp : PoolInv p f heap) : PoolOwnership p.slots f heap := by
  have hmem : ∀ s, s ∈ heap.owned (slotsOf f) ↔ ∃ h, Uses f heap h s := by
    intro s
    simp only [ArcHeap.mem_owned, mem_slotsOf, Uses]
  refine ⟨hp.holds.free_nodup, fun s hs => hp.holds.free_lt hs, fun h s hu => ?_, ?_, fun s => ?_⟩
  · exact hp.holds.disjoint ((hmem s).mpr ⟨h, hu⟩)
  · rintro h h' s ⟨c, hc, hpos, hs⟩ ⟨c', hc', hpos', hs'⟩
    exact ArcHeap.eq_of_owned hp.holds.held_nodup hc hpos (mem_slotsOf.mpr hs)
      hc' hpos' (mem_slotsOf.mpr hs')
  · rw [hp.holds.mem_or, hmem]

/-! ### Handles under the operations -/

namespace World

variable {w w' : World} {s : ℕ} {seq : SequenceState} {h : ChunkHandle} {src : Place} {dst : Dest}

/-- The handles of the world without those of one sequence. -/
lemma handles_set (hs : w.seqs[s]? = some seq) :
    ∃ rest, w.handles.Perm (seq.chunks ++ rest) ∧ ∀ tiers seq',
      (World.mk tiers (w.seqs.set s seq') w.loose).handles.Perm (seq'.chunks ++ rest) := by
  obtain ⟨rest, hold, hnew⟩ := flatMap_set_perm SequenceState.chunks hs
  refine ⟨rest ++ w.loose, ?_, fun tiers seq' => ?_⟩
  · rw [← List.append_assoc]
    exact hold.append_right w.loose
  · rw [← List.append_assoc]
    exact (hnew seq').append_right w.loose

lemma put_handles (hp : w.put h dst = some w') :
    w'.handles.Perm (h :: w.handles) ∧ w'.tiers = w.tiers := by
  cases dst with
  | loose =>
      obtain rfl : { w with loose := h :: w.loose } = w' := Option.some.inj hp
      exact ⟨List.perm_middle, rfl⟩
  | push s =>
      rw [put] at hp
      cases hs : w.seqs[s]? with
      | none => simp [hs] at hp
      | some seq =>
          obtain ⟨rest, hold, hnew⟩ := handles_set hs
          simp only [hs, Option.some.injEq] at hp
          subst hp
          refine ⟨(hnew _ _).trans (List.Perm.trans ?_ (hold.symm.cons h)), rfl⟩
          rw [List.append_assoc]
          exact List.perm_middle

/-- The handles of the world without the one at a place. -/
lemma assign_handles (hh : w.handle? src = some h) :
    ∃ rest, w.handles.Perm (h :: rest) ∧ ∀ (tiers : Tiers) h',
      ({ w with tiers }.assign h' src).handles.Perm (h' :: rest) ∧
        ({ w with tiers }.assign h' src).tiers = tiers := by
  cases src with
  | loose k =>
      obtain ⟨rest, hold, hnew⟩ := flatMap_set_perm (fun h : ChunkHandle => [h]) hh
      simp only [List.flatMap_singleton', List.singleton_append] at hold hnew
      refine ⟨w.seqs.flatMap SequenceState.chunks ++ rest, ?_, fun tiers h' => ⟨?_, rfl⟩⟩
      · exact (hold.append_left _).trans List.perm_middle
      · exact ((hnew h').append_left _).trans List.perm_middle
  | chunk s k =>
      rw [handle?] at hh
      cases hs : w.seqs[s]? with
      | none => simp [hs] at hh
      | some seq =>
          simp only [hs] at hh
          obtain ⟨others, hold, hnew⟩ := handles_set hs
          obtain ⟨rest, hold', hnew'⟩ := flatMap_set_perm (fun h : ChunkHandle => [h]) hh
          simp only [List.flatMap_singleton', List.singleton_append] at hold' hnew'
          refine ⟨rest ++ others, hold.trans (hold'.append_right _), fun tiers h' => ?_⟩
          simp only [assign, hs, and_true]
          exact (hnew tiers _).trans ((hnew' h').append_right _)

lemma mem_handles (hh : w.handle? src = some h) : h ∈ w.handles := by
  obtain ⟨rest, hperm, -⟩ := assign_handles hh
  exact hperm.mem_iff.mpr List.mem_cons_self

end World

/-! ### Runs -/

/-- The invariant of runs: every handle is counted, and both pools are accounted for. -/
def World.Inv (w : World) : Prop := MemInv w.tiers.mem w.handles

/-- The copies of `make_exclusive` that are issued succeed. -/
def CopySucceeds (w : World) : Op → Prop
  | .makeExclusive src _ memcpy | .assignExclusive src memcpy =>
      ∀ h, w.handle? src = some h → copyIssued w.tiers.heap h w.tiers.vram → memcpy = .ok ()
  | _ => True

lemma makeExclusive_ne_panic (heap : ChunkHeap) (h : ChunkHandle) (a : PageAllocator)
    (memcpy : HipStatus) (p : Panic) : (makeExclusive heap h a memcpy).1 ≠ .error (.panic p) := by
  rw [makeExclusive]
  split_ifs
  · simp
  · simp [Fault.outOfMemory]
  · cases a.alloc with
    | none => simp [Fault.outOfMemory]
    | some r => cases memcpy <;> dsimp only <;> split_ifs <;> simp

/-- The handle of `make_exclusive` is the old one, or the old one is shared. -/
lemma makeExclusive_ok {heap heap' : ChunkHeap} {h h' : ChunkHandle} {a a' : PageAllocator}
    {memcpy : HipStatus} (hpos : 0 < heap.strongCount h)
    (hok : makeExclusive heap h a memcpy = (.ok h', heap', a')) :
    h' = h ∨ 2 ≤ heap.strongCount h := by
  rw [makeExclusive] at hok
  by_cases hone : heap.strongCount h = 1
  · rw [if_pos hone] at hok
    left
    simpa using (congrArg Prod.fst hok).symm
  · right
    omega

namespace World

variable {w w' : World} {op : Op} {r : Except Fault Unit}

lemma initial_inv (vramBase vramBytes hostBase hostBytes : ℕ) (vramCap hostCap : UInt32)
    (chunkTokens : List ℕ) :
    (initial (.new vramBase vramBytes vramCap) (.new hostBase hostBytes hostCap)
      chunkTokens).Inv := by
  have hnone : (chunkTokens.map SequenceState.new).flatMap SequenceState.chunks = [] := by
    simp [List.flatMap_eq_nil_iff, SequenceState.new]
  rw [Inv, handles]
  simp only [initial, hnone, List.append_nil]
  have hnocell : ∀ h c, (ArcHeap.empty : ChunkHeap).get? h ≠ some c := by
    simp [ArcHeap.empty, ArcHeap.get?]
  refine ⟨⟨ArcHeap.Counts.empty, fun h c hc => absurd hc (hnocell h c), PoolInv.new _ _ _⟩,
    ⟨fun h c hc => absurd hc (hnocell h c), fun ha hha => ?_⟩⟩
  obtain rfl := Option.some.inj hha
  exact PoolInv.new _ _ _

lemma apply_appendToken (hw : w.Inv) {s : ℕ} {position : ℤ} {withHost : Bool}
    (happ : w.apply (.appendToken s position withHost) = some (r, w')) :
    (∀ p, r ≠ .error (.panic p)) ∧ w'.Inv := by
  simp only [apply] at happ
  cases hs : w.seqs[s]? with
  | none => simp [hs] at happ
  | some seq =>
      obtain ⟨rest, hold, hnew⟩ := handles_set hs
      set host := if withHost then some w.tiers.host else none with hhost
      have hm : VramInv w.tiers.heap w.tiers.vram (seq.chunks ++ rest) := hw.vram.perm hold
      have hsub : ∀ h ∈ seq.chunks, h ∈ seq.chunks ++ rest := fun h hh =>
        List.mem_append_left _ hh
      simp only [hs, Option.bind_eq_bind, Option.bind_some] at happ
      cases hr : SequenceState.appendToken ⟨w.tiers.heap, w.tiers.vram, host⟩ seq position with
      | error e =>
          simp only [hr, Option.some.injEq, Prod.mk.injEq] at happ
          obtain ⟨rfl, rfl⟩ := happ
          exact ⟨by simp [SequenceState.appendToken_error hr, Fault.outOfMemory], hw⟩
      | ok r' =>
          obtain ⟨m, seq'⟩ := r'
          simp only [hr, Option.some.injEq, Prod.mk.injEq] at happ
          obtain ⟨rfl, rfl⟩ := happ
          obtain ⟨opened, hchunks, hm'⟩ := SequenceState.appendToken_vramInv hm hsub hr
          obtain ⟨hsame, hsome, hframe⟩ := SequenceState.appendToken_hostInv hm hsub hr
          refine ⟨by simp, ?_⟩
          have hperm : (opened ++ (seq.chunks ++ rest)).Perm (seq'.chunks ++ rest) := by
            rw [hchunks, List.append_assoc]
            exact List.perm_append_comm_assoc _ _ _
          refine MemInv.perm ⟨hm', ?_⟩ (hperm.trans (hnew _ seq').symm)
          cases withHost with
          | true =>
              obtain ⟨host', hhost'⟩ := Option.isSome_iff_exists.mp (hsome.trans rfl)
              have hinv := hsame hw.host
              rw [hhost'] at hinv
              simpa [Tiers.mem, hhost'] using hinv
          | false =>
              have hnone : m.host = none := by simpa [hhost] using hsome
              simpa [Tiers.mem, hnone] using hframe rfl _ hw.host

/-- A handle that is counted already can be stored anywhere. -/
lemma put_inv {t : Tiers} {h : ChunkHandle} {dst : Dest}
    (hm : MemInv t.mem (h :: w.handles)) (hput : { w with tiers := t }.put h dst = some w') :
    w'.Inv := by
  obtain ⟨hperm, htiers⟩ := put_handles hput
  rw [Inv, htiers]
  exact hm.perm hperm.symm

lemma apply_clone (hw : w.Inv) {src : Place} {dst : Dest}
    (happ : w.apply (.clone src dst) = some (r, w')) :
    (∀ p, r ≠ .error (.panic p)) ∧ w'.Inv := by
  simp only [apply, Option.bind_eq_bind, Option.bind_eq_some_iff, Option.some.injEq,
    Prod.mk.injEq] at happ
  obtain ⟨h, hh, w₁, hput, rfl, rfl⟩ := happ
  have hmem := mem_handles hh
  have hm : MemInv (Tiers.mem ⟨w.tiers.heap.clone h, w.tiers.vram, w.tiers.host⟩)
      (h :: w.handles) := ⟨hw.vram.clone hmem, hw.host.clone (hw.vram.get hmem).2⟩
  exact ⟨by simp, put_inv hm hput⟩

/-- The two ways `make_exclusive` ends in a world. -/
lemma makeExclusive_cases (hw : w.Inv) {src : Place} {h : ChunkHandle}
    (hh : w.handle? src = some h) (memcpy : HipStatus) :
    (∃ e heap vram, makeExclusive w.tiers.heap h w.tiers.vram memcpy = (.error e, heap, vram) ∧
      (∀ p, e ≠ .panic p) ∧ ((copyIssued w.tiers.heap h w.tiers.vram → memcpy = .ok ()) →
        heap = w.tiers.heap ∧ vram = w.tiers.vram)) ∨
    ∃ h' heap vram, makeExclusive w.tiers.heap h w.tiers.vram memcpy = (.ok h', heap, vram) ∧
      ((copyIssued w.tiers.heap h w.tiers.vram → memcpy = .ok ()) →
        MemInv (Tiers.mem ⟨heap, vram, w.tiers.host⟩) (h' :: w.handles)) := by
  have hpanic := makeExclusive_ne_panic w.tiers.heap h w.tiers.vram memcpy
  have hinv := fun hcopy : copyIssued w.tiers.heap h w.tiers.vram → memcpy = .ok () =>
    makeExclusive_inv (m := w.tiers.mem) hw (mem_handles hh) hcopy
  simp only [Tiers.mem] at hinv
  rcases hx : makeExclusive w.tiers.heap h w.tiers.vram memcpy with ⟨e | h', heap, vram⟩
  · simp only [hx] at hpanic hinv
    refine Or.inl ⟨e, heap, vram, rfl, fun p hp => hpanic p (congrArg _ hp), fun hcopy => ?_⟩
    exact (hinv hcopy).2
  · simp only [hx] at hinv
    exact Or.inr ⟨h', heap, vram, rfl, hinv⟩

lemma apply_makeExclusive (hw : w.Inv) {src : Place} {dst : Dest} {memcpy : HipStatus}
    (happ : w.apply (.makeExclusive src dst memcpy) = some (r, w')) :
    (∀ p, r ≠ .error (.panic p)) ∧ (CopySucceeds w (.makeExclusive src dst memcpy) → w'.Inv) := by
  simp only [apply, Option.bind_eq_bind, Option.bind_eq_some_iff] at happ
  obtain ⟨h, hh, happ⟩ := happ
  rcases makeExclusive_cases hw hh memcpy with
    ⟨e, heap, vram, hx, hpanic, hsame⟩ | ⟨h', heap, vram, hx, hm⟩
  · simp only [hx, Option.some.injEq, Prod.mk.injEq] at happ
    obtain ⟨rfl, rfl⟩ := happ
    refine ⟨fun p hp => hpanic p (Except.error.inj hp), fun hcopy => ?_⟩
    obtain ⟨rfl, rfl⟩ := hsame (hcopy h hh)
    exact hw
  · simp only [hx, Option.bind_eq_some_iff, Option.some.injEq, Prod.mk.injEq] at happ
    obtain ⟨w₁, hput, rfl, rfl⟩ := happ
    exact ⟨by simp, fun hcopy => put_inv (hm (hcopy h hh)) hput⟩

lemma apply_assignExclusive (hw : w.Inv) {src : Place} {memcpy : HipStatus}
    (happ : w.apply (.assignExclusive src memcpy) = some (r, w')) :
    (∀ p, r ≠ .error (.panic p)) ∧ (CopySucceeds w (.assignExclusive src memcpy) → w'.Inv) := by
  simp only [apply, Option.bind_eq_bind, Option.bind_eq_some_iff] at happ
  obtain ⟨h, hh, happ⟩ := happ
  rcases makeExclusive_cases hw hh memcpy with
    ⟨e, heap, vram, hx, hpanic, hsame⟩ | ⟨h', heap, vram, hx, hm⟩
  · simp only [hx, Option.some.injEq, Prod.mk.injEq] at happ
    obtain ⟨rfl, rfl⟩ := happ
    refine ⟨fun p hp => hpanic p (Except.error.inj hp), fun hcopy => ?_⟩
    obtain ⟨rfl, rfl⟩ := hsame (hcopy h hh)
    exact hw
  · simp only [hx, Option.some.injEq, Prod.mk.injEq] at happ
    obtain ⟨rfl, rfl⟩ := happ
    refine ⟨by simp, fun hcopy => ?_⟩
    obtain ⟨rest, hold, hnew⟩ := assign_handles hh
    obtain ⟨hperm, htiers⟩ := hnew ⟨heap.drop h, vram, w.tiers.host⟩ h'
    rw [Inv, htiers]
    -- the old handle survives the drop elsewhere: it is the new one, or it was shared
    have hmem : h ∈ h' :: rest := by
      rcases makeExclusive_ok (hw.vram.get (mem_handles hh)).2 hx with rfl | hshared
      · exact List.mem_cons_self
      · have hcount : 2 ≤ (h :: rest).count h := by
          rw [← hold.count_eq, ← hw.vram.counts.count]
          exact hshared
        rw [List.count_cons_self] at hcount
        exact List.mem_cons_of_mem _ (List.count_pos_iff.mp (by omega))
    have hm' := (hm (hcopy h hh)).perm ((hold.cons h').trans (List.Perm.swap h h' rest))
    exact (hm'.drop_shared hmem).perm hperm.symm

lemma apply_reset (hw : w.Inv) {s : ℕ} (happ : w.apply (.reset s) = some (r, w')) :
    (∀ p, r ≠ .error (.panic p)) ∧ w'.Inv := by
  simp only [apply, Option.bind_eq_bind, Option.bind_eq_some_iff] at happ
  obtain ⟨seq, hs, happ⟩ := happ
  obtain ⟨rest, hold, hnew⟩ := handles_set hs
  obtain ⟨m, hreset, hm, hsome⟩ := SequenceState.resetChunks_inv (hw.perm hold)
  simp only [SequenceState.reset, hreset, Option.some.injEq, Prod.mk.injEq] at happ
  obtain ⟨rfl, rfl⟩ := happ
  refine ⟨by simp, MemInv.perm ?_ (hnew _ _).symm⟩
  obtain ⟨host, hhost⟩ := Option.isSome_iff_exists.mp (hsome.trans rfl)
  have hinv := hm.host
  rw [hhost] at hinv
  exact ⟨hm.vram, by simpa [Tiers.mem, hhost] using hinv⟩

/-- **The step lemma**: no operation fails an assertion of `free`, and one whose
`make_exclusive` copy does not fail keeps the invariant. -/
theorem apply_inv (hw : w.Inv) (happ : w.apply op = some (r, w')) :
    (∀ p, r = .error (.panic p) → ¬ p.InFree) ∧ (CopySucceeds w op → w'.Inv) := by
  cases op with
  | appendToken s position withHost =>
      obtain ⟨hpanic, hinv⟩ := apply_appendToken hw happ
      exact ⟨fun p hp => absurd hp (hpanic p), fun _ => hinv⟩
  | clone src dst =>
      obtain ⟨hpanic, hinv⟩ := apply_clone hw happ
      exact ⟨fun p hp => absurd hp (hpanic p), fun _ => hinv⟩
  | makeExclusive src dst memcpy =>
      obtain ⟨hpanic, hinv⟩ := apply_makeExclusive hw happ
      exact ⟨fun p hp => absurd hp (hpanic p), hinv⟩
  | assignExclusive src memcpy =>
      obtain ⟨hpanic, hinv⟩ := apply_assignExclusive hw happ
      exact ⟨fun p hp => absurd hp (hpanic p), hinv⟩
  | allocWithHostBacking dst =>
      have hinv := allocWithHostBacking_inv hw
      simp only [apply] at happ
      rcases hx : allocWithHostBacking w.tiers with ⟨e | h, tiers⟩
      · simp only [hx, Option.some.injEq, Prod.mk.injEq] at happ hinv
        obtain ⟨rfl, rfl⟩ := happ
        obtain ⟨rfl, rfl⟩ := hinv
        exact ⟨by simp [Fault.outOfMemory], fun _ => hw⟩
      · simp only [hx, Option.bind_eq_bind, Option.bind_eq_some_iff, Option.some.injEq,
          Prod.mk.injEq] at happ hinv
        obtain ⟨w₁, hput, rfl, rfl⟩ := happ
        exact ⟨by simp, fun _ => put_inv hinv hput⟩
  | promoteChunk src memcpy =>
      simp only [apply, Option.bind_eq_bind, Option.bind_eq_some_iff, Option.some.injEq,
        Prod.mk.injEq] at happ
      obtain ⟨h, hh, rfl, rfl⟩ := happ
      obtain ⟨hinv, hpanic⟩ := promoteChunk_inv hw (mem_handles hh) memcpy
      exact ⟨hpanic, fun _ => hinv⟩
  | evictChunkAndFree src memcpy sync =>
      simp only [apply, Option.bind_eq_bind, Option.bind_eq_some_iff, Option.some.injEq,
        Prod.mk.injEq] at happ
      obtain ⟨h, hh, rfl, rfl⟩ := happ
      obtain ⟨hinv, hpanic⟩ := evictChunkAndFree_inv hw (mem_handles hh) memcpy sync
      exact ⟨hpanic, fun _ => hinv⟩
  | reset s =>
      obtain ⟨hpanic, hinv⟩ := apply_reset hw happ
      exact ⟨fun p hp => absurd hp (hpanic p), fun _ => hinv⟩

lemma Inv.ownership (hw : w.Inv) : SlotOwnership w :=
  ⟨hw.vram.vram.ownership, (hw.host.host _ rfl).ownership⟩

end World

/-- What slot ownership promises of a run: the pools are partitioned in the state it
reaches, and no operation tried next fails an assertion of `free`. -/
def OwnershipKept (w : World) : Prop :=
  SlotOwnership w ∧ ∀ op r w', w.apply op = some (r, w') →
    ∀ p, r = .error (.panic p) → ¬ p.InFree

/-- **Slot ownership along runs.**  From two full pools and any number of empty sequences,
every run in which the copies issued by `make_exclusive` succeed keeps both pools
partitioned into free slots and slots of live chunks, and no assertion of `free` fails. -/
theorem slotOwnership_of_run (vramBase vramBytes hostBase hostBytes : ℕ)
    (vramCap hostCap : UInt32) (chunkTokens : List ℕ) (ops : List Op) (w : World)
    (hrun : Run (guarded CopySucceeds World.Step)
      (.initial (.new vramBase vramBytes vramCap) (.new hostBase hostBytes hostCap) chunkTokens)
      ops w) :
    OwnershipKept w := by
  have hw : w.Inv := by
    refine hrun.invariant (fun w op w' hw hstep => ?_)
      (World.initial_inv vramBase vramBytes hostBase hostBytes vramCap hostCap chunkTokens)
    obtain ⟨hcopy, r, happ, -⟩ := hstep
    exact (World.apply_inv hw happ).2 hcopy
  exact ⟨hw.ownership, fun op r w' happ => (World.apply_inv hw happ).1⟩

/-- A run that opens a chunk, shares it with a handle outside of the sequence, makes that
handle exclusive with a copy that succeeds, and resets the sequence. -/
theorem slotOwnership_of_run_shared :
    ∃ ops w, ops.length = 4 ∧
      Run (guarded CopySucceeds World.Step) (.initial (.new 0 4 2) (.new 64 4 1) [64]) ops w ∧
      OwnershipKept w := by
  have hrun : Run (guarded CopySucceeds World.Step)
      (.initial (.new 0 4 2) (.new 64 4 1) [64])
      ([] ++ [.appendToken 0 0 false] ++ [.clone (.chunk 0 0) .loose] ++
        [.assignExclusive (.loose 0) (.ok ())] ++ [.reset 0]) _ :=
    (((Run.nil.snoc ⟨trivial, _, rfl, by simp⟩).snoc ⟨trivial, _, rfl, by simp⟩).snoc
      ⟨fun _ _ _ => rfl, _, rfl, by simp⟩).snoc ⟨trivial, _, rfl, by simp⟩
  exact ⟨_, _, rfl, hrun, slotOwnership_of_run 0 4 64 4 2 1 [64] _ _ hrun⟩

/-- A `make_exclusive` whose copy fails keeps the slot it allocated without a chunk that
holds it, so slot ownership does not survive every run. -/
theorem slotOwnership_lost_by_failed_copy :
    ¬ ∀ (vramBase vramBytes hostBase hostBytes : ℕ) (vramCap hostCap : UInt32)
      (chunkTokens : List ℕ) (ops : List Op) (w : World),
      Run World.Step (.initial (.new vramBase vramBytes vramCap)
        (.new hostBase hostBytes hostCap) chunkTokens) ops w → OwnershipKept w := by
  intro hall
  have hrun : Run World.Step (.initial (.new 0 4 2) (.new 64 4 1) [64])
      ([] ++ [.appendToken 0 0 false] ++ [.clone (.chunk 0 0) .loose] ++
        [.makeExclusive (.loose 0) .loose (.error 1)]) _ :=
    ((Run.nil.snoc ⟨_, rfl, by simp⟩).snoc ⟨_, rfl, by simp⟩).snoc ⟨_, rfl, by simp⟩
  have hwhole := (hall 0 4 64 4 2 1 [64] _ _ hrun).1.vram.whole 1
  rcases hwhole.mp (by decide) with hfree | ⟨h, c, hget, -, hslot, -⟩
  · exact absurd hfree (by decide)
  · -- the only chunk holds slot 0
    match h with
    | 0 =>
        obtain rfl := Option.some.inj hget
        exact absurd hslot (by decide)
    | h + 1 => exact absurd hget (by simp [ArcHeap.get?, ArcHeap.clone, ArcHeap.update,
        ArcHeap.empty, World.initial])

end Braidinfer.PagedKv
