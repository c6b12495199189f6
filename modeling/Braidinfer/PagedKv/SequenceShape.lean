/-
The shape of a sequence over every run of `append_token` and `reset` (`paged_kv.rs`,
`SequenceState`).

Here the operations are written as the code runs them: write by write, on `u32` counters, an
error leaving in place what was written before it.  The pools are those of the whole engine,
so between two operations they may be in any state.

* `appendTokenW`, `resetW`: the operations; `exec_appendTokenW_eq`: while no counter wraps
  around, `append_token` is the one of `Sequence`;
* `WellShaped`: the chunks are the pieces that the tokens fill;
* `wellShaped_of_run`: it holds after every run, and a failed `append_token` changes nothing;
* `seqLen_wraps`: at `2 ^ 32` tokens `seq_len` is `0`.
-/
import Braidinfer.Lib.Packing
import Braidinfer.Lib.Run
import Braidinfer.PagedKv.View

namespace Braidinfer.PagedKv

open Braidinfer.Lib

namespace SequenceState

/-- `x += 1` on a `u32` in a build without overflow checks, and `fetch_add(1)` on an
`AtomicU32`. -/
def wrappingSucc (x : ℕ) : ℕ := (x + 1) % 2 ^ 32

/-- `increment_len`, on the `AtomicU32` that it is. -/
def incrementLenW (c : ChunkRef) : ChunkRef := { c with len := wrappingSucc c.len }

/-- What the operations of a sequence work on. -/
abbrev SeqMem := KvMem × SequenceState

/-- An operation that may return an error; the writes made before it stay. -/
abbrev SeqM := ExceptT Fault (StateM SeqMem)

/-- `allocator.alloc()`: `free_list.pop()?`. -/
def vramAlloc : SeqM (Option ℕ) := do
  let (m, s) ← get
  match m.vram.alloc with
  | none => return none
  | some (slot, _ptr, vram) =>
      set (({ m with vram }, s) : SeqMem)
      return some slot

/-- `host_alloc.ok_or(..)?` and then `ha.alloc().ok_or(..)?`. -/
def hostAlloc : SeqM ℕ := do
  let (m, s) ← get
  match m.host with
  | none => throw .outOfMemory
  | some ha =>
      match ha.alloc with
      | none => throw .outOfMemory
      | some (hostSlot, _hostPtr, ha) =>
          set (({ m with host := some ha }, s) : SeqMem)
          return hostSlot

/-- `Arc::new`. -/
def newHandle (c : ChunkRef) : SeqM ChunkHandle := do
  let (m, s) ← get
  set (({ m with heap := (m.heap.new c).2 }, s) : SeqMem)
  return (m.heap.new c).1

/-- The handle of the chunk that `append_token` opens. -/
def openHandle : SeqM ChunkHandle := do
  match ← vramAlloc with
  | some slot => newHandle (.ofVram slot)
  | none =>
      let hostSlot ← hostAlloc
      newHandle (.ofHost hostSlot)

/-- `chunks.push(handle)` and `kv_version += 1`. -/
def pushChunk (handle : ChunkHandle) : SeqM Unit :=
  modify fun (m, s) =>
    (m, { s with chunks := s.chunks ++ [handle], kvVersion := wrappingSucc s.kvVersion })

/-- `chunks.last().unwrap().increment_len()`. -/
def countToken : SeqM Unit :=
  modify fun (m, s) =>
    match s.chunks.getLast? with
    | none => (m, s)
    | some last => ({ m with heap := m.heap.update last incrementLenW }, s)

/-- `seq_len += 1` and `positions.push(position)`. -/
def pushPosition (position : ℤ) : SeqM Unit :=
  modify fun (m, s) =>
    (m, { s with seqLen := wrappingSucc s.seqLen, positions := s.positions ++ [position] })

/-- `append_token`, write by write. -/
def appendTokenW (position : ℤ) : SeqM Unit := do
  let (m, s) ← get
  if s.needsNewChunk m.heap then
    let handle ← openHandle
    pushChunk handle
  countToken
  pushPosition position

/-- What an operation returns and what it leaves. -/
def exec {α : Type} (x : SeqM α) (σ : SeqMem) : Except Fault α × SeqMem := x.run σ

/-- `reset`, whose only counter is `kv_version`. -/
def resetW (σ : SeqMem) : Except Panic SeqMem :=
  (reset σ.1 σ.2).map fun (m, s) => (m, { s with kvVersion := wrappingSucc σ.2.kvVersion })

/-! ### One append -/

/-- The token's bookkeeping on `u32` counters. -/
def pushedW (s : SequenceState) (position : ℤ) : SequenceState :=
  { s with seqLen := wrappingSucc s.seqLen, positions := s.positions ++ [position] }

/-- The chunk's bookkeeping on `u32` counters. -/
def openedW (s : SequenceState) (h : ChunkHandle) : SequenceState :=
  { s with chunks := s.chunks ++ [h], kvVersion := wrappingSucc s.kvVersion }

/-- The heap after `increment_len` on the last chunk. -/
def countedHeapW (heap : ChunkHeap) (s : SequenceState) : ChunkHeap :=
  match s.chunks.getLast? with
  | none => heap
  | some last => heap.update last incrementLenW

section Exec

variable {α β : Type} (σ σ' : SeqMem)

lemma exec_bind (x : SeqM α) (f : α → SeqM β) :
    exec (x >>= f) σ =
      match exec x σ with
      | (.ok a, σ') => exec (f a) σ'
      | (.error e, σ') => (.error e, σ') := by
  simp only [exec, ExceptT.run, bind, ExceptT.bind, ExceptT.mk, StateT.bind, ExceptT.bindCont]
  rcases x σ with ⟨_ | a, σ'⟩ <;> rfl

lemma exec_get : exec get σ = (.ok σ, σ) := rfl

lemma exec_modify (f : SeqMem → SeqMem) : exec (modify f) σ = (.ok (), f σ) := rfl

end Exec

variable {m : KvMem} {s : SequenceState} {position : ℤ}

lemma exec_countToken :
    exec countToken (m, s) = (.ok (), ({ m with heap := countedHeapW m.heap s }, s)) := by
  rw [countToken, exec_modify]
  cases hlast : s.chunks.getLast? <;> simp [countedHeapW, hlast]

lemma exec_vramAlloc :
    exec vramAlloc (m, s) =
      match m.vram.alloc with
      | none => (.ok none, (m, s))
      | some (slot, _, vram) => (.ok (some slot), ({ m with vram }, s)) := by
  rw [vramAlloc, exec_bind, exec_get]
  cases hvram : m.vram.alloc <;> simp only [hvram] <;> rfl

lemma exec_hostAlloc :
    exec hostAlloc (m, s) =
      match m.host with
      | none => (.error .outOfMemory, (m, s))
      | some ha =>
          match ha.alloc with
          | none => (.error .outOfMemory, (m, s))
          | some (hostSlot, _, ha) => (.ok hostSlot, ({ m with host := some ha }, s)) := by
  rw [hostAlloc, exec_bind, exec_get]
  cases hhost : m.host with
  | none =>
      simp only [hhost]
      rfl
  | some ha => cases halloc : ha.alloc <;> simp only [hhost, halloc] <;> rfl

/-- The choice of the new chunk: its failure changes nothing. -/
lemma exec_openHandle :
    exec openHandle (m, s) =
      match openChunk m with
      | .error e => (.error e, (m, s))
      | .ok (handle, m) => (.ok handle, (m, s)) := by
  rw [openHandle, exec_bind, exec_vramAlloc, openChunk]
  cases hvram : m.vram.alloc with
  | some r => rfl
  | none =>
      simp only [exec_bind, exec_hostAlloc]
      cases hhost : m.host with
      | none => rfl
      | some ha =>
          cases halloc : ha.alloc with
          | none => simp only [halloc]
          | some r =>
              simp only [halloc]
              rfl

lemma exec_pushChunk (handle : ChunkHandle) :
    exec (pushChunk handle) (m, s) = (.ok (), (m, s.openedW handle)) := rfl

lemma exec_pushPosition :
    exec (pushPosition position) (m, s) = (.ok (), (m, s.pushedW position)) := rfl

/-- **`append_token` with its writes put together.** -/
theorem exec_appendTokenW :
    exec (appendTokenW position) (m, s) =
      if s.needsNewChunk m.heap then
        match openChunk m with
        | .error e => (.error e, (m, s))
        | .ok (handle, m) =>
            (.ok (), ({ m with heap := countedHeapW m.heap (s.openedW handle) },
              (s.openedW handle).pushedW position))
      else (.ok (), ({ m with heap := countedHeapW m.heap s }, s.pushedW position)) := by
  rw [appendTokenW, exec_bind, exec_get]
  cases hneed : s.needsNewChunk m.heap with
  | true =>
      simp only [hneed, if_true, exec_bind, exec_openHandle]
      cases openChunk m with
      | error e => rfl
      | ok r => simp only [exec_pushChunk, exec_countToken, exec_pushPosition]
  | false =>
      simp only [hneed, Bool.false_eq_true, if_false, exec_bind, exec_countToken,
        exec_pushPosition]

/-- A new chunk is empty and has a cell of its own. -/
lemma openChunk_cases {handle : ChunkHandle} {m' : KvMem}
    (hopen : openChunk m = .ok (handle, m')) :
    handle = m.heap.cells.length ∧ ∃ c : ChunkRef, c.len = 0 ∧ m'.heap = (m.heap.new c).2 := by
  rw [openChunk] at hopen
  cases hvram : m.vram.alloc with
  | some r =>
      simp only [hvram, Except.ok.injEq, Prod.mk.injEq] at hopen
      obtain ⟨rfl, rfl⟩ := hopen
      exact ⟨rfl, _, rfl, rfl⟩
  | none =>
      cases hhost : m.host with
      | none => simp [hvram, hhost] at hopen
      | some ha =>
          cases halloc : ha.alloc with
          | none => simp [hvram, hhost, halloc] at hopen
          | some r =>
              simp only [hvram, hhost, halloc, Except.ok.injEq, Prod.mk.injEq] at hopen
              obtain ⟨rfl, rfl⟩ := hopen
              exact ⟨rfl, _, rfl, rfl⟩

/-! ### The shape -/

/-- The lengths of the chunks of a sequence. -/
def lens (heap : ChunkHeap) (s : SequenceState) : List ℕ :=
  s.chunks.map fun h => (chunk heap h).len

/-- **The shape of a sequence** of `chunkTokens` tokens to a chunk. -/
structure WellShaped (chunkTokens : ℕ) (heap : ChunkHeap) (s : SequenceState) : Prop where
  tokens : s.chunkTokens = chunkTokens
  full : ∀ i h, s.chunks[i]? = some h → i + 1 < s.chunks.length →
    (chunk heap h).len = chunkTokens
  last : ∀ h, s.chunks.getLast? = some h →
    1 ≤ (chunk heap h).len ∧ (chunk heap h).len ≤ chunkTokens
  sum : (lens heap s).sum = s.positions.length
  seqLen : s.seqLen = s.positions.length % 2 ^ 32
  count : s.chunks.length = s.positions.length ⌈/⌉ chunkTokens
  place : ∀ i < s.positions.length,
    (places (lens heap s))[i]? = some (i / chunkTokens, i % chunkTokens) ∧
      ∃ h, s.chunks[i / chunkTokens]? = some h ∧ i % chunkTokens < (chunk heap h).len

/-- The invariant: the lengths are the pieces that the tokens fill, and the chunks are
different cells of the heap. -/
structure Packed (chunkTokens : ℕ) (heap : ChunkHeap) (s : SequenceState) : Prop where
  tokens : s.chunkTokens = chunkTokens
  seqLen : s.seqLen = s.positions.length % 2 ^ 32
  nodup : s.chunks.Nodup
  lt : ∀ h ∈ s.chunks, h < heap.cells.length
  lens : lens heap s = pieces chunkTokens s.positions.length

variable {heap : ChunkHeap} {ct : ℕ}

namespace Packed

lemma new : Packed ct heap (.new ct) := by
  refine ⟨rfl, rfl, List.nodup_nil, fun h hh => absurd hh List.not_mem_nil, ?_⟩
  simp [SequenceState.lens, SequenceState.new]

lemma wellShaped (hp : Packed ct heap s) (hct : 0 < ct) : WellShaped ct heap s := by
  have hlen : s.chunks.length = (pieces ct s.positions.length).length := by
    rw [← hp.lens, SequenceState.lens, List.length_map]
  have hget : ∀ (i : ℕ) (h : ChunkHandle), s.chunks[i]? = some h →
      (pieces ct s.positions.length)[i]? = some (chunk heap h).len := by
    intro i h hi
    rw [← hp.lens, SequenceState.lens, List.getElem?_map, hi]
    rfl
  refine ⟨hp.tokens, fun i h hi hlt => ?_, fun h hh => ?_, ?_, hp.seqLen, ?_, fun i hi => ?_⟩
  · have hfull := getElem?_pieces_of_lt (hlen ▸ hlt)
    rw [hget i h hi] at hfull
    exact Option.some.inj hfull
  · refine mem_pieces hct (n := s.positions.length) ?_
    rw [← hp.lens]
    exact List.mem_map.mpr ⟨h, List.mem_of_getLast? hh, rfl⟩
  · rw [hp.lens, sum_pieces]
  · rw [hlen, length_pieces hct]
  · have hplace : (places (SequenceState.lens heap s))[i]? = some (i / ct, i % ct) := by
      rw [hp.lens, places_pieces, List.getElem?_map, List.getElem?_range hi]
      rfl
    obtain ⟨size, -, hsize, hlt⟩ := exists_of_mem_placesFrom (List.mem_of_getElem? hplace)
    rw [Nat.sub_zero, SequenceState.lens, List.getElem?_map, Option.map_eq_some_iff] at hsize
    obtain ⟨h, hh, rfl⟩ := hsize
    exact ⟨hplace, h, hh, hlt⟩

/-- A new chunk is needed exactly where the pieces are full. -/
lemma needsNewChunk_iff (hp : Packed ct heap s) (hct : 0 < ct) :
    s.needsNewChunk heap = true ↔ ct ∣ s.positions.length := by
  have hgetLast : (s.chunks.getLast?).map (fun h => (chunk heap h).len) =
      (pieces ct s.positions.length).getLast? := by
    rw [← hp.lens, SequenceState.lens, List.getLast?_map]
  rcases Nat.eq_zero_or_pos s.positions.length with hzero | hpos
  · rw [hzero, pieces_zero, List.getLast?_nil, Option.map_eq_none_iff] at hgetLast
    simp [needsNewChunk, hgetLast, hzero]
  · rw [getLast?_pieces hct hpos, Option.map_eq_some_iff] at hgetLast
    obtain ⟨last, hlast, hlen⟩ := hgetLast
    rw [needsNewChunk, hlast, decide_eq_true_iff, hp.tokens, hlen]
    have hlt := Nat.mod_lt s.positions.length hct
    split_ifs with hdvd
    · simp [hdvd]
    · simp [hdvd, hlt]

/-- `wrappingSucc` of the length counts the next position. -/
lemma seqLen_pushed (hp : Packed ct heap s) :
    wrappingSucc s.seqLen = (s.positions ++ [position]).length % 2 ^ 32 := by
  rw [wrappingSucc, hp.seqLen, List.length_append, List.length_singleton, Nat.mod_add_mod]

end Packed

/-- Counting a token in the last of different chunks. -/
lemma lens_update_last {init : List ChunkHandle} {last : ChunkHandle} {g : ChunkRef → ChunkRef}
    (hnd : (init ++ [last]).Nodup) (hlt : last < heap.cells.length) :
    (init ++ [last]).map (fun h => (chunk (heap.update last g) h).len) =
      init.map (fun h => (chunk heap h).len) ++ [(g (chunk heap last)).len] := by
  have hget : heap.get? last = some (heap.cells.get ⟨last, hlt⟩).val := by
    simp [ArcHeap.get?, List.getElem?_eq_getElem hlt]
  rw [List.map_append, List.map_singleton]
  congr 1
  · refine List.map_congr_left fun h hh => ?_
    have hne : last ≠ h := by
      rintro rfl
      exact (List.nodup_append.mp hnd).2.2 last hh last (List.mem_singleton_self last) rfl
    rw [chunk, chunk, ArcHeap.get?_update, if_neg hne]
  · simp [chunk, ArcHeap.get?_update, hget]

namespace Packed

/-- A token counted in a last chunk that has room. -/
lemma counted (hp : Packed ct heap s) (hct : 0 < ct) (hmax : ct < 2 ^ 32)
    (hdvd : ¬ ct ∣ s.positions.length) :
    Packed ct (countedHeapW heap s) (s.pushedW position) := by
  have hpieces := pieces_of_not_dvd hdvd
  have hne : s.chunks ≠ [] := by
    intro hnil
    have hlens := hp.lens
    rw [SequenceState.lens, hnil, List.map_nil, hpieces] at hlens
    exact List.append_ne_nil_of_right_ne_nil _ (List.cons_ne_nil _ _) hlens.symm
  obtain ⟨init, last, hchunks⟩ : ∃ init last, s.chunks = init ++ [last] :=
    ⟨_, _, (List.dropLast_append_getLast hne).symm⟩
  have hheap : countedHeapW heap s = heap.update last incrementLenW := by
    simp [countedHeapW, hchunks]
  have hlt : last < heap.cells.length := hp.lt last (by simp [hchunks])
  have hlens := hp.lens
  rw [SequenceState.lens, hchunks, List.map_append, List.map_singleton, hpieces] at hlens
  obtain ⟨hinit, hlast⟩ := List.append_inj' hlens rfl
  refine ⟨hp.tokens, hp.seqLen_pushed, hp.nodup, fun h hh => ?_, ?_⟩
  · rw [hheap, ArcHeap.length_update]
    exact hp.lt h hh
  · have hroom := Nat.mod_lt s.positions.length hct
    have hlen : (incrementLenW (chunk heap last)).len = s.positions.length % ct + 1 := by
      rw [incrementLenW, wrappingSucc, List.singleton_injective hlast, Nat.mod_eq_of_lt (by omega)]
    calc SequenceState.lens (countedHeapW heap s) (s.pushedW position)
        = (init ++ [last]).map (fun h => (chunk (heap.update last incrementLenW) h).len) := by
          rw [hheap, ← hchunks]
          rfl
      _ = List.replicate (s.positions.length / ct) ct ++ [s.positions.length % ct + 1] := by
          rw [lens_update_last (hchunks ▸ hp.nodup) hlt, hinit, hlen]
      _ = pieces ct (s.pushedW position).positions.length := by
          rw [← pieces_succ_of_not_dvd hdvd, pushedW, List.length_append, List.length_singleton]

/-- A token counted in a chunk just opened. -/
lemma openedCounted (hp : Packed ct heap s) (position : ℤ) (hdvd : ct ∣ s.positions.length)
    {c : ChunkRef} (hc : c.len = 0) :
    Packed ct (countedHeapW (heap.new c).2 (s.openedW heap.cells.length))
      ((s.openedW heap.cells.length).pushedW position) := by
  have hfresh : heap.cells.length ∉ s.chunks := fun hmem => Nat.lt_irrefl _ (hp.lt _ hmem)
  have hnd : (s.chunks ++ [heap.cells.length]).Nodup :=
    List.nodup_append.mpr ⟨hp.nodup, List.nodup_singleton _, fun a ha b hb => by
      rintro rfl
      exact hfresh (List.mem_singleton.mp hb ▸ ha)⟩
  have hheap : countedHeapW (heap.new c).2 (s.openedW heap.cells.length) =
      (heap.new c).2.update heap.cells.length incrementLenW := by
    simp [countedHeapW, openedW]
  have hlt : heap.cells.length < (heap.new c).2.cells.length := by
    rw [ArcHeap.length_new]
    exact Nat.lt_succ_self _
  refine ⟨hp.tokens, hp.seqLen_pushed, hnd, fun h hh => ?_, ?_⟩
  · rw [hheap, ArcHeap.length_update, ArcHeap.length_new]
    rcases List.mem_append.mp hh with hmem | hmem
    · exact Nat.lt_succ_of_lt (hp.lt h hmem)
    · rw [List.mem_singleton.mp hmem]
      exact Nat.lt_succ_self _
  · have hold : s.chunks.map (fun h => (chunk (heap.new c).2 h).len) =
        pieces ct s.positions.length := by
      rw [← hp.lens, SequenceState.lens]
      exact List.map_congr_left fun h hh => by rw [chunk_new_of_lt (hp.lt h hh)]
    calc SequenceState.lens (countedHeapW (heap.new c).2 (s.openedW heap.cells.length))
          ((s.openedW heap.cells.length).pushedW position)
        = (s.chunks ++ [heap.cells.length]).map (fun h =>
            (chunk ((heap.new c).2.update heap.cells.length incrementLenW) h).len) := by
          rw [hheap]
          rfl
      _ = pieces ct s.positions.length ++ [1] := by
          rw [lens_update_last hnd hlt, hold, chunk_new, incrementLenW, hc]
          rfl
      _ = pieces ct ((s.openedW heap.cells.length).pushedW position).positions.length := by
          rw [← pieces_succ_of_dvd hdvd, pushedW, List.length_append, List.length_singleton]
          rfl

end Packed

/-! ### Runs -/

/-- What happens to a sequence: its operations, and whatever the other users of the pools and
of its chunks do in between. -/
inductive SeqOp
  | append (position : ℤ)
  | reset
  | others

/-- One step.  The others may leave the pools and the heap in any state in which the chunks
of the sequence have the length they had. -/
inductive SeqStep : SeqMem → SeqOp → SeqMem → Prop
  | append (σ : SeqMem) (position : ℤ) :
      SeqStep σ (.append position) (exec (appendTokenW position) σ).2
  | reset {σ σ' : SeqMem} (h : resetW σ = .ok σ') : SeqStep σ .reset σ'
  | others {m m' : KvMem} {s : SequenceState}
      (hsame : ∀ h ∈ s.chunks, h < m'.heap.cells.length ∧
        (chunk m'.heap h).len = (chunk m.heap h).len) : SeqStep (m, s) .others (m', s)

/-- An error of `append_token` comes before its first write. -/
lemma exec_appendTokenW_error {e : Fault} {σ σ' : SeqMem}
    (hexec : exec (appendTokenW position) σ = (.error e, σ')) : σ' = σ := by
  obtain ⟨m, s⟩ := σ
  rw [exec_appendTokenW] at hexec
  by_cases hneed : s.needsNewChunk m.heap
  · rw [if_pos hneed] at hexec
    cases hopen : openChunk m with
    | error e' =>
        rw [hopen] at hexec
        exact (Prod.mk.inj hexec).2.symm
    | ok r =>
        rw [hopen] at hexec
        cases (Prod.mk.inj hexec).1
  · rw [if_neg hneed] at hexec
    cases (Prod.mk.inj hexec).1

/-- `append_token`, failing or not, keeps the invariant. -/
lemma Packed.append (hp : Packed ct m.heap s) (hct : 0 < ct) (hmax : ct < 2 ^ 32) :
    Packed ct (exec (appendTokenW position) (m, s)).2.1.heap
      (exec (appendTokenW position) (m, s)).2.2 := by
  rw [exec_appendTokenW]
  by_cases hneed : s.needsNewChunk m.heap
  · rw [if_pos hneed]
    cases hopen : openChunk m with
    | error e => exact hp
    | ok r =>
        obtain ⟨handle, m'⟩ := r
        obtain ⟨rfl, c, hc, hheap⟩ := openChunk_cases hopen
        have hpacked := hp.openedCounted position
          ((hp.needsNewChunk_iff hct).mp hneed) hc
        rw [← hheap] at hpacked
        exact hpacked
  · rw [if_neg hneed]
    exact hp.counted hct hmax fun hdvd => hneed ((hp.needsNewChunk_iff hct).mpr hdvd)

/-- `reset` leaves an empty sequence. -/
lemma Packed.reset {σ σ' : SeqMem} (hp : Packed ct σ.1.heap σ.2) (hreset : resetW σ = .ok σ') :
    Packed ct σ'.1.heap σ'.2 := by
  rw [resetW, SequenceState.reset] at hreset
  cases hchunks : resetChunks σ.1 σ.2.chunks with
  | error p =>
      rw [hchunks] at hreset
      cases hreset
  | ok m =>
      rw [hchunks] at hreset
      obtain rfl := Except.ok.inj hreset
      refine ⟨hp.tokens, rfl, List.nodup_nil, fun h hh => absurd hh List.not_mem_nil, ?_⟩
      simp [SequenceState.lens]

/-- No length wraps around. -/
lemma Packed.countedHeapW_eq (hp : Packed ct heap s) (hct : 0 < ct) (hmax : ct < 2 ^ 32)
    (hneed : ¬ s.needsNewChunk heap = true) : countedHeapW heap s = countedHeap heap s := by
  rw [countedHeapW, countedHeap]
  cases hlast : s.chunks.getLast? with
  | none => rfl
  | some last =>
      have hroom : (chunk heap last).len < ct := by
        rw [needsNewChunk, hlast, decide_eq_true_iff, hp.tokens] at hneed
        omega
      refine ArcHeap.update_congr fun c hc => ?_
      rw [chunk, hc, Option.getD_some] at hroom
      rw [incrementLenW, wrappingSucc, Nat.mod_eq_of_lt (by omega), ChunkRef.incrementLen]

/-- **While no counter wraps around**, `append_token` is the operation of `Sequence`. -/
theorem exec_appendTokenW_eq (hp : Packed ct m.heap s) (hct : 0 < ct) (hmax : ct < 2 ^ 32)
    (hseq : s.seqLen + 1 < 2 ^ 32) (hkv : s.kvVersion + 1 < 2 ^ 32) :
    exec (appendTokenW position) (m, s) =
      match appendToken m s position with
      | .error e => (.error e, (m, s))
      | .ok σ => (.ok (), σ) := by
  have hopened : ∀ h, s.openedW h = s.opened h := fun h => by
    rw [openedW, opened, wrappingSucc, Nat.mod_eq_of_lt hkv]
  have hpushed : ∀ s' : SequenceState, s'.seqLen = s.seqLen →
      s'.pushedW position = s'.pushed position := fun s' hs' => by
    rw [pushedW, pushed, wrappingSucc, hs', Nat.mod_eq_of_lt hseq]
  rw [exec_appendTokenW, appendToken]
  by_cases hneed : s.needsNewChunk m.heap
  · rw [if_pos hneed, if_pos hneed]
    cases hopen : openChunk m with
    | error e => rfl
    | ok r =>
        obtain ⟨handle, m'⟩ := r
        obtain ⟨rfl, c, hc, hheap⟩ := openChunk_cases hopen
        have hcounted : countedHeapW m'.heap (s.opened m.heap.cells.length) =
            countedHeap m'.heap (s.opened m.heap.cells.length) := by
          simp only [countedHeapW, countedHeap, opened, List.getLast?_append,
            List.getLast?_singleton, Option.some_or]
          refine ArcHeap.update_congr fun c' hc' => ?_
          rw [hheap, ArcHeap.get?_new] at hc'
          have hlen : wrappingSucc c'.len = c'.len + 1 := by
            rw [← Option.some.inj hc', hc, wrappingSucc]
            rfl
          rw [incrementLenW, hlen, ChunkRef.incrementLen]
        simp only [hopened, hpushed (s.opened m.heap.cells.length) rfl, hcounted]
        rfl
  · rw [if_neg hneed, if_neg hneed, hpushed s rfl, hp.countedHeapW_eq hct hmax hneed]
    rfl

/-- Every step keeps the invariant. -/
lemma Packed.step (hct : 0 < ct) (hmax : ct < 2 ^ 32) {σ σ' : SeqMem} {op : SeqOp}
    (hp : Packed ct σ.1.heap σ.2) (hstep : SeqStep σ op σ') : Packed ct σ'.1.heap σ'.2 := by
  cases hstep with
  | append σ position => exact hp.append hct hmax
  | reset hreset => exact hp.reset hreset
  | others hsame =>
      refine ⟨hp.tokens, hp.seqLen, hp.nodup, fun h hh => (hsame h hh).1, ?_⟩
      rw [← hp.lens]
      exact List.map_congr_left fun h hh => (hsame h hh).2

/-- **The shape of a sequence.**  After every run its chunks are the pieces that its tokens
fill, `seq_len` being their number as a `u32`; and an `append_token` that returns an error
leaves the sequence, the heap and both pools as they were. -/
theorem wellShaped_of_run {chunkTokens : UInt32} (hpos : 0 < chunkTokens) :
    (∀ m ops σ, Run SeqStep (m, .new chunkTokens.toNat) ops σ →
      WellShaped chunkTokens.toNat σ.1.heap σ.2) ∧
    ∀ position σ e σ', exec (appendTokenW position) σ = (.error e, σ') → σ' = σ := by
  have hct : 0 < chunkTokens.toNat := UInt32.lt_iff_toNat_lt.mp hpos
  refine ⟨fun m ops σ hrun => ?_, fun position σ e σ' => exec_appendTokenW_error⟩
  have hp : Packed chunkTokens.toNat σ.1.heap σ.2 :=
    hrun.invariant (I := fun σ => Packed chunkTokens.toNat σ.1.heap σ.2)
      (fun σ op σ' hσ hstep => hσ.step hct chunkTokens.toNat_lt hstep) .new
  exact hp.wellShaped hct

/-- Two tokens to a chunk and three tokens: the third one is alone in the second chunk, which
is host-pinned since the VRAM pool has one slot. -/
theorem wellShaped_three_tokens :
    ∃ σ, Run SeqStep (⟨.empty, .new 0 64 1, some (.new 0 64 1)⟩, .new (2 : UInt32).toNat)
        [.append 0, .append 1, .append 2] σ ∧
      σ.2.chunks = [0, 1] ∧ WellShaped (2 : UInt32).toNat σ.1.heap σ.2 := by
  let start : SeqMem :=
    (⟨.empty, .new 0 64 1, some (.new 0 64 1)⟩, .new (2 : UInt32).toNat)
  have hnil : Run SeqStep start [] start := .nil
  have hrun := ((hnil.snoc (.append _ 0)).snoc (.append _ 1)).snoc (.append _ 2)
  exact ⟨_, hrun, by decide +kernel, (wellShaped_of_run (by decide)).1 _ _ _ hrun⟩

/-! ### The counter -/

/-- Where a chunk can be opened if one is needed, `append_token` counts one token, and the
free VRAM slots and the chunks together stay as many as they are. -/
lemma exec_append_ok (position : ℤ) (hp : Packed ct m.heap s) (hct : 0 < ct) (hmax : ct < 2 ^ 32)
    (hfree : ct ∣ s.positions.length → m.vram.slots.free ≠ []) :
    ∃ σ, SeqStep (m, s) (.append position) σ ∧ Packed ct σ.1.heap σ.2 ∧
      σ.2.positions.length = s.positions.length + 1 ∧
      σ.1.vram.slots.free.length + σ.2.chunks.length =
        m.vram.slots.free.length + s.chunks.length := by
  refine ⟨_, .append _ _, hp.append hct hmax, ?_⟩
  rw [exec_appendTokenW]
  by_cases hneed : s.needsNewChunk m.heap
  · rw [if_pos hneed, openChunk]
    cases halloc : m.vram.alloc with
    | none =>
        exact absurd (PageAllocator.alloc_eq_none_iff.mp halloc)
          (hfree ((hp.needsNewChunk_iff hct).mp hneed))
    | some r =>
        obtain ⟨slot, ptr, vram⟩ := r
        have hpop := (FreePool.take?_eq_some_iff.mp
          (SlotPool.alloc_eq_some_iff.mp (PageAllocator.alloc_eq_some_iff.mp halloc)).1).1
        refine ⟨List.length_append, ?_⟩
        rw [hpop, List.length_cons]
        simp only [pushedW, openedW, List.length_append, List.length_singleton]
        omega
  · rw [if_neg hneed]
    exact ⟨List.length_append, rfl⟩

/-- A VRAM pool takes `ct` tokens for each of its slots. -/
lemma run_appends (hct : 0 < ct) (hmax : ct < 2 ^ 32) (m : KvMem) {n : ℕ}
    (hn : n ≤ ct * m.vram.slots.free.length) :
    ∃ σ, Run SeqStep (m, .new ct) (List.replicate n (.append 0)) σ ∧ Packed ct σ.1.heap σ.2 ∧
      σ.2.positions.length = n ∧
      σ.1.vram.slots.free.length + σ.2.chunks.length = m.vram.slots.free.length := by
  induction n with
  | zero => exact ⟨_, .nil, .new, rfl, rfl⟩
  | succ n ih =>
      obtain ⟨⟨m', s⟩, hrun, hp, hlen, hslots⟩ := ih (by omega)
      have hfree : ct ∣ s.positions.length → m'.vram.slots.free ≠ [] := by
        intro hdvd hnil
        -- every slot was taken, and every chunk is full
        simp only at hp hlen hslots
        have hcount : s.chunks.length = n / ct := by
          have hmap : (s.chunks.map fun h => (chunk m'.heap h).len).length = s.chunks.length :=
            List.length_map _
          rw [← hmap, ← length_pieces_of_dvd (hlen ▸ hdvd), ← hlen, ← hp.lens]
          rfl
        have hfull : n = ct * s.chunks.length := by
          rw [hcount, Nat.mul_div_cancel' (hlen ▸ hdvd)]
        rw [hnil, List.length_nil, Nat.zero_add] at hslots
        rw [← hslots] at hn
        omega
      obtain ⟨σ, hstep, hp', hlen', hslots'⟩ := exec_append_ok 0 hp hct hmax hfree
      exact ⟨σ, List.replicate_succ' ▸ hrun.snoc hstep, hp', hlen'.trans (by rw [hlen]),
        hslots'.trans hslots⟩

lemma length_free_new (pool chunkBytes : ℕ) (maxChunks : UInt32) :
    (PageAllocator.new pool chunkBytes maxChunks).slots.free.length = maxChunks.toNat := by
  simp [PageAllocator.new, SlotPool.new, FreePool.full]

/-- **`seq_len` wraps around.**  The `u32` counter does not count the tokens of every run:
`2 ^ 26` chunks of `64` tokens take it back to `0`. -/
theorem seqLen_wraps :
    ¬ ∀ chunkTokens : UInt32, 0 < chunkTokens → ∀ m ops σ,
      Run SeqStep (m, .new chunkTokens.toNat) ops σ → σ.2.seqLen = σ.2.positions.length := by
  intro hall
  obtain ⟨m, hm⟩ : ∃ m : KvMem, m.vram.slots.free.length = (67108864 : UInt32).toNat :=
    ⟨⟨.empty, .new 0 64 67108864, none⟩, length_free_new ..⟩
  have hcap : (67108864 : UInt32).toNat = 67108864 := rfl
  have htok : (64 : UInt32).toNat = 64 := rfl
  have hslots : 2 ^ 32 ≤ (64 : UInt32).toNat * m.vram.slots.free.length := by
    rw [hm, hcap, htok]
    omega
  obtain ⟨σ, hrun, hp, hlen, -⟩ := run_appends (by rw [htok]; omega) (UInt32.toNat_lt 64) m hslots
  have hseq := hall 64 (by decide) m _ σ hrun
  rw [hp.seqLen, hlen] at hseq
  omega

end SequenceState

end Braidinfer.PagedKv
