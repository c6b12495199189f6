/-
The position tables that the two paged-prefill compilers leave.

The dense compiler indexes the table by the token's place in the slab, the segment compiler
by its place in the sequence.

* `densePositionTable_triple`, `segmentPositionTable_triple`: every entry, after each of the
  two;
* `positionTables_agree_iff`: **both leave every token's own position exactly for a prefill
  that starts the sequence**.
-/
import Braidinfer.Megakernel.Prefill
import Braidinfer.PagedKv.Accounting

namespace Braidinfer.Megakernel

open Braidinfer.Lib Braidinfer.PagedKv

/-! ### Tables entry by entry -/

/-- The triple of token `i` in a position table is `p`. -/
def TripleIs (table : ℕ → ℤ) (i : ℕ) (p : ℤ) : Prop :=
  table (i * 3) = p ∧ table (i * 3 + 1) = p ∧ table (i * 3 + 2) = p

/-- A position table holds the position of every token of a sequence. -/
def HoldsPositions (table : ℕ → ℤ) (positions : List ℤ) : Prop :=
  ∀ i p, positions[i]? = some p → TripleIs table i p

variable {table : ℕ → ℤ} {i j : ℕ} {p q : ℤ}

lemma tripleIs_writeTriple_self : TripleIs (writeTriple table i p) i p := by
  simp [TripleIs, writeTriple]

lemma tripleIs_writeTriple_of_ne (hij : i ≠ j) :
    TripleIs (writeTriple table j p) i q ↔ TripleIs table i q := by
  have hout : ∀ r, r < 3 → writeTriple table j p (i * 3 + r) = table (i * 3 + r) := by
    intro r hr
    rw [writeTriple, if_neg]
    omega
  have hout₀ : writeTriple table j p (i * 3) = table (i * 3) := hout 0 (by omega)
  rw [TripleIs, TripleIs, hout₀, hout 1 (by omega), hout 2 (by omega)]

/-- Triples written for the first `n` tokens: the written one below `n`, the old one from
`n` on. -/
lemma tripleIs_writeTriples_range (f : ℕ → ℤ) (n : ℕ) :
    TripleIs (writeTriples table ((List.range n).map fun i => (i, f i))) i p ↔
      if i < n then f i = p else TripleIs table i p := by
  induction n with
  | zero => simp [writeTriples]
  | succ n ih =>
      have hsucc : writeTriples table ((List.range (n + 1)).map fun i => (i, f i)) =
          writeTriple (writeTriples table ((List.range n).map fun i => (i, f i))) n (f n) := by
        simp [writeTriples, List.range_succ]
      rw [hsucc]
      by_cases hin : i = n
      · subst hin
        rw [if_pos (Nat.lt_succ_self i)]
        constructor
        · intro h
          exact tripleIs_writeTriple_self.1.symm.trans h.1
        · rintro rfl
          exact tripleIs_writeTriple_self
      · rw [tripleIs_writeTriple_of_ne hin, ih]
        have hiff : i < n ↔ i < n + 1 := by omega
        simp only [hiff]

/-- After the dense compiler, token `i` of the table has the position of the slab's `i`-th
token, whatever the start of the slab. -/
lemma densePositionTable_triple {startPos n : ℕ} :
    TripleIs (densePositionTable table startPos n) i p ↔
      if i < n then toI32 (startPos + i) = p else TripleIs table i p :=
  tripleIs_writeTriples_range (fun i => toI32 (startPos + i)) n

/-- After the segment compiler, token `i` of the table has position `i`. -/
lemma segmentPositionTable_triple {startPos n : ℕ} :
    TripleIs (segmentPositionTable table startPos n) i p ↔
      if i < startPos + n then toI32 i = p else TripleIs table i p :=
  tripleIs_writeTriples_range toI32 (startPos + n)

/-! ### The tokens of a slab -/

lemma appendToken_positions {m m' : KvMem} {s s' : SequenceState} {position : ℤ}
    (happ : s.appendToken m position = .ok (m', s')) :
    s'.positions = s.positions ++ [position] ∧ s'.seqLen = s.seqLen + 1 := by
  obtain ⟨-, rfl, rfl⟩ | ⟨-, slot, ptr, vram, -, rfl, rfl⟩ |
    ⟨-, -, ha, slot, ptr, ha', -, -, rfl, rfl⟩ := SequenceState.appendToken_cases happ <;>
  exact ⟨rfl, rfl⟩

lemma appendTokens_positions {ps : List ℤ} {m m' : KvMem} {s s' : SequenceState}
    (happ : appendTokens m s ps = .ok (m', s')) :
    s'.positions = s.positions ++ ps ∧ s'.seqLen = s.seqLen + ps.length := by
  induction ps generalizing m s with
  | nil =>
      simp only [appendTokens, Except.ok.injEq, Prod.mk.injEq] at happ
      obtain ⟨rfl, rfl⟩ := happ
      simp
  | cons p ps ih =>
      rw [appendTokens] at happ
      cases hone : s.appendToken m p with
      | error e => simp [hone] at happ
      | ok r =>
          obtain ⟨m₁, s₁⟩ := r
          simp only [hone] at happ
          obtain ⟨hpos, hlen⟩ := ih happ
          obtain ⟨hpos₁, hlen₁⟩ := appendToken_positions hone
          refine ⟨by rw [hpos, hpos₁, List.append_assoc, List.singleton_append], ?_⟩
          rw [hlen, hlen₁, List.length_cons]
          omega

lemma length_slabPositions (startPos n : ℕ) : (slabPositions startPos n).length = n := by
  simp [slabPositions]

lemma toI32_eq_zero_iff {n : ℕ} (hn : n < 2 ^ 32) : toI32 n = 0 ↔ n = 0 := by
  constructor
  · intro h
    have hdvd := Int.dvd_of_bmod_eq_zero h
    omega
  · rintro rfl
    rfl

/-! ### The two compilers -/

/-- **The two paged-prefill compilers agree exactly on prefills that start a sequence.**
On a sequence of `startPos` tokens and a slab of `n` further ones, the table of the dense
compiler and the table of the segment compiler both hold every token's own position if and
only if `startPos = 0`. -/
theorem positionTables_agree_iff (heap heap' : ChunkHeap) (seq seq' : SequenceState)
    (allocator allocator' : PageAllocator) (tables tables' : PrefillTables) (startPos n : ℕ)
    (hlen : seq.positions.length = startPos) (hu32 : startPos < 2 ^ 32) (hn : 0 < n)
    (hdense : compilePrefillPagedPersistent heap seq allocator tables startPos n =
      .ok (heap', seq', allocator', tables')) :
    HoldsPositions tables'.positionTable seq'.positions ∧
      HoldsPositions (compilePrefillSegmentPaged heap' seq' allocator' tables startPos
        n).positionTable seq'.positions ↔ startPos = 0 := by
  rw [compilePrefillPagedPersistent] at hdense
  cases happ : appendTokens ⟨heap, allocator, none⟩ seq (slabPositions startPos n) with
  | error e => simp [happ] at hdense
  | ok r =>
      obtain ⟨m, s⟩ := r
      simp only [happ, Except.ok.injEq, Prod.mk.injEq] at hdense
      obtain ⟨rfl, rfl, rfl, rfl⟩ := hdense
      obtain ⟨hpos, -⟩ := appendTokens_positions happ
      simp only [compilePrefillSegmentPaged]
      constructor
      · -- the first entry of the table is the slab's first token for one compiler and the
        -- sequence's first token for the other
        rintro ⟨hd, hs⟩
        have hfirst : ∃ p, s.positions[0]? = some p := by
          rw [hpos]
          refine ⟨_, List.getElem?_eq_getElem ?_⟩
          rw [List.length_append, length_slabPositions]
          omega
        obtain ⟨p, hp⟩ := hfirst
        have hd0 := densePositionTable_triple.mp (hd 0 p hp)
        have hs0 := segmentPositionTable_triple.mp (hs 0 p hp)
        rw [if_pos (by omega)] at hd0 hs0
        exact (toI32_eq_zero_iff hu32).mp (hd0.trans hs0.symm)
      · rintro rfl
        rw [List.length_eq_zero_iff] at hlen
        have hi : ∀ i p, s.positions[i]? = some p → i < n ∧ toI32 i = p := by
          intro i p hip
          rw [hpos, hlen, List.nil_append, slabPositions, List.getElem?_map,
            Option.map_eq_some_iff] at hip
          obtain ⟨k, hk, rfl⟩ := hip
          obtain ⟨hlt, hk⟩ := List.getElem?_eq_some_iff.mp hk
          rw [List.length_range] at hlt
          rw [List.getElem_range] at hk
          subst hk
          exact ⟨hlt, by rw [Nat.zero_add]⟩
        refine ⟨fun i p hip => ?_, fun i p hip => ?_⟩ <;> obtain ⟨hlt, htoI32⟩ := hi i p hip
        · rw [densePositionTable_triple, if_pos hlt, Nat.zero_add]
          exact htoI32
        · rw [segmentPositionTable_triple, if_pos (by omega)]
          exact htoI32

/-- A prompt of three tokens on an empty sequence: both tables hold the three positions. -/
theorem positionTables_agree_fresh :
    ∃ heap' seq' allocator' tables',
      compilePrefillPagedPersistent .empty (.new 64) (.new 4096 4 2) ⟨fun _ => 0, fun _ => 7⟩ 0 3 =
        .ok (heap', seq', allocator', tables') ∧
      (HoldsPositions tables'.positionTable seq'.positions ∧
        HoldsPositions (compilePrefillSegmentPaged heap' seq' allocator'
          ⟨fun _ => 0, fun _ => 7⟩ 0 3).positionTable seq'.positions ↔ (0 : ℕ) = 0) :=
  ⟨_, _, _, _, rfl, positionTables_agree_iff .empty _ (.new 64) _ (.new 4096 4 2) _ _ _ 0 3 rfl
    (by decide) (by decide) rfl⟩

/-- One token after another: the slab of the second one overwrites the position of the
first. -/
theorem positionTables_disagree_on_second_slab :
    ¬ ∀ (heap heap' : ChunkHeap) (seq seq' : SequenceState)
      (allocator allocator' : PageAllocator) (tables tables' : PrefillTables) (startPos n : ℕ),
      seq.positions.length = startPos → startPos < 2 ^ 32 → 0 < n →
      compilePrefillPagedPersistent heap seq allocator tables startPos n =
        .ok (heap', seq', allocator', tables') →
      HoldsPositions tables'.positionTable seq'.positions ∧
        HoldsPositions (compilePrefillSegmentPaged heap' seq' allocator' tables startPos
          n).positionTable seq'.positions := by
  intro hall
  -- a sequence of one token at position 0, with its chunk
  have hfail := (hall ⟨[⟨{ ChunkRef.ofVram 0 with len := 1 }, 1⟩]⟩ _
    { SequenceState.new 64 with chunks := [0], seqLen := 1, positions := [0] } _
    ⟨⟨⟨2, [1]⟩, 4096, 4⟩⟩ _ ⟨fun _ => 0, fun _ => 0⟩ _ 1 1 rfl (by decide) (by decide)
    rfl).1 0 0 rfl
  exact absurd hfail.1 (by decide)

end Braidinfer.Megakernel
