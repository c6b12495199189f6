/-
The decode position table over runs of prefills, decode steps and resets.

A decode step writes the triple of the token it appends and relies on history for the rest;
a prefill writes its positions into a table of its own.  `History` records which tokens of
the sequence came from a prefill and what the last decode step at each index wrote.

* `PosInv`, `PosInv.step`: entry `i` of the table is what the last decode step at `i` wrote;
* `positionTable_coherent_iff`: **the table holds every token's own position exactly when the
  tokens that came from a prefill happen to find their positions there**.
-/
import Braidinfer.Engine.Sound
import Braidinfer.Megakernel.PositionTables

namespace Braidinfer.Engine

open Braidinfer.Lib Braidinfer.PagedKv Braidinfer.Megakernel

/-- What happened to the entries of the position table: the position that the last decode
step at an index wrote, and whether the token now at that index came from a prefill. -/
structure History where
  decoded : ℕ → ℤ
  prefilled : ℕ → Bool

/-- No call was made yet; the table is zero-filled. -/
def History.start : History := ⟨fun _ => 0, fun _ => false⟩

/-- What a call adds to the record. -/
def History.next (cfg : EngineConfig) (m : Model) (c : Model.Call) (m' : Model) (g : History) :
    History :=
  match c with
  | .prefill _ _ =>
      { g with prefilled := fun i => g.prefilled i || (m.tokens ≤ i && i < m'.tokens : Bool) }
  | .decode env tokenId position =>
      if (m.decodePatch cfg env tokenId position).1.isOk then
        { decoded := Function.update g.decoded m.tokens (toI32 position)
          prefilled := Function.update g.prefilled m.tokens false }
      else g
  | .reset _ => g

namespace Model

variable {cfg : EngineConfig} {env : Env} {m m' : Model} {g g' : History}

/-! ### The invariant -/

/-- The decode position table holds the position of every token of the sequence. -/
def PositionsCoherent (m : Model) : Prop :=
  ∀ seq prog, m.pagedSeq = some seq → m.megakernelPaged = some prog →
    HoldsPositions prog.pagedKv.positionTable seq.positions

/-- The position of token `i` of the sequence. -/
def position? (m : Model) (i : ℕ) : Option ℤ := m.pagedSeq.bind fun seq => seq.positions[i]?

/-- The table holds what the decode steps wrote, and the tokens that did not come from a
prefill have the positions that were written for them. -/
structure PosInv (cfg : EngineConfig) (m : Model) (g : History) : Prop where
  sound : Sound cfg m
  table : ∀ prog, m.megakernelPaged = some prog →
    ∀ i, TripleIs prog.pagedKv.positionTable i (g.decoded i)
  unwritten : m.megakernelPaged = none → ∀ i, g.decoded i = 0
  decoded : ∀ i p, m.position? i = some p → g.prefilled i = false → p = g.decoded i

lemma PosInv.init : PosInv cfg Model.init History.start :=
  ⟨.init, fun _ h => by simp [Model.init] at h, fun _ _ => rfl,
    fun _ _ h => by simp [position?, Model.init] at h⟩

lemma position?_eq {seq : SequenceState} (h : m.pagedSeq = some seq) (i : ℕ) :
    m.position? i = seq.positions[i]? := by
  rw [position?, h]
  rfl

/-- Every token of the sequence has a position. -/
lemma Sound.position?_lt (hm : Sound cfg m) {i : ℕ} {p : ℤ} (h : m.position? i = some p) :
    i < m.tokens := by
  cases hseq : m.pagedSeq with
  | none => simp [position?, hseq] at h
  | some seq =>
      rw [position?_eq hseq] at h
      obtain ⟨allocator, halloc⟩ : ∃ a, m.pageAllocator = some a :=
        Option.isSome_iff_exists.mp (by rw [← hm.together, hseq]; rfl)
      rw [tokens_eq hseq, ← (hm.seq seq allocator hseq halloc).shape.positions]
      exact (List.getElem?_eq_some_iff.mp h).1

lemma Sound.exists_position? (hm : Sound cfg m) {i : ℕ} (hi : i < m.tokens) :
    ∃ p, m.position? i = some p := by
  cases hseq : m.pagedSeq with
  | none =>
      rw [tokens, hseq] at hi
      exact absurd hi (Nat.not_lt_zero i)
  | some seq =>
      obtain ⟨allocator, halloc⟩ : ∃ a, m.pageAllocator = some a :=
        Option.isSome_iff_exists.mp (by rw [← hm.together, hseq]; rfl)
      rw [tokens_eq hseq, ← (hm.seq seq allocator hseq halloc).shape.positions] at hi
      exact ⟨_, (position?_eq hseq i).trans (List.getElem?_eq_getElem hi)⟩

lemma freshProgram_positionTable (env : Env) (i : ℕ) :
    TripleIs (freshProgram cfg env).pagedKv.positionTable i 0 := by
  rw [freshProgram]
  split_ifs <;> exact ⟨rfl, rfl, rfl⟩

/-- A series of small changes keeps the position of every token it found. -/
lemma Extends.position? (hext : Extends cfg env m m') (hm : Sound cfg m) {i : ℕ} (hi : i < m.tokens)
    {p : ℤ} (h : m'.position? i = some p) : m.position? i = some p := by
  cases hseq' : m'.pagedSeq with
  | none => simp [Model.position?, hseq'] at h
  | some seq' =>
      obtain ⟨allocator', halloc'⟩ : ∃ a, m'.pageAllocator = some a :=
        Option.isSome_iff_exists.mp (by rw [← hext.sound.together, hseq']; rfl)
      rw [position?_eq hseq'] at h
      rcases hext.seq seq' allocator' hseq' halloc' with
        ⟨seq, allocator, hseq, halloc, hgrown⟩ | ⟨hnone, -⟩
      · obtain ⟨rest, hrest⟩ := hgrown.positions
        rw [tokens_eq hseq, ← (hm.seq seq allocator hseq halloc).shape.positions] at hi
        rwa [← hrest, List.getElem?_append_left hi, ← position?_eq hseq] at h
      · have hseq := hm.together
        rw [hnone, Option.isSome_none, Option.isSome_eq_false_iff, Option.isNone_iff_eq_none]
          at hseq
        rw [tokens, hseq] at hi
        exact absurd hi (Nat.not_lt_zero i)

/-- A series of small changes keeps the invariant once the tokens it added are marked. -/
lemma PosInv.extends (h : PosInv cfg m g) (hext : Extends cfg env m m')
    (hdec : g'.decoded = g.decoded)
    (hmark : ∀ i < m'.tokens, g'.prefilled i = false → g.prefilled i = false ∧ i < m.tokens) :
    PosInv cfg m' g' := by
  refine ⟨hext.sound, fun prog hprog i => ?_, fun hnone i => ?_, fun i p hp hi => ?_⟩
  · rw [hdec]
    rcases hext.program with hsame | ⟨hnone, hfresh⟩
    · exact h.table prog (hsame ▸ hprog) i
    · obtain rfl := Option.some.inj (hfresh.symm.trans hprog)
      rw [h.unwritten hnone i]
      exact freshProgram_positionTable env i
  · rw [hdec]
    rcases hext.program with hsame | ⟨hnone', -⟩
    · exact h.unwritten (hsame ▸ hnone) i
    · exact h.unwritten hnone' i
  · obtain ⟨hold, hlt⟩ := hmark i (hext.sound.position?_lt hp) hi
    rw [hdec]
    exact h.decoded i p (hext.position? h.sound hlt hp) hold

/-! ### Decode steps -/

section Patched

variable {tokenId position : ℕ}

/-- The token a patched decode step appended. -/
lemma Patched.position? (P : Patched cfg env tokenId position m m') (h : PosInv cfg m g) {i : ℕ}
    {p : ℤ} (hp : m'.position? i = some p) :
    (i < m.tokens ∧ m.position? i = some p) ∨ (i = m.tokens ∧ p = toI32 position) := by
  have hspec := P.spec h.sound
  have hsound := hspec.init.sound.seq P.seq P.allocator P.hseq P.halloc
  have hpos := (SequenceState.appendToken_shape hsound.exclusive hsound.shape P.happ).2.2.1
  have hlen : P.seq.positions.length = m.tokens := by
    rw [hsound.shape.positions, ← tokens_eq P.hseq, P.setups.tokens h.sound]
  rw [position?_eq (congrArg Model.pagedSeq P.after), hpos] at hp
  rcases Nat.lt_or_ge i P.seq.positions.length with hlt | hge
  · rw [List.getElem?_append_left hlt, ← position?_eq P.hseq] at hp
    exact .inl ⟨hlen ▸ hlt, hspec.init.position? h.sound (hlen ▸ hlt) hp⟩
  · rw [List.getElem?_append_right hge, List.getElem?_singleton] at hp
    split_ifs at hp with hi
    exact .inr ⟨by omega, (Option.some.inj hp).symm⟩

/-- The tokens before it stay as they were. -/
lemma Patched.position?_of_lt (P : Patched cfg env tokenId position m m') (h : PosInv cfg m g)
    {i : ℕ} {p : ℤ} (hp : m.position? i = some p) : m'.position? i = some p := by
  have hlt := h.sound.position?_lt hp
  have hlen : m'.tokens = m.tokens + 1 := by
    have hspec := P.spec h.sound
    have hsound := hspec.init.sound.seq P.seq P.allocator P.hseq P.halloc
    rw [tokens_eq (congrArg Model.pagedSeq P.after),
      (SequenceState.appendToken_shape hsound.exclusive hsound.shape P.happ).2.1,
      ← tokens_eq P.hseq, P.setups.tokens h.sound]
  obtain ⟨p', hp'⟩ := (P.spec h.sound).sound.exists_position? (i := i) (by omega)
  rcases P.position? h hp' with ⟨-, hold⟩ | ⟨rfl, -⟩
  · rw [hp', ← hold, hp]
  · exact absurd hlt (Nat.lt_irrefl _)

/-- The table after a patched decode step. -/
lemma Patched.positionTable (P : Patched cfg env tokenId position m m') (h : PosInv cfg m g)
    (i : ℕ) :
    TripleIs P.prog'.pagedKv.positionTable i
      (Function.update g.decoded m.tokens (toI32 position) i) := by
  have hspec := P.spec h.sound
  have hsound := hspec.init.sound.seq P.seq P.allocator P.hseq P.halloc
  obtain ⟨-, hlen, hpos, -⟩ := SequenceState.appendToken_shape hsound.exclusive hsound.shape P.happ
  have htok : P.seq.seqLen = m.tokens := by
    rw [← tokens_eq P.hseq, P.setups.tokens h.sound]
  obtain ⟨pos, hget, htable⟩ := hspec.updated.positionTable
  have hidx : P.seq'.seqLen - 1 = m.tokens := by omega
  rw [hidx] at hget htable
  have hposEq : pos = toI32 position := by
    rw [hpos, List.getElem?_append_right (by rw [hsound.shape.positions]; omega),
      hsound.shape.positions, htok, Nat.sub_self] at hget
    exact (Option.some.inj hget).symm
  rw [htable, hposEq]
  have hinit := h.extends (g := g) hspec.init rfl fun i hi hf =>
    ⟨hf, P.setups.tokens h.sound ▸ hi⟩
  by_cases hi : i = m.tokens
  · rw [hi, Function.update_self]
    exact tripleIs_writeTriple_self
  · rw [Function.update_of_ne hi, tripleIs_writeTriple_of_ne hi]
    exact hinit.table P.prog P.hprog i

/-- A patched decode step keeps the invariant. -/
lemma PosInv.patched (h : PosInv cfg m g) (P : Patched cfg env tokenId position m m') :
    PosInv cfg m' ⟨Function.update g.decoded m.tokens (toI32 position),
      Function.update g.prefilled m.tokens false⟩ := by
  have hprog : m'.megakernelPaged = some P.prog' := congrArg Model.megakernelPaged P.after
  refine ⟨(P.spec h.sound).sound, fun prog hp i => ?_, fun hnone => ?_, fun i p hp hi => ?_⟩
  · rw [← Option.some.inj (hprog.symm.trans hp)]
    exact P.positionTable h i
  · rw [hprog] at hnone
    cases hnone
  · rcases P.position? h hp with ⟨hlt, hold⟩ | ⟨hlast, hpos⟩
    · have hne : i ≠ m.tokens := Nat.ne_of_lt hlt
      refine (h.decoded i p hold ?_).trans (Function.update_of_ne hne _ _).symm
      exact (Function.update_of_ne hne _ _).symm.trans hi
    · change p = Function.update g.decoded m.tokens (toI32 position) i
      rw [hlast, Function.update_self, hpos]

end Patched

/-! ### Runs -/

/-- A change that leaves the sequence and the program alone. -/
lemma PosInv.of_same (h : PosInv cfg m g) (hheap : m'.heap = m.heap)
    (hseq : m'.pagedSeq = m.pagedSeq) (hpool : m'.pageAllocator = m.pageAllocator)
    (hprog : m'.megakernelPaged = m.megakernelPaged)
    (hoff : cfg.hostKvChunks = none → m'.hostPageAllocator = none)
    (hwork : m'.persistentWorkers = true → cfg.kvQuant = true → m'.quantAllocator.isSome) :
    PosInv cfg m' g := by
  refine ⟨h.sound.of_same hheap hseq hpool hoff hwork, by rw [hprog]; exact h.table,
    by rw [hprog]; exact h.unwritten, fun i p hp => h.decoded i p ?_⟩
  rwa [position?, hseq] at hp

/-- Sealing a chunk keeps the invariant. -/
lemma PosInv.sealed {s : SealState} {position n : ℕ} {prog : MegakernelProgram}
    {seq : SequenceState} {allocator : PageAllocator} (h : PosInv cfg m g)
    (hseq : m.pagedSeq = some seq) (halloc : m.pageAllocator = some allocator)
    (hprog : m.megakernelPaged = some prog)
    (hpost : postStepPaged ⟨prog, seq, m.quantAllocator, m.filled⟩ position m.heap allocator =
      .ok s) : PosInv cfg (m.sealed s n) g := by
  obtain ⟨hs, hp, -⟩ := postStepPaged_frame hpost
  refine ⟨h.sound.sealed hseq halloc hpost, fun prog' hprog' => ?_, fun hnone => ?_,
    fun i p hpos => h.decoded i p ?_⟩
  · obtain rfl := Option.some.inj hprog'
    rw [hp]
    exact h.table prog hprog
  · cases hnone
  · rw [position?_eq (m := m.sealed s n) rfl, hs] at hpos
    rw [position?_eq hseq]
    exact hpos

/-- **Every call keeps the invariant.** -/
theorem PosInv.step {c : Call} (h : PosInv cfg m g) (hstep : Step cfg m c m') :
    PosInv cfg m' (g.next cfg m c m') := by
  have hsound := h.sound.step hstep
  obtain ⟨r, hcall, hok⟩ := hstep
  have hno : ¬ ∃ e, r = .error e ∧ e.IsPanic := fun ⟨e, he, hp⟩ => hok e he hp
  cases c with
  | prefill env total =>
      have hmark : ∀ i < m'.tokens, (g.next cfg m (.prefill env total) m').prefilled i = false →
          g.prefilled i = false ∧ i < m.tokens := by
        intro i hi hf
        simp only [History.next, hi, decide_true, Bool.and_true, Bool.or_eq_false_iff,
          decide_eq_false_iff_not, not_le] at hf
        exact hf
      rcases prefill_spec hcall with hgrow | hlose
      · exact h.extends (hgrow.extends h.sound) rfl hmark
      · -- the sequence is lost, the table stays
        obtain ⟨-, hseq, -, m₁, hext, hprog, -, -⟩ := hlose.spec h.sound
        have hkept : PosInv cfg m₁ ⟨g.decoded, fun _ => true⟩ :=
          h.extends hext rfl fun i _ hf => by cases hf
        refine ⟨hsound, by rw [hprog]; exact hkept.table, by rw [hprog]; exact hkept.unwritten,
          fun i p hp => ?_⟩
        rw [position?, hseq] at hp
        cases hp
  | decode env tokenId position =>
      simp only [History.next]
      rw [call, decodeStep] at hcall
      rcases hpatch : decodePatch cfg env tokenId position m with ⟨e | u, m₁⟩ <;>
        simp only [hpatch] at hcall
      · obtain ⟨rfl, rfl⟩ := Prod.ext_iff.mp hcall
        rw [if_neg (by simp [Except.isOk, Except.toBool])]
        rcases decodePatch_spec hpatch with ⟨hr, -⟩ | ⟨-, hsetup⟩ | hpanic
        · cases hr
        · exact h.extends (hsetup.grows.extends h.sound) rfl fun i hi hf =>
            ⟨hf, hsetup.tokens h.sound ▸ hi⟩
        · exact absurd hpanic hno
      · rw [if_pos (by rfl)]
        rcases decodePatch_spec hpatch with ⟨-, ⟨P⟩⟩ | ⟨hr, -⟩ | ⟨e, hr, -⟩
        · have hinv := h.patched P
          rcases decodeFinish_spec hcall with
            ⟨seq, allocator, prog, s, n, hseq, halloc, hprog, hpost, rfl⟩ |
          ⟨-, -, -, -, -, -, -, -, rfl⟩ | hpanic
          · exact hinv.sealed hseq halloc hprog hpost
          · exact hinv
          · exact absurd hpanic hno
        · exact absurd rfl hr
        · cases hr
  | reset env =>
      rcases resetState_spec h.sound.together hcall with
        ⟨seq, allocator, quant, seq₁, mem, seq₂, -, hseq, halloc, hrel, hreset, rfl⟩ |
        ⟨-, n, rfl⟩ | hpanic
      · have hempty : seq₂.positions = [] :=
          ((h.sound.releaseQuant hseq halloc hrel).reset hreset).empty.2.2
        refine ⟨hsound, h.table, h.unwritten, fun i p hp => ?_⟩
        rw [position?_eq (m := m.cleared quant mem seq₂) rfl, hempty] at hp
        cases hp
      · exact h.of_same rfl rfl rfl rfl (fun _ => rfl) fun h => by cases h
      · exact absurd hpanic hno

/-- **Decode position-table coherence.**  After any run of prefills, decode steps and resets,
the next successful update leaves a table that holds every token's own position if and only
if every token that came from a prefill has the position that the last decode step at its
index wrote, in whatever sequence, or 0 if there was none. -/
theorem positionTable_coherent_iff (cfg : EngineConfig) (env : Env) (calls : List Call)
    (tokenId position : ℕ) (m m' : Model) (g : History)
    (hrun : Run (tracked (History.next cfg) (Step cfg)) (Model.init, History.start) calls (m, g))
    (hpatch : decodePatch cfg env tokenId position m = (.ok (), m')) :
    PositionsCoherent m' ↔
      ∀ i p, m.position? i = some p → g.prefilled i = true → p = g.decoded i := by
  have hinv : PosInv cfg m g := hrun.invariant (I := fun s => PosInv cfg s.1 s.2)
    (fun _ _ _ h ⟨hstep, hnext⟩ => by rw [hnext]; exact h.step hstep) .init
  rcases decodePatch_spec hpatch with ⟨-, ⟨P⟩⟩ | ⟨hr, -⟩ | ⟨e, hr, -⟩
  · have hseq : m'.pagedSeq = some P.seq' := congrArg Model.pagedSeq P.after
    have hprog : m'.megakernelPaged = some P.prog' := congrArg Model.megakernelPaged P.after
    constructor
    · intro hco i p hp _
      have hlt := hinv.sound.position?_lt hp
      have htriple := P.positionTable hinv i
      rw [Function.update_of_ne (Nat.ne_of_lt hlt)] at htriple
      refine (hco P.seq' P.prog' hseq hprog i p ?_).1.symm.trans htriple.1
      rw [← position?_eq hseq]
      exact P.position?_of_lt hinv hp
    · intro hcond seq prog hs hpr i p hp
      obtain rfl := Option.some.inj (hseq.symm.trans hs)
      obtain rfl := Option.some.inj (hprog.symm.trans hpr)
      have htriple := P.positionTable hinv i
      rw [← position?_eq hseq] at hp
      rcases P.position? hinv hp with ⟨hlt, hold⟩ | ⟨hlast, hpos⟩
      · rw [Function.update_of_ne (Nat.ne_of_lt hlt)] at htriple
        have heq : p = g.decoded i := by
          cases hf : g.prefilled i with
          | false => exact hinv.decoded i p hold hf
          | true => exact hcond i p hold hf
        rwa [heq]
      · rw [hlast, Function.update_self] at htriple
        rwa [hlast, hpos]
  · exact absurd rfl hr
  · cases hr

/-- A prompt of one token, then a decode step: the prompt's token is at position 0, which the
table holds from the start. -/
theorem positionTable_coherent_one_token :
    ∃ m m' g, Run (tracked (History.next (smallConfig false)) (Step (smallConfig false)))
        (Model.init, History.start) [.prefill (quietEnv 100000 900000) 1] (m, g) ∧
      decodePatch (smallConfig false) (quietEnv 100000 900000) 7 1 m = (.ok (), m') ∧
      (PositionsCoherent m' ↔
        ∀ i p, m.position? i = some p → g.prefilled i = true → p = g.decoded i) := by
  let cfg := smallConfig false
  let env := quietEnv 100000 900000
  let m := (Model.init.call cfg (.prefill env 1)).2
  have hrun : Run (tracked (History.next cfg) (Step cfg)) (Model.init, History.start)
      [.prefill env 1] (m, History.start.next cfg Model.init (.prefill env 1) m) :=
    Run.nil.snoc ⟨.of_isOk (by decide +kernel), rfl⟩
  have hpatch := eq_of_isOk (r := decodePatch cfg env 7 1 m) (by decide +kernel)
  exact ⟨m, _, _, hrun, hpatch, positionTable_coherent_iff cfg env _ 7 1 m _ _ hrun hpatch⟩

/-- A prompt of two tokens, then a decode step: the second token is at position 1, and its
entry of the decode table is still 0. -/
theorem positionTable_misses_prefill :
    ¬ ∀ (cfg : EngineConfig) (env : Env) (calls : List Call) (tokenId position : ℕ)
      (m m' : Model), Run (Step cfg) Model.init calls m →
      decodePatch cfg env tokenId position m = (.ok (), m') → PositionsCoherent m' := by
  intro hall
  let cfg := smallConfig false
  let env := quietEnv 100000 900000
  let m := (Model.init.call cfg (.prefill env 2)).2
  have hrun : Run (Step cfg) Model.init [.prefill env 2] m :=
    Run.nil.snoc (.of_isOk (by decide +kernel))
  have hpatch := eq_of_isOk (r := decodePatch cfg env 7 2 m) (by decide +kernel)
  have hentry := hall cfg env _ 7 2 m _ hrun hpatch
    ((decodePatch cfg env 7 2 m).2.pagedSeq.get (by decide +kernel))
    ((decodePatch cfg env 7 2 m).2.megakernelPaged.get (by decide +kernel))
    (Option.some_get _).symm (Option.some_get _).symm 1 1 (by decide +kernel)
  exact absurd hentry.1 (by decide +kernel)

end Model

end Braidinfer.Engine
