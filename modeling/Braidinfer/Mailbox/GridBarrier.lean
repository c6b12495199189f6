/-
The grid barrier `atomic_block_barrier` (`rdna3_barrier.h`).

The leading thread of every block loads the generation, increments the arrival counter and either
waits for the next generation or, as the last to arrive, resets the counter and stores the next
generation.  Every load and store is a step of its own; the counter and the generation are 32-bit
words that wrap.

* `Step`: one atomic access of one block;
* `Inv`: after `r` releases the generation is `r` ahead of its start, and every block is in its
  `r`-th barrier or waits for a release that has happened;
* `gridBarrier_safe`: **nobody leaves before everybody has arrived, nobody is two barriers ahead, and
  no awaited generation is skipped**, over all runs;
* `Step.refines`: the code refines the counting barrier of the library.
-/
import Mathlib.Data.Fintype.Card
import Mathlib.Data.Finset.Card
import Braidinfer.Lib.Barrier
import Braidinfer.Lib.Run

namespace Braidinfer.Mailbox

open Braidinfer.Lib

namespace GridBarrier

/-! ### The code -/

/-- Where the leading thread of a block is; `target` is its `target_gen`. -/
inductive Phase
  /-- not in the barrier -/
  | outside
  /-- before the increment of `arrived` -/
  | loaded (target : ℕ)
  /-- the last arriver, before it resets `arrived` -/
  | resetting (target : ℕ)
  /-- the last arriver, before it stores `generation` -/
  | publishing (target : ℕ)
  /-- waits for `generation` -/
  | spinning (target : ℕ)
deriving DecidableEq, Repr

/-- A block: its phase and the barriers it has left. -/
structure Block where
  phase : Phase
  passed : ℕ
deriving DecidableEq, Repr

/-- `gridDim.x`, which is positive. -/
structure Grid where
  dim : UInt32
  dim_pos : 0 < dim.toNat

/-- The number of blocks. -/
abbrev Grid.size (g : Grid) : ℕ := g.dim.toNat

lemma Grid.size_lt (g : Grid) : g.size < 2 ^ 32 := g.dim.toNat_lt

variable {g : Grid}

/-- `GridBarrierState` and the blocks. -/
structure State (g : Grid) where
  arrived : ℕ
  generation : ℕ
  block : Fin g.size → Block

/-- `arrived` is zero and nobody is in a barrier. -/
def init (g : Grid) (generation : UInt32) : State g where
  arrived := 0
  generation := generation.toNat
  block := fun _ => ⟨.outside, 0⟩

/-- Update one block. -/
def State.setBlock (s : State g) (b : Fin g.size) (blk : Block) : State g :=
  { s with block := Function.update s.block b blk }

/-- The atomic accesses. -/
inductive Access
  | load | fetchAdd | reset | publish | spin
deriving DecidableEq, Repr

/-- One atomic access of one block. -/
inductive Step : State g → Fin g.size × Access → State g → Prop
  /-- `target_gen = generation + 1` -/
  | load {s : State g} {b : Fin g.size} (hphase : (s.block b).phase = .outside) :
      Step s (b, .load) (s.setBlock b
        ⟨.loaded ((s.generation + 1) % 2 ^ 32), (s.block b).passed⟩)
  /-- `prev = arrived++`, with `prev + 1 == gridDim.x` -/
  | fetchAddLast {s : State g} {b : Fin g.size} {target : ℕ}
      (hphase : (s.block b).phase = .loaded target) (hlast : (s.arrived + 1) % 2 ^ 32 = g.size) :
      Step s (b, .fetchAdd) { s.setBlock b ⟨.resetting target, (s.block b).passed⟩ with
        arrived := (s.arrived + 1) % 2 ^ 32 }
  /-- `prev = arrived++`, with `prev + 1 != gridDim.x` -/
  | fetchAdd {s : State g} {b : Fin g.size} {target : ℕ}
      (hphase : (s.block b).phase = .loaded target) (hlast : (s.arrived + 1) % 2 ^ 32 ≠ g.size) :
      Step s (b, .fetchAdd) { s.setBlock b ⟨.spinning target, (s.block b).passed⟩ with
        arrived := (s.arrived + 1) % 2 ^ 32 }
  | reset {s : State g} {b : Fin g.size} {target : ℕ}
      (hphase : (s.block b).phase = .resetting target) :
      Step s (b, .reset) { s.setBlock b ⟨.publishing target, (s.block b).passed⟩ with
        arrived := 0 }
  | publish {s : State g} {b : Fin g.size} {target : ℕ}
      (hphase : (s.block b).phase = .publishing target) :
      Step s (b, .publish) { s.setBlock b ⟨.outside, (s.block b).passed + 1⟩ with
        generation := target }
  /-- the load of the loop sees the target -/
  | spin {s : State g} {b : Fin g.size} {target : ℕ}
      (hphase : (s.block b).phase = .spinning target) (hgen : s.generation = target) :
      Step s (b, .spin) (s.setBlock b ⟨.outside, (s.block b).passed + 1⟩)

/-- The block has incremented `arrived` for the barrier it is in. -/
def Phase.arrived : Phase → Bool
  | .outside | .loaded _ => false
  | .resetting _ | .publishing _ | .spinning _ => true

/-- The block releases the others. -/
def Phase.closing : Phase → Bool
  | .resetting _ | .publishing _ => true
  | _ => false

/-- The barriers a block has arrived at. -/
def Block.arrivals (b : Block) : ℕ := b.passed + b.phase.arrived.toNat

/-! ### The invariant -/

/-- A block after `r` releases, where the generation started at `g₀`. -/
def Block.Ok (g₀ r : ℕ) (b : Block) : Prop :=
  match b.phase with
  | .outside => b.passed = r
  | .loaded target | .resetting target | .publishing target =>
      b.passed = r ∧ target = (g₀ + r + 1) % 2 ^ 32
  | .spinning target =>
      b.passed = r ∧ target = (g₀ + r + 1) % 2 ^ 32 ∨
        b.passed + 1 = r ∧ target = (g₀ + r) % 2 ^ 32

/-- The blocks that have arrived at barrier `r`. -/
def State.arrivedAt (s : State g) (r : ℕ) : Finset (Fin g.size) :=
  Finset.univ.filter fun b => (s.block b).arrivals = r + 1

/-- **The invariant** after `r` releases. -/
structure Inv (g₀ r : ℕ) (s : State g) : Prop where
  generation : s.generation = (g₀ + r) % 2 ^ 32
  block : ∀ b, (s.block b).Ok g₀ r
  /-- whoever closes the barrier is alone, and everybody else waits for it -/
  closing : ∀ b, (s.block b).phase.closing → (∀ b', (s.block b').arrivals = r + 1) ∧
    ∀ b' ≠ b, (s.block b').phase.closing = false
  cleared : ∀ b target, (s.block b).phase = .publishing target → s.arrived = 0
  /-- while nobody closes it, `arrived` counts, and somebody is missing -/
  counted : (∀ b, (s.block b).phase.closing = false) →
    s.arrived = (s.arrivedAt r).card ∧ (s.arrivedAt r).card < g.size

lemma Inv.init (gen : UInt32) : Inv gen.toNat 0 (init g gen) where
  generation := (Nat.mod_eq_of_lt gen.toNat_lt).symm
  block := fun _ => rfl
  closing := fun _ h => nomatch h
  cleared := fun _ _ h => nomatch h
  counted := by
    intro _
    have hnone : (GridBarrier.init g gen).arrivedAt 0 = ∅ :=
      Finset.filter_false_of_mem fun b _ => by
        simp [GridBarrier.init, Block.arrivals, Phase.arrived]
    rw [hnone]
    exact ⟨rfl, g.dim_pos⟩

section Steps

variable {s t : State g} {b b' : Fin g.size} {blk : Block} {g₀ r : ℕ}

@[simp] lemma block_setBlock_self : (s.setBlock b blk).block b = blk := by
  simp [State.setBlock]

lemma block_setBlock_of_ne (h : b' ≠ b) : (s.setBlock b blk).block b' = s.block b' := by
  simp [State.setBlock, h]

/-- What holds of all blocks after one is updated. -/
lemma forall_setBlock {P : Fin g.size → Block → Prop} (hnew : P b blk)
    (hold : ∀ b' ≠ b, P b' (s.block b')) (b' : Fin g.size) :
    P b' ((s.setBlock b blk).block b') := by
  by_cases hb : b' = b
  · subst hb
    rwa [block_setBlock_self]
  · rw [block_setBlock_of_ne hb]
    exact hold b' hb

lemma arrivedAt_setBlock (harr : blk.arrivals = (s.block b).arrivals) :
    (s.setBlock b blk).arrivedAt r = s.arrivedAt r := by
  refine Finset.filter_congr fun b' _ => ?_
  by_cases hb : b' = b
  · subst hb
    rw [block_setBlock_self, harr]
  · rw [block_setBlock_of_ne hb]

/-- A block is one arrival ahead of the releases at most. -/
lemma Inv.arrivals_le (hinv : Inv g₀ r s) (b : Fin g.size) :
    r ≤ (s.block b).arrivals ∧ (s.block b).arrivals ≤ r + 1 := by
  have hok := hinv.block b
  rw [Block.Ok] at hok
  rw [Block.arrivals]
  cases hphase : (s.block b).phase with
  | outside =>
      rw [hphase] at hok
      simp only [Phase.arrived, Bool.toNat_false]
      omega
  | loaded target =>
      rw [hphase] at hok
      simp only [Phase.arrived, Bool.toNat_false]
      omega
  | resetting target =>
      rw [hphase] at hok
      simp only [Phase.arrived, Bool.toNat_true]
      omega
  | publishing target =>
      rw [hphase] at hok
      simp only [Phase.arrived, Bool.toNat_true]
      omega
  | spinning target =>
      rw [hphase] at hok
      simp only [Phase.arrived, Bool.toNat_true]
      omega

/-- A block that has arrived at the current barrier and does not close it spins. -/
lemma Inv.spinning_of_arrived (hinv : Inv g₀ r s) (harr : (s.block b).arrivals = r + 1)
    (hclose : (s.block b).phase.closing = false) :
    (s.block b).passed = r ∧ (s.block b).phase = .spinning ((g₀ + r + 1) % 2 ^ 32) := by
  have hok := hinv.block b
  rw [Block.Ok] at hok
  rw [Block.arrivals] at harr
  cases hphase : (s.block b).phase with
  | outside =>
      rw [hphase] at hok harr
      simp only [Phase.arrived, Bool.toNat_false] at harr
      omega
  | loaded target =>
      rw [hphase] at hok harr
      simp only [Phase.arrived, Bool.toNat_false] at harr
      omega
  | resetting target =>
      rw [hphase] at hclose
      cases hclose
  | publishing target =>
      rw [hphase] at hclose
      cases hclose
  | spinning target =>
      rw [hphase] at hok harr
      simp only [Phase.arrived, Bool.toNat_true] at harr
      have htarget : target = (g₀ + r + 1) % 2 ^ 32 := by omega
      exact ⟨by omega, by rw [htarget]⟩

/-- A step that neither arrives nor closes. -/
lemma Inv.quiet (hinv : Inv g₀ r s) (hok : blk.Ok g₀ r)
    (harr : blk.arrivals = (s.block b).arrivals) (hold : (s.block b).phase.closing = false)
    (hnew : blk.phase.closing = false) : Inv g₀ r (s.setBlock b blk) where
  generation := hinv.generation
  block := forall_setBlock hok fun b' _ => hinv.block b'
  closing := by
    intro c hc
    have hcb : c ≠ b := by
      rintro rfl
      rw [block_setBlock_self, hnew] at hc
      cases hc
    rw [block_setBlock_of_ne hcb] at hc
    obtain ⟨hall, hothers⟩ := hinv.closing c hc
    refine ⟨forall_setBlock (P := fun _ blk => blk.arrivals = r + 1) (harr.trans (hall b))
      fun b' _ => hall b', ?_⟩
    intro b' hb'
    by_cases hb : b' = b
    · rw [hb, block_setBlock_self, hnew]
    · rw [block_setBlock_of_ne hb]
      exact hothers b' hb'
  cleared := by
    intro c target hc
    have hcb : c ≠ b := by
      rintro rfl
      rw [block_setBlock_self] at hc
      rw [hc] at hnew
      cases hnew
    rw [block_setBlock_of_ne hcb] at hc
    exact hinv.cleared c target hc
  counted := by
    intro hnone
    rw [arrivedAt_setBlock harr]
    refine hinv.counted fun c => ?_
    by_cases hcb : c = b
    · rw [hcb, hold]
    · have hc := hnone c
      rwa [block_setBlock_of_ne hcb] at hc

/-- Nobody closes the barrier while a block has not arrived. -/
lemma Inv.not_closing (hinv : Inv g₀ r s) (harr : (s.block b).arrivals = r) (c : Fin g.size) :
    (s.block c).phase.closing = false := by
  by_contra hc
  have hall := (hinv.closing c (Bool.eq_true_of_not_eq_false hc)).1 b
  omega

lemma arrivedAt_insert (harr : blk.arrivals = r + 1) :
    (s.setBlock b blk).arrivedAt r = insert b (s.arrivedAt r) := by
  ext b'
  rw [Finset.mem_insert, State.arrivedAt, State.arrivedAt, Finset.mem_filter, Finset.mem_filter]
  by_cases hb : b' = b
  · simp [hb, harr]
  · simp [hb, block_setBlock_of_ne hb]

/-- The counter after one more arrival. -/
lemma Inv.arrive (hinv : Inv g₀ r s) (hb : (s.block b).arrivals = r) (harr : blk.arrivals = r + 1) :
    s.arrived + 1 = ((s.setBlock b blk).arrivedAt r).card ∧
      ((s.setBlock b blk).arrivedAt r).card ≤ g.size ∧
      (s.arrived + 1) % 2 ^ 32 = s.arrived + 1 := by
  have hnone := hinv.not_closing hb
  obtain ⟨hcount, hlt⟩ := hinv.counted hnone
  have hnotin : b ∉ s.arrivedAt r := by
    rw [State.arrivedAt, Finset.mem_filter]
    omega
  have hcard : ((s.setBlock b blk).arrivedAt r).card = (s.arrivedAt r).card + 1 := by
    rw [arrivedAt_insert harr, Finset.card_insert_of_notMem hnotin]
  have hsize := g.size_lt
  refine ⟨by rw [hcard, hcount], by omega, Nat.mod_eq_of_lt ?_⟩
  omega

/-- The last arrival. -/
lemma Inv.fetchAddLast (hinv : Inv g₀ r s) {target : ℕ}
    (hphase : (s.block b).phase = .loaded target) (hlast : (s.arrived + 1) % 2 ^ 32 = g.size) :
    Inv g₀ r { s.setBlock b ⟨.resetting target, (s.block b).passed⟩ with
      arrived := (s.arrived + 1) % 2 ^ 32 } := by
  have hok := hinv.block b
  rw [Block.Ok, hphase] at hok
  have hb : (s.block b).arrivals = r := by
    rw [Block.arrivals, hphase]
    exact hok.1
  have harr : Block.arrivals ⟨.resetting target, (s.block b).passed⟩ = r + 1 :=
    congrArg (· + 1) hok.1
  have hnone := hinv.not_closing hb
  obtain ⟨hcount, -, hmod⟩ := hinv.arrive hb harr
  -- the set of the arrived blocks is full
  have hfull : (s.setBlock b ⟨.resetting target, (s.block b).passed⟩).arrivedAt r =
      Finset.univ := by
    refine Finset.eq_univ_of_card _ ?_
    rw [Fintype.card_fin, ← hcount, ← hlast, hmod]
  have hall : ∀ b', ((s.setBlock b ⟨.resetting target, (s.block b).passed⟩).block b').arrivals =
      r + 1 := by
    intro b'
    have hmem := Finset.mem_univ b'
    rw [← hfull, State.arrivedAt, Finset.mem_filter] at hmem
    exact hmem.2
  have hothers : ∀ c ≠ b,
      ((s.setBlock b ⟨.resetting target, (s.block b).passed⟩).block c).phase.closing = false := by
    intro c hcb
    rw [block_setBlock_of_ne hcb]
    exact hnone c
  refine ⟨hinv.generation, forall_setBlock (P := fun _ blk => blk.Ok g₀ r) hok
    fun b' _ => hinv.block b', fun c hc => ⟨hall, fun b' hb' => ?_⟩, fun c target' hc => ?_,
    fun hno => ?_⟩
  · have hcb : c = b := by
      by_contra hne
      exact absurd hc (Bool.eq_false_iff.mp (hothers c hne))
    exact hothers b' (hcb ▸ hb')
  · have hphase' : ((s.setBlock b ⟨.resetting target, (s.block b).passed⟩).block c).phase =
        .publishing target' := hc
    by_cases hcb : c = b
    · rw [hcb, block_setBlock_self] at hphase'
      cases hphase'
    · have hfalse := hothers c hcb
      rw [hphase'] at hfalse
      cases hfalse
  · have hself : ((s.setBlock b ⟨.resetting target, (s.block b).passed⟩).block b).phase.closing =
        false := hno b
    rw [block_setBlock_self] at hself
    cases hself

/-- An arrival that is not the last. -/
lemma Inv.fetchAdd (hinv : Inv g₀ r s) {target : ℕ}
    (hphase : (s.block b).phase = .loaded target) (hlast : (s.arrived + 1) % 2 ^ 32 ≠ g.size) :
    Inv g₀ r { s.setBlock b ⟨.spinning target, (s.block b).passed⟩ with
      arrived := (s.arrived + 1) % 2 ^ 32 } := by
  have hok := hinv.block b
  rw [Block.Ok, hphase] at hok
  have hb : (s.block b).arrivals = r := by
    rw [Block.arrivals, hphase]
    exact hok.1
  have harr : Block.arrivals ⟨.spinning target, (s.block b).passed⟩ = r + 1 :=
    congrArg (· + 1) hok.1
  obtain ⟨hcount, hle, hmod⟩ := hinv.arrive hb harr
  have hnone : ∀ c,
      ((s.setBlock b ⟨.spinning target, (s.block b).passed⟩).block c).phase.closing = false :=
    forall_setBlock (P := fun _ blk => blk.phase.closing = false) rfl
      fun c _ => hinv.not_closing hb c
  rw [hmod] at hlast
  refine ⟨hinv.generation, forall_setBlock (P := fun _ blk => blk.Ok g₀ r) (Or.inl hok)
    fun b' _ => hinv.block b', fun c hc => ?_, fun c target' hc => ?_, fun _ => ⟨?_, ?_⟩⟩
  · exact absurd hc (Bool.eq_false_iff.mp (hnone c))
  · have hphase' : ((s.setBlock b ⟨.spinning target, (s.block b).passed⟩).block c).phase =
        .publishing target' := hc
    have hfalse := hnone c
    rw [hphase'] at hfalse
    cases hfalse
  · exact hmod.trans hcount
  · exact Nat.lt_of_le_of_ne hle fun h => hlast (hcount.trans h)

/-- The last arriver resets the counter. -/
lemma Inv.reset (hinv : Inv g₀ r s) {target : ℕ}
    (hphase : (s.block b).phase = .resetting target) :
    Inv g₀ r { s.setBlock b ⟨.publishing target, (s.block b).passed⟩ with arrived := 0 } := by
  have hok := hinv.block b
  rw [Block.Ok, hphase] at hok
  obtain ⟨hall, hothers⟩ := hinv.closing b (by rw [hphase]; rfl)
  have harr : Block.arrivals ⟨.publishing target, (s.block b).passed⟩ = r + 1 :=
    congrArg (· + 1) hok.1
  have hothers' : ∀ c ≠ b,
      ((s.setBlock b ⟨.publishing target, (s.block b).passed⟩).block c).phase.closing =
        false := by
    intro c hcb
    rw [block_setBlock_of_ne hcb]
    exact hothers c hcb
  refine ⟨hinv.generation, forall_setBlock (P := fun _ blk => blk.Ok g₀ r) hok
    fun b' _ => hinv.block b', fun c hc => ⟨forall_setBlock
      (P := fun _ blk => blk.arrivals = r + 1) harr fun b' _ => hall b', fun b' hb' => ?_⟩,
    fun _ _ _ => rfl, fun hno => ?_⟩
  · have hcb : c = b := by
      by_contra hne
      exact absurd hc (Bool.eq_false_iff.mp (hothers' c hne))
    exact hothers' b' (hcb ▸ hb')
  · have hself : ((s.setBlock b ⟨.publishing target, (s.block b).passed⟩).block b).phase.closing =
        false := hno b
    rw [block_setBlock_self] at hself
    cases hself

/-- The last arriver stores the generation: one more release. -/
lemma Inv.publish (hinv : Inv g₀ r s) {target : ℕ}
    (hphase : (s.block b).phase = .publishing target) :
    Inv g₀ (r + 1) { s.setBlock b ⟨.outside, (s.block b).passed + 1⟩ with
      generation := target } := by
  have hok := hinv.block b
  rw [Block.Ok, hphase] at hok
  obtain ⟨hall, hothers⟩ := hinv.closing b (by rw [hphase]; rfl)
  -- everybody else spins for this release
  have hspin : ∀ b' ≠ b, (s.block b').passed = r ∧
      (s.block b').phase = .spinning ((g₀ + r + 1) % 2 ^ 32) :=
    fun b' hb' => hinv.spinning_of_arrived (hall b') (hothers b' hb')
  have hnone : ∀ c,
      ((s.setBlock b ⟨.outside, (s.block b).passed + 1⟩).block c).phase.closing = false :=
    forall_setBlock (P := fun _ blk => blk.phase.closing = false) rfl hothers
  have harr : ∀ c,
      ((s.setBlock b ⟨.outside, (s.block b).passed + 1⟩).block c).arrivals = r + 1 :=
    forall_setBlock (P := fun _ blk => blk.arrivals = r + 1) (congrArg (· + 1) hok.1)
      fun c _ => hall c
  have hempty : (s.setBlock b ⟨.outside, (s.block b).passed + 1⟩).arrivedAt (r + 1) = ∅ := by
    refine Finset.filter_false_of_mem fun c _ => ?_
    rw [harr c]
    omega
  refine ⟨hok.2, forall_setBlock (P := fun _ blk => blk.Ok g₀ (r + 1)) (congrArg (· + 1) hok.1)
    fun b' hb' => ?_, fun c hc => ?_, fun c target' hc => ?_, fun _ => ?_⟩
  · obtain ⟨hpassed, hphase'⟩ := hspin b' hb'
    rw [Block.Ok, hphase']
    exact Or.inr ⟨congrArg (· + 1) hpassed, rfl⟩
  · exact absurd hc (Bool.eq_false_iff.mp (hnone c))
  · have hphase' : ((s.setBlock b ⟨.outside, (s.block b).passed + 1⟩).block c).phase =
        .publishing target' := hc
    have hfalse := hnone c
    rw [hphase'] at hfalse
    cases hfalse
  · refine ⟨(hinv.cleared b target hphase).trans ?_, ?_⟩
    · exact (congrArg Finset.card hempty).symm
    · exact lt_of_eq_of_lt (congrArg Finset.card hempty) g.dim_pos

/-- The generation a laggard waits for is the current one; the others wait for the next. -/
lemma Inv.spin (hinv : Inv g₀ r s) {target : ℕ} (hphase : (s.block b).phase = .spinning target)
    (hgen : s.generation = target) :
    Inv g₀ r (s.setBlock b ⟨.outside, (s.block b).passed + 1⟩) := by
  have hok := hinv.block b
  have hgeneration := hinv.generation
  rw [Block.Ok, hphase] at hok
  have hlag : (s.block b).passed + 1 = r := by omega
  refine hinv.quiet hlag ?_ ?_ rfl
  · rw [Block.arrivals, Block.arrivals, hphase]
    rfl
  · rw [hphase]
    rfl

/-- **What one access preserves.** -/
theorem Inv.step (hinv : Inv g₀ r s) {a : Fin g.size × Access} (hstep : Step s a t) :
    ∃ r', (r' = r ∨ r' = r + 1) ∧ Inv g₀ r' t := by
  cases hstep with
  | @load b hphase =>
      have hok := hinv.block b
      rw [Block.Ok, hphase] at hok
      refine ⟨r, Or.inl rfl, hinv.quiet ⟨hok, ?_⟩ ?_ ?_ rfl⟩
      · rw [hinv.generation]
        omega
      · rw [Block.arrivals, Block.arrivals, hphase]
        rfl
      · rw [hphase]
        rfl
  | fetchAddLast hphase hlast => exact ⟨r, Or.inl rfl, hinv.fetchAddLast hphase hlast⟩
  | fetchAdd hphase hlast => exact ⟨r, Or.inl rfl, hinv.fetchAdd hphase hlast⟩
  | reset hphase => exact ⟨r, Or.inl rfl, hinv.reset hphase⟩
  | publish hphase => exact ⟨r + 1, Or.inr rfl, hinv.publish hphase⟩
  | spin hphase hgen => exact ⟨r, Or.inl rfl, hinv.spin hphase hgen⟩

end Steps

/-! ### Safety over runs -/

/-- **What the barrier promises** in a state. -/
structure State.Safe (s : State g) : Prop where
  /-- nobody has left a barrier at which somebody has not arrived -/
  leaves : ∀ b b', (s.block b).passed ≤ (s.block b').arrivals
  apart : ∀ b b', (s.block b).passed ≤ (s.block b').passed + 1
  /-- the generation is the awaited one or the one before -/
  awaited : ∀ b target, (s.block b).phase = .spinning target →
    s.generation = target ∨ (s.generation + 1) % 2 ^ 32 = target
  /-- once all have arrived, at most two accesses of the last arriver are left -/
  found : ∀ b target, (s.block b).phase = .spinning target →
    (∀ b', (s.block b).passed < (s.block b').arrivals) → ∃ accesses t, accesses.length ≤ 2 ∧
      Run Step s accesses t ∧ t.block b = s.block b ∧ t.generation = target
  /-- and the awaited generation stays until the block has seen it -/
  kept : ∀ b target, (s.block b).phase = .spinning target → s.generation = target →
    ∀ a t, Step s a t → (t.block b).phase = .spinning target → t.generation = target

section Safe

variable {s t : State g} {g₀ r : ℕ} {b : Fin g.size}

lemma Inv.passed_le (hinv : Inv g₀ r s) (b : Fin g.size) :
    r ≤ (s.block b).passed + 1 ∧ (s.block b).passed ≤ r := by
  have hle := hinv.arrivals_le b
  have hok := hinv.block b
  rw [Block.Ok] at hok
  cases hphase : (s.block b).phase with
  | outside => rw [hphase] at hok; omega
  | loaded target => rw [hphase] at hok; omega
  | resetting target => rw [hphase] at hok; omega
  | publishing target => rw [hphase] at hok; omega
  | spinning target => rw [hphase] at hok; omega

/-- A block spins for the release that follows the barriers it has left. -/
lemma Inv.spinning_cases (hinv : Inv g₀ r s) {target : ℕ}
    (hphase : (s.block b).phase = .spinning target) :
    (s.block b).passed = r ∧ (s.generation + 1) % 2 ^ 32 = target ∧ s.generation ≠ target ∨
      (s.block b).passed + 1 = r ∧ s.generation = target := by
  have hok := hinv.block b
  have hgen := hinv.generation
  rw [Block.Ok, hphase] at hok
  omega

/-- The accesses of the last arriver that are left. -/
lemma Inv.release (hinv : Inv g₀ r s) (hall : ∀ b', r < (s.block b').arrivals) {target : ℕ}
    (hphase : (s.block b).phase = .spinning target) (htarget : target = (g₀ + r + 1) % 2 ^ 32) :
    ∃ accesses t, accesses.length ≤ 2 ∧ Run Step s accesses t ∧ t.block b = s.block b ∧
      t.generation = target := by
  -- somebody closes the barrier, else a block would be missing
  have hclose : ∃ c, (s.block c).phase.closing = true := by
    by_contra hno
    have hnone : ∀ c, (s.block c).phase.closing = false :=
      fun c => Bool.eq_false_iff.mpr fun hc => hno ⟨c, hc⟩
    have hlt := (hinv.counted hnone).2
    have hfull : s.arrivedAt r = Finset.univ := by
      refine Finset.filter_true_of_mem fun c _ => ?_
      have := hinv.arrivals_le c
      have := hall c
      omega
    rw [hfull, Finset.card_univ, Fintype.card_fin] at hlt
    exact absurd hlt (Nat.lt_irrefl _)
  obtain ⟨c, hc⟩ := hclose
  have hok := hinv.block c
  rw [Block.Ok] at hok
  have hbc : b ≠ c := by
    rintro rfl
    rw [hphase] at hc
    cases hc
  cases hphasec : (s.block c).phase with
  | outside => rw [hphasec] at hc; cases hc
  | loaded target' => rw [hphasec] at hc; cases hc
  | spinning target' => rw [hphasec] at hc; cases hc
  | publishing target' =>
      rw [hphasec] at hok
      refine ⟨_, _, ?_, Run.nil.snoc (Step.publish hphasec), ?_, ?_⟩
      · exact Nat.le_succ 1
      · exact block_setBlock_of_ne hbc
      · exact hok.2.trans htarget.symm
  | resetting target' =>
      rw [hphasec] at hok
      have hnext : (State.block { s.setBlock c ⟨.publishing target', (s.block c).passed⟩ with
          arrived := 0 } c).phase = .publishing target' :=
        congrArg Block.phase block_setBlock_self
      refine ⟨_, _, ?_, (Run.nil.snoc (Step.reset hphasec)).snoc (Step.publish hnext), ?_, ?_⟩
      · exact Nat.le_refl 2
      · exact (block_setBlock_of_ne hbc).trans (block_setBlock_of_ne hbc)
      · exact hok.2.trans htarget.symm

/-- The invariant gives safety. -/
lemma Inv.safe (hinv : Inv g₀ r s) : s.Safe where
  leaves := by
    intro b b'
    have := (hinv.passed_le b).2
    have := (hinv.arrivals_le b').1
    omega
  apart := by
    intro b b'
    have := (hinv.passed_le b).2
    have := (hinv.passed_le b').1
    omega
  awaited := by
    intro b target hphase
    rcases hinv.spinning_cases hphase with ⟨-, hnext, -⟩ | ⟨-, hgen⟩
    · exact Or.inr hnext
    · exact Or.inl hgen
  found := by
    intro b target hphase hall
    rcases hinv.spinning_cases hphase with ⟨hpassed, hnext, -⟩ | ⟨-, hgen⟩
    · have hgen := hinv.generation
      refine hinv.release (fun b' => hpassed ▸ hall b') hphase ?_
      omega
    · exact ⟨[], s, Nat.zero_le 2, .nil, rfl, hgen⟩
  kept := by
    intro b target hphase hgen a t hstep hstill
    rcases hinv.spinning_cases hphase with ⟨-, -, hne⟩ | ⟨hpassed, -⟩
    · exact absurd hgen hne
    -- the block has not arrived at the next barrier, so nobody stores the generation
    · have harr : (s.block b).arrivals = r := by
        rw [Block.arrivals, hphase]
        exact hpassed
      cases hstep with
      | load _ => exact hgen
      | fetchAddLast _ _ => exact hgen
      | fetchAdd _ _ => exact hgen
      | reset _ => exact hgen
      | spin _ _ => exact hgen
      | @publish c target' hphasec =>
          have hnot := hinv.not_closing harr c
          rw [hphasec] at hnot
          cases hnot

end Safe

/-- **Grid barrier safety**, over any number of blocks, any start value of the generation, any
interleaving and any number of barriers. -/
theorem gridBarrier_safe (g : Grid) (generation : UInt32)
    {accesses : List (Fin g.size × Access)} {s : State g}
    (hrun : Run Step (init g generation) accesses s) : s.Safe := by
  have hinv : ∃ r, Inv generation.toNat r s := by
    refine hrun.invariant (I := fun s => ∃ r, Inv generation.toNat r s) ?_
      ⟨0, Inv.init generation⟩
    rintro s a t ⟨r, hr⟩ hstep
    obtain ⟨r', -, hr'⟩ := hr.step hstep
    exact ⟨r', hr'⟩
  obtain ⟨r, hr⟩ := hinv
  exact hr.safe

/-- Two blocks. -/
def twoBlocks : Grid := ⟨2, by decide⟩

/-- Block 0 waits for a generation that wraps to zero; block 1 has arrived last. -/
theorem gridBarrier_safe_wrap : ∃ accesses s,
    Run Step (init twoBlocks 0xFFFFFFFF) accesses s ∧ s.Safe ∧
      (s.block (0 : Fin 2)).phase = .spinning 0 ∧ s.generation = 0 := by
  have hnil : Run Step (init twoBlocks 0xFFFFFFFF) [] (init twoBlocks 0xFFFFFFFF) := .nil
  have hload0 : Step (init twoBlocks 0xFFFFFFFF) ((0 : Fin 2), .load) _ := .load rfl
  have hload := (hnil.snoc hload0).snoc (Step.load (g := twoBlocks) (b := (1 : Fin 2)) rfl)
  have hadd := (hload.snoc
    (Step.fetchAdd (g := twoBlocks) (b := (0 : Fin 2)) rfl (by decide))).snoc
    (Step.fetchAddLast (g := twoBlocks) (b := (1 : Fin 2)) rfl (by decide))
  have hrelease := (hadd.snoc (Step.reset (g := twoBlocks) (b := (1 : Fin 2)) rfl)).snoc
    (Step.publish (g := twoBlocks) (b := (1 : Fin 2)) rfl)
  exact ⟨_, _, hrelease, gridBarrier_safe twoBlocks 0xFFFFFFFF hrelease, rfl, rfl⟩

/-! ### The counting barrier -/

/-- The counting barrier the code implements. -/
def State.barrier (s : State g) : Barrier (Fin g.size) where
  arrived := fun b => (s.block b).arrivals
  waiting := fun b => (s.block b).phase.arrived

section Refines

variable {s t : State g} {b : Fin g.size} {blk : Block} {g₀ r : ℕ}

/-- An access that changes neither the arrivals of its block nor whether it waits. -/
lemma barrier_setBlock_same (harr : blk.arrivals = (s.block b).arrivals)
    (hwait : blk.phase.arrived = (s.block b).phase.arrived) :
    (s.setBlock b blk).barrier = s.barrier := by
  refine Barrier.ext (funext fun b' => ?_) (funext fun b' => ?_)
  · by_cases hb : b' = b
    · subst hb
      simpa [State.barrier] using harr
    · simp [State.barrier, block_setBlock_of_ne hb]
  · by_cases hb : b' = b
    · subst hb
      simpa [State.barrier] using hwait
    · simp [State.barrier, block_setBlock_of_ne hb]

lemma barrier_arrive {phase : Phase} (hold : (s.block b).phase.arrived = false)
    (hnew : phase.arrived = true) :
    (s.setBlock b ⟨phase, (s.block b).passed⟩).barrier = s.barrier.arrive b := by
  refine Barrier.ext (funext fun b' => ?_) (funext fun b' => ?_)
  · by_cases hb : b' = b
    · subst hb
      simp [State.barrier, Block.arrivals, hold, hnew]
    · simp [State.barrier, block_setBlock_of_ne hb, Barrier.arrive, hb]
  · by_cases hb : b' = b
    · subst hb
      simp [State.barrier, hnew]
    · simp [State.barrier, block_setBlock_of_ne hb, Barrier.arrive, hb]

lemma barrier_pass (hold : (s.block b).phase.arrived = true) :
    (s.setBlock b ⟨.outside, (s.block b).passed + 1⟩).barrier = s.barrier.pass b := by
  have hnew : Phase.arrived .outside = false := rfl
  refine Barrier.ext (funext fun b' => ?_) (funext fun b' => ?_)
  · by_cases hb : b' = b
    · subst hb
      simp [State.barrier, Block.arrivals, hnew, hold]
    · simp [State.barrier, block_setBlock_of_ne hb]
  · by_cases hb : b' = b
    · subst hb
      simp [State.barrier, hnew]
    · simp [State.barrier, block_setBlock_of_ne hb, Barrier.pass, hb]

/-- **The code refines the counting barrier**: every access leaves it alone, arrives or leaves
through an open barrier. -/
theorem Step.refines {a : Access} (hinv : Inv g₀ r s) (hstep : Step s (b, a) t) :
    t.barrier = s.barrier ∨
      s.barrier.waiting b = false ∧ t.barrier = s.barrier.arrive b ∨
      s.barrier.Opens b ∧ t.barrier = s.barrier.pass b := by
  cases hstep with
  | load hphase =>
      refine Or.inl (barrier_setBlock_same ?_ ?_)
      · rw [Block.arrivals, Block.arrivals, hphase]
        rfl
      · rw [hphase]
        rfl
  | fetchAddLast hphase _ =>
      have hold : (s.block b).phase.arrived = false := by rw [hphase]; rfl
      exact Or.inr (Or.inl ⟨hold, barrier_arrive hold rfl⟩)
  | fetchAdd hphase _ =>
      have hold : (s.block b).phase.arrived = false := by rw [hphase]; rfl
      exact Or.inr (Or.inl ⟨hold, barrier_arrive hold rfl⟩)
  | reset hphase =>
      refine Or.inl (barrier_setBlock_same ?_ ?_)
      · rw [Block.arrivals, Block.arrivals, hphase]
        rfl
      · rw [hphase]
        rfl
  | publish hphase =>
      have hold : (s.block b).phase.arrived = true := by rw [hphase]; rfl
      have hall := (hinv.closing b (by rw [hphase]; rfl)).1
      refine Or.inr (Or.inr ⟨fun b' => ?_, barrier_pass hold⟩)
      exact ((hall b).trans (hall b').symm).le
  | spin hphase hgen =>
      have hold : (s.block b).phase.arrived = true := by rw [hphase]; rfl
      refine Or.inr (Or.inr ⟨fun b' => ?_, barrier_pass hold⟩)
      rcases hinv.spinning_cases hphase with ⟨-, -, hne⟩ | ⟨hpassed, -⟩
      · exact absurd hgen hne
      · have harr : (s.block b).arrivals = r := by
          rw [Block.arrivals, hphase]
          exact hpassed
        calc (s.block b).arrivals = r := harr
          _ ≤ (s.block b').arrivals := (hinv.arrivals_le b').1

end Refines

end GridBarrier

end Braidinfer.Mailbox
