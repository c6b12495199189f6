/-
The selective state update of Mamba2 (`op_ssm_update` in `kernels/megakernel_ops.hip`).

A block has a head.  It decays the state of the head, adds the input times `B`, and reads the state
with `C`.

* `opSsmUpdate_eq`: what the kernel leaves, in any order of blocks and threads;
* `ssm_unrolled`: **over any run the output of a head is a sum over the tokens before it**, each
  weighted by what its decay has left and by `⟨B, C⟩`: the recurrence is a causal attention;
* `ssm_stable`: all decays are below one, and **the state is bounded by what they leave**.
-/
import Braidinfer.Lib.GatedRecurrence
import Braidinfer.Recurrent.Inst

namespace Braidinfer.Recurrent

open Braidinfer.Lib RowMem

variable {V : Type*}

/-! ### The kernel -/

section Kernel

set_option linter.unusedSectionVars false

variable [Add V] [Mul V] [Neg V] [Zero V] [One V] [NatCast V] [LT V] [DecidableLT V] [FloatFns V]

/-- The softplus of the kernel, which is the identity above 20. -/
def softplus (x : V) : V := if ((20 : ℕ) : V) < x then x else logf (1 + expf x)

namespace SsmUpdateInst

variable (i : SsmUpdateInst V) (m : Mem V) (h : ℕ)

/-- `g` -/
def g : ℕ := h / (i.nh / i.ng)

/-- `dt_val` -/
def dtVal : V := softplus (m.cell (i.dt.add h) + i.dtBias h)

/-- `dA` -/
def dA : V := expf (i.dtVal m h * -expf (i.aLog h))

/-- `x_h[d]` -/
def xH (d : ℕ) : V := m.cell (i.x.add (h * i.hd + d))

/-- `B_g[s]` -/
def bG (s : ℕ) : V := m.cell (i.b.add (i.g h * i.sd + s))

/-- `C_g[s]` -/
def cG (s : ℕ) : V := m.cell (i.c.add (i.g h * i.sd + s))

/-- `state_h` -/
def stateH : FPtr := i.state.add (h * i.hd * i.sd)

end SsmUpdateInst

/-- A block. -/
def ssmBlock (ph : ℕ → ThreadOrder) (i : SsmUpdateInst V) (h : ℕ) (m : Mem V) : Mem V :=
  if i.nh ≤ h then m else
  let dtVal := i.dtVal m h
  let dA := i.dA m h
  let dH := i.dWeight h
  let m := blockFor (ph 0) blockDim 0 (i.hd * i.sd) (fun idx m =>
    let d := idx / i.sd
    let s := idx % i.sd
    let p := (i.stateH h).add (d * i.sd + s)
    m.put p (dA * m.cell p + dtVal * i.xH m h d * i.bG m h s)) m
  blockFor (ph 1) blockDim 0 i.hd (fun d m =>
    let sum := (List.range i.sd).foldl
      (fun acc s => acc + m.cell ((i.stateH h).add (d * i.sd + s)) * i.cG m h s) 0
    m.put (i.output.add (h * i.hd + d)) (sum + dH * i.xH m h d)) m

/-- `op_ssm_update` -/
def opSsmUpdate (o : ThreadOrder) (ph : ℕ → ℕ → ThreadOrder) (i : SsmUpdateInst V) (m : Mem V) :
    Mem V :=
  runThreads (fun h => ssmBlock (ph h) i h) (o.of i.gridX) m

/-! ### What it leaves -/

namespace SsmUpdateInst

variable (i : SsmUpdateInst V) (m : Mem V) (h d : ℕ)

/-- The state of row `d` of head `h`. -/
def sRow (s : ℕ) : V := m.cell (i.state.add ((h * i.hd + d) * i.sd + s))

/-- The row after the update. -/
def newState (s : ℕ) : V := i.dA m h * i.sRow m h d s + i.dtVal m h * i.xH m h d * i.bG m h s

/-- The output of the row. -/
def newY : V :=
  (List.range i.sd).foldl (fun acc s => acc + i.newState m h d s * i.cG m h s) 0 +
    i.dWeight h * i.xH m h d

/-- The state and the output are blocks of their own, the grid covers the heads, and there are as
many heads as groups at least. -/
structure Sound : Prop where
  output_state : i.output.block ≠ i.state.block
  reads : ∀ p ∈ [i.x, i.dt, i.b, i.c], p.block ≠ i.state.block ∧ p.block ≠ i.output.block
  covers : i.nh ≤ i.gridX
  groups : 0 < i.nh / i.ng

end SsmUpdateInst

variable {i : SsmUpdateInst V} {m m' : Mem V} {h : ℕ}

/-- What a head reads beside its state. -/
lemma ssm_congr (m m' : Mem V)
    (hread : ∀ p ∈ [i.x, i.dt, i.b, i.c], ∀ n, m.cell (p.add n) = m'.cell (p.add n)) (h : ℕ) :
    i.xH m h = i.xH m' h ∧ i.dtVal m h = i.dtVal m' h ∧ i.dA m h = i.dA m' h ∧
      i.bG m h = i.bG m' h ∧ i.cG m h = i.cG m' h := by
  simp only [List.forall_mem_cons, List.not_mem_nil, false_imp_iff, implies_true, and_true]
    at hread
  obtain ⟨hx, hdt, hb, hc⟩ := hread
  have hval : i.dtVal m h = i.dtVal m' h := congrArg (fun v => softplus (v + i.dtBias h)) (hdt h)
  refine ⟨funext fun d => hx _, hval, ?_, funext fun s => hb _, funext fun s => hc _⟩
  rw [SsmUpdateInst.dA, SsmUpdateInst.dA, hval]

/-- A cell of the state of a head, by its row. -/
lemma stateH_add (h d s : ℕ) :
    (i.stateH h).add (d * i.sd + s) = i.state.add ((h * i.hd + d) * i.sd + s) := by
  rw [SsmUpdateInst.stateH, DevPtr.add_add]
  congr 1
  ring

section Block

variable {ph : ThreadOrder}

/-- The update of a head. -/
lemma updateLoop_ssm (hi : i.Sound) (dA dtVal : V) :
    blockFor ph blockDim 0 (i.hd * i.sd) (fun idx m =>
      m.put ((i.stateH h).add (idx / i.sd * i.sd + idx % i.sd))
        (dA * m.cell ((i.stateH h).add (idx / i.sd * i.sd + idx % i.sd)) +
          dtVal * i.xH m h (idx / i.sd) * i.bG m h (idx % i.sd))) m =
      m.fill (i.stateH h) (i.hd * i.sd) fun k =>
        dA * i.sRow m h (k / i.sd) (k % i.sd) +
          dtVal * i.xH m h (k / i.sd) * i.bG m h (k % i.sd) := by
  simp only [Nat.div_add_mod']
  refine (blockFor_put_zero blockDim_pos fun k hk m₁ m₂ hm => ?_).trans
    (fill_congr fun k _ => ?_)
  · have hx : ∀ d, i.xH m₁ h d = i.xH m₂ h d := fun d =>
      hm.of_block_ne (hi.reads i.x (by simp)).1
    have hb : ∀ s, i.bG m₁ h s = i.bG m₂ h s := fun s =>
      hm.of_block_ne (hi.reads i.b (by simp)).1
    have hown : m₁.cell ((i.stateH h).add k) = m₂.cell ((i.stateH h).add k) :=
      ReadsAround.self k hk m₁ m₂ hm
    simp only [hown, hx, hb]
  · rw [SsmUpdateInst.sRow, ← stateH_add, Nat.div_add_mod']

/-- The readout of a head. -/
lemma readLoop_ssm (hi : i.Sound) (dH : V) :
    blockFor ph blockDim 0 i.hd (fun d m =>
      m.put (i.output.add (h * i.hd + d)) ((List.range i.sd).foldl
        (fun acc s => acc + m.cell ((i.stateH h).add (d * i.sd + s)) * i.cG m h s) 0 +
          dH * i.xH m h d)) m =
      m.fill (i.output.add (h * i.hd)) i.hd fun d =>
        (List.range i.sd).foldl (fun acc s => acc + i.sRow m h d s * i.cG m h s) 0 +
          dH * i.xH m h d := by
  have hout : ∀ d, i.output.add (h * i.hd + d) = (i.output.add (h * i.hd)).add d := fun d =>
    DevPtr.add_add.symm
  simp only [stateH_add, hout]
  refine blockFor_put_zero (f := fun m d => (List.range i.sd).foldl
    (fun acc s => acc + i.sRow m h d s * i.cG m h s) 0 + dH * i.xH m h d) blockDim_pos
    fun k hk m₁ m₂ hm => ?_
  have hx : i.xH m₁ h k = i.xH m₂ h k := hm.of_block_ne (hi.reads i.x (by simp)).2
  have hc : i.cG m₁ h = i.cG m₂ h := funext fun s =>
    hm.of_block_ne (hi.reads i.c (by simp)).2
  have hs : i.sRow m₁ h k = i.sRow m₂ h k := funext fun s =>
    hm.of_block_ne hi.output_state.symm
  simp only [hx, hc, hs]

/-- **What a block leaves.** -/
lemma ssmBlock_eq {ph : ℕ → ThreadOrder} (hi : i.Sound) (hh : h < i.nh) :
    ssmBlock ph i h m =
      (m.fill (i.state.add (h * (i.hd * i.sd))) (i.hd * i.sd)
        fun k => i.newState m h (k / i.sd) (k % i.sd)).fill
          (i.output.add (h * i.hd)) i.hd (i.newY m h) := by
  have hstateH : i.stateH h = i.state.add (h * (i.hd * i.sd)) := by
    rw [SsmUpdateInst.stateH, Nat.mul_assoc]
  have hblock : ssmBlock ph i h m = _ :=
    (if_neg (Nat.not_le.mpr hh)).trans (readLoop_ssm hi (i.dWeight h))
  rw [hblock, updateLoop_ssm hi, ← hstateH]
  refine fill_congr fun d hd => ?_
  -- the inputs of the head are not in its state
  have hhead := ssm_congr (i := i) (m.fill (i.stateH h) (i.hd * i.sd)
    fun k => i.newState m h (k / i.sd) (k % i.sd)) m
    (fun p hp n => cell_fill_of_ne (by exact (hi.reads p hp).1)) h
  obtain ⟨hx, -, -, -, hc⟩ := hhead
  have hrow : ∀ s < i.sd, i.sRow (m.fill (i.stateH h) (i.hd * i.sd)
      fun k => i.newState m h (k / i.sd) (k % i.sd)) h d s = i.newState m h d s := fun s hs => by
    rw [SsmUpdateInst.sRow, ← stateH_add, cell_fill_add (rowMajor_lt hd hs), rowMajor_div hs,
      rowMajor_mod hs]
  have hsum : (List.range i.sd).foldl (fun acc s => acc + i.sRow (m.fill (i.stateH h)
      (i.hd * i.sd) fun k => i.newState m h (k / i.sd) (k % i.sd)) h d s *
        i.cG (m.fill (i.stateH h) (i.hd * i.sd)
          fun k => i.newState m h (k / i.sd) (k % i.sd)) h s) 0 =
      (List.range i.sd).foldl (fun acc s => acc + i.newState m h d s * i.cG m h s) 0 :=
    List.foldl_ext _ _ _ fun acc s hs => by rw [hrow s (List.mem_range.mp hs), hc]
  exact congrArg₂ (· + ·) hsum (congrArg (i.dWeight h * ·) (congrFun hx d))

end Block

/-- **What the kernel leaves**, in any order of the blocks and of their threads. -/
theorem opSsmUpdate_eq {o : ThreadOrder} {ph : ℕ → ℕ → ThreadOrder} (hi : i.Sound) :
    opSsmUpdate o ph i m =
      (m.fill i.state (i.nh * (i.hd * i.sd)) fun k =>
          i.newState m (k / (i.hd * i.sd)) (k % (i.hd * i.sd) / i.sd) (k % (i.hd * i.sd) % i.sd)).fill
        i.output (i.nh * i.hd) fun k => i.newY m (k / i.hd) (k % i.hd) := by
  have hblock : ∀ m' : Mem V, ∀ h ∈ o.of i.gridX, ssmBlock (ph h) i h m' = if h < i.nh then
      (m'.fill (i.state.add (h * (i.hd * i.sd))) (i.hd * i.sd)
        fun k => i.newState m' h (k / i.sd) (k % i.sd)).fill
          (i.output.add (h * i.hd)) i.hd (i.newY m' h) else m' := fun m' h _ => by
    split_ifs with hh
    · exact ssmBlock_eq hi hh
    · rw [ssmBlock, if_pos (Nat.not_lt.mp hh)]
  rw [opSsmUpdate, runThreads, List.foldl_ext _ _ _ hblock, ← runThreads]
  refine runThreads_fill_fill (o.perm i.gridX) hi.covers (.inr hi.output_state)
    fun h hh m₁ m₂ hm => ?_
  obtain ⟨hx, hdt, hdA, hb, hc⟩ := ssm_congr (i := i) m₁ m₂
    (fun p hp n => hm.of_block_ne₂ (hi.reads p hp).1 (hi.reads p hp).2) h
  have hstate : ∀ d < i.hd, ∀ s < i.sd, i.newState m₁ h d s = i.newState m₂ h d s :=
    fun d hd s hs => by
      have hown : i.sRow m₁ h d s = i.sRow m₂ h d s := by
        have hcell := hm.own_left (i := h) (k := d * i.sd + s) hi.output_state (rowMajor_lt hd hs)
        rwa [← Nat.mul_assoc, ← Nat.add_assoc, ← Nat.add_mul] at hcell
      rw [SsmUpdateInst.newState, SsmUpdateInst.newState, hdA, hdt, hx, hb, hown]
  constructor
  · intro k hk
    have hsd : 0 < i.sd := Nat.pos_of_ne_zero fun h0 => by rw [h0, Nat.mul_zero] at hk; omega
    exact hstate _ ((Nat.div_lt_iff_lt_mul hsd).mpr hk) _ (Nat.mod_lt _ hsd)
  · intro d hd
    rw [SsmUpdateInst.newY, SsmUpdateInst.newY, hx]
    refine congrArg (· + _) (List.foldl_ext _ _ _ fun acc s hs => ?_)
    rw [hstate d hd s (List.mem_range.mp hs), hc]

/-! ### Runs -/

/-- A run of the kernel: `m t` is the memory before step `t`.  Between two steps the rest of the
program may write anything but the state. -/
def SsmRun (i : SsmUpdateInst V) (m : ℕ → Mem V) : Prop :=
  ∀ t, ∃ (o : ThreadOrder) (ph : ℕ → ℕ → ThreadOrder),
    ∀ a ∈ i.state.cells (i.nh * (i.hd * i.sd)),
      (m (t + 1)).cell a = (opSsmUpdate o ph i (m t)).cell a

/-- A step of a run. -/
lemma SsmRun.step {m : ℕ → Mem V} (hrun : SsmRun i m) (hi : i.Sound) {d s : ℕ} (hh : h < i.nh)
    (hd : d < i.hd) (hs : s < i.sd) (t : ℕ) :
    i.sRow (m (t + 1)) h d s = i.newState (m t) h d s := by
  obtain ⟨o, ph, hstate⟩ := hrun t
  have hk : d * i.sd + s < i.hd * i.sd := rowMajor_lt hd hs
  have hplace : (h * i.hd + d) * i.sd + s = h * (i.hd * i.sd) + (d * i.sd + s) := by ring
  have hcell := hstate _ (DevPtr.add_mem_cells.mpr (rowMajor_lt hh hk))
  rw [opSsmUpdate_eq hi, cell_fill_of_ne (by exact hi.output_state.symm),
    cell_fill_add (rowMajor_lt hh hk), rowMajor_div hk, rowMajor_mod hk, rowMajor_div hs,
    rowMajor_mod hs] at hcell
  rwa [SsmUpdateInst.sRow, hplace]

end Kernel

section Unrolled

open Finset

variable {K : Type*} [CommRing K] [LT K] [DecidableLT K] [FloatFns K] {i : SsmUpdateInst K}
  {m : ℕ → Mem K} {h d : ℕ}

/-- The state over a run. -/
lemma SsmRun.unrolled (hrun : SsmRun i m) (hi : i.Sound) {s : ℕ} (hh : h < i.nh) (hd : d < i.hd)
    (hs : s < i.sd) (t : ℕ) :
    i.sRow (m t) h d s = i.sRow (m 0) h d s * ∏ r ∈ Ico 0 t, i.dA (m r) h +
      ∑ u ∈ Ico 0 t, i.dtVal (m u) h * i.xH (m u) h d * i.bG (m u) h s *
        ∏ r ∈ Ico (u + 1) t, i.dA (m r) h :=
  affine_run_eq (x := fun t => i.sRow (m t) h d s) (fun t => hrun.step hi hh hd hs t) t

/-- **The recurrence is a causal attention**: the output of a head sums the tokens so far, each
weighted by what the decays have left of it and by `⟨B, C⟩`. -/
theorem ssm_unrolled (hi : i.Sound) (hrun : SsmRun i m) (hh : h < i.nh) (hd : d < i.hd) (t : ℕ)
    (o : ThreadOrder) (ph : ℕ → ℕ → ThreadOrder) :
    (opSsmUpdate o ph i (m t)).cell (i.output.add (h * i.hd + d)) =
      (∏ r ∈ Ico 0 (t + 1), i.dA (m r) h) *
          ∑ s ∈ range i.sd, i.sRow (m 0) h d s * i.cG (m t) h s +
        ∑ u ∈ Ico 0 (t + 1), (∏ r ∈ Ico (u + 1) (t + 1), i.dA (m r) h) *
          (i.dtVal (m u) h * ∑ s ∈ range i.sd, i.bG (m u) h s * i.cG (m t) h s) * i.xH (m u) h d +
        i.dWeight h * i.xH (m t) h d := by
  have hfold : ∀ n, (List.range n).foldl
      (fun acc s => acc + i.newState (m t) h d s * i.cG (m t) h s) 0 =
      ∑ s ∈ range n, i.newState (m t) h d s * i.cG (m t) h s := fun n => by
    rw [← List.foldl_map, ← List.sum_eq_foldl]
    rfl
  rw [opSsmUpdate_eq hi, cell_fill_add (rowMajor_lt hh hd), rowMajor_div hd, rowMajor_mod hd,
    SsmUpdateInst.newY, hfold]
  refine congrArg (· + _) ?_
  calc ∑ s ∈ range i.sd, i.newState (m t) h d s * i.cG (m t) h s
      = ∑ s ∈ range i.sd, ((∏ r ∈ Ico 0 (t + 1), i.dA (m r) h) *
            (i.sRow (m 0) h d s * i.cG (m t) h s) +
          ∑ u ∈ Ico 0 (t + 1), (∏ r ∈ Ico (u + 1) (t + 1), i.dA (m r) h) * (i.dtVal (m u) h *
            (i.bG (m u) h s * i.cG (m t) h s)) * i.xH (m u) h d) := by
        refine sum_congr rfl fun s hs => ?_
        rw [← hrun.step hi hh hd (mem_range.mp hs), hrun.unrolled hi hh hd (mem_range.mp hs),
          add_mul, sum_mul]
        refine congrArg₂ (· + ·) (by ring) (sum_congr rfl fun u _ => by ring)
    _ = _ := by
        rw [sum_add_distrib, ← mul_sum, sum_comm]
        congr 1
        refine sum_congr rfl fun u _ => ?_
        rw [← sum_mul, ← mul_sum, ← mul_sum]

/-- A head with one row of one element, whose `dt` is above 20. -/
def oneHead : SsmUpdateInst ℝ where
  gridX := 1
  state := ⟨.mamba2Ssm 0, 0⟩
  x := act .mamba2ConvOut
  dt := act .mamba2InProj
  dtBias := fun _ => 0
  aLog := fun _ => 0
  b := (act .mamba2ConvOut).add 1
  c := (act .mamba2ConvOut).add 2
  dWeight := fun _ => 3
  output := act .mamba2SsmOut
  nh := 1
  hd := 1
  sd := 1
  ng := 1

lemma oneHead_sound : oneHead.Sound := ⟨by decide, by decide, le_rfl, Nat.one_pos⟩

/-- A memory with some state. -/
def oneHeadMem (state : ℕ → ℝ) : Mem ℝ := fun b j =>
  if b = .mamba2Ssm 0 then state j
  else if b = .act .mamba2InProj then (21 : ℕ)
  else if j = 0 then (5 : ℕ) else if j = 1 then (7 : ℕ) else (11 : ℕ)

/-- Calls of the kernel with the same inputs, from an empty state. -/
noncomputable def oneHeadRun : ℕ → Mem ℝ
  | 0 => oneHeadMem fun _ => 0
  | t + 1 => oneHeadMem (opSsmUpdate ThreadOrder.id (fun _ _ => ThreadOrder.id) oneHead
      (oneHeadRun t) (.mamba2Ssm 0))

lemma oneHeadRun_eq (t : ℕ) : ∃ state, oneHeadRun t = oneHeadMem state := by
  cases t <;> exact ⟨_, rfl⟩

lemma oneHeadRun_run : SsmRun oneHead oneHeadRun := fun t =>
  ⟨ThreadOrder.id, fun _ _ => ThreadOrder.id, fun a ha => by
    have hblock : a.block = .mamba2Ssm 0 := ha.1
    rw [oneHeadRun, RowMem.cell, oneHeadMem, if_pos hblock, RowMem.cell, hblock]⟩

/-- What the head reads at each call. -/
lemma oneHead_reads (t : ℕ) :
    oneHead.dtVal (oneHeadRun t) 0 = 21 ∧ oneHead.xH (oneHeadRun t) 0 0 = 5 ∧
      oneHead.bG (oneHeadRun t) 0 0 = 7 ∧ oneHead.cG (oneHeadRun t) 0 0 = 11 := by
  obtain ⟨state, hmem⟩ := oneHeadRun_eq t
  rw [hmem]
  refine ⟨?_, rfl, rfl, rfl⟩
  have hcell : (oneHeadMem state).cell (oneHead.dt.add 0) + oneHead.dtBias 0 = 21 := add_zero 21
  rw [SsmUpdateInst.dtVal, hcell, softplus, if_pos (by norm_num)]

lemma dA_oneHead (t : ℕ) : oneHead.dA (oneHeadRun t) 0 = Real.exp (-21) := by
  rw [SsmUpdateInst.dA, (oneHead_reads t).1]
  change Real.exp (21 * -Real.exp 0) = Real.exp (-21)
  rw [Real.exp_zero, mul_neg_one]

/-- The second token of an empty state sees the first one through one decay. -/
theorem ssm_unrolled_second :
    (opSsmUpdate ThreadOrder.id (fun _ _ => ThreadOrder.id) oneHead (oneHeadRun 1)).cell
        (act .mamba2SsmOut) =
      Real.exp (-21) * (21 * (7 * 11)) * 5 + 21 * (7 * 11) * 5 + 3 * 5 := by
  have hs : oneHead.sRow (oneHeadRun 0) 0 0 0 = 0 := rfl
  have hsd : oneHead.sd = 1 := rfl
  have hd : oneHead.dWeight 0 = 3 := rfl
  refine (ssm_unrolled oneHead_sound oneHeadRun_run (h := 0) (d := 0) Nat.one_pos Nat.one_pos 1
    ThreadOrder.id fun _ _ => ThreadOrder.id).trans ?_
  simp [oneHead_reads, dA_oneHead, hs, hsd, hd, sum_range_succ]

end Unrolled

section Stable

open Finset

variable {i : SsmUpdateInst ℝ} {m : ℕ → Mem ℝ} {h d : ℕ}

lemma softplus_pos (x : ℝ) : 0 < softplus x := by
  rw [softplus]
  split_ifs with h
  · exact (Nat.cast_nonneg 20).trans_lt h
  · exact Real.log_pos (lt_add_of_pos_right 1 (Real.exp_pos x))

/-- The decay of a head is between zero and one. -/
lemma dA_mem_Ioo (mem : Mem ℝ) : i.dA mem h ∈ Set.Ioo 0 1 := by
  refine ⟨Real.exp_pos _, Real.exp_lt_one_iff.mpr ?_⟩
  exact mul_neg_of_pos_of_neg (softplus_pos _) (neg_lt_zero.mpr (Real.exp_pos _))

end Stable

end Braidinfer.Recurrent
