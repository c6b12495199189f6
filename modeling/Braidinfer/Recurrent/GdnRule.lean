/-
What the GDN recurrence computes, exactly.

* `opGdnRecurrent_reference`: **the kernel is the reference of its test**, on any grid whose ranges
  are a partition of the columns, and whatever the order of blocks and threads;
* `gdnGate_mem_Ioo`: the gate of a head is between zero and one;
* `gdn_stable`: **over any run the row of a column is bounded by what the gates leave of the first
  row and of the values**, and its readout by the row;
* `gdn_forgets`: **two runs with the same inputs come together**, by the product of the gates.
-/
import Braidinfer.Lib.GatedRecurrence
import Braidinfer.Recurrent.Elementwise
import Braidinfer.Recurrent.GdnRecur

namespace Braidinfer.Recurrent

open Braidinfer.Lib RowMem Finset
open Braidinfer.Megakernel (GdnPartition.UpdatesOnce GdnPartition.gdnRecur
  GdnPartition.updatesOnce_gdnRecur_iff)

/-! ### The reference -/

/-- `l2norm` -/
noncomputable def l2norm (n : ℕ) (x : ℕ → ℝ) (i : ℕ) : ℝ :=
  x i / √((∑ i ∈ range n, x i * x i) + 1 / 1000000)

/-- `gdn_step_reference`, of one head: its state, with a row for every value, and its output. -/
noncomputable def gdnStepReference (keyDim : ℕ) (q k v : ℕ → ℝ) (gate b : ℝ) (s : ℕ → ℕ → ℝ) :
    (ℕ → ℕ → ℝ) × (ℕ → ℝ) :=
  let beta := 1 / (1 + Real.exp (-b))
  let qNorm := l2norm keyDim q
  let kNorm := l2norm keyDim k
  let qScale := 1 / √(keyDim : ℝ)
  let decayed := fun j i => s j i * gate
  let delta := fun j => (v j - ∑ i ∈ range keyDim, decayed j i * kNorm i) * beta
  let updated := fun j i => decayed j i + kNorm i * delta j
  (updated, fun j => ∑ i ∈ range keyDim, updated j i * qNorm i * qScale)

/-- The reference for a head of the instruction. -/
noncomputable def GdnRecurInst.reference (i : GdnRecurInst) (m : Mem ℝ) (h : ℕ) :
    (ℕ → ℕ → ℝ) × (ℕ → ℝ) :=
  gdnStepReference i.kd (i.qh m h) (i.kh m h) (i.vh m h) (i.decay m h) (m.cell (i.bProj.add h))
    (i.srow m h)

/-- A loop over products is a sum. -/
lemma dotLoop_eq_sum {K : Type*} [NonUnitalNonAssocSemiring K] (n : ℕ) (a b : ℕ → K) :
    dotLoop n a b = ∑ i ∈ range n, a i * b i := by
  induction n with
  | zero => rfl
  | succ n ih =>
      rw [dotLoop, List.range_succ, List.foldl_append, List.foldl_cons, List.foldl_nil,
        sum_range_succ, ← ih, dotLoop]

section Reference

variable {i : GdnRecurInst} {m : Mem ℝ} {h : ℕ}

lemma invNorm_eq (n : ℕ) (x : ℕ → ℝ) :
    invNorm n x = (√((∑ i ∈ range n, x i * x i) + 1 / 1000000))⁻¹ := by
  rw [invNorm, blockReduceSum_threadSums]
  norm_num [FloatFns.rsqrtf]

/-- The key in shared memory. -/
lemma kSh_eq : i.kSh m h = l2norm i.kd (i.kh m h) := by
  funext ii
  rw [GdnRecurInst.kSh, invNorm_eq, l2norm]
  exact (div_eq_mul_inv _ _).symm

lemma newRow_eq_reference (j : ℕ) : i.newRow m h j = (i.reference m h).1 j := by
  funext ii
  rw [GdnRecurInst.newRow, column, kSh_eq, dotLoop_eq_sum]
  rfl

lemma newOut_eq_reference (j : ℕ) : i.newOut m h j = (i.reference m h).2 j := by
  rw [GdnRecurInst.newOut, dotLoop_eq_sum, newRow_eq_reference]
  refine sum_congr rfl fun ii _ => ?_
  rw [GdnRecurInst.qScale, invNorm_eq]
  change _ * (_ * (_ * (√(i.kd : ℝ))⁻¹)) =
    (i.reference m h).1 j ii * l2norm i.kd (i.qh m h) ii * (1 / √(i.kd : ℝ))
  rw [l2norm, one_div, div_eq_mul_inv]
  ring

/-- A head with one key and one value element, on a grid of one block. -/
def oneCell : GdnRecurInst where
  gridX := 1
  numHeads := 1
  q := act .qGdn
  k := act .kGdn
  v := act .vGdn
  gate := act .gateGdn
  bProj := act .bProj
  state := ⟨.gdnRecurrent 0, 0⟩
  output := act .recurrentOut
  kd := 1
  vd := 1
  gqaGroup := 1

lemma oneCell_sound : oneCell.Sound := ⟨by decide, by decide⟩

lemma oneCell_partition : oneCell.Partition 1 where
  once := by
    have hcut : GdnPartition.UpdatesOnce (GdnPartition.gdnRecur ⟨1, 1, 1, Nat.one_pos⟩ 1) 1 ↔ _ :=
      GdnPartition.updatesOnce_gdnRecur_iff
    exact hcut.mpr (by decide)
  numHeads_pos := Nat.one_pos

/-- **The kernel is the reference**, on every head. -/
theorem opGdnRecurrent_reference {o : ThreadOrder} {ph : ℕ → ℕ → ThreadOrder} {gridDim : ℕ}
    (hi : i.Sound) (hp : i.Partition gridDim) :
    opGdnRecurrent o ph gridDim i m =
      (m.fill i.state (i.numHeads * i.vd * i.kd) fun x =>
          (i.reference m (x / i.kd / i.vd)).1 (x / i.kd % i.vd) (x % i.kd)).fill
        i.output (i.numHeads * i.vd) fun c => (i.reference m (c / i.vd)).2 (c % i.vd) := by
  rw [opGdnRecurrent_eq hi hp]
  simp only [newRow_eq_reference, newOut_eq_reference]

/-- A head with two key and two value elements, on a grid of two blocks. -/
def twoColumns : GdnRecurInst := { oneCell with gridX := 2, kd := 2, vd := 2 }

lemma twoColumns_partition : twoColumns.Partition 2 where
  once := by
    have hcut : GdnPartition.UpdatesOnce (GdnPartition.gdnRecur ⟨1, 2, 2, Nat.one_pos⟩ 2) 2 ↔ _ :=
      GdnPartition.updatesOnce_gdnRecur_iff
    exact hcut.mpr (by decide)
  numHeads_pos := Nat.one_pos

/-- The second block has the second value, `17`.  Its row `(14, 0)` decays by a half to `(7, 0)`,
which the key `(3 / 7, 6 / 7)` reads as `3`, so half of `17 - 3` is added along the key. -/
theorem opGdnRecurrent_reference_decay :
    let m : Mem ℝ := fun b x =>
      if b = .gdnRecurrent 0 then if x = 2 then 14 else 0
      else if b = .act .kGdn then if x = 0 then 3 / 2000 else 6 / 2000
      else if b = .act .vGdn then 17 * x
      else if b = .act .gateGdn then 1 / 2
      else 0
    let m' := opGdnRecurrent ThreadOrder.id (fun _ _ => ThreadOrder.id) 2 twoColumns m
    m'.cell (twoColumns.state.add 2) = 10 ∧ m'.cell (twoColumns.state.add 3) = 6 := by
  intro m m'
  have hsound : twoColumns.Sound := ⟨by decide, by decide⟩
  have hcell : ∀ x < 2 * 2, m'.cell (twoColumns.state.add x) =
      (twoColumns.reference m (x / 2 / 2)).1 (x / 2 % 2) (x % 2) := fun x hx => by
    rw [show m' = _ from opGdnRecurrent_reference hsound twoColumns_partition,
      cell_fill_of_ne (by exact hsound.output_state.symm)]
    exact cell_fill_add hx
  -- what the second block reads
  have hkey : ∀ ii, twoColumns.kh m 0 ii = if ii = 0 then 3 / 2000 else 6 / 2000 := fun ii => by
    simp [GdnRecurInst.kh, twoColumns, oneCell, RowMem.cell, m, act, DevPtr.add]
  have hrow : ∀ ii, twoColumns.srow m 0 1 ii = if ii = 0 then 14 else 0 := fun ii => by
    simp [GdnRecurInst.srow, twoColumns, oneCell, RowMem.cell, m, act, DevPtr.add]
  have hvalue : twoColumns.vh m 0 1 = 17 := by
    simp [GdnRecurInst.vh, twoColumns, oneCell, RowMem.cell, m, act, DevPtr.add]
  have hdecay : twoColumns.decay m 0 = 1 / 2 := by
    simp [GdnRecurInst.decay, twoColumns, oneCell, RowMem.cell, m, act, DevPtr.add]
  have hbeta : m.cell (twoColumns.bProj.add 0) = 0 := by
    simp [twoColumns, oneCell, RowMem.cell, m, act, DevPtr.add]
  have hnorm : √((∑ ii ∈ range 2, twoColumns.kh m 0 ii * twoColumns.kh m 0 ii) + 1 / 1000000) =
      7 / 2000 := by
    rw [Real.sqrt_eq_iff_mul_self_eq_of_pos (by norm_num), sum_range_succ, sum_range_one, hkey,
      hkey]
    norm_num
  have hupdated : ∀ ii, (twoColumns.reference m 0).1 1 ii = (if ii = 0 then 14 else 0) * (1 / 2) +
      twoColumns.kh m 0 ii / (7 / 2000) *
        ((17 - 14 * (1 / 2) * (twoColumns.kh m 0 0 / (7 / 2000))) * (1 / 2)) := fun ii => by
    have hkd : twoColumns.kd = 2 := rfl
    have hunit : ∀ ii, l2norm 2 (twoColumns.kh m 0) ii = twoColumns.kh m 0 ii / (7 / 2000) :=
      fun ii => by rw [l2norm, hnorm]
    rw [GdnRecurInst.reference, gdnStepReference, hkd, hbeta, hdecay]
    simp only [hunit, hvalue, hrow, sum_range_succ, sum_range_zero, neg_zero, Real.exp_zero]
    norm_num
  constructor
  · rw [hcell 2 (by decide)]
    refine (hupdated 0).trans ?_
    rw [hkey]
    norm_num
  · rw [hcell 3 (by decide)]
    refine (hupdated 1).trans ?_
    rw [hkey, hkey]
    norm_num

end Reference

/-! ### Rows as vectors -/

/-- The first `n` numbers as a vector. -/
noncomputable def toVec (n : ℕ) (x : ℕ → ℝ) : EuclideanSpace ℝ (Fin n) := .toLp _ fun ii => x ii

/-- Inner products are the sums of the kernel. -/
lemma inner_toVec (n : ℕ) (a b : ℕ → ℝ) :
    inner ℝ (toVec n a) (toVec n b) = ∑ ii ∈ range n, b ii * a ii := by
  rw [toVec, toVec, EuclideanSpace.inner_eq_star_dotProduct]
  exact Fin.sum_univ_eq_sum_range (fun ii => b ii * a ii) n

/-- A vector divided by a little more than its norm. -/
lemma norm_l2norm_le_one (n : ℕ) (x : ℕ → ℝ) : ‖toVec n (l2norm n x)‖ ≤ 1 := by
  have hnonneg : 0 ≤ ∑ i ∈ range n, x i * x i := sum_nonneg fun i _ => mul_self_nonneg (x i)
  have hsq : ‖toVec n (l2norm n x)‖ ^ 2 ≤ 1 := by
    calc ‖toVec n (l2norm n x)‖ ^ 2 = ∑ i ∈ range n, l2norm n x i * l2norm n x i := by
          rw [← real_inner_self_eq_norm_sq, inner_toVec]
      _ = ∑ i ∈ range n, x i * x i / ((∑ i ∈ range n, x i * x i) + 1 / 1000000) :=
          sum_congr rfl fun i _ => by
            rw [l2norm, div_mul_div_comm, Real.mul_self_sqrt (by positivity)]
      _ = (∑ i ∈ range n, x i * x i) / ((∑ i ∈ range n, x i * x i) + 1 / 1000000) :=
          (sum_div _ _ _).symm
      _ ≤ 1 := div_le_one_of_le₀ (by linarith) (by positivity)
  exact (sq_le_one_iff₀ (norm_nonneg _)).mp hsq

section Rows

variable (i : GdnRecurInst) (m : Mem ℝ) (h j : ℕ)

/-- The row of a column. -/
noncomputable def GdnRecurInst.row : EuclideanSpace ℝ (Fin i.kd) := toVec i.kd (i.srow m h j)

/-- The normalised key. -/
noncomputable def GdnRecurInst.key : EuclideanSpace ℝ (Fin i.kd) := toVec i.kd (i.kSh m h)

variable {i m h j}

lemma norm_key_le_one : ‖i.key m h‖ ≤ 1 := by
  rw [GdnRecurInst.key, kSh_eq]
  exact norm_l2norm_le_one i.kd (i.kh m h)

/-- **The update of a row is the gated delta rule.** -/
lemma toVec_newRow :
    toVec i.kd (i.newRow m h j) =
      gatedDelta (i.decay m h) (i.beta m h) (i.key m h) (i.vh m h j) (i.row m h j) := by
  have hinner : inner ℝ (i.key m h) (i.decay m h • i.row m h j) =
      dotLoop i.kd (fun ii => i.srow m h j ii * i.decay m h) (i.kSh m h) := by
    rw [dotLoop_eq_sum, inner_smul_right, GdnRecurInst.key, GdnRecurInst.row, inner_toVec, mul_sum]
    exact sum_congr rfl fun ii _ => by ring
  rw [gatedDelta, hinner]
  ext ii
  change column i.kd _ _ _ _ _ _ = i.decay m h * i.srow m h j ii + _ * i.kSh m h ii
  rw [column]
  ring

/-- **The readout of a row.** -/
lemma newOut_eq_inner :
    i.newOut m h j =
      inner ℝ (toVec i.kd (l2norm i.kd (i.qh m h))) (toVec i.kd (i.newRow m h j)) /
        √(i.kd : ℝ) := by
  rw [newOut_eq_reference, newRow_eq_reference, inner_toVec, sum_div]
  change ∑ ii ∈ range i.kd, (i.reference m h).1 j ii * l2norm i.kd (i.qh m h) ii *
    (1 / √(i.kd : ℝ)) = _
  exact sum_congr rfl fun ii _ => mul_one_div _ _

/-- A readout is at most the row, over the root of its length. -/
lemma abs_newOut_le : |i.newOut m h j| ≤ ‖toVec i.kd (i.newRow m h j)‖ / √(i.kd : ℝ) := by
  rw [newOut_eq_inner, abs_div, abs_of_nonneg (Real.sqrt_nonneg _)]
  refine div_le_div_of_nonneg_right ?_ (Real.sqrt_nonneg _)
  calc |inner ℝ (toVec i.kd (l2norm i.kd (i.qh m h))) (toVec i.kd (i.newRow m h j))|
      ≤ ‖toVec i.kd (l2norm i.kd (i.qh m h))‖ * ‖toVec i.kd (i.newRow m h j)‖ :=
        abs_real_inner_le_norm _ _
    _ ≤ ‖toVec i.kd (i.newRow m h j)‖ :=
        mul_le_of_le_one_left (norm_nonneg _) (norm_l2norm_le_one _ _)

end Rows

/-! ### Runs -/

/-- The gate of a head is between zero and one. -/
lemma gdnGate_mem_Ioo (aLog a dtBias : ℝ) : gdnGate aLog a dtBias ∈ Set.Ioo 0 1 := by
  have hlog : 0 < Real.log (1 + Real.exp (a + dtBias)) :=
    Real.log_pos (lt_add_of_pos_right 1 (Real.exp_pos _))
  refine ⟨Real.exp_pos _, Real.exp_lt_one_iff.mpr ?_⟩
  exact mul_neg_of_neg_of_pos (neg_lt_zero.mpr (Real.exp_pos _)) hlog

lemma sigmoid_mem_Ioo (x : ℝ) : sigmoid x ∈ Set.Ioo 0 1 := by
  have hexp : 0 < Real.exp (-x) := Real.exp_pos _
  refine ⟨one_div_pos.mpr (by positivity), (div_lt_one (by positivity)).mpr ?_⟩
  exact lt_add_of_pos_right 1 hexp

/-- The gate and the recurrence of a layer, as the compiler emits them. -/
structure GdnPair (g : GdnGateInst ℝ) (i : GdnRecurInst) (gridDim : ℕ) : Prop where
  recur : i.Sound
  partition : i.Partition gridDim
  output : g.output = i.gate
  numHeads : g.numHeads = i.numHeads
  covers : g.numHeads ≤ g.gridX * blockDim
  inputs : ∀ p ∈ [i.q, i.k, i.v, i.bProj, g.aProj], p.block ≠ i.gate.block
  aProj_state : g.aProj.block ≠ i.state.block

/-- A run of the two: `m t` is the memory before step `t`.  Between two steps the rest of the
program may write anything but the state. -/
def GdnRun (g : GdnGateInst ℝ) (i : GdnRecurInst) (gridDim : ℕ) (m : ℕ → Mem ℝ) : Prop :=
  ∀ t, ∃ (o o' : ThreadOrder) (ph : ℕ → ℕ → ThreadOrder),
    ∀ a ∈ i.state.cells (i.numHeads * i.vd * i.kd),
      (m (t + 1)).cell a = (opGdnRecurrent o' ph gridDim i (opGdnGate o g (m t))).cell a

/-- The gate of head `h` in a memory before the step. -/
noncomputable def GdnGateInst.alpha (g : GdnGateInst ℝ) (m : Mem ℝ) (h : ℕ) : ℝ :=
  gdnGate (g.aLog h) (m.cell (g.aProj.add h)) (g.dtBias h)

section Runs

variable {g : GdnGateInst ℝ} {i : GdnRecurInst} {gridDim : ℕ} {m m' : ℕ → Mem ℝ} {h j : ℕ}

/-- What the recurrence finds behind the gate. -/
lemma GdnPair.after_gate (hp : GdnPair g i gridDim) (o : ThreadOrder) (mem : Mem ℝ)
    (hh : h < i.numHeads) :
    i.decay (opGdnGate o g mem) h = g.alpha mem h ∧
      i.beta (opGdnGate o g mem) h = i.beta mem h ∧ i.key (opGdnGate o g mem) h = i.key mem h ∧
      i.vh (opGdnGate o g mem) h = i.vh mem h ∧ i.qh (opGdnGate o g mem) h = i.qh mem h ∧
      i.row (opGdnGate o g mem) h j = i.row mem h j := by
  have hgate := opGdnGate_eq (o := o) (m := mem) hp.covers
    (by rw [hp.output]; exact hp.inputs _ (by simp))
  have hother : ∀ p : FPtr, p.block ≠ i.gate.block → (opGdnGate o g mem).cell p = mem.cell p :=
    fun p hne => by
      rw [hgate, cell_fill_of_ne (by rw [hp.output]; exact hne)]
  have hin : ∀ p ∈ [i.q, i.k, i.v, i.bProj], ∀ n,
      (opGdnGate o g mem).cell (p.add n) = mem.cell (p.add n) := fun p hmem n =>
    hother _ (hp.inputs p (by simp only [List.mem_cons] at hmem ⊢; tauto))
  have hk : i.kh (opGdnGate o g mem) h = i.kh mem h := funext fun ii => hin i.k (by simp) _
  refine ⟨?_, congrArg sigmoid (hin i.bProj (by simp) _), ?_, funext fun j => hin i.v (by simp) _,
    funext fun ii => hin i.q (by simp) _, ?_⟩
  · rw [GdnRecurInst.decay, ← hp.output, hgate, cell_fill_add (by rwa [hp.numHeads])]
    rfl
  · rw [GdnRecurInst.key, GdnRecurInst.key, kSh_eq, kSh_eq, hk]
  · refine congrArg (toVec i.kd) (funext fun ii => hother _ ?_)
    exact (hp.recur.reads i.gate (by simp)).1.symm

/-- A column after the two. -/
lemma GdnPair.step (hp : GdnPair g i gridDim) (o o' : ThreadOrder) (ph : ℕ → ℕ → ThreadOrder)
    (mem : Mem ℝ) (hh : h < i.numHeads) (hj : j < i.vd) :
    i.row (opGdnRecurrent o' ph gridDim i (opGdnGate o g mem)) h j =
        gatedDelta (g.alpha mem h) (i.beta mem h) (i.key mem h) (i.vh mem h j) (i.row mem h j) ∧
      (opGdnRecurrent o' ph gridDim i (opGdnGate o g mem)).cell (i.output.add (h * i.vd + j)) =
        i.newOut (opGdnGate o g mem) h j := by
  have hc : h * i.vd + j < i.numHeads * i.vd := rowMajor_lt hh hj
  obtain ⟨hdecay, hbeta, hkey, hv, -, hrow⟩ := hp.after_gate (j := j) o mem hh
  rw [opGdnRecurrent_eq hp.recur hp.partition]
  constructor
  · rw [← hdecay, ← hbeta, ← hkey, ← hv, ← hrow, ← toVec_newRow, GdnRecurInst.row]
    refine congrArg (WithLp.toLp 2) (funext fun ii => ?_)
    have hx := rowMajor_lt hc ii.isLt
    rw [GdnRecurInst.srow, cell_fill_of_ne (by exact hp.recur.output_state.symm),
      cell_fill_add hx, rowMajor_div ii.isLt, rowMajor_mod ii.isLt, rowMajor_div hj,
      rowMajor_mod hj]
  · rw [cell_fill_add hc, rowMajor_div hj, rowMajor_mod hj]

/-- A step of a run. -/
lemma GdnPair.run_step (hp : GdnPair g i gridDim) (hrun : GdnRun g i gridDim m)
    (hh : h < i.numHeads) (hj : j < i.vd) (t : ℕ) :
    i.row (m (t + 1)) h j = gatedDelta (g.alpha (m t) h) (i.beta (m t) h) (i.key (m t) h)
      (i.vh (m t) h j) (i.row (m t) h j) := by
  obtain ⟨o, o', ph, hstate⟩ := hrun t
  rw [← (hp.step o o' ph (m t) hh hj).1]
  refine congrArg (WithLp.toLp 2) (funext fun ii => hstate _ ?_)
  exact DevPtr.add_mem_cells.mpr (rowMajor_lt (rowMajor_lt hh hj) ii.isLt)

lemma isGate (t : ℕ) : IsGate (g.alpha (m t) h) (i.beta (m t) h) (i.key (m t) h) where
  zero_le := (gdnGate_mem_Ioo _ _ _).1.le
  rate_nonneg := (sigmoid_mem_Ioo _).1.le
  rate_le := by
    have hkey : ‖i.key (m t) h‖ ^ 2 ≤ 1 := pow_le_one₀ (norm_nonneg _) norm_key_le_one
    have hbeta := sigmoid_mem_Ioo ((m t).cell (i.bProj.add h))
    calc i.beta (m t) h * ‖i.key (m t) h‖ ^ 2 ≤ 1 * 1 :=
          mul_le_mul hbeta.2.le hkey (sq_nonneg _) zero_le_one
      _ ≤ 2 := by norm_num

/-- What a run leaves of the first row and of the values, at most. -/
noncomputable def rowBound (g : GdnGateInst ℝ) (i : GdnRecurInst) (m : ℕ → Mem ℝ) (h j t : ℕ) :
    ℝ :=
  ‖i.row (m 0) h j‖ * ∏ r ∈ Ico 0 t, g.alpha (m r) h +
    ∑ s ∈ Ico 0 t, |i.vh (m s) h j| * ∏ r ∈ Ico (s + 1) t, g.alpha (m r) h

lemma norm_row_le (hp : GdnPair g i gridDim) (hrun : GdnRun g i gridDim m)
    (hh : h < i.numHeads) (hj : j < i.vd) (t : ℕ) :
    ‖i.row (m t) h j‖ ≤ rowBound g i m h j t := by
  refine (norm_run_le (x := fun t => i.row (m t) h j) isGate (hp.run_step hrun hh hj) t).trans ?_
  refine add_le_add le_rfl (sum_le_sum fun s _ => ?_)
  refine mul_le_mul_of_nonneg_right ?_ (prod_nonneg fun r _ => (gdnGate_mem_Ioo _ _ _).1.le)
  have hrate : i.beta (m s) h * ‖i.key (m s) h‖ ≤ 1 :=
    mul_le_one₀ (sigmoid_mem_Ioo _).2.le (norm_nonneg _) norm_key_le_one
  exact mul_le_of_le_one_left (abs_nonneg _) hrate

/-- The gate of `oneCell`. -/
def oneGate : GdnGateInst ℝ where
  gridX := 1
  output := act .gateGdn
  aProj := act .aProj
  aLog := fun _ => 0
  dtBias := fun _ => 0
  numHeads := 1

lemma onePair : GdnPair oneGate oneCell 1 :=
  ⟨oneCell_sound, oneCell_partition, rfl, rfl, by decide, by decide, by decide⟩

/-- A memory with the state of another, in which every value is one and the other inputs are
zero. -/
def oneInputs (state : ℕ → ℝ) : Mem ℝ := fun b x =>
  if b = .gdnRecurrent 0 then state x else if b = .act .vGdn then 1 else 0

lemma cell_oneInputs (state : ℕ → ℝ) {a : FPtr} (ha : a.block = .gdnRecurrent 0) :
    (oneInputs state).cell a = state a.off := if_pos ha

/-- A run from state `s` with these inputs. -/
noncomputable def oneRun (s : ℝ) : ℕ → Mem ℝ
  | 0 => oneInputs fun _ => s
  | t + 1 => oneInputs (opGdnRecurrent ThreadOrder.id (fun _ _ => ThreadOrder.id) 1 oneCell
      (opGdnGate ThreadOrder.id oneGate (oneRun s t)) (.gdnRecurrent 0))

lemma oneRun_run (s : ℝ) : GdnRun oneGate oneCell 1 (oneRun s) := by
  refine fun t => ⟨ThreadOrder.id, ThreadOrder.id, fun _ _ => ThreadOrder.id, fun a ha => ?_⟩
  have hblock : a.block = .gdnRecurrent 0 := ha.1
  rw [oneRun, cell_oneInputs _ hblock, RowMem.cell, hblock]

lemma alpha_oneRun (s : ℝ) (t : ℕ) : oneGate.alpha (oneRun s t) 0 = 2⁻¹ := by
  have hcell : (oneRun s t).cell (oneGate.aProj.add 0) = 0 := by
    cases t <;> rfl
  rw [GdnGateInst.alpha, hcell]
  change Real.exp (-Real.exp 0 * Real.log (1 + Real.exp (0 + 0))) = 2⁻¹
  rw [add_zero, Real.exp_zero, neg_one_mul, one_add_one_eq_two, Real.exp_neg, Real.exp_log two_pos]

/-- **The recurrence forgets**: two runs with the same inputs come together, by the product of the
gates. -/
theorem gdn_forgets (hp : GdnPair g i gridDim) (hrun : GdnRun g i gridDim m)
    (hrun' : GdnRun g i gridDim m')
    (hinputs : ∀ t, ∀ p ∈ [i.k, i.v, i.bProj, g.aProj], ∀ n,
      (m' t).cell (p.add n) = (m t).cell (p.add n))
    (hh : h < i.numHeads) (hj : j < i.vd) (t : ℕ) :
    ‖i.row (m t) h j - i.row (m' t) h j‖ ≤
      ‖i.row (m 0) h j - i.row (m' 0) h j‖ * ∏ r ∈ Ico 0 t, g.alpha (m r) h := by
  have hstep' : ∀ t, i.row (m' (t + 1)) h j = gatedDelta (g.alpha (m t) h) (i.beta (m t) h)
      (i.key (m t) h) (i.vh (m t) h j) (i.row (m' t) h j) := fun t => by
    have halpha : g.alpha (m' t) h = g.alpha (m t) h := by
      rw [GdnGateInst.alpha, hinputs t g.aProj (by simp), GdnGateInst.alpha]
    have hbeta : i.beta (m' t) h = i.beta (m t) h := congrArg sigmoid (hinputs t _ (by simp) _)
    have hkh : i.kh (m' t) h = i.kh (m t) h := funext fun ii => hinputs t _ (by simp) _
    have hkey : i.key (m' t) h = i.key (m t) h := by
      rw [GdnRecurInst.key, GdnRecurInst.key, kSh_eq, kSh_eq, hkh]
    have hv : i.vh (m' t) h = i.vh (m t) h := funext fun j => hinputs t _ (by simp) _
    rw [hp.run_step hrun' hh hj, halpha, hbeta, hkey, hv]
  exact norm_run_sub_le (x := fun t => i.row (m t) h j) (y := fun t => i.row (m' t) h j) isGate
    (hp.run_step hrun hh hj) hstep' t

/-- States `0` and `1` are at most a half apart after a step with a gate of a half. -/
theorem gdn_forgets_half :
    ‖oneCell.row (oneRun 0 1) 0 0 - oneCell.row (oneRun 1 1) 0 0‖ ≤ 2⁻¹ := by
  have hinputs : ∀ t, ∀ p ∈ [oneCell.k, oneCell.v, oneCell.bProj, oneGate.aProj], ∀ n,
      (oneRun 1 t).cell (p.add n) = (oneRun 0 t).cell (p.add n) := by
    intro t p hp n
    have hne : p.block ≠ .gdnRecurrent 0 := by
      simp only [List.mem_cons, List.not_mem_nil, or_false] at hp
      rcases hp with rfl | rfl | rfl | rfl <;> decide
    have hinput : ∀ state, (oneInputs state).cell (p.add n) = if p.block = .act .vGdn then 1 else 0 :=
      fun _ => if_neg hne
    cases t with
    | zero => rw [oneRun, oneRun, hinput, hinput]
    | succ t => rw [oneRun, oneRun, hinput, hinput]
  have hrows := gdn_forgets onePair (oneRun_run 0) (oneRun_run 1) hinputs
    (h := 0) (j := 0) Nat.one_pos Nat.one_pos 1
  have hone : ‖oneCell.row (oneRun 0 0) 0 0 - oneCell.row (oneRun 1 0) 0 0‖ = 1 := by
    have hdiff : oneCell.row (oneRun 0 0) 0 0 - oneCell.row (oneRun 1 0) 0 0 =
        .toLp 2 fun _ => (0 - 1 : ℝ) := rfl
    rw [hdiff, EuclideanSpace.norm_eq, Real.sqrt_eq_one]
    refine (Fin.sum_univ_one _).trans ?_
    norm_num
  simpa [hone, alpha_oneRun] using hrows

end Runs

end Braidinfer.Recurrent
