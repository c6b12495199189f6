/-
The fused kernels of the dense FFN (`op_ffn_gate_up`, `op_ffn_down_res` and their variants in
`kernels/megakernel_ops.hip`).

A block has one element of the output of one token: it normalises the token again and multiplies it
with a row of the gate and of the up projection; or it multiplies the activation with a row of the
down projection and adds the residual.

* `fusedRow`: a row of a projection, as these kernels add it up;
* `gateUpRow`, `downResRow`: the rows of a token;
* `opFfnGateUp_eq`, `opFfnDownRes_eq`: **a batch is its tokens**, in any order of the blocks.
-/
import Braidinfer.Recurrent.Linear

namespace Braidinfer.Recurrent

open Braidinfer.Lib RowMem

variable {V : Type*}

/-! ### Rows -/

/-- The elements that thread `tid` visits of a row of `n`, in groups of 128. -/
def groupVisits (n tid : ℕ) : List ℕ :=
  let numGroups := (n + 127) / 128
  (strided tid blockDim numGroups).flatMap fun g =>
    (List.range (min 128 (n - g * 128))).map (g * 128 + ·)

lemma lt_of_mem_groupVisits {n tid j : ℕ} (h : j ∈ groupVisits n tid) : j < n := by
  rw [groupVisits, List.mem_flatMap] at h
  obtain ⟨g, -, hj⟩ := h
  obtain ⟨r, hr, rfl⟩ := List.mem_map.mp hj
  rw [List.mem_range] at hr
  omega

section Rows

variable [Add V] [Mul V] [Zero V]

/-- A row of a projection in the fused kernels, of an input that thread `tid` has as `x tid`. -/
def Matrices.fusedRowByThreads (M : Matrices V) (rnf4 : Bool) (weight : List UInt8) (inDim : ℕ)
    (x : ℕ → ℕ → V) (row : ℕ) : V :=
  if rnf4 then dotByThreads (groupVisits inDim) (M.rnf4 weight inDim row) x
  else dotByThreads (vecVisits inDim) (fun j => M.bf16 weight (row * inDim + j)) x

/-- A row of a projection in the fused kernels. -/
def Matrices.fusedRow (M : Matrices V) (rnf4 : Bool) (weight : List UInt8) (inDim : ℕ) (x : ℕ → V)
    (row : ℕ) : V :=
  M.fusedRowByThreads rnf4 weight inDim (fun _ => x) row

lemma fusedRow_congr {M : Matrices V} {rnf4 : Bool} {weight : List UInt8} {inDim row : ℕ}
    {x x' : ℕ → V} (h : ∀ j < inDim, x j = x' j) :
    M.fusedRow rnf4 weight inDim x row = M.fusedRow rnf4 weight inDim x' row := by
  have hgroups : ∀ w, dotBy (groupVisits inDim) w x = dotBy (groupVisits inDim) w x' := fun w =>
    dotBy_congr fun _ j hj => h j (lt_of_mem_groupVisits hj)
  have hvec : ∀ w, dotVec inDim w x = dotVec inDim w x' := fun w =>
    dotBy_congr fun _ j hj => h j (lt_of_mem_vecVisits hj)
  cases rnf4 with
  | true => exact hgroups _
  | false => exact hvec _

/-- The output of a token: a row of the down projection, and the residual. -/
def downResRow (M : Matrices V) (rnf4 : Bool) (wDown : List UInt8) (intermediate : ℕ)
    (act residual : ℕ → V) (row : ℕ) : V :=
  M.fusedRow rnf4 wDown intermediate act row + residual row

variable [Div V] [Neg V] [One V] [NatCast V] [FloatFns V]

omit [Neg V] in
lemma rmsNormRow_congr {onePlusW : Bool} {weight : ℕ → V} {dim : ℕ} {eps : V} {x x' : ℕ → V}
    (h : ∀ j < dim, x j = x' j) {j : ℕ} (hj : j < dim) :
    rmsNormRow onePlusW weight dim eps x j = rmsNormRow onePlusW weight dim eps x' j := by
  rw [rmsNormRow, rmsNormRow, h j hj, rms_congr h]

/-- The activation of a token. -/
def gateUpRow (M : Matrices V) (rnf4 onePlusW : Bool) (normWeight : ℕ → V)
    (wGate wUp : List UInt8) (hs : ℕ) (eps : V) (x : ℕ → V) (row : ℕ) : V :=
  let normed := rmsNormRow onePlusW normWeight hs eps x
  silu (M.fusedRow rnf4 wGate hs normed row) * M.fusedRow rnf4 wUp hs normed row

lemma gateUpRow_congr {M : Matrices V} {rnf4 onePlusW : Bool} {normWeight : ℕ → V}
    {wGate wUp : List UInt8} {hs row : ℕ} {eps : V} {x x' : ℕ → V} (h : ∀ j < hs, x j = x' j) :
    gateUpRow M rnf4 onePlusW normWeight wGate wUp hs eps x row =
      gateUpRow M rnf4 onePlusW normWeight wGate wUp hs eps x' row := by
  have hrow : ∀ w, M.fusedRow rnf4 w hs (rmsNormRow onePlusW normWeight hs eps x) row =
      M.fusedRow rnf4 w hs (rmsNormRow onePlusW normWeight hs eps x') row := fun w =>
    fusedRow_congr fun j hj => rmsNormRow_congr h hj
  rw [gateUpRow, gateUpRow, hrow, hrow]

end Rows

/-! ### The kernels -/

section Kernels

variable [Add V] [Mul V] [Zero V] (M : Matrices V)

/-- `op_ffn_down_res`, `op_ffn_down_res_rnf4` -/
def opFfnDownRes (o : ThreadOrder) (i : FfnDownResInst) : Mem V → Mem V :=
  runThreads (fun vblock m =>
    let row := vblock % i.hs
    let batchIdx := vblock / i.hs
    if batchOf i.batch ≤ batchIdx then m else
    m.put (i.output.add (batchIdx * i.hs + row))
      (M.fusedRow i.rnf4 i.wDown i.intermediate
          (fun j => m.cell (i.ffnAct.add (batchIdx * i.intermediate + j))) row +
        m.cell (i.residual.add (batchIdx * i.hs + row)))) (o.of i.gridX)

variable [Div V] [Neg V] [One V] [NatCast V] [FloatFns V]

/-- `op_ffn_gate_up`, `op_ffn_gate_up_rnf4`, and both for norms without `1 + w`. -/
def opFfnGateUp (o : ThreadOrder) (reads : ℕ → Broadcast V) (i : FfnGateUpInst V) :
    Mem V → Mem V :=
  runThreads (fun vblock m =>
    let row := vblock % i.intermediate
    let batchIdx := vblock / i.intermediate
    if batchOf i.batch ≤ batchIdx then m else
    let x := fun j => m.cell (i.hidden.add (batchIdx * i.hs + j))
    let normed := fun tid j => x j * threadRms (reads vblock) i.hs i.eps x tid *
      if i.onePlusW then 1 + i.normWeight j else i.normWeight j
    m.put (i.output.add (batchIdx * i.intermediate + row))
      (silu (M.fusedRowByThreads i.rnf4 i.wGate i.hs normed row) *
        M.fusedRowByThreads i.rnf4 i.wUp i.hs normed row)) (o.of i.gridX)

end Kernels

/-! ### What they leave -/

section Spec

variable [Add V] [Mul V] [Zero V] {M : Matrices V} {m : Mem V} {o : ThreadOrder}

omit [Add V] [Mul V] [Zero V] in
/-- Blocks that each write one element of `batch` rows of `n`. -/
lemma runThreads_elements {out : FPtr} {n batch gridX : ℕ} (hgrid : gridX = batch * n)
    {f : Mem V → ℕ → V} (hf : ReadsAround out 1 (batch * n) f) :
    runThreads (fun vblock m => if batch ≤ vblock / n then m else
        m.put (out.add (vblock / n * n + vblock % n)) (f m vblock)) (o.of gridX) m =
      m.fill out (batch * n) (f m) := by
  have hstep : ∀ m' : Mem V, ∀ vblock ∈ o.of gridX, (if batch ≤ vblock / n then m' else
      m'.put (out.add (vblock / n * n + vblock % n)) (f m' vblock)) = if vblock < batch * n then
        m'.fill (out.add (vblock * 1)) 1 (fun _ => f m' vblock) else m' := fun m' vblock hvb => by
    have hlt : vblock < batch * n := hgrid ▸ o.mem_of.mp hvb
    have hn : 0 < n := Nat.pos_of_ne_zero fun h0 => by rw [h0, Nat.mul_zero] at hlt; omega
    rw [if_neg (Nat.not_le.mpr ((Nat.div_lt_iff_lt_mul hn).mpr hlt)), if_pos hlt, Nat.div_add_mod',
      Nat.mul_one, fill_one]
  rw [runThreads, List.foldl_ext _ _ _ hstep, ← runThreads,
    runThreads_fill (o.perm gridX) hgrid.ge fun _ _ => hf]
  simp only [Nat.mul_one, Nat.div_one]

/-- **The down projection**, token by token. -/
theorem opFfnDownRes_eq {i : FfnDownResInst} (hgrid : i.gridX = batchOf i.batch * i.hs)
    (hact : i.ffnAct.block ≠ i.output.block) (hres : i.residual.block ≠ i.output.block) :
    opFfnDownRes M o i m = m.fill i.output (batchOf i.batch * i.hs) fun k =>
      downResRow M i.rnf4 i.wDown i.intermediate
        (m.slice (i.ffnAct.add (k / i.hs * i.intermediate)) i.intermediate)
        (fun r => m.cell (i.residual.add (k / i.hs * i.hs + r))) (k % i.hs) := by
  have hreads : ReadsAround i.output 1 (batchOf i.batch * i.hs) fun (m : Mem V) vblock =>
      M.fusedRow i.rnf4 i.wDown i.intermediate
          (fun j => m.cell (i.ffnAct.add (vblock / i.hs * i.intermediate + j))) (vblock % i.hs) +
        m.cell (i.residual.add (vblock / i.hs * i.hs + vblock % i.hs)) := fun k _ m₁ m₂ hm => by
    have hrow : M.fusedRow i.rnf4 i.wDown i.intermediate
          (fun j => m₁.cell (i.ffnAct.add (k / i.hs * i.intermediate + j))) (k % i.hs) =
        M.fusedRow i.rnf4 i.wDown i.intermediate
          (fun j => m₂.cell (i.ffnAct.add (k / i.hs * i.intermediate + j))) (k % i.hs) :=
      fusedRow_congr fun j _ => hm.of_block_ne hact
    simp only [hrow, hm.of_block_ne (a := i.residual.add (k / i.hs * i.hs + k % i.hs)) hres]
  refine (runThreads_elements hgrid hreads).trans (fill_congr fun k _ => ?_)
  rw [downResRow, fusedRow_congr fun j hj => ?_]
  rw [slice_of_lt hj, DevPtr.add_add]

variable [Div V] [Neg V] [One V] [NatCast V] [FloatFns V]

/-- **The gate and the up projection**, token by token. -/
theorem opFfnGateUp_eq {reads : ℕ → Broadcast V} (hreads : ∀ vblock, (reads vblock).InTime)
    {i : FfnGateUpInst V} (hgrid : i.gridX = batchOf i.batch * i.intermediate)
    (hin : i.hidden.block ≠ i.output.block) :
    opFfnGateUp M o reads i m = m.fill i.output (batchOf i.batch * i.intermediate) fun k =>
      gateUpRow M i.rnf4 i.onePlusW i.normWeight i.wGate i.wUp i.hs i.eps
        (m.slice (i.hidden.add (k / i.intermediate * i.hs)) i.hs) (k % i.intermediate) := by
  simp only [opFfnGateUp, threadRms_eq (hreads _)]
  refine (runThreads_elements hgrid (fun k _ m₁ m₂ hm => ?_)).trans (fill_congr fun k _ => ?_)
  · exact gateUpRow_congr fun j _ => hm.of_block_ne hin
  · refine gateUpRow_congr fun j hj => ?_
    rw [slice_of_lt hj, DevPtr.add_add]

end Spec

end Braidinfer.Recurrent
