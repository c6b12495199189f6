/-
Programs of these instructions, as the worker kernel (`kernels/megakernel.hip`) runs them: one
instruction after the other, with a barrier of the grid in between.

The blocks of an instruction and the threads of their loops run in some order, another one for
every instruction.  An instruction is sound when it has a kernel for `bf16`, its grid covers its
output and its operands do not overlap what it writes; what it leaves is then a function of rows of
the memory.

* `Sched`, `exec`: an instruction, with the orders of its blocks and threads; `Runs`: a program, all
  of whose threads read the total of a reduction in time;
* `convOut`, `gdnState`, `ssmState` and the others: what the recurrent kernels leave, by rows;
* `effect`: what an instruction leaves; `exec_eq`: **it leaves this whenever it is sound**;
* `Runs.eq_effects`: **a program of sound instructions leaves the same in any orders**.
-/
import Braidinfer.Recurrent.Conv
import Braidinfer.Recurrent.Elementwise
import Braidinfer.Recurrent.Ffn
import Braidinfer.Recurrent.GdnRecur
import Braidinfer.Recurrent.Ssm

namespace Braidinfer.Recurrent

open Braidinfer.Lib RowMem

variable {V : Type*} [Add V] [Sub V] [Mul V] [Div V] [Neg V] [Zero V] [One V] [NatCast V] [LT V]
  [DecidableLT V] [FloatFns V]

set_option linter.unusedSectionVars false

/-! ### Programs -/

/-- How an instruction runs: the orders of its blocks, and of the threads in the loops of each
block; what the threads of a block get of a reduction; and what is loaded past the end of shared
memory. -/
structure Sched (V : Type*) where
  grid : ThreadOrder
  loops : ℕ → ℕ → ThreadOrder
  reads : ℕ → Broadcast V
  past : ℕ → V

/-- **In time**: in every block, all threads read the total of a reduction before the next reduction
of the block stores there.  `rdna3_reduce.h` promises as much; no barrier sees to it. -/
def Sched.InTime {V : Type*} (s : Sched V) : Prop := ∀ vblock, (s.reads vblock).InTime

/-- An instruction, on a grid of `gridDim` blocks.  The projections of the packed formats are not
run here: their kernels are those of `Quant.LinearProj`. -/
def exec (M : Matrices V) (gridDim : ℕ) (s : Sched V) : Inst V → Mem V → Option (Mem V)
  | .embedding i, m => some (opEmbedding s.grid i m)
  | .rmsNorm i, m => some (opRmsNorm s.grid (s.loops · 0) s.reads i m)
  | .linearProj i, m =>
      match i.op with
      | .linearProj => some (opLinearProj M s.grid i m)
      | .lmHead => some (opLmHead M s.grid s.past gridDim i m)
      | .linearProjRnf4 | .linearProjPcg32 => none
  | .linearProj2x i, m => some (opLinearProj2x M s.grid i m)
  | .conv1d i, m => some (opConv1d s.grid i m)
  | .conv1d3x i, m => some (opConv1d3x s.grid i m)
  | .gdnGate i, m => some (opGdnGate s.grid i m)
  | .gdnRecur i, m => some (opGdnRecurrent s.grid s.loops gridDim i m)
  | .rmsNormGate i, m => some (opRmsNormGated s.grid (s.loops · 0) s.reads i m)
  | .residualAdd i, m => some (opResidualAdd s.grid i m)
  | .scaleAdd i, m => some (opScaleAdd s.grid i m)
  | .d2dCopy i, m => some (opD2dCopy s.grid i m)
  | .siluMul i, m => some (opSiluMul s.grid i m)
  | .mamba2Conv1d i, m => some (opMamba2Conv1d s.grid i m)
  | .ssmUpdate i, m => some (opSsmUpdate s.grid s.loops i m)
  | .mamba2NormGated i, m => some (opMamba2NormGated s.grid (s.loops · 0) s.reads i m)
  | .ffnGateUp i, m => some (opFfnGateUp M s.grid s.reads i m)
  | .ffnDownRes i, m => some (opFfnDownRes M s.grid i m)
  | .halt, m => some m

/-- A program, from memory `m` to memory `m'`, in time. -/
inductive Runs (M : Matrices V) (gridDim : ℕ) : List (Inst V) → Mem V → Mem V → Prop
  | nil (m : Mem V) : Runs M gridDim [] m m
  | cons {i : Inst V} {is : List (Inst V)} {m m₁ m' : Mem V} (s : Sched V) (hs : s.InTime)
      (hexec : exec M gridDim s i m = some m₁) (h : Runs M gridDim is m₁ m') :
      Runs M gridDim (i :: is) m m'

/-! ### Rows -/

/-- The outputs of a convolution, from its states and its inputs. -/
def convOut (w : ℕ → V) (post : ℕ → V → V) (kernelSize : ℕ) (s x : ℕ → V) (ch : ℕ) : V :=
  silu (post ch (convAcc kernelSize (fun k => w (ch * kernelSize + k))
    (fun k => s (ch * (kernelSize - 1) + k)) (x ch)))

/-- Its next states. -/
def convNext (kernelSize : ℕ) (s x : ℕ → V) (j : ℕ) : V :=
  if j % (kernelSize - 1) + 1 < kernelSize - 1 then s (j + 1) else x (j / (kernelSize - 1))

/-- The row of a head. -/
def headRow (kd gqa : ℕ) (x : ℕ → V) (h ii : ℕ) : V := x (h / gqa * kd + ii)

/-- The states of the gated delta rule, after a token. -/
def gdnState (kd vd gqa : ℕ) (k v gate b s : ℕ → V) (x : ℕ) : V :=
  let c := x / kd
  let h := c / vd
  let kh := headRow kd gqa k h
  column kd (fun ii => kh ii * invNorm kd kh) (gate h) (sigmoid (b h)) (v c)
    (fun ii => s (c * kd + ii)) (x % kd)

/-- Its outputs, from the new states. -/
def gdnOut (kd vd gqa : ℕ) (q s' : ℕ → V) (c : ℕ) : V :=
  let qh := headRow kd gqa q (c / vd)
  dotLoop kd (fun ii => s' (c * kd + ii)) fun ii => qh ii * (invNorm kd qh * rsqrtf (kd : V))

/-- The states of the selective update, after a token. -/
def ssmState (dtBias aLog : ℕ → V) (hd sd group : ℕ) (x dt b s : ℕ → V) (k : ℕ) : V :=
  let r := k / sd
  let h := r / hd
  let dtVal := softplus (dt h + dtBias h)
  expf (dtVal * -expf (aLog h)) * s k + dtVal * x r * b (h / group * sd + k % sd)

/-- Its outputs, from the new states. -/
def ssmOut (dWeight : ℕ → V) (hd sd group : ℕ) (x c s' : ℕ → V) (r : ℕ) : V :=
  (List.range sd).foldl (fun acc s => acc + s' (r * sd + s) * c (r / hd / group * sd + s)) 0 +
    dWeight (r / hd) * x r

/-! ### What an instruction leaves -/

/-- A convolution. -/
def ConvArgs.effect (c : ConvArgs V) (m : Mem V) : Mem V :=
  let s := m.slice c.state (c.dim * c.hist)
  let x := m.slice c.input c.dim
  (m.fill c.output c.dim (convOut c.weight c.post c.kernelSize s x)).fill c.state (c.dim * c.hist)
    (convNext c.kernelSize s x)

/-- The heads of the keys. -/
def GdnRecurInst.keyHeads (i : GdnRecurInst) : ℕ := i.numHeads / i.gqa

/-- The gated delta rule. -/
def GdnRecurInst.effect (i : GdnRecurInst) (m : Mem V) : Mem V :=
  let s' := gdnState i.kd i.vd i.gqa (m.slice i.k (i.keyHeads * i.kd))
    (m.slice i.v (i.numHeads * i.vd)) (m.slice i.gate i.numHeads) (m.slice i.bProj i.numHeads)
    (m.slice i.state (i.numHeads * i.vd * i.kd))
  (m.fill i.state (i.numHeads * i.vd * i.kd) s').fill i.output (i.numHeads * i.vd)
    (gdnOut i.kd i.vd i.gqa (m.slice i.q (i.keyHeads * i.kd)) s')

/-- The selective update. -/
def SsmUpdateInst.effect (i : SsmUpdateInst V) (m : Mem V) : Mem V :=
  let x := m.slice i.x (i.nh * i.hd)
  let s' := ssmState i.dtBias i.aLog i.hd i.sd (i.nh / i.ng) x (m.slice i.dt i.nh)
    (m.slice i.b (i.ng * i.sd)) (m.slice i.state (i.nh * (i.hd * i.sd)))
  (m.fill i.state (i.nh * (i.hd * i.sd)) s').fill i.output (i.nh * i.hd)
    (ssmOut i.dWeight i.hd i.sd (i.nh / i.ng) x (m.slice i.c (i.ng * i.sd)) s')

/-- A projection. -/
def projEffect (M : Matrices V) (output : FPtr) (weight : List UInt8) (input : FPtr)
    (outDim inDim batch : ℕ) (m : Mem V) : Mem V :=
  m.fill output (batchOf batch * outDim) fun k =>
    M.linear weight inDim (m.slice (input.add (k / outDim * inDim)) inDim) (k % outDim)

/-- What an instruction leaves. -/
def effect (M : Matrices V) : Inst V → Mem V → Mem V
  | .embedding i, m =>
      m.fill i.output i.hs fun idx => i.embedWeight (i.tokenId * i.hs + idx)
  | .rmsNorm i, m =>
      m.fill i.output (i.gridX * i.dim) fun k =>
        rmsNormRow i.onePlusW i.weight i.dim i.eps
          (m.slice (i.input.add (k / i.dim * i.dim)) i.dim) (k % i.dim)
  | .linearProj i, m =>
      projEffect M i.output i.weight i.input i.outDim i.inDim i.batch m
  | .linearProj2x i, m =>
      projEffect M i.outputB i.weightB i.input i.outDim i.inDim i.batch
        (projEffect M i.outputA i.weightA i.input i.outDim i.inDim i.batch m)
  | .conv1d i, m => i.args.effect m
  | .conv1d3x i, m => (i.args .v).effect ((i.args .k).effect ((i.args .q).effect m))
  | .gdnGate i, m =>
      m.fill i.output i.numHeads fun h =>
        gdnGate (i.aLog h) (m.slice i.aProj i.numHeads h) (i.dtBias h)
  | .gdnRecur i, m => i.effect m
  | .rmsNormGate i, m =>
      m.fill i.output (i.gridX * i.vd) fun k =>
        rmsNormGatedRow i.weight i.vd i.eps (m.slice (i.x.add (k / i.vd * i.vd)) i.vd)
          (m.slice (i.z.add (k / i.vd * i.vd)) i.vd) (k % i.vd)
  | .residualAdd i, m =>
      m.fill i.output i.n fun j => m.slice i.src i.n j + m.slice i.residual i.n j
  | .scaleAdd i, m =>
      m.fill i.output i.size fun j => m.slice i.output i.size j + i.scale * m.slice i.src i.size j
  | .d2dCopy i, m => m.fill i.dst i.nElems (m.slice i.src i.nElems)
  | .siluMul i, m =>
      m.fill i.output i.size fun j => silu (m.slice i.gate i.size j) * m.slice i.up i.size j
  | .mamba2Conv1d i, m => i.args.effect m
  | .ssmUpdate i, m => i.effect m
  | .mamba2NormGated i, m =>
      m.fill i.output (i.gridX * i.valueDim) fun k =>
        mamba2NormGatedRow (fun j => i.weight (k / i.valueDim * i.valueDim + j)) i.valueDim i.eps
          (m.slice (i.x.add (k / i.valueDim * i.valueDim)) i.valueDim)
          (m.slice (i.z.add (k / i.valueDim * i.valueDim)) i.valueDim) (k % i.valueDim)
  | .ffnGateUp i, m =>
      m.fill i.output (batchOf i.batch * i.intermediate) fun k =>
        gateUpRow M i.rnf4 i.onePlusW i.normWeight i.wGate i.wUp i.hs i.eps
          (m.slice (i.hidden.add (k / i.intermediate * i.hs)) i.hs) (k % i.intermediate)
  | .ffnDownRes i, m =>
      m.fill i.output (batchOf i.batch * i.hs) fun k =>
        downResRow M i.rnf4 i.wDown i.intermediate
          (m.slice (i.ffnAct.add (k / i.hs * i.intermediate)) i.intermediate)
          (m.slice (i.residual.add (k / i.hs * i.hs)) i.hs) (k % i.hs)
  | .halt, m => m

/-- What a program leaves. -/
def effects (M : Matrices V) (is : List (Inst V)) (m : Mem V) : Mem V :=
  is.foldl (fun m i => effect M i m) m

/-! ### Sound instructions -/

/-- The operand is in another block than the output, or it is the output. -/
def Apart (p output : FPtr) : Prop := p.block ≠ output.block ∨ p = output

/-- A projection has a kernel for `bf16`: its own or, on a grid that is not empty, that of the head,
where its input fits. -/
def LinearProjInst.OnBf16 (i : LinearProjInst) (gridDim : ℕ) : Prop :=
  i.op = .linearProj ∨ i.op = .lmHead ∧ 0 < gridDim ∧ i.Fits

/-- Projections are on kernels for `bf16`, the grid covers the output, and what is written does not
overlap what is read. -/
def Inst.Sound (gridDim : ℕ) : Inst V → Prop
  | .embedding i => i.hs ≤ i.gridX * blockDim
  | .rmsNorm i => i.input.block ≠ i.output.block
  | .linearProj i =>
      i.input.block ≠ i.output.block ∧ i.outDim ≤ i.gridX ∧ i.OnBf16 gridDim
  | .linearProj2x i =>
      i.input.block ≠ i.outputA.block ∧ i.input.block ≠ i.outputB.block ∧
        i.outputA.block ≠ i.outputB.block
  | .conv1d i => i.args.Sound ∧ i.dim ≤ i.gridX * blockDim
  | .conv1d3x i => i.Sound
  | .gdnGate i => i.numHeads ≤ i.gridX * blockDim ∧ i.aProj.block ≠ i.output.block
  | .gdnRecur i => i.Sound ∧ i.Partition gridDim ∧ i.gqa ∣ i.numHeads
  | .rmsNormGate i => i.x.block ≠ i.output.block ∧ i.z.block ≠ i.output.block
  | .residualAdd i =>
      i.n ≤ i.gridX * blockDim ∧ Apart i.src i.output ∧ Apart i.residual i.output
  | .scaleAdd i => i.size ≤ i.gridX * blockDim ∧ Apart i.src i.output
  | .d2dCopy i => i.nElems ≤ i.gridX * blockDim ∧ Apart i.src i.dst
  | .siluMul i => i.size ≤ i.gridX * blockDim ∧ Apart i.gate i.output ∧ Apart i.up i.output
  | .mamba2Conv1d i => i.args.Sound ∧ i.convDim ≤ i.gridX * blockDim
  | .ssmUpdate i => i.Sound ∧ i.ng ∣ i.nh
  | .mamba2NormGated i => i.x.block ≠ i.output.block ∧ i.z.block ≠ i.output.block
  | .ffnGateUp i =>
      i.gridX = batchOf i.batch * i.intermediate ∧ i.hidden.block ≠ i.output.block
  | .ffnDownRes i =>
      i.gridX = batchOf i.batch * i.hs ∧ i.ffnAct.block ≠ i.output.block ∧
        i.residual.block ≠ i.output.block
  | .halt => True

section Effect

variable {M : Matrices V} {gridDim : ℕ} {m m' : Mem V} {s : Sched V}

/-- An element of a row that a kernel reads. -/
lemma cell_row {p : FPtr} {r dim j : ℕ} (hj : j < dim) :
    m.cell (p.add (r * dim + j)) = m.slice (p.add (r * dim)) dim j := by
  rw [slice_of_lt hj, DevPtr.add_add]

lemma mod_lt_of_lt_mul {k n dim : ℕ} (hk : k < n * dim) : k % dim < dim :=
  Nat.mod_lt _ (Nat.pos_of_ne_zero fun h0 => by rw [h0, Nat.mul_zero] at hk; omega)

lemma rmsNormGatedRow_congr {weight : ℕ → V} {vd : ℕ} {eps : V} {x x' z z' : ℕ → V}
    (hx : ∀ j < vd, x j = x' j) (hz : ∀ j < vd, z j = z' j) {j : ℕ} (hj : j < vd) :
    rmsNormGatedRow weight vd eps x z j = rmsNormGatedRow weight vd eps x' z' j := by
  rw [rmsNormGatedRow, rmsNormGatedRow, hx j hj, hz j hj, rms_congr hx]

lemma mamba2NormGatedRow_congr {weight : ℕ → V} {dim : ℕ} {eps : V} {x x' z z' : ℕ → V}
    (hx : ∀ j < dim, x j = x' j) (hz : ∀ j < dim, z j = z' j) {j : ℕ} (hj : j < dim) :
    mamba2NormGatedRow weight dim eps x z j = mamba2NormGatedRow weight dim eps x' z' j := by
  rw [mamba2NormGatedRow, mamba2NormGatedRow, hx j hj, hz j hj,
    rms_congr fun j hj => by rw [hx j hj, hz j hj]]

/-- A convolution. -/
lemma convKernel_effect {c : ConvArgs V} {o : ThreadOrder} {gridX : ℕ} (hc : c.Sound)
    (hgrid : c.dim ≤ gridX * blockDim) : convKernel o gridX c m = c.effect m := by
  have hpos : 0 < c.kernelSize := Nat.lt_of_lt_of_le Nat.two_pos hc.two_le
  have hstate : ∀ {ch k : ℕ}, ch < c.dim → k < c.hist →
      c.s m ch k = m.slice c.state (c.dim * c.hist) (ch * c.hist + k) := fun hch hk =>
    (slice_of_lt (rowMajor_lt hch hk)).symm
  rw [convKernel_eq hc hgrid, ConvArgs.effect]
  have hout : m.fill c.output c.dim (c.out m) = m.fill c.output c.dim
      (convOut c.weight c.post c.kernelSize (m.slice c.state (c.dim * c.hist))
        (m.slice c.input c.dim)) := fill_congr fun ch hch => by
    rw [ConvArgs.out, convOut, slice_of_lt hch]
    exact congrArg (fun acc => silu (c.post ch acc))
      (convAcc_congr (fun _ _ => rfl) (fun k hk => hstate hch hk) hpos)
  rw [hout]
  refine fill_congr fun j hj => ?_
  have hhist := mod_lt_of_lt_mul hj
  have hch : j / c.hist < c.dim := (Nat.div_lt_iff_lt_mul (by omega)).mpr hj
  change c.next m (j / c.hist) (j % c.hist) = if j % c.hist + 1 < c.hist then _ else _
  rw [ConvArgs.next]
  split_ifs with hnext
  · rw [hstate hch hnext, ← Nat.add_assoc, Nat.div_add_mod']
  · exact (slice_of_lt hch).symm

/-- The gated delta rule. -/
lemma opGdnRecurrent_effect {i : GdnRecurInst} {o : ThreadOrder} {ph : ℕ → ℕ → ThreadOrder}
    (hi : i.Sound) (hp : i.Partition gridDim) (hgqa : i.gqa ∣ i.numHeads) :
    opGdnRecurrent o ph gridDim i m = i.effect m := by
  have hgqa0 : 0 < i.gqa := by
    rw [GdnRecurInst.gqa]
    split_ifs <;> omega
  -- what a head reads
  have hkey : ∀ {h : ℕ}, h < i.numHeads → h / i.gqa < i.keyHeads := fun hh => by
    rw [GdnRecurInst.keyHeads, Nat.div_lt_iff_lt_mul hgqa0, Nat.div_mul_cancel hgqa]
    exact hh
  have hrow : ∀ (p : FPtr) {h ii : ℕ}, h < i.numHeads → ii < i.kd →
      m.cell (p.add (h / i.gqa * i.kd + ii)) =
        headRow i.kd i.gqa (m.slice p (i.keyHeads * i.kd)) h ii := fun p h ii hh hii =>
    (slice_of_lt (rowMajor_lt (hkey hh) hii)).symm
  have hnorm : ∀ (p : FPtr) {h : ℕ}, h < i.numHeads →
      invNorm i.kd (fun ii => m.cell (p.add (h / i.gqa * i.kd + ii))) =
        invNorm i.kd (headRow i.kd i.gqa (m.slice p (i.keyHeads * i.kd)) h) := fun p h hh => by
    rw [invNorm, invNorm, threadSums_congr fun ii hii => by rw [hrow p hh hii]]
  have hhead : ∀ {c : ℕ}, c < i.numHeads * i.vd → c / i.vd < i.numHeads := fun hc =>
    (Nat.div_lt_iff_lt_mul (Nat.pos_of_ne_zero fun h0 => by
      rw [h0, Nat.mul_zero] at hc; omega)).mpr hc
  -- the state of a column
  have hstate : ∀ {c ii : ℕ}, c < i.numHeads * i.vd → ii < i.kd →
      i.newRow m (c / i.vd) (c % i.vd) ii =
        gdnState i.kd i.vd i.gqa (m.slice i.k (i.keyHeads * i.kd))
          (m.slice i.v (i.numHeads * i.vd)) (m.slice i.gate i.numHeads)
          (m.slice i.bProj i.numHeads) (m.slice i.state (i.numHeads * i.vd * i.kd))
          (c * i.kd + ii) := fun {c ii} hc hii => by
    have hh := hhead hc
    have hk : ∀ ii < i.kd, i.kSh m (c / i.vd) ii =
        headRow i.kd i.gqa (m.slice i.k (i.keyHeads * i.kd)) (c / i.vd) ii *
          invNorm i.kd (headRow i.kd i.gqa (m.slice i.k (i.keyHeads * i.kd)) (c / i.vd)) :=
      fun ii hii => congrArg₂ (· * ·) (hrow i.k hh hii) (hnorm i.k hh)
    have hs : ∀ ii < i.kd, i.srow m (c / i.vd) (c % i.vd) ii =
        m.slice i.state (i.numHeads * i.vd * i.kd) (c * i.kd + ii) := fun ii hii => by
      rw [GdnRecurInst.srow, Nat.div_add_mod', slice_of_lt (rowMajor_lt hc hii)]
    have hv : i.vh m (c / i.vd) (c % i.vd) = m.slice i.v (i.numHeads * i.vd) c := by
      rw [GdnRecurInst.vh, Nat.div_add_mod', slice_of_lt hc]
    have hdecay : i.decay m (c / i.vd) = m.slice i.gate i.numHeads (c / i.vd) :=
      (slice_of_lt hh).symm
    have hbeta : i.beta m (c / i.vd) = sigmoid (m.slice i.bProj i.numHeads (c / i.vd)) :=
      congrArg sigmoid (slice_of_lt hh).symm
    simp only [gdnState, rowMajor_div hii, rowMajor_mod hii]
    rw [GdnRecurInst.newRow, column, column, hv, hdecay, hbeta, hk ii hii, hs ii hii,
      dotLoop_congr (fun ii hii => by rw [hs ii hii]) hk]
  rw [opGdnRecurrent_eq hi hp, GdnRecurInst.effect]
  refine (congrArg (RowMem.fill · _ _ _) (fill_congr fun x hx => ?_)).trans
    (fill_congr fun c hc => ?_)
  · have hii := mod_lt_of_lt_mul hx
    have hc : x / i.kd < i.numHeads * i.vd := (Nat.div_lt_iff_lt_mul (by omega)).mpr hx
    rw [hstate hc hii, Nat.div_add_mod']
  · have hh := hhead hc
    rw [GdnRecurInst.newOut, gdnOut]
    refine dotLoop_congr (fun ii hii => hstate hc hii) fun ii hii => ?_
    rw [GdnRecurInst.qScale]
    exact congrArg₂ (· * ·) (hrow i.q hh hii)
      (congrArg (· * rsqrtf (i.kd : V)) (hnorm i.q hh))

/-- The selective update. -/
lemma opSsmUpdate_effect {i : SsmUpdateInst V} {o : ThreadOrder} {ph : ℕ → ℕ → ThreadOrder}
    (hi : i.Sound) (hgroups : i.ng ∣ i.nh) : opSsmUpdate o ph i m = i.effect m := by
  have hgroup : ∀ {h : ℕ}, h < i.nh → h / (i.nh / i.ng) < i.ng := fun hh => by
    rw [Nat.div_lt_iff_lt_mul hi.groups, Nat.mul_div_cancel' hgroups]
    exact hh
  have hpos : ∀ {r : ℕ}, r < i.nh * i.hd → 0 < i.hd := fun hr =>
    Nat.pos_of_ne_zero fun h0 => by rw [h0, Nat.mul_zero] at hr; omega
  have hhead : ∀ {r : ℕ}, r < i.nh * i.hd → r / i.hd < i.nh := fun hr =>
    (Nat.div_lt_iff_lt_mul (hpos hr)).mpr hr
  have hx : ∀ {r : ℕ}, r < i.nh * i.hd →
      i.xH m (r / i.hd) (r % i.hd) = m.slice i.x (i.nh * i.hd) r := fun hr => by
    rw [SsmUpdateInst.xH, Nat.div_add_mod', slice_of_lt hr]
  -- the state of a row
  have hstate : ∀ {r s : ℕ}, r < i.nh * i.hd → s < i.sd →
      i.newState m (r / i.hd) (r % i.hd) s =
        ssmState i.dtBias i.aLog i.hd i.sd (i.nh / i.ng) (m.slice i.x (i.nh * i.hd))
          (m.slice i.dt i.nh) (m.slice i.b (i.ng * i.sd))
          (m.slice i.state (i.nh * (i.hd * i.sd))) (r * i.sd + s) := fun {r s} hr hs => by
    have hh := hhead hr
    have hdt : i.dtVal m (r / i.hd) =
        softplus (m.slice i.dt i.nh (r / i.hd) + i.dtBias (r / i.hd)) := by
      rw [SsmUpdateInst.dtVal, slice_of_lt hh]
    have hb : i.bG m (r / i.hd) s =
        m.slice i.b (i.ng * i.sd) (r / i.hd / (i.nh / i.ng) * i.sd + s) :=
      (slice_of_lt (rowMajor_lt (hgroup hh) hs)).symm
    have hs' : i.sRow m (r / i.hd) (r % i.hd) s =
        m.slice i.state (i.nh * (i.hd * i.sd)) (r * i.sd + s) := by
      rw [SsmUpdateInst.sRow, Nat.div_add_mod',
        slice_of_lt (by rw [← Nat.mul_assoc]; exact rowMajor_lt hr hs)]
    simp only [ssmState, rowMajor_div hs, rowMajor_mod hs]
    rw [SsmUpdateInst.newState, SsmUpdateInst.dA, hdt, hb, hx hr, hs']
  rw [opSsmUpdate_eq hi, SsmUpdateInst.effect]
  refine (congrArg (RowMem.fill · _ _ _) (fill_congr fun k hk => ?_)).trans
    (fill_congr fun r hr => ?_)
  · rw [← Nat.mul_assoc] at hk
    have hs := mod_lt_of_lt_mul hk
    have hr : k / i.sd < i.nh * i.hd := (Nat.div_lt_iff_lt_mul (by omega)).mpr hk
    have hhead' : k / (i.hd * i.sd) = k / i.sd / i.hd := by
      rw [Nat.mul_comm, ← Nat.div_div_eq_div_mul]
    rw [hhead', Nat.mod_mul_left_div_self, Nat.mod_mul_left_mod, hstate hr hs, Nat.div_add_mod']
  · rw [SsmUpdateInst.newY, ssmOut, hx hr]
    refine congrArg (· + _) (List.foldl_ext _ _ _ fun acc s hs => ?_)
    have hlt := List.mem_range.mp hs
    rw [hstate hr hlt, SsmUpdateInst.cG,
      slice_of_lt (rowMajor_lt (hgroup (hhead hr)) hlt), SsmUpdateInst.g]

/-- A projection. -/
lemma exec_linearProj {i : LinearProjInst} (hin : i.input.block ≠ i.output.block)
    (hgrid : i.outDim ≤ i.gridX) (hop : i.OnBf16 gridDim) :
    exec M gridDim s (.linearProj i) m = some (effect M (.linearProj i) m) := by
  have hproj : (m.fill i.output (batchOf i.batch * i.outDim) fun k =>
      tokenDot M i.weight i.input i.inDim (k % i.outDim) (k / i.outDim) m) =
        effect M (.linearProj i) m := fill_congr fun k _ => tokenDot_eq_linear
  rw [exec]
  rcases hop with hop | ⟨hop, hgridDim, hfits⟩ <;> rw [hop]
  · exact congrArg some ((opLinearProj_fill hgrid hin).trans hproj)
  · exact congrArg some ((opLmHead_fill hgridDim hfits hin).trans hproj)

/-- **What a sound instruction leaves**, in any order of its blocks and threads. -/
theorem exec_eq (hs : s.InTime) {i : Inst V} (hi : i.Sound gridDim) :
    exec M gridDim s i m = some (effect M i m) := by
  cases i with
  | linearProj i => exact exec_linearProj hi.1 hi.2.1 hi.2.2
  | embedding i => exact congrArg some (opEmbedding_eq hi)
  | rmsNorm i =>
      rw [effect]
      refine congrArg some ((opRmsNorm_eq hs hi).trans (fill_congr fun k hk => ?_))
      exact rmsNormRow_congr (fun j hj => cell_row hj) (mod_lt_of_lt_mul hk)
  | linearProj2x i =>
      obtain ⟨hA, hB, hAB⟩ := hi
      refine congrArg some ((opLinearProj2x_fill hA hB hAB).trans ?_)
      rw [effect, projEffect, projEffect]
      refine (congrArg (RowMem.fill · _ _ _) (fill_congr fun k _ =>
        tokenDot_eq_linear)).trans (fill_congr fun k _ => ?_)
      rw [slice_fill_of_ne (by exact hA)]
      exact tokenDot_eq_linear
  | conv1d i => exact congrArg some (convKernel_effect hi.1 hi.2)
  | conv1d3x i =>
      have hpart : ∀ p m', convKernel ThreadOrder.id (i.part p).gridX (i.args p) m' =
          (i.args p).effect m' := fun p m' => convKernel_effect (hi.parts p) (hi.covers p)
      refine congrArg some ((Conv1d3xInst.opConv1d3x_eq_kernels hi s.grid).trans ?_)
      rw [hpart, hpart, hpart]
      rfl
  | gdnGate i =>
      rw [effect]
      refine congrArg some ((opGdnGate_eq hi.1 hi.2).trans (fill_congr fun h hh => ?_))
      rw [slice_of_lt hh]
  | gdnRecur i => exact congrArg some (opGdnRecurrent_effect hi.1 hi.2.1 hi.2.2)
  | rmsNormGate i =>
      rw [effect]
      refine congrArg some ((opRmsNormGated_eq hs hi.1 hi.2).trans (fill_congr fun k hk => ?_))
      exact rmsNormGatedRow_congr (fun j hj => cell_row hj) (fun j hj => cell_row hj)
        (mod_lt_of_lt_mul hk)
  | residualAdd i =>
      rw [effect]
      refine congrArg some ((opResidualAdd_eq hi.1 hi.2.1 hi.2.2).trans
        (fill_congr fun j hj => ?_))
      rw [slice_of_lt hj, slice_of_lt hj]
  | scaleAdd i =>
      rw [effect]
      refine congrArg some ((opScaleAdd_eq hi.1 hi.2).trans (fill_congr fun j hj => ?_))
      rw [slice_of_lt hj, slice_of_lt hj]
  | d2dCopy i =>
      rw [effect]
      refine congrArg some ((opD2dCopy_eq hi.1 hi.2).trans (fill_congr fun j hj => ?_))
      rw [slice_of_lt hj]
  | siluMul i =>
      rw [effect]
      refine congrArg some ((opSiluMul_eq hi.1 hi.2.1 hi.2.2).trans (fill_congr fun j hj => ?_))
      rw [slice_of_lt hj, slice_of_lt hj]
  | mamba2Conv1d i => exact congrArg some (convKernel_effect hi.1 hi.2)
  | ssmUpdate i => exact congrArg some (opSsmUpdate_effect hi.1 hi.2)
  | mamba2NormGated i =>
      rw [effect]
      refine congrArg some ((opMamba2NormGated_eq hs hi.1 hi.2).trans
        (fill_congr fun k hk => ?_))
      exact mamba2NormGatedRow_congr (fun j hj => cell_row hj) (fun j hj => cell_row hj)
        (mod_lt_of_lt_mul hk)
  | ffnGateUp i => exact congrArg some (opFfnGateUp_eq hs hi.1 hi.2)
  | ffnDownRes i =>
      rw [effect]
      refine congrArg some ((opFfnDownRes_eq hi.1 hi.2.1 hi.2.2).trans
        (fill_congr fun k hk => ?_))
      rw [downResRow, cell_row (mod_lt_of_lt_mul hk)]
      rfl
  | halt => rfl

/-! ### What a program leaves -/

variable {is js : List (Inst V)}

@[simp] lemma effects_nil : effects M [] m = m := rfl

@[simp] lemma effects_cons {i : Inst V} : effects M (i :: is) m = effects M is (effect M i m) := rfl

lemma effects_append : effects M (is ++ js) m = effects M js (effects M is m) := List.foldl_append

lemma effects_flatMap {τ : Type*} {prog : τ → List (Inst V)} {ts : List τ} :
    effects M (ts.flatMap prog) m = ts.foldl (fun m t => effects M (prog t) m) m :=
  List.foldl_flatMap

/-- **A program of sound instructions leaves the same in any orders.** -/
theorem Runs.eq_effects (h : Runs M gridDim is m m') (his : ∀ i ∈ is, i.Sound gridDim) :
    m' = effects M is m := by
  induction h with
  | nil m => rfl
  | cons s hs hexec _ ih =>
      rw [exec_eq hs (his _ List.mem_cons_self)] at hexec
      rw [ih fun i hi => his i (List.mem_cons_of_mem _ hi), ← Option.some.inj hexec]
      rfl

/-- A program runs, with any orders. -/
lemma runs_effects (his : ∀ i ∈ is, i.Sound gridDim) : Runs M gridDim is m (effects M is m) := by
  induction is generalizing m with
  | nil => exact .nil m
  | cons i is ih =>
      let s : Sched V :=
        ⟨ThreadOrder.id, fun _ _ => ThreadOrder.id, fun _ _ total => total, fun _ => 0⟩
      have hs : s.InTime := fun _ _ _ => rfl
      exact .cons s hs (exec_eq hs (his i List.mem_cons_self))
        (ih fun i hi => his i (List.mem_cons_of_mem _ hi))

/-! ### What a program leaves alone -/

/-- The blocks that an instruction writes. -/
def Inst.writes : Inst V → List Block
  | .embedding i => [i.output.block]
  | .rmsNorm i => [i.output.block]
  | .linearProj i => [i.output.block]
  | .linearProj2x i => [i.outputA.block, i.outputB.block]
  | .conv1d i => [i.output.block, i.state.block]
  | .conv1d3x i =>
      [i.qOutput.block, i.qState.block, i.kOutput.block, i.kState.block, i.vOutput.block,
        i.vState.block]
  | .gdnGate i => [i.output.block]
  | .gdnRecur i => [i.state.block, i.output.block]
  | .rmsNormGate i => [i.output.block]
  | .residualAdd i => [i.output.block]
  | .scaleAdd i => [i.output.block]
  | .d2dCopy i => [i.dst.block]
  | .siluMul i => [i.output.block]
  | .mamba2Conv1d i => [i.output.block, i.state.block]
  | .ssmUpdate i => [i.state.block, i.output.block]
  | .mamba2NormGated i => [i.output.block]
  | .ffnGateUp i => [i.output.block]
  | .ffnDownRes i => [i.output.block]
  | .halt => []

/-- Two ranges that were written. -/
lemma fill_fill_of_ne {p q : FPtr} {n k : ℕ} {f g : ℕ → V} {b : Block} (hp : b ≠ p.block)
    (hq : b ≠ q.block) : (m.fill p n f).fill q k g b = m b :=
  (fill_of_ne hq).trans (fill_of_ne hp)

/-- **The frame of an instruction.** -/
lemma effect_of_notMem {i : Inst V} {b : Block} (hb : b ∉ i.writes) : effect M i m b = m b := by
  cases i <;> simp only [Inst.writes, List.mem_cons, List.not_mem_nil, or_false, not_or] at hb
  case linearProj i =>
    rw [effect, projEffect]
    exact fill_of_ne hb
  case linearProj2x i =>
    rw [effect, projEffect, projEffect]
    exact fill_fill_of_ne hb.1 hb.2
  case conv1d i =>
    rw [effect, ConvArgs.effect]
    exact fill_fill_of_ne hb.1 hb.2
  case conv1d3x i =>
    obtain ⟨hq, hqs, hk, hks, hv, hvs⟩ := hb
    have hv' : (i.args .v).effect ((i.args .k).effect ((i.args .q).effect m)) b =
        (i.args .k).effect ((i.args .q).effect m) b := fill_fill_of_ne hv hvs
    have hk' : (i.args .k).effect ((i.args .q).effect m) b = (i.args .q).effect m b :=
      fill_fill_of_ne hk hks
    exact hv'.trans (hk'.trans (fill_fill_of_ne hq hqs))
  case gdnRecur i =>
    rw [effect, GdnRecurInst.effect]
    exact fill_fill_of_ne hb.1 hb.2
  case mamba2Conv1d i =>
    rw [effect, ConvArgs.effect]
    exact fill_fill_of_ne hb.1 hb.2
  case ssmUpdate i =>
    rw [effect, SsmUpdateInst.effect]
    exact fill_fill_of_ne hb.1 hb.2
  case halt => rfl
  all_goals
    rw [effect]
    exact fill_of_ne hb

/-- **The frame of a program.** -/
theorem effects_of_notMem {b : Block} (hb : ∀ i ∈ is, b ∉ i.writes) : effects M is m b = m b := by
  induction is generalizing m with
  | nil => rfl
  | cons i is ih =>
      rw [effects_cons, ih fun i hi => hb i (List.mem_cons_of_mem _ hi),
        effect_of_notMem (hb i List.mem_cons_self)]

end Effect

end Braidinfer.Recurrent
