/-
Kernels that compute every element of a vector from the same place of others
(`op_residual_add`, `op_scale_add`, `op_silu_mul`, `op_d2d_copy`, `op_gdn_gate`, `op_embedding` in
`kernels/megakernel_ops.hip`).

Thread `flat` of the grid writes one element.  Three of the kernels have a second path, taken when
the size is a multiple of four and all pointers are aligned, in which it writes four.

* `elementwise`: the two paths;
* `elementwise_eq`: **either path writes the vector, whatever the order of the threads**;
* `opResidualAdd_eq` and the others: what each kernel leaves.
-/
import Braidinfer.Recurrent.Inst

namespace Braidinfer.Recurrent

open Braidinfer.Lib RowMem

variable {V : Type*}

/-- The threads `flat = vblock * blockDim.x + threadIdx.x` of a grid, of which each writes
`out[flat]`, or a `float4` in the vectorized path. -/
def elementwise (o : ThreadOrder) (gridX : ℕ) (vec4 : Bool) (out : FPtr) (size : ℕ)
    (f : Mem V → ℕ → V) (m : Mem V) : Mem V :=
  runThreads (fun flat m =>
    if vec4 then
      if flat < size / 4 then m.fill (out.add (flat * 4)) 4 fun k => f m (flat * 4 + k) else m
    else if flat < size then m.put (out.add flat) (f m flat) else m) (o.of (gridX * blockDim)) m

/-- The condition of the vectorized path. -/
def vec4Path (size : ℕ) (ptrs : List FPtr) : Bool := size % 4 = 0 && ptrs.all aligned

lemma mod_of_vec4Path {size : ℕ} {ptrs : List FPtr} (h : vec4Path size ptrs = true) :
    size % 4 = 0 := by
  rw [vec4Path, Bool.and_eq_true, decide_eq_true_iff] at h
  exact h.1

variable {o : ThreadOrder} {gridX size : ℕ} {out : FPtr} {f : Mem V → ℕ → V} {m : Mem V}

/-- **The vector is written by either path**, in any order of the threads. -/
theorem elementwise_eq (hgrid : size ≤ gridX * blockDim) (hf : ReadsAround out 1 size f)
    (vec4 : Bool) (hvec : vec4 = true → size % 4 = 0) :
    elementwise o gridX vec4 out size f m = m.fill out size (f m) := by
  cases vec4 with
  | true =>
      have hmul : size / 4 * 4 = size := by
        have hmod := hvec rfl
        omega
      have hf4 : ReadsAround out 1 (size / 4 * 4) f := by rwa [hmul]
      have hrun := runThreads_fill (m := m) (o.perm (gridX * blockDim)) (n := size / 4) (w := 4)
        (by omega) (f := fun m i k => f m (i * 4 + k)) fun k hk => hf4.of_cells hk
      rw [hmul] at hrun
      refine hrun.trans (fill_congr fun i _ => ?_)
      rw [Nat.mul_comm, Nat.div_add_mod]
  | false =>
      have hrun := runThreads_fill (m := m) (o.perm (gridX * blockDim)) (n := size) (w := 1)
        hgrid (f := fun m i _ => f m i) fun _ _ => hf
      simp only [Nat.mul_one, Nat.div_one, fill_one] at hrun
      exact hrun

/-! ### The kernels -/

/-- `op_residual_add` -/
def opResidualAdd [Add V] (o : ThreadOrder) (i : ResidualAddInst) : Mem V → Mem V :=
  elementwise o i.gridX (vec4Path i.n [i.output, i.src, i.residual]) i.output i.n fun m j =>
    m.cell (i.src.add j) + m.cell (i.residual.add j)

/-- `op_scale_add` -/
def opScaleAdd [Add V] [Mul V] (o : ThreadOrder) (i : ScaleAddInst V) : Mem V → Mem V :=
  elementwise o i.gridX (vec4Path i.size [i.output, i.src]) i.output i.size fun m j =>
    m.cell (i.output.add j) + i.scale * m.cell (i.src.add j)

/-- `op_silu_mul` -/
def opSiluMul [Add V] [Mul V] [Div V] [Neg V] [One V] [FloatFns V] (o : ThreadOrder)
    (i : SiluMulInst) : Mem V → Mem V :=
  elementwise o i.gridX (vec4Path i.size [i.output, i.gate, i.up]) i.output i.size fun m j =>
    silu (m.cell (i.gate.add j)) * m.cell (i.up.add j)

/-- `op_d2d_copy` -/
def opD2dCopy (o : ThreadOrder) (i : D2dCopyInst) : Mem V → Mem V :=
  elementwise o i.gridX false i.dst i.nElems fun m j => m.cell (i.src.add j)

/-- The gate of a head, `expf(-A * sp)`. -/
def gdnGate [Add V] [Mul V] [Neg V] [FloatFns V] (aLog a dtBias : V) : V :=
  let A := expf aLog
  let sp := log1pf (expf (a + dtBias))
  expf (-A * sp)

/-- `op_gdn_gate` -/
def opGdnGate [Add V] [Mul V] [Neg V] [FloatFns V] (o : ThreadOrder) (i : GdnGateInst V) :
    Mem V → Mem V :=
  elementwise o i.gridX false i.output i.numHeads fun m h =>
    gdnGate (i.aLog h) (m.cell (i.aProj.add h)) (i.dtBias h)

/-- `op_embedding` -/
def opEmbedding (o : ThreadOrder) (i : EmbeddingInst V) : Mem V → Mem V :=
  elementwise o i.gridX false i.output i.hs fun _ idx => i.embedWeight (i.tokenId * i.hs + idx)

/-! ### What they leave -/

/-- Either operand may be the output itself. -/
lemma opResidualAdd_eq [Add V] {i : ResidualAddInst} (hgrid : i.n ≤ i.gridX * blockDim)
    (hsrc : i.src.block ≠ i.output.block ∨ i.src = i.output)
    (hres : i.residual.block ≠ i.output.block ∨ i.residual = i.output) :
    opResidualAdd o i m =
      m.fill i.output i.n fun j => m.cell (i.src.add j) + m.cell (i.residual.add j) :=
  elementwise_eq hgrid
    ((ReadsAround.of_alias hsrc).map₂ (ReadsAround.of_alias hres) fun _ => (· + ·)) _
    mod_of_vec4Path

lemma opScaleAdd_eq [Add V] [Mul V] {i : ScaleAddInst V} (hgrid : i.size ≤ i.gridX * blockDim)
    (hsrc : i.src.block ≠ i.output.block ∨ i.src = i.output) :
    opScaleAdd o i m =
      m.fill i.output i.size fun j =>
        m.cell (i.output.add j) + i.scale * m.cell (i.src.add j) :=
  elementwise_eq hgrid
    (ReadsAround.self.map₂ (ReadsAround.of_alias hsrc) fun _ x y => x + i.scale * y) _
    mod_of_vec4Path

lemma opSiluMul_eq [Add V] [Mul V] [Div V] [Neg V] [One V] [FloatFns V] {i : SiluMulInst}
    (hgrid : i.size ≤ i.gridX * blockDim)
    (hgate : i.gate.block ≠ i.output.block ∨ i.gate = i.output)
    (hup : i.up.block ≠ i.output.block ∨ i.up = i.output) :
    opSiluMul o i m =
      m.fill i.output i.size fun j => silu (m.cell (i.gate.add j)) * m.cell (i.up.add j) :=
  elementwise_eq hgrid
    ((ReadsAround.of_alias hgate).map₂ (ReadsAround.of_alias hup) fun _ g u => silu g * u) _
    mod_of_vec4Path

lemma opD2dCopy_eq {i : D2dCopyInst} (hgrid : i.nElems ≤ i.gridX * blockDim)
    (hsrc : i.src.block ≠ i.dst.block ∨ i.src = i.dst) :
    opD2dCopy o i m = m.fill i.dst i.nElems fun j => m.cell (i.src.add j) :=
  elementwise_eq hgrid (ReadsAround.of_alias hsrc) _ fun h => absurd h Bool.false_ne_true

lemma opGdnGate_eq [Add V] [Mul V] [Neg V] [FloatFns V] {i : GdnGateInst V}
    (hgrid : i.numHeads ≤ i.gridX * blockDim)
    (ha : i.aProj.block ≠ i.output.block) :
    opGdnGate o i m =
      m.fill i.output i.numHeads fun h =>
        gdnGate (i.aLog h) (m.cell (i.aProj.add h)) (i.dtBias h) :=
  elementwise_eq hgrid
    ((ReadsAround.of_alias (.inl ha)).map₂ (ReadsAround.const fun h => h) fun _ a h =>
      gdnGate (i.aLog h) a (i.dtBias h)) _ fun h => absurd h Bool.false_ne_true

lemma opEmbedding_eq {i : EmbeddingInst V} (hgrid : i.hs ≤ i.gridX * blockDim) :
    opEmbedding o i m =
      m.fill i.output i.hs fun idx => i.embedWeight (i.tokenId * i.hs + idx) :=
  elementwise_eq hgrid (ReadsAround.const _) _ fun h => absurd h Bool.false_ne_true

end Braidinfer.Recurrent
