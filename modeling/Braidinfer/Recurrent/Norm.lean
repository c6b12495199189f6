/-
Reductions of a block (`kernels/rdna3_reduce.h`), and the kernels that normalise rows
(`op_rmsnorm`, `op_rmsnorm_gated`, `op_mamba2_norm_gated` in `kernels/megakernel_ops.hip`).

A block has one row.  Its threads square their elements and add them up; a second loop scales.  When
every thread has at most `RMSNORM_REG_CAP` elements it keeps them in registers; otherwise the second
loop reads them again.

* `blockReduceSum`: the sum of the threads, in the order of the kernel; `blockReduceSum_eq`: **it is
  the sum**;
* `Broadcast`: what the threads read of it behind the last barrier;
* `normBlock`, `normBlock_eq`: **the registers make no difference**, even in place;
* `opRmsNorm_eq`, `opRmsNormGated_eq`, `opMamba2NormGated_eq`: the rows that a kernel leaves.
-/
import Braidinfer.Recurrent.Inst

namespace Braidinfer.Recurrent

open Braidinfer.Lib RowMem

variable {V : Type*}

/-! ### Reductions -/

section Reduce

variable [Add V] [Zero V]

/-- `dpp_row_xmask_add` -/
def dppRowXmaskAdd (mask : ℕ) (v : ℕ → V) : ℕ → V := fun tid => v tid + v (tid ^^^ mask)

/-- `permlanex16_swap_add`: the first lane of the other half of the wave. -/
def permlanex16SwapAdd (v : ℕ → V) : ℕ → V := fun tid =>
  v tid + v (tid / 32 * 32 + if tid % 32 < 16 then 16 else 0)

/-- `wave32_reduce_sum` -/
def wave32ReduceSum (v : ℕ → V) : ℕ → V :=
  permlanex16SwapAdd (dppRowXmaskAdd 1 (dppRowXmaskAdd 2 (dppRowXmaskAdd 4 (dppRowXmaskAdd 8 v))))

/-- `block_reduce_sum_256`: lane 0 of each wave stores the sum of the wave, and thread 0 adds these
up. -/
def blockReduceSum (v : ℕ → V) : V :=
  (List.range 8).foldl (fun s wave => s + wave32ReduceSum v (32 * wave)) 0

/-- What thread `tid` gets of a reduction with some total.  It reads `shared[0]` behind the last
barrier, and the first wave may be in the block's next reduction already and have stored its own sum
there. -/
abbrev Broadcast (V : Type*) := ℕ → V → V

/-- Every thread reads the total before the block's next reduction stores. -/
def Broadcast.InTime {V : Type*} (reads : Broadcast V) : Prop :=
  ∀ tid total, reads tid total = total

/-- What the threads sum up of `f` over `i < n`, a `blockDim.x`-th each. -/
def threadSums (n : ℕ) (f : ℕ → V) (tid : ℕ) : V :=
  (strided tid blockDim n).foldl (fun acc i => acc + f i) 0

end Reduce

/-- **The sum of the threads.** -/
lemma blockReduceSum_eq {K : Type*} [AddCommMonoid K] (v : ℕ → K) :
    blockReduceSum v = ∑ tid ∈ Finset.range blockDim, v tid := by
  have hwave : ∀ w, wave32ReduceSum v (32 * w) = ∑ l ∈ Finset.range 32, v (w * 32 + l) := by
    intro w
    have hlow := butterfly_mul 4 v (2 * w)
    have hhigh := butterfly_mul 4 v (2 * w + 1)
    rw [show 2 ^ 4 * (2 * w) = w * 32 by omega] at hlow
    rw [show 2 ^ 4 * (2 * w + 1) = w * 32 + 16 by omega] at hhigh
    rw [wave32ReduceSum, permlanex16SwapAdd, Nat.mul_comm 32 w, Nat.mul_div_cancel _ (by decide),
      Nat.mul_mod_left, if_pos (by decide)]
    calc butterfly 4 v (w * 32) + butterfly 4 v (w * 32 + 16)
        = ∑ j ∈ Finset.range 16, v (w * 32 + j) +
            ∑ j ∈ Finset.range 16, v (w * 32 + 16 + j) := by rw [hlow, hhigh]; rfl
      _ = ∑ l ∈ Finset.range (16 + 16), v (w * 32 + l) := by
          rw [Finset.sum_range_add]
          simp only [Nat.add_assoc]
  have hfold : ∀ n, (List.range n).foldl (fun s wave => s + wave32ReduceSum v (32 * wave)) 0 =
      ∑ w ∈ Finset.range n, wave32ReduceSum v (32 * w) := by
    intro n
    induction n with
    | zero => rfl
    | succ n ih =>
        rw [List.range_succ, List.foldl_append, ih, Finset.sum_range_succ, List.foldl_cons,
          List.foldl_nil]
  calc blockReduceSum v = ∑ w ∈ Finset.range 8, wave32ReduceSum v (32 * w) := hfold 8
    _ = ∑ w ∈ Finset.range 8, ∑ l ∈ Finset.range 32, v (w * 32 + l) :=
        Finset.sum_congr rfl fun w _ => hwave w
    _ = ∑ tid ∈ Finset.range blockDim, v tid := (sum_range_mul 8 32).symm

/-- **The sum over all elements**, when the threads share them. -/
lemma blockReduceSum_threadSums {K : Type*} [AddCommMonoid K] (n : ℕ) (f : ℕ → K) :
    blockReduceSum (threadSums n f) = ∑ i ∈ Finset.range n, f i := by
  have hfold : ∀ tid, threadSums n f tid = ((strided tid blockDim n).map f).sum := fun tid => by
    rw [threadSums, List.sum_eq_foldl, List.foldl_map]
  rw [blockReduceSum_eq]
  simp only [hfold]
  exact sum_strided blockDim_pos n

/-! ### Rows -/

/-- `RMSNORM_REG_CAP` -/
def rmsnormRegCap : ℕ := 16

section Norm

variable [Add V] [Mul V] [Div V] [Zero V] [NatCast V] [FloatFns V] {α : Type*}

/-- `rsqrtf(sum of squares / dim + eps)` -/
def rms (dim : ℕ) (eps : V) (val : ℕ → V) : V :=
  rsqrtf (blockReduceSum (threadSums dim fun j => val j * val j) / (dim : V) + eps)

/-- What a thread has for it. -/
def threadRms (reads : Broadcast V) (dim : ℕ) (eps : V) (val : ℕ → V) (tid : ℕ) : V :=
  rsqrtf (reads tid (blockReduceSum (threadSums dim fun j => val j * val j)) / (dim : V) + eps)

/-- A block that normalises a row of `dim` elements: `load` is what a thread reads of element `j`,
`val` what it squares, and `app` what it stores. -/
def normBlock (o : ThreadOrder) (reads : Broadcast V) (dim : ℕ) (eps : V) (out : FPtr)
    (load : Mem V → ℕ → α) (val : α → V) (app : V → ℕ → α → V) (m : Mem V) : Mem V :=
  let scale := fun j => threadRms reads dim eps (fun j => val (load m j)) (j % blockDim)
  if (dim + blockDim - 1) / blockDim ≤ rmsnormRegCap then
    -- the elements in registers
    blockFor o blockDim 0 dim (fun j m' => m'.put (out.add j) (app (scale j) j (load m j))) m
  else
    blockFor o blockDim 0 dim (fun j m' => m'.put (out.add j) (app (scale j) j (load m' j))) m

/-- `op_rmsnorm` and `op_rmsnorm_wx`: one block per row. -/
def opRmsNorm [One V] (o : ThreadOrder) (ph : ℕ → ThreadOrder) (reads : ℕ → Broadcast V)
    (i : RmsNormInst V) (m : Mem V) : Mem V :=
  runThreads (fun vblock m =>
      normBlock (ph vblock) (reads vblock) i.dim i.eps (i.output.add (vblock * i.dim))
      (fun m j => m.cell (i.input.add (vblock * i.dim + j))) id
      (fun scale j v => v * scale * if i.onePlusW then 1 + i.weight j else i.weight j) m)
    (o.of i.gridX) m

/-- `op_rmsnorm_gated`: one block per head. -/
def opRmsNormGated [One V] [Neg V] (o : ThreadOrder) (ph : ℕ → ThreadOrder)
    (reads : ℕ → Broadcast V) (i : RmsNormGateInst V) (m : Mem V) : Mem V :=
  runThreads (fun h m => normBlock (ph h) (reads h) i.vd i.eps (i.output.add (h * i.vd))
      (fun m j => (m.cell (i.x.add (h * i.vd + j)), m.cell (i.z.add (h * i.vd + j)))) Prod.fst
      (fun scale j v =>
        let normed := v.1 * scale * i.weight j
        normed * v.2 / (1 + expf (-v.2))) m)
    (o.of i.gridX) m

/-- `op_mamba2_norm_gated`: one block per group; the weight is as long as all rows. -/
def opMamba2NormGated [One V] [Neg V] (o : ThreadOrder) (ph : ℕ → ThreadOrder)
    (reads : ℕ → Broadcast V) (i : Mamba2NormGatedInst V) (m : Mem V) : Mem V :=
  runThreads (fun h m => normBlock (ph h) (reads h) i.valueDim i.eps (i.output.add (h * i.valueDim))
      (fun m j => m.cell (i.x.add (h * i.valueDim + j)) *
        silu (m.cell (i.z.add (h * i.valueDim + j)))) id
      (fun scale j v => v * scale * i.weight (h * i.valueDim + j)) m)
    (o.of i.gridX) m

/-! ### What they leave -/

variable {o : ThreadOrder} {ph : ℕ → ThreadOrder} {dim : ℕ} {eps : V} {out : FPtr}
  {load : Mem V → ℕ → α} {val : α → V} {app : V → ℕ → α → V} {m : Mem V}

lemma threadRms_eq {reads : Broadcast V} (hreads : reads.InTime) {val : ℕ → V} {tid : ℕ} :
    threadRms reads dim eps val tid = rms dim eps val := by
  rw [threadRms, hreads, rms]

/-- **A normalised row**, with registers or without. -/
theorem normBlock_eq {reads : Broadcast V} (hreads : reads.InTime)
    (hload : ReadsAround out 1 dim load) :
    normBlock o reads dim eps out load val app m =
      m.fill out dim fun j => app (rms dim eps fun j => val (load m j)) j (load m j) := by
  simp only [normBlock, threadRms_eq hreads]
  split_ifs
  · exact blockFor_put_zero (f := fun _ j => app _ j (load m j)) blockDim_pos (ReadsAround.const _)
  · exact blockFor_put_zero (f := fun m' j => app _ j (load m' j)) blockDim_pos
      fun j hj m₁ m₂ h => congrArg (app _ j) (hload j hj m₁ m₂ h)

omit [Mul V] [Div V] [NatCast V] [FloatFns V] in
/-- The sums of the threads by the elements. -/
lemma threadSums_congr {n : ℕ} {f g : ℕ → V} (h : ∀ i < n, f i = g i) :
    threadSums n f = threadSums n g := by
  funext tid
  refine List.foldl_ext _ _ _ fun acc i hi => ?_
  rw [h i (mem_strided.mp hi).1]

lemma rms_congr {f g : ℕ → V} (h : ∀ j < dim, f j = g j) : rms dim eps f = rms dim eps g := by
  rw [rms, rms, threadSums_congr fun j hj => by rw [h j hj]]

/-- A kernel of which each block normalises a row. -/
lemma runThreads_normBlock {reads : ℕ → Broadcast V} (hreads : ∀ r, (reads r).InTime) {gridX : ℕ}
    {load : ℕ → Mem V → ℕ → α} {app : ℕ → V → ℕ → α → V}
    (hload : ∀ r j, ∀ m m' : Mem V, (∀ a : FPtr, a.block ≠ out.block → m.cell a = m'.cell a) →
      load r m j = load r m' j) :
    runThreads (fun r m => normBlock (ph r) (reads r) dim eps (out.add (r * dim)) (load r) val
        (app r) m) (o.of gridX) m =
      m.fill out (gridX * dim) fun k =>
        app (k / dim) (rms dim eps fun j => val (load (k / dim) m j)) (k % dim)
          (load (k / dim) m (k % dim)) := by
  have hstep : ∀ m' : Mem V, ∀ r ∈ o.of gridX,
      normBlock (ph r) (reads r) dim eps (out.add (r * dim)) (load r) val (app r) m' =
        if r < gridX then m'.fill (out.add (r * dim)) dim fun j =>
          app r (rms dim eps fun j => val (load r m' j)) j (load r m' j) else m' := by
    intro m' r hr
    have hlt := o.mem_of.mp hr
    rw [if_pos hlt]
    exact normBlock_eq (hreads r) fun j _ m₁ m₂ h => hload r j m₁ m₂ fun a ha => h.of_block_ne ha
  rw [runThreads, List.foldl_ext _ _ _ hstep, ← runThreads]
  refine runThreads_fill (o.perm gridX) le_rfl fun k hk r hr m₁ m₂ h => ?_
  have heq : ∀ j, load r m₁ j = load r m₂ j := fun j =>
    hload r j m₁ m₂ fun a ha => h.of_block_ne ha
  simp only [heq]

/-- The row that `op_rmsnorm` leaves for a row. -/
def rmsNormRow [One V] (onePlusW : Bool) (weight : ℕ → V) (dim : ℕ) (eps : V) (x : ℕ → V) (j : ℕ) :
    V :=
  x j * rms dim eps x * if onePlusW then 1 + weight j else weight j

lemma opRmsNorm_eq [One V] {reads : ℕ → Broadcast V} (hreads : ∀ r, (reads r).InTime)
    {i : RmsNormInst V} (hin : i.input.block ≠ i.output.block) :
    opRmsNorm o ph reads i m =
      m.fill i.output (i.gridX * i.dim) fun k =>
        rmsNormRow i.onePlusW i.weight i.dim i.eps
          (fun j => m.cell (i.input.add (k / i.dim * i.dim + j))) (k % i.dim) :=
  runThreads_normBlock hreads fun _ _ _ _ h => h _ hin

/-- The row that `op_rmsnorm_gated` leaves for the rows of `x` and `z`. -/
def rmsNormGatedRow [One V] [Neg V] (weight : ℕ → V) (vd : ℕ) (eps : V) (x z : ℕ → V) (j : ℕ) :
    V :=
  x j * rms vd eps x * weight j * z j / (1 + expf (-z j))

lemma opRmsNormGated_eq [One V] [Neg V] {reads : ℕ → Broadcast V} (hreads : ∀ r, (reads r).InTime)
    {i : RmsNormGateInst V} (hx : i.x.block ≠ i.output.block) (hz : i.z.block ≠ i.output.block) :
    opRmsNormGated o ph reads i m =
      m.fill i.output (i.gridX * i.vd) fun k =>
        rmsNormGatedRow i.weight i.vd i.eps (fun j => m.cell (i.x.add (k / i.vd * i.vd + j)))
          (fun j => m.cell (i.z.add (k / i.vd * i.vd + j))) (k % i.vd) :=
  runThreads_normBlock hreads fun _ _ _ _ h => Prod.ext (h _ hx) (h _ hz)

/-- The row that `op_mamba2_norm_gated` leaves for the rows of `x` and `z`. -/
def mamba2NormGatedRow [One V] [Neg V] (weight : ℕ → V) (dim : ℕ) (eps : V) (x z : ℕ → V)
    (j : ℕ) : V :=
  x j * silu (z j) * rms dim eps (fun j => x j * silu (z j)) * weight j

lemma opMamba2NormGated_eq [One V] [Neg V] {reads : ℕ → Broadcast V}
    (hreads : ∀ r, (reads r).InTime) {i : Mamba2NormGatedInst V}
    (hx : i.x.block ≠ i.output.block) (hz : i.z.block ≠ i.output.block) :
    opMamba2NormGated o ph reads i m =
      m.fill i.output (i.gridX * i.valueDim) fun k =>
        mamba2NormGatedRow (fun j => i.weight (k / i.valueDim * i.valueDim + j)) i.valueDim i.eps
          (fun j => m.cell (i.x.add (k / i.valueDim * i.valueDim + j)))
          (fun j => m.cell (i.z.add (k / i.valueDim * i.valueDim + j))) (k % i.valueDim) :=
  runThreads_normBlock hreads fun r j m₁ m₂ h => by
    rw [h (i.x.add _) hx, h (i.z.add _) hz]

end Norm

end Braidinfer.Recurrent
