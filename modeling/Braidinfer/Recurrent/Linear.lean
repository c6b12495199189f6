/-
Linear projections (`op_linear_proj`, `op_linear_proj_2x`, `op_lm_head` in
`kernels/megakernel_ops.hip`), with `bf16` weights.

A block has a row of the matrix.  Its threads multiply eight elements at a time, then the rest one
by one.  For a batch it keeps eight tokens at once.  `op_linear_proj_2x` has two matrices for one
input; in `op_lm_head` the blocks take rows with a stride, and a single token is staged in shared
memory, which has room for `lmHeadInputFloats` elements of it.

* `dotVec`: the product of a row and an input, in the order of the kernels; `linear`: a row of a
  projection;
* `linearRow_eq`: **a batch is its tokens, one by one**; `opLinearProj_fill`: a projection;
* `opLinearProj2x_eq`: **the fused kernel is two projections**;
* `opLmHead_eq`: **the head is a projection, whatever the grid**, when its input fits.
-/
import Braidinfer.Megakernel.GdnPartition
import Braidinfer.Quant.LinearProj
import Braidinfer.Recurrent.Norm

namespace Braidinfer.Recurrent

open Braidinfer.Lib RowMem
open Braidinfer.Quant (bTile tiledBatches mem_tiledBatches)

variable {V : Type*}

/-! ### Products -/

/-- The matrices behind the pointers: the elements of a `bf16` buffer, widened; and the elements of
a packed `rnf4` buffer, by `in_dim`, row and column. -/
structure Matrices (V : Type*) where
  bf16 : List UInt8 → ℕ → V
  rnf4 : List UInt8 → ℕ → ℕ → ℕ → V

/-- The elements that thread `tid` visits of a row of `n`: eight at a time, then the rest. -/
def vecVisits (n tid : ℕ) : List ℕ :=
  let vecCount := n / 8
  let rem := vecCount * 8
  ((strided tid blockDim vecCount).flatMap fun vi => (List.range 8).map (vi * 8 + ·)) ++
    (strided tid blockDim (n - rem)).map (rem + ·)

section Dot

variable [Add V] [Mul V] [Zero V]

/-- The product of two rows, of which every thread adds up the elements that it visits; thread `tid`
has the row `x tid`. -/
def dotByThreads (visits : ℕ → List ℕ) (w : ℕ → V) (x : ℕ → ℕ → V) : V :=
  blockReduceSum fun tid => (visits tid).foldl (fun acc j => acc + w j * x tid j) 0

/-- The product of two rows that all threads have. -/
def dotBy (visits : ℕ → List ℕ) (w x : ℕ → V) : V := dotByThreads visits w fun _ => x

/-- The product of a row and an input. -/
def dotVec (n : ℕ) (w x : ℕ → V) : V := dotBy (vecVisits n) w x

/-- A row of a projection. -/
def Matrices.linear (M : Matrices V) (weight : List UInt8) (inDim : ℕ) (x : ℕ → V) (row : ℕ) : V :=
  dotVec inDim (fun j => M.bf16 weight (row * inDim + j)) x

lemma lt_of_mem_vecVisits {n tid j : ℕ} (h : j ∈ vecVisits n tid) : j < n := by
  rw [vecVisits, List.mem_append, List.mem_flatMap, List.mem_map] at h
  rcases h with ⟨vi, hvi, hj⟩ | ⟨r, hr, rfl⟩
  · obtain ⟨r, hr, rfl⟩ := List.mem_map.mp hj
    have hlt := (mem_strided.mp hvi).1
    rw [List.mem_range] at hr
    omega
  · have hlt := (mem_strided.mp hr).1
    omega

lemma dotByThreads_congr {visits : ℕ → List ℕ} {w : ℕ → V} {x x' : ℕ → ℕ → V}
    (h : ∀ tid, ∀ j ∈ visits tid, x tid j = x' tid j) :
    dotByThreads visits w x = dotByThreads visits w x' := by
  refine congrArg blockReduceSum (funext fun tid => ?_)
  exact List.foldl_ext _ _ _ fun acc j hj => by rw [h tid j hj]

lemma dotBy_congr {visits : ℕ → List ℕ} {w x x' : ℕ → V}
    (h : ∀ tid, ∀ j ∈ visits tid, x j = x' j) : dotBy visits w x = dotBy visits w x' :=
  dotByThreads_congr h

end Dot

/-! ### The kernels -/

/-- `batch`, at least one. -/
def batchOf (batch : ℕ) : ℕ := if batch ≤ 1 then 1 else batch

section Kernels

variable [Add V] [Mul V] [Zero V] (M : Matrices V)

/-- The product of row `row` with token `b`. -/
def tokenDot (weight : List UInt8) (input : FPtr) (inDim row b : ℕ) (m : Mem V) : V :=
  dotVec inDim (fun j => M.bf16 weight (row * inDim + j)) fun j => m.cell (input.add (b * inDim + j))

/-- A row of a projection: for one token, or for a batch in tiles. -/
def linearRow (output : FPtr) (weight : List UInt8) (input : FPtr) (outDim inDim batch row : ℕ)
    (m : Mem V) : Mem V :=
  if batchOf batch = 1 then m.put (output.add row) (tokenDot M weight input inDim row 0 m)
  else
    (strided 0 bTile (batchOf batch)).foldl (fun m b0 =>
      let tileEnd := if b0 + bTile < batchOf batch then b0 + bTile else batchOf batch
      (List.range (tileEnd - b0)).foldl (fun m' t =>
        m'.put (output.add ((b0 + t) * outDim + row))
          (tokenDot M weight input inDim row (b0 + t) m)) m) m

/-- `op_linear_proj` -/
def opLinearProj (o : ThreadOrder) (i : LinearProjInst) : Mem V → Mem V :=
  runThreads (fun row m => if row < i.outDim then
    linearRow M i.output i.weight i.input i.outDim i.inDim i.batch row m else m) (o.of i.gridX)

/-- `op_linear_proj_2x`, on a grid of `2 * out_dim`. -/
def opLinearProj2x (o : ThreadOrder) (i : LinearProj2xInst) : Mem V → Mem V :=
  runThreads (fun vblock m =>
    if vblock < i.outDim then
      linearRow M i.outputA i.weightA i.input i.outDim i.inDim i.batch vblock m
    else if vblock < 2 * i.outDim then
      linearRow M i.outputB i.weightB i.input i.outDim i.inDim i.batch (vblock - i.outDim) m
    else m) (o.of (2 * i.outDim))

/-- The floats of an input that `op_lm_head` has room for: behind the eight sums of the waves, in
the shared memory of a launch (`SHARED_LPROJ_TOTAL`). -/
def lmHeadInputFloats : ℕ := Megakernel.GdnPartition.sharedLprojTotal / 4 - 8

/-- `op_lm_head`: block `blockIdx.x` takes the rows from there with a stride of `gridDim.x`.  The
input is staged in shared memory first, for one token; `past` is what is loaded of it where shared
memory has ended. -/
def opLmHead (o : ThreadOrder) (past : ℕ → V) (gridDim : ℕ) (i : LinearProjInst) :
    Mem V → Mem V :=
  runThreads (fun blockIdx m =>
    if batchOf i.batch = 1 then
      let lds := fun j => if j < lmHeadInputFloats then m.cell (i.input.add j) else past j
      runThreads (fun row m => m.put (i.output.add row)
        (dotVec i.inDim (fun j => M.bf16 i.weight (row * i.inDim + j)) lds))
        (strided blockIdx gridDim i.outDim) m
    else
      runThreads (linearRow M i.output i.weight i.input i.outDim i.inDim i.batch)
        (strided blockIdx gridDim i.outDim) m) (o.of gridDim)

end Kernels

/-! ### What they leave -/

section Spec

variable [Add V] [Mul V] [Zero V] {M : Matrices V} {m m' : Mem V} {output input : FPtr}
  {weight : List UInt8} {outDim inDim batch row b : ℕ}

lemma tokenDot_congr (h : ∀ j < inDim, m.cell (input.add (b * inDim + j)) =
    m'.cell (input.add (b * inDim + j))) :
    tokenDot M weight input inDim row b m = tokenDot M weight input inDim row b m' :=
  dotBy_congr fun _ j hj => h j (lt_of_mem_vecVisits hj)

/-- **A batch is its tokens**: a row is written for one after the other. -/
lemma linearRow_eq (hin : input.block ≠ output.block) (hrow : row < outDim) :
    linearRow M output weight input outDim inDim batch row m =
      (List.range (batchOf batch)).foldl (fun m' b => m'.put (output.add (b * outDim + row))
        (tokenDot M weight input inDim row b m)) m := by
  have hinj : Function.Injective fun b => output.add (b * outDim + row) := fun b b' h =>
    (rowMajor_inj hrow hrow (Nat.add_left_cancel (congrArg DevPtr.off h))).1
  rw [linearRow]
  split_ifs with hone
  · rw [hone, List.range_one, List.foldl_cons, List.foldl_nil, Nat.zero_mul, Nat.zero_add]
  -- what is stored does not change the products of the next tiles
  have hdot : ∀ m' : Mem V, (∀ a : FPtr, a.block ≠ output.block → m'.cell a = m.cell a) →
      ∀ b, tokenDot M weight input inDim row b m' = tokenDot M weight input inDim row b m :=
    fun m' hm b => tokenDot_congr fun j _ => hm _ hin
  have htiles : ∀ (tiles : List ℕ) (m' : Mem V),
      (∀ a : FPtr, a.block ≠ output.block → m'.cell a = m.cell a) →
      tiles.foldl (fun m b0 => (List.range ((if b0 + bTile < batchOf batch then b0 + bTile
          else batchOf batch) - b0)).foldl (fun m' t =>
            m'.put (output.add ((b0 + t) * outDim + row))
              (tokenDot M weight input inDim row (b0 + t) m)) m) m' =
        (tiles.flatMap fun b0 => (List.range ((if b0 + bTile < batchOf batch then b0 + bTile
          else batchOf batch) - b0)).map (b0 + ·)).foldl (fun m' b =>
            m'.put (output.add (b * outDim + row)) (tokenDot M weight input inDim row b m)) m' := by
    intro tiles
    induction tiles with
    | nil => exact fun _ _ => rfl
    | cons b0 tiles ih =>
        intro m' hm
        rw [List.foldl_cons, List.flatMap_cons, List.foldl_append, List.foldl_map]
        simp only [hdot m' hm]
        refine ih _ fun a ha => ?_
        rw [← List.foldl_map (f := (b0 + ·)) (g := fun (m' : Mem V) b =>
          m'.put (output.add (b * outDim + row)) (tokenDot M weight input inDim row b m)),
          cell_puts_of_ne (p := fun b => output.add (b * outDim + row))
            (by rintro b - rfl; exact ha rfl), hm a ha]
  rw [htiles _ _ fun _ _ => rfl]
  exact puts_congr (fun b => mem_tiledBatches.trans List.mem_range.symm) hinj

/-- What the rows of a projection leave, in any order. -/
lemma runThreads_linearRow {order : List ℕ} {N : ℕ} (horder : order.Perm (List.range N))
    (hN : outDim ≤ N) (hin : input.block ≠ output.block) :
    runThreads (fun row m => if row < outDim then
        linearRow M output weight input outDim inDim batch row m else m) order m =
      m.fill output (batchOf batch * outDim) fun k =>
        tokenDot M weight input inDim (k % outDim) (k / outDim) m := by
  have hstep : ∀ (m : Mem V) (row : ℕ), (if row < outDim then
      linearRow M output weight input outDim inDim batch row m else m) = if row < outDim then
        (List.range (batchOf batch)).foldl (fun m' b => m'.put (output.add (b * outDim + row))
          (tokenDot M weight input inDim row b m)) m else m := fun m row => by
    split_ifs with hrow
    · exact linearRow_eq hin hrow
    · rfl
  simp only [hstep]
  exact runThreads_columns horder hN fun row _ m m' hm b _ => tokenDot_congr fun j _ => hm _ hin

/-- **A projection**, in any order of the blocks. -/
lemma opLinearProj_fill {o : ThreadOrder} {i : LinearProjInst} (hgrid : i.outDim ≤ i.gridX)
    (hin : i.input.block ≠ i.output.block) :
    opLinearProj M o i m = m.fill i.output (batchOf i.batch * i.outDim) fun k =>
      tokenDot M i.weight i.input i.inDim (k % i.outDim) (k / i.outDim) m :=
  runThreads_linearRow (o.perm i.gridX) hgrid hin

/-- The cells of a row, for all tokens. -/
def rowCells (output : FPtr) (outDim batch row : ℕ) : Set FPtr :=
  {a | ∃ b < batchOf batch, a = output.add (b * outDim + row)}

lemma cell_linearRow_of_notMem {a : FPtr} (hin : input.block ≠ output.block) (hrow : row < outDim)
    (ha : a ∉ rowCells output outDim batch row) :
    (linearRow M output weight input outDim inDim batch row m).cell a = m.cell a := by
  rw [linearRow_eq hin hrow,
    cell_puts_of_ne (p := fun b => output.add (b * outDim + row))
      fun b hb heq => ha ⟨b, List.mem_range.mp hb, heq⟩]

lemma cell_linearRow {b : ℕ} (hin : input.block ≠ output.block) (hrow : row < outDim)
    (hb : b < batchOf batch) :
    (linearRow M output weight input outDim inDim batch row m).cell
      (output.add (b * outDim + row)) = tokenDot M weight input inDim row b m := by
  rw [linearRow_eq hin hrow]
  exact cell_puts (p := fun b => output.add (b * outDim + row)) (fun b b' h =>
    (rowMajor_inj hrow hrow (Nat.add_left_cancel (congrArg DevPtr.off h))).1)
    (List.mem_range.mpr hb)

lemma rowCells_inj {row' : ℕ} {a : FPtr} (hrow : row < outDim) (hrow' : row' < outDim)
    (ha : a ∈ rowCells output outDim batch row) (ha' : a ∈ rowCells output outDim batch row') :
    row = row' := by
  obtain ⟨b, -, rfl⟩ := ha
  obtain ⟨b', -, heq⟩ := ha'
  exact (rowMajor_inj hrow hrow' (Nat.add_left_cancel (congrArg DevPtr.off heq))).2

lemma block_of_mem_rowCells {a : FPtr} (ha : a ∈ rowCells output outDim batch row) :
    a.block = output.block := by
  obtain ⟨b, -, rfl⟩ := ha
  rfl

section TwoMatrices

variable {i : LinearProj2xInst}

/-- The matrix and the row of a block. -/
def LinearProj2xInst.out (i : LinearProj2xInst) (vblock : ℕ) : FPtr × List UInt8 × ℕ :=
  if vblock < i.outDim then (i.outputA, i.weightA, vblock)
  else (i.outputB, i.weightB, vblock - i.outDim)

lemma out_of_lt {vb : ℕ} (h : vb < i.outDim) : i.out vb = (i.outputA, i.weightA, vb) := if_pos h

lemma out_of_le {vb : ℕ} (h : i.outDim ≤ vb) :
    i.out vb = (i.outputB, i.weightB, vb - i.outDim) := if_neg (Nat.not_lt.mpr h)

/-- The blocks of `op_linear_proj_2x` do not race. -/
lemma raceFree_linearProj2x (hA : i.input.block ≠ i.outputA.block)
    (hB : i.input.block ≠ i.outputB.block) (hAB : i.outputA.block ≠ i.outputB.block)
    {ts : List ℕ} (hts : ∀ vb ∈ ts, vb < 2 * i.outDim) :
    RaceFree RowMem.cell (fun vb => linearRow M (i.out vb).1 (i.out vb).2.1 i.input i.outDim i.inDim
        i.batch (i.out vb).2.2)
      (fun vb => rowCells (i.out vb).1 i.outDim i.batch (i.out vb).2.2) ts := by
  have hout : ∀ vb < 2 * i.outDim, (i.out vb).2.2 < i.outDim ∧
      i.input.block ≠ (i.out vb).1.block := fun vb hvb => by
    rcases Nat.lt_or_ge vb i.outDim with hlt | hle
    · rw [out_of_lt hlt]
      exact ⟨hlt, hA⟩
    · rw [out_of_le hle]
      exact ⟨Nat.sub_lt_left_of_lt_add hle (by omega), hB⟩
  constructor
  · intro vb hvb vb' hvb' hne a ha ha'
    have hblocks := (block_of_mem_rowCells ha).symm.trans (block_of_mem_rowCells ha')
    have hrow := (hout vb (hts vb hvb)).1
    have hrow' := (hout vb' (hts vb' hvb')).1
    rcases Nat.lt_or_ge vb i.outDim with hlt | hle <;>
      rcases Nat.lt_or_ge vb' i.outDim with hlt' | hle'
    · rw [out_of_lt hlt] at ha
      rw [out_of_lt hlt'] at ha'
      exact hne (rowCells_inj hlt hlt' ha ha')
    · rw [out_of_lt hlt, out_of_le hle'] at hblocks
      exact hAB hblocks
    · rw [out_of_le hle, out_of_lt hlt'] at hblocks
      exact hAB hblocks.symm
    · rw [out_of_le hle] at ha hrow
      rw [out_of_le hle'] at ha' hrow'
      have hrows : vb - i.outDim = vb' - i.outDim := rowCells_inj hrow hrow' ha ha'
      omega
  · intro vb hvb m a ha
    obtain ⟨hrow, hin⟩ := hout vb (hts vb hvb)
    exact cell_linearRow_of_notMem hin hrow ha
  · rintro vb hvb m m' hm a ⟨b, hb, rfl⟩
    obtain ⟨hrow, hin⟩ := hout vb (hts vb hvb)
    rw [cell_linearRow hin hrow hb, cell_linearRow hin hrow hb]
    refine tokenDot_congr fun j _ => hm _ fun vb' hvb' _ ha => ?_
    have hblock := block_of_mem_rowCells ha
    exact (hout vb' (hts vb' hvb')).2 hblock

/-- The blocks of `op_linear_proj_2x` in order: first those of the one matrix, then those of the
other. -/
lemma opLinearProj2x_eq_rows {o : ThreadOrder} (hA : i.input.block ≠ i.outputA.block)
    (hB : i.input.block ≠ i.outputB.block) (hAB : i.outputA.block ≠ i.outputB.block) :
    opLinearProj2x M o i m =
      runThreads (fun row m => if row < i.outDim then
          linearRow M i.outputB i.weightB i.input i.outDim i.inDim i.batch row m else m)
        (List.range i.outDim)
        (runThreads (fun row m => if row < i.outDim then
          linearRow M i.outputA i.weightA i.input i.outDim i.inDim i.batch row m else m)
          (List.range i.outDim) m) := by
  have hlt : ∀ vb ∈ o.of (2 * i.outDim), vb < 2 * i.outDim := fun vb hvb => o.mem_of.mp hvb
  have hstep : opLinearProj2x M o i m = runThreads (fun vb => linearRow M (i.out vb).1
      (i.out vb).2.1 i.input i.outDim i.inDim i.batch (i.out vb).2.2) (o.of (2 * i.outDim)) m := by
    refine List.foldl_ext _ _ _ fun m' vb hvb => ?_
    rcases Nat.lt_or_ge vb i.outDim with h | h
    · simp only [out_of_lt h]
      exact if_pos h
    · simp only [out_of_le h]
      exact (if_neg (Nat.not_lt.mpr h)).trans (if_pos (hlt vb hvb))
  have horder : runThreads (fun vb => linearRow M (i.out vb).1 (i.out vb).2.1 i.input i.outDim
      i.inDim i.batch (i.out vb).2.2) (o.of (2 * i.outDim)) m =
      runThreads (fun vb => linearRow M (i.out vb).1 (i.out vb).2.1 i.input i.outDim i.inDim
        i.batch (i.out vb).2.2) (List.range (2 * i.outDim)) m := by
    refine ext_cell fun a => ?_
    exact ((raceFree_linearProj2x hA hB hAB hlt).runThreads_perm (o.nodup _) (o.perm _)).symm
  have hrange : List.range (2 * i.outDim) =
      List.range i.outDim ++ (List.range i.outDim).map (i.outDim + ·) := by
    rw [Nat.two_mul, List.range_add]
  rw [hstep, horder, hrange, runThreads_append]
  -- the blocks of the one, and of the other
  have hfirst : ∀ m' : Mem V, runThreads (fun vb => linearRow M (i.out vb).1 (i.out vb).2.1 i.input
      i.outDim i.inDim i.batch (i.out vb).2.2) (List.range i.outDim) m' =
      runThreads (fun row m => if row < i.outDim then
        linearRow M i.outputA i.weightA i.input i.outDim i.inDim i.batch row m else m)
        (List.range i.outDim) m' := fun m' =>
    List.foldl_ext _ _ _ fun m' vb hvb => by
      simp only [out_of_lt (List.mem_range.mp hvb)]
      exact (if_pos (List.mem_range.mp hvb)).symm
  rw [hfirst, runThreads, List.foldl_map]
  refine List.foldl_ext _ _ _ fun m' row hrow => ?_
  simp only [out_of_le (Nat.le_add_right _ _), Nat.add_sub_cancel_left]
  exact (if_pos (List.mem_range.mp hrow)).symm

lemma opLinearProj2x_fill {o : ThreadOrder} (hA : i.input.block ≠ i.outputA.block)
    (hB : i.input.block ≠ i.outputB.block) (hAB : i.outputA.block ≠ i.outputB.block) :
    opLinearProj2x M o i m =
      (m.fill i.outputA (batchOf i.batch * i.outDim) fun k =>
          tokenDot M i.weightA i.input i.inDim (k % i.outDim) (k / i.outDim) m).fill
        i.outputB (batchOf i.batch * i.outDim) fun k =>
          tokenDot M i.weightB i.input i.inDim (k % i.outDim) (k / i.outDim) m := by
  rw [opLinearProj2x_eq_rows hA hB hAB, runThreads_linearRow (List.Perm.refl _) le_rfl hB,
    runThreads_linearRow (List.Perm.refl _) le_rfl hA]
  exact fill_congr fun k _ => tokenDot_congr fun j _ => cell_fill_of_ne hA

end TwoMatrices

/-- The input of a head has room in shared memory. -/
def LinearProjInst.Fits (i : LinearProjInst) : Prop :=
  batchOf i.batch = 1 → i.inDim ≤ lmHeadInputFloats

/-- The head on any grid. -/
lemma opLmHead_fill {o : ThreadOrder} {past : ℕ → V} {gridDim : ℕ} {i : LinearProjInst}
    (hgrid : 0 < gridDim) (hfits : i.Fits) (hin : i.input.block ≠ i.output.block) :
    opLmHead M o past gridDim i m = m.fill i.output (batchOf i.batch * i.outDim) fun k =>
      tokenDot M i.weight i.input i.inDim (k % i.outDim) (k / i.outDim) m := by
  let lds : Mem V → ℕ → V := fun m j =>
    if j < lmHeadInputFloats then m.cell (i.input.add j) else past j
  have hblock : ∀ (rows : List ℕ), (∀ row ∈ rows, row < i.outDim) → ∀ m : Mem V,
      (if batchOf i.batch = 1 then
        runThreads (fun row m' => m'.put (i.output.add row)
          (dotVec i.inDim (fun j => M.bf16 i.weight (row * i.inDim + j)) (lds m))) rows m
      else runThreads (linearRow M i.output i.weight i.input i.outDim i.inDim i.batch) rows m) =
      runThreads (fun row m => if row < i.outDim then
        linearRow M i.output i.weight i.input i.outDim i.inDim i.batch row m else m) rows m := by
    intro rows hrows m
    split_ifs with hone
    · -- the staged input is the input at every row
      have hstaged : ∀ m' : Mem V, (∀ a : FPtr, a.block ≠ i.output.block → m'.cell a = m.cell a) →
          runThreads (fun row m' => m'.put (i.output.add row)
            (dotVec i.inDim (fun j => M.bf16 i.weight (row * i.inDim + j)) (lds m))) rows m' =
          runThreads (fun row m => if row < i.outDim then
            linearRow M i.output i.weight i.input i.outDim i.inDim i.batch row m else m) rows m' := by
        induction rows with
        | nil => exact fun _ _ => rfl
        | cons row rows ih =>
            intro m' hm
            have hdot : tokenDot M i.weight i.input i.inDim row 0 m' =
                dotVec i.inDim (fun j => M.bf16 i.weight (row * i.inDim + j)) (lds m) :=
              dotBy_congr fun _ j hj => by
                have hlt := (lt_of_mem_vecVisits hj).trans_le (hfits hone)
                rw [Nat.zero_mul, Nat.zero_add, hm (i.input.add j) hin]
                exact (if_pos hlt).symm
            rw [runThreads_cons, runThreads_cons, if_pos (hrows row List.mem_cons_self), linearRow,
              if_pos hone, hdot]
            refine ih (fun r hr => hrows r (List.mem_cons_of_mem _ hr)) _ fun a ha => ?_
            rw [cell_put_of_block_ne (by exact ha), hm a ha]
      exact hstaged m fun _ _ => rfl
    · exact List.foldl_ext _ _ _ fun m' row hrow => (if_pos (hrows row hrow)).symm
  have hrows : opLmHead M o past gridDim i m = blockFor o gridDim 0 i.outDim (fun row m =>
      if row < i.outDim then
        linearRow M i.output i.weight i.input i.outDim i.inDim i.batch row m else m) m := by
    refine List.foldl_ext _ _ _ fun m' blockIdx _ => ?_
    simp only [Nat.zero_add]
    exact hblock _ (fun row hrow => (mem_strided.mp hrow).1) m'
  obtain ⟨is, hperm, heq⟩ := blockFor_eq o 0 i.outDim (fun row (m : Mem V) =>
    if row < i.outDim then
      linearRow M i.output i.weight i.input i.outDim i.inDim i.batch row m else m) m hgrid
  rw [hrows, heq]
  rw [Nat.sub_zero, ← List.range_eq_range'] at hperm
  exact runThreads_linearRow hperm le_rfl hin

/-- The two projections that `op_linear_proj_2x` fuses. -/
def LinearProj2xInst.projA (i : LinearProj2xInst) : LinearProjInst :=
  ⟨.linearProj, i.outDim, i.outputA, i.weightA, i.input, i.outDim, i.inDim, i.batch⟩

@[inherit_doc LinearProj2xInst.projA]
def LinearProj2xInst.projB (i : LinearProj2xInst) : LinearProjInst :=
  ⟨.linearProj, i.outDim, i.outputB, i.weightB, i.input, i.outDim, i.inDim, i.batch⟩

/-- **The fused kernel is two projections**, for any batch and whatever the orders of the blocks. -/
theorem opLinearProj2x_eq {i : LinearProj2xInst} (hA : i.input.block ≠ i.outputA.block)
    (hB : i.input.block ≠ i.outputB.block) (hAB : i.outputA.block ≠ i.outputB.block)
    (o oA oB : ThreadOrder) :
    opLinearProj2x M o i m = opLinearProj M oB i.projB (opLinearProj M oA i.projA m) := by
  have hsecond := opLinearProj_fill (M := M) (m := opLinearProj M oA i.projA m) (o := oB)
    (i := i.projB) le_rfl hB
  have hfirst := opLinearProj_fill (M := M) (m := m) (o := oA) (i := i.projA) le_rfl hA
  rw [opLinearProj2x_fill hA hB hAB, hsecond, hfirst]
  refine fill_congr fun k _ => tokenDot_congr fun j _ => ?_
  rw [cell_fill_of_ne (by exact hA)]

/-- Two projections of a batch of two tokens. -/
theorem opLinearProj2x_eq_batch :
    let M : Matrices ℚ := ⟨fun _ n => n, fun _ _ _ _ => 0⟩
    let i : LinearProj2xInst := ⟨act .aProj, act .bProj, [], [], act .normed, 3, 20, 2⟩
    let m : Mem ℚ := fun _ j => j
    opLinearProj2x M ThreadOrder.id i m =
      opLinearProj M ThreadOrder.id i.projB (opLinearProj M ThreadOrder.id i.projA m) :=
  opLinearProj2x_eq (by decide) (by decide) (by decide) _ _ _

/-- **The head is a projection** when a single token fits in shared memory, whatever the grid and
the orders of the blocks. -/
theorem opLmHead_eq {gridDim : ℕ} {i : LinearProjInst} (hgrid : 0 < gridDim) (hfits : i.Fits)
    (hout : i.outDim ≤ i.gridX) (hin : i.input.block ≠ i.output.block) (o o' : ThreadOrder)
    (past : ℕ → V) : opLmHead M o past gridDim i m = opLinearProj M o' i m := by
  rw [opLmHead_fill hgrid hfits hin, opLinearProj_fill hout hin]

/-- A head of five rows on a grid of two blocks. -/
theorem opLmHead_eq_grid :
    let M : Matrices ℚ := ⟨fun _ n => n, fun _ _ _ _ => 0⟩
    let i : LinearProjInst := ⟨.lmHead, 5, act .logits, [], act .hidden, 5, 20, 0⟩
    let m : Mem ℚ := fun _ j => j
    opLmHead M ThreadOrder.id (fun _ => 9) 2 i m = opLinearProj M ThreadOrder.id i m :=
  opLmHead_eq Nat.two_pos (fun _ => by decide) le_rfl (by decide) _ _ _

/-! ### Rows -/

/-- A product as a row of the projection of a token. -/
lemma tokenDot_eq_linear :
    tokenDot M weight input inDim row b m =
      M.linear weight inDim (m.slice (input.add (b * inDim)) inDim) row :=
  dotBy_congr fun _ j hj => by
    rw [slice_of_lt (lt_of_mem_vecVisits hj), DevPtr.add_add]

end Spec

end Braidinfer.Recurrent
