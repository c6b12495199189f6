/-
The gated delta rule (`op_gdn_recurrent` in `kernels/megakernel_ops.hip`).

The state of a head is a matrix with a row of `key_dim` cells for every value column `j`.  Several
blocks work on a head, each on a range of the columns: it decays the rows of its columns, compares
what they answer to the key with the value, corrects them, and reads them with the query.

* `gdnBlock`: a block, loop after loop; `opGdnRecurrent`: the blocks of the instruction;
* `column`: what happens to the row of one column; `gdnBlock_eq`: what a block leaves;
* `opGdnRecurrent_eq`: **when the ranges of the blocks are a partition of the columns, the kernel
  updates every column once and writes nothing else, in any order of blocks and threads**.
-/
import Braidinfer.Megakernel.GdnPartition
import Braidinfer.Recurrent.Norm

namespace Braidinfer.Recurrent

open Braidinfer.Lib RowMem
open Braidinfer.Megakernel (GdnPartition.UpdatesOnce GdnPartition.Geometry)

variable {V : Type*}

/-! ### The kernel -/

/-- The numbers that say which block updates which columns. -/
def GdnRecurInst.grid (i : GdnRecurInst) : Megakernel.GdnPartition.GdnRecurInst :=
  ⟨i.gridX, i.numHeads, i.kd, i.vd⟩

/-- `gqa_group`, at least one. -/
def GdnRecurInst.gqa (i : GdnRecurInst) : ℕ := if i.gqaGroup = 0 then 1 else i.gqaGroup

section Kernel

set_option linter.unusedSectionVars false

variable [Add V] [Sub V] [Mul V] [Div V] [Neg V] [Zero V] [One V] [NatCast V] [FloatFns V]

/-- `sum += a[ii] * b[ii]` for `ii < n`. -/
def dotLoop (n : ℕ) (a b : ℕ → V) : V := (List.range n).foldl (fun acc ii => acc + a ii * b ii) 0

/-- `rsqrtf(sum of squares + 1e-6f)` -/
def invNorm (n : ℕ) (x : ℕ → V) : V :=
  rsqrtf (blockReduceSum (threadSums n fun ii => x ii * x ii) + 1 / ((1000000 : ℕ) : V))

namespace GdnRecurInst

variable (i : GdnRecurInst) (m : Mem V)

/-- `qh[ii]` of head `h`. -/
def qh (h ii : ℕ) : V := m.cell (i.q.add (h / i.gqa * i.kd + ii))

/-- `kh[ii]` of head `h`. -/
def kh (h ii : ℕ) : V := m.cell (i.k.add (h / i.gqa * i.kd + ii))

/-- `vh[j]` of head `h`. -/
def vh (h j : ℕ) : V := m.cell (i.v.add (h * i.vd + j))

/-- `decay` -/
def decay (h : ℕ) : V := m.cell (i.gate.add h)

/-- `beta` -/
def beta (h : ℕ) : V := sigmoid (m.cell (i.bProj.add h))

/-- `k_sh`: the normalised key. -/
def kSh (h ii : ℕ) : V := i.kh m h ii * invNorm i.kd (i.kh m h)

/-- `q_scale` -/
def qScale (h : ℕ) : V := invNorm i.kd (i.qh m h) * rsqrtf (i.kd : V)

/-- `sh`: the state of head `h`. -/
def sh (h : ℕ) : FPtr := i.state.add (h * i.kd * i.vd)

/-- `oh`: the output of head `h`. -/
def oh (h : ℕ) : FPtr := i.output.add (h * i.vd)

end GdnRecurInst

section Block

variable (o : ThreadOrder) (i : GdnRecurInst) (h jStart jEnd : ℕ)

/-- The decay of the columns from `jStart` to `jEnd` of head `h`. -/
def decayLoop (decay : V) (m : Mem V) : Mem V :=
  blockFor o blockDim (jStart * i.kd) (jEnd * i.kd)
    (fun idx m => m.put ((i.sh h).add idx) (m.cell ((i.sh h).add idx) * decay)) m

/-- `kv_mem_sh`: what column `j` lacks. -/
def kvMemSh (kSh : ℕ → V) (beta : V) (m : Mem V) (j : ℕ) : V :=
  (i.vh m h j - dotLoop i.kd (fun ii => m.cell ((i.sh h).add (j * i.kd + ii))) kSh) * beta

/-- The correction of the columns along the key. -/
def updateLoop (kSh delta : ℕ → V) (m : Mem V) : Mem V :=
  blockFor o blockDim (jStart * i.kd) (jEnd * i.kd)
    (fun idx m => m.put ((i.sh h).add idx)
      (m.cell ((i.sh h).add idx) + kSh (idx % i.kd) * delta (idx / i.kd))) m

/-- The readout of the columns. -/
def readLoop (qScale : V) (m : Mem V) : Mem V :=
  blockFor o blockDim jStart jEnd
    (fun j m => m.put ((i.oh h).add j) (dotLoop i.kd
      (fun ii => m.cell ((i.sh h).add (j * i.kd + ii))) fun ii => i.qh m h ii * qScale)) m

end Block

/-- A block.  What it keeps in shared memory (`k_sh`, `kv_mem_sh`) are functions here. -/
def gdnBlock (ph : ℕ → ThreadOrder) (gridDim : ℕ) (i : GdnRecurInst) (vblock : ℕ) (m : Mem V) :
    Mem V :=
  let h := i.grid.head vblock
  let jStart := i.grid.jStart gridDim vblock
  let jEnd := i.grid.jEnd gridDim vblock
  let kSh := i.kSh m h
  let beta := i.beta m h
  let qScale := i.qScale m h
  let m := decayLoop (ph 0) i h jStart jEnd (i.decay m h) m
  let delta := kvMemSh i h kSh beta m
  let m := updateLoop (ph 1) i h jStart jEnd kSh delta m
  readLoop (ph 2) i h jStart jEnd qScale m

/-- `op_gdn_recurrent`: the blocks of the instruction on a grid, each with orders of its own for
its loops. -/
def opGdnRecurrent (o : ThreadOrder) (ph : ℕ → ℕ → ThreadOrder) (gridDim : ℕ) (i : GdnRecurInst)
    (m : Mem V) : Mem V :=
  runThreads (fun vblock => gdnBlock (ph vblock) gridDim i vblock) (o.of i.gridX) m

/-! ### What a block leaves -/

/-- The row of a column after the update: decayed, and corrected along the key by what it lacks of
the value. -/
def column (kd : ℕ) (kn : ℕ → V) (decay beta v : V) (s : ℕ → V) (ii : ℕ) : V :=
  s ii * decay + kn ii * ((v - dotLoop kd (fun ii => s ii * decay) kn) * beta)

namespace GdnRecurInst

variable (i : GdnRecurInst) (m : Mem V)

/-- The row of column `j` of head `h`. -/
def srow (h j ii : ℕ) : V := m.cell (i.state.add ((h * i.vd + j) * i.kd + ii))

/-- The row after the kernel. -/
def newRow (h j : ℕ) : ℕ → V :=
  column i.kd (i.kSh m h) (i.decay m h) (i.beta m h) (i.vh m h j) (i.srow m h j)

/-- The output of a column. -/
def newOut (h j : ℕ) : V :=
  dotLoop i.kd (i.newRow m h j) fun ii => i.qh m h ii * i.qScale m h

/-- The state and the output are blocks of their own. -/
structure Sound : Prop where
  output_state : i.output.block ≠ i.state.block
  reads : ∀ p ∈ [i.q, i.k, i.v, i.gate, i.bProj],
    p.block ≠ i.state.block ∧ p.block ≠ i.output.block

end GdnRecurInst

variable {i : GdnRecurInst} {m m' : Mem V}

/-- Loops over the same elements. -/
lemma dotLoop_congr {n : ℕ} {a a' b b' : ℕ → V} (ha : ∀ ii < n, a ii = a' ii)
    (hb : ∀ ii < n, b ii = b' ii) : dotLoop n a b = dotLoop n a' b' :=
  List.foldl_ext _ _ _ fun acc ii hii => by
    rw [ha ii (List.mem_range.mp hii), hb ii (List.mem_range.mp hii)]

/-- What a head reads beside its state. -/
lemma head_congr (m m' : Mem V) (hread : ∀ p ∈ [i.q, i.k, i.v, i.gate, i.bProj], ∀ n,
    m.cell (p.add n) = m'.cell (p.add n)) (h : ℕ) :
    i.qh m h = i.qh m' h ∧ i.kSh m h = i.kSh m' h ∧ i.vh m h = i.vh m' h ∧
      i.decay m h = i.decay m' h ∧ i.beta m h = i.beta m' h ∧ i.qScale m h = i.qScale m' h := by
  simp only [List.forall_mem_cons, List.not_mem_nil, false_imp_iff, implies_true, and_true]
    at hread
  obtain ⟨hq, hk, hv, hgate, hb⟩ := hread
  have hqh : i.qh m h = i.qh m' h := funext fun ii => hq _
  have hkh : i.kh m h = i.kh m' h := funext fun ii => hk _
  refine ⟨hqh, ?_, funext fun j => hv _, hgate _, congrArg sigmoid (hb _), ?_⟩
  · funext ii
    rw [GdnRecurInst.kSh, GdnRecurInst.kSh, hkh]
  · rw [GdnRecurInst.qScale, GdnRecurInst.qScale, hqh]

/-- A cell of the state of a head, by its column. -/
lemma sh_add (h j ii : ℕ) :
    (i.sh h).add (j * i.kd + ii) = i.state.add ((h * i.vd + j) * i.kd + ii) := by
  rw [GdnRecurInst.sh, DevPtr.add_add]
  congr 1
  ring

section Loops

variable {o : ThreadOrder} {h jStart jEnd : ℕ}

/-- The elements of the columns from `jStart` to `jEnd` of head `h`. -/
def fillColumns (i : GdnRecurInst) (h jStart jEnd : ℕ) (row : ℕ → ℕ → V) (m : Mem V) : Mem V :=
  m.fill (i.state.add ((h * i.vd + jStart) * i.kd)) ((jEnd - jStart) * i.kd) fun x =>
    row (jStart + x / i.kd) (x % i.kd)

/-- A loop over the elements of the columns. -/
lemma blockFor_columns (g : ℕ → V → V) :
    blockFor o blockDim (jStart * i.kd) (jEnd * i.kd)
        (fun idx m => m.put ((i.sh h).add idx) (g idx (m.cell ((i.sh h).add idx)))) m =
      fillColumns i h jStart jEnd (fun j ii => g (j * i.kd + ii) (i.srow m h j ii)) m := by
  have hbase : (i.sh h).add (jStart * i.kd) = i.state.add ((h * i.vd + jStart) * i.kd) :=
    sh_add h jStart 0
  rw [blockFor_update o blockDim_pos, ← Nat.sub_mul, hbase, fillColumns]
  refine fill_congr fun x _ => ?_
  have hx : jStart * i.kd + x = (jStart + x / i.kd) * i.kd + x % i.kd := by
    rw [Nat.add_mul, Nat.add_assoc, Nat.div_add_mod']
  rw [hx, sh_add]
  rfl

lemma srow_fillColumns {row : ℕ → ℕ → V} {j ii : ℕ} (hj : jStart ≤ j) (hj' : j < jEnd)
    (hii : ii < i.kd) : i.srow (fillColumns i h jStart jEnd row m) h j ii = row j ii := by
  have hy : (j - jStart) * i.kd + ii < (jEnd - jStart) * i.kd := rowMajor_lt (by omega) hii
  have hptr : (h * i.vd + j) * i.kd + ii =
      (h * i.vd + jStart) * i.kd + ((j - jStart) * i.kd + ii) := by
    rw [← Nat.add_assoc, ← Nat.add_mul, Nat.add_assoc (h * i.vd), Nat.add_sub_cancel' hj]
  rw [GdnRecurInst.srow, hptr, ← DevPtr.add_add, fillColumns, cell_fill_add hy,
    rowMajor_div hii, rowMajor_mod hii, Nat.add_sub_cancel' hj]

lemma fillColumns_congr {row row' : ℕ → ℕ → V}
    (hrow : ∀ j, jStart ≤ j → j < jEnd → ∀ ii < i.kd, row j ii = row' j ii) :
    fillColumns i h jStart jEnd row m = fillColumns i h jStart jEnd row' m :=
  fill_congr fun x hx => by
    have hkd : 0 < i.kd := Nat.pos_of_ne_zero fun h0 => by rw [h0, Nat.mul_zero] at hx; omega
    have hlt : x / i.kd < jEnd - jStart := (Nat.div_lt_iff_lt_mul hkd).mpr hx
    exact hrow _ (Nat.le_add_right _ _) (Nat.add_lt_of_lt_sub' hlt) _ (Nat.mod_lt _ hkd)

lemma fillColumns_fillColumns {row row' : ℕ → ℕ → V} :
    fillColumns i h jStart jEnd row (fillColumns i h jStart jEnd row' m) =
      fillColumns i h jStart jEnd row m := fill_fill

/-- What a head reads beside its state stays. -/
lemma head_fillColumns (hi : i.Sound) (row : ℕ → ℕ → V) (h' : ℕ) :
    i.qh m h' = i.qh (fillColumns i h jStart jEnd row m) h' ∧
      i.vh m h' = i.vh (fillColumns i h jStart jEnd row m) h' := by
  have hhead := head_congr (i := i) m (fillColumns i h jStart jEnd row m)
    (fun p hp x => by
      refine (cell_fill_of_ne ?_).symm
      exact (hi.reads p hp).1) h'
  exact ⟨hhead.1, hhead.2.2.1⟩

/-- The readout of the columns. -/
lemma readLoop_eq (hi : i.Sound) {qScale : V} :
    readLoop o i h jStart jEnd qScale m =
      m.fill (i.output.add (h * i.vd + jStart)) (jEnd - jStart) fun x =>
        dotLoop i.kd (i.srow m h (jStart + x)) fun ii => i.qh m h ii * qScale := by
  have hcell : ∀ (m' : Mem V) j, (dotLoop i.kd (fun ii => m'.cell ((i.sh h).add (j * i.kd + ii)))
      fun ii => i.qh m' h ii * qScale) =
      dotLoop i.kd (i.srow m' h j) fun ii => i.qh m' h ii * qScale := fun m' j => by
    simp only [sh_add]
    rfl
  rw [readLoop]
  simp only [hcell]
  rw [blockFor_put blockDim_pos, GdnRecurInst.oh, DevPtr.add_add]
  intro x _ m₁ m₂ hm
  refine dotLoop_congr (fun ii _ => hm.of_block_ne ?_)
    fun ii _ => congrArg (· * qScale) (hm.of_block_ne ?_)
  · exact hi.output_state.symm
  · exact (hi.reads _ List.mem_cons_self).2

end Loops

/-- The rows of the columns of a block, updated, and their outputs. -/
def blockEffect (i : GdnRecurInst) (gridDim vblock : ℕ) (m : Mem V) : Mem V :=
  let h := i.grid.head vblock
  let jStart := i.grid.jStart gridDim vblock
  let jEnd := i.grid.jEnd gridDim vblock
  (fillColumns i h jStart jEnd (i.newRow m h) m).fill (i.output.add (h * i.vd + jStart))
    (jEnd - jStart) fun x => i.newOut m h (jStart + x)

/-- **What a block leaves.** -/
lemma gdnBlock_eq {ph : ℕ → ThreadOrder} {gridDim vblock : ℕ} (hi : i.Sound) :
    gdnBlock ph gridDim i vblock m = blockEffect i gridDim vblock m := by
  let h := i.grid.head vblock
  let jStart := i.grid.jStart gridDim vblock
  let jEnd := i.grid.jEnd gridDim vblock
  -- the decay
  have hdecay : decayLoop (ph 0) i h jStart jEnd (i.decay m h) m =
      fillColumns i h jStart jEnd (fun j ii => i.srow m h j ii * i.decay m h) m :=
    blockFor_columns fun _ v => v * i.decay m h
  -- the correction
  have hdelta : ∀ j, jStart ≤ j → j < jEnd →
      kvMemSh i h (i.kSh m h) (i.beta m h)
          (fillColumns i h jStart jEnd (fun j ii => i.srow m h j ii * i.decay m h) m) j =
        (i.vh m h j - dotLoop i.kd (fun ii => i.srow m h j ii * i.decay m h) (i.kSh m h)) *
          i.beta m h := fun j hj hj' => by
    rw [kvMemSh, ← (head_fillColumns hi _ h).2]
    refine congrArg (fun d => (i.vh m h j - d) * i.beta m h) (dotLoop_congr (fun ii hii => ?_)
      fun _ _ => rfl)
    rw [sh_add]
    exact srow_fillColumns hj hj' hii
  have hupdate : updateLoop (ph 1) i h jStart jEnd (i.kSh m h)
      (kvMemSh i h (i.kSh m h) (i.beta m h)
        (fillColumns i h jStart jEnd (fun j ii => i.srow m h j ii * i.decay m h) m))
      (fillColumns i h jStart jEnd (fun j ii => i.srow m h j ii * i.decay m h) m) =
      fillColumns i h jStart jEnd (i.newRow m h) m := by
    rw [updateLoop, blockFor_columns fun idx v => v + i.kSh m h (idx % i.kd) * _,
      fillColumns_fillColumns]
    refine fillColumns_congr fun j hj hj' ii hii => ?_
    rw [srow_fillColumns hj hj' hii, rowMajor_div hii, rowMajor_mod hii, hdelta j hj hj']
    rfl
  have hblock : gdnBlock ph gridDim i vblock m = readLoop (ph 2) i h jStart jEnd (i.qScale m h)
      (fillColumns i h jStart jEnd (i.newRow m h) m) := by
    rw [← hupdate, ← hdecay]
    rfl
  rw [hblock, readLoop_eq hi]
  change _ = (fillColumns i h jStart jEnd (i.newRow m h) m).fill
    (i.output.add (h * i.vd + jStart)) (jEnd - jStart) fun x => i.newOut m h (jStart + x)
  refine fill_congr fun x hx => ?_
  rw [GdnRecurInst.newOut, ← (head_fillColumns hi _ h).1]
  exact dotLoop_congr (fun ii hii => srow_fillColumns (Nat.le_add_right _ _)
    (Nat.add_lt_of_lt_sub' hx) hii) fun _ _ => rfl

/-! ### The blocks together -/

section Grid

variable {gridDim : ℕ}

/-- The columns of a block, counted over the heads. -/
def GdnRecurInst.cols (i : GdnRecurInst) (gridDim vblock : ℕ) : Set ℕ :=
  {c | ∃ j ∈ i.grid.columns gridDim vblock, c = i.grid.head vblock * i.vd + j}

/-- What a block writes. -/
def GdnRecurInst.writes (i : GdnRecurInst) (gridDim vblock : ℕ) : Set FPtr :=
  (i.state.add ((i.grid.head vblock * i.vd + i.grid.jStart gridDim vblock) * i.kd)).cells
      ((i.grid.jEnd gridDim vblock - i.grid.jStart gridDim vblock) * i.kd) ∪
    (i.output.add (i.grid.head vblock * i.vd + i.grid.jStart gridDim vblock)).cells
      (i.grid.jEnd gridDim vblock - i.grid.jStart gridDim vblock)

variable {vblock : ℕ} {a : FPtr}

lemma state_mem_writes {c ii : ℕ} (hc : c ∈ i.cols gridDim vblock) (hii : ii < i.kd) :
    i.state.add (c * i.kd + ii) ∈ i.writes gridDim vblock := by
  obtain ⟨j, hj, rfl⟩ := hc
  obtain ⟨hlo, hhi⟩ := Set.mem_Ico.mp hj
  have hptr : (i.grid.head vblock * i.vd + j) * i.kd + ii =
      (i.grid.head vblock * i.vd + i.grid.jStart gridDim vblock) * i.kd +
        ((j - i.grid.jStart gridDim vblock) * i.kd + ii) := by
    rw [← Nat.add_assoc, ← Nat.add_mul, Nat.add_assoc (i.grid.head vblock * i.vd),
      Nat.add_sub_cancel' hlo]
  refine .inl ?_
  rw [hptr, ← DevPtr.add_add, DevPtr.add_mem_cells]
  exact rowMajor_lt (by omega) hii

lemma output_mem_writes {c : ℕ} (hc : c ∈ i.cols gridDim vblock) :
    i.output.add c ∈ i.writes gridDim vblock := by
  obtain ⟨j, hj, rfl⟩ := hc
  obtain ⟨hlo, hhi⟩ := Set.mem_Ico.mp hj
  refine .inr ?_
  rw [show i.grid.head vblock * i.vd + j = i.grid.head vblock * i.vd +
    i.grid.jStart gridDim vblock + (j - i.grid.jStart gridDim vblock) by omega,
    ← DevPtr.add_add (k := j - i.grid.jStart gridDim vblock), DevPtr.add_mem_cells]
  omega

/-- What a block writes, by columns. -/
lemma exists_of_mem_writes (ha : a ∈ i.writes gridDim vblock) :
    ∃ c ∈ i.cols gridDim vblock,
      (∃ ii < i.kd, a = i.state.add (c * i.kd + ii)) ∨ a = i.output.add c := by
  rcases ha with ha | ha
  · obtain ⟨x, hx, rfl⟩ := DevPtr.exists_add_of_mem ha
    have hkd : 0 < i.kd := Nat.pos_of_ne_zero fun h0 => by rw [h0, Nat.mul_zero] at hx; omega
    have hlt := (Nat.div_lt_iff_lt_mul hkd).mpr hx
    refine ⟨_, ⟨i.grid.jStart gridDim vblock + x / i.kd, Set.mem_Ico.mpr
      ⟨Nat.le_add_right _ _, Nat.add_lt_of_lt_sub' hlt⟩, rfl⟩, .inl ⟨x % i.kd,
        Nat.mod_lt _ hkd, ?_⟩⟩
    rw [DevPtr.add_add, ← Nat.add_assoc, Nat.add_mul _ (x / i.kd), Nat.add_assoc,
      Nat.div_add_mod']
  · obtain ⟨x, hx, rfl⟩ := DevPtr.exists_add_of_mem ha
    refine ⟨_, ⟨i.grid.jStart gridDim vblock + x, Set.mem_Ico.mpr
      ⟨Nat.le_add_right _ _, Nat.add_lt_of_lt_sub' hx⟩, rfl⟩, .inr ?_⟩
    rw [DevPtr.add_add, Nat.add_assoc]

/-- The ranges of the blocks are a partition of the columns, and the heads are there. -/
structure GdnRecurInst.Partition (i : GdnRecurInst) (gridDim : ℕ) : Prop where
  once : GdnPartition.UpdatesOnce i.grid gridDim
  numHeads_pos : 0 < i.numHeads

lemma head_lt (hp : i.Partition gridDim) (vblock : ℕ) : i.grid.head vblock < i.numHeads := by
  have hheads : i.grid.heads = i.numHeads := if_neg hp.numHeads_pos.ne'
  rw [Megakernel.GdnPartition.GdnRecurInst.head, hheads]
  exact Nat.mod_lt _ hp.numHeads_pos

/-- A column of a block is a column of its head. -/
lemma lt_of_mem_columns (hp : i.Partition gridDim) (hv : vblock < i.gridX) {j : ℕ}
    (hj : j ∈ i.grid.columns gridDim vblock) : j < i.vd :=
  (hp.once.cover _ (head_lt hp vblock) j).mp ⟨vblock, hv, rfl, hj⟩

/-- Every column has one block. -/
lemma cols_inj (hp : i.Partition gridDim) {v v' c : ℕ} (hv : v < i.gridX) (hv' : v' < i.gridX)
    (hc : c ∈ i.cols gridDim v) (hc' : c ∈ i.cols gridDim v') : v = v' := by
  obtain ⟨j, hj, rfl⟩ := hc
  obtain ⟨j', hj', heq⟩ := hc'
  obtain ⟨hhead, rfl⟩ := rowMajor_inj (lt_of_mem_columns hp hv hj) (lt_of_mem_columns hp hv' hj') heq
  by_contra hne
  exact Set.disjoint_left.mp (hp.once.disjoint v hv v' hv' hhead hne) hj hj'

/-- Blocks write different cells. -/
lemma notMem_writes (hi : i.Sound) (hp : i.Partition gridDim) {v v' : ℕ} (hv : v < i.gridX)
    (hv' : v' < i.gridX) (hne : v ≠ v') (ha : a ∈ i.writes gridDim v) :
    a ∉ i.writes gridDim v' := by
  intro ha'
  obtain ⟨c, hc, hcell⟩ := exists_of_mem_writes ha
  obtain ⟨c', hc', hcell'⟩ := exists_of_mem_writes ha'
  refine hne (cols_inj hp hv hv' hc ?_)
  rcases hcell with ⟨ii, hii, rfl⟩ | rfl <;> rcases hcell' with ⟨ii', hii', heq⟩ | heq
  · have hoff := Nat.add_left_cancel (congrArg DevPtr.off heq)
    rwa [(rowMajor_inj hii hii' hoff).1]
  · exact absurd (congrArg DevPtr.block heq) hi.output_state.symm
  · exact absurd (congrArg DevPtr.block heq) hi.output_state
  · rwa [Nat.add_left_cancel (congrArg DevPtr.off heq)]

/-- The blocks do not race. -/
lemma raceFree_gdnBlock (hi : i.Sound) (hp : i.Partition gridDim) {ts : List ℕ}
    (hts : ∀ v ∈ ts, v < i.gridX) (ph : ℕ → ℕ → ThreadOrder) :
    RaceFree RowMem.cell (fun v => gdnBlock (V := V) (ph v) gridDim i v) (i.writes gridDim) ts := by
  have hstep : (fun v => gdnBlock (V := V) (ph v) gridDim i v) =
      fun v m => blockEffect i gridDim v m := by
    funext v m
    exact gdnBlock_eq hi
  rw [hstep]
  refine raceFree_fill_fill
    (f := fun m v x => i.newRow m (i.grid.head v) (i.grid.jStart gridDim v + x / i.kd) (x % i.kd))
    (g := fun m v x => i.newOut m (i.grid.head v) (i.grid.jStart gridDim v + x))
    (fun v hv v' hv' hne a ha => notMem_writes hi hp (hts v hv) (hts v' hv') hne ha)
    fun v hv m₁ m₂ hm => ?_
  let h := i.grid.head v
  let jStart := i.grid.jStart gridDim v
  let jEnd := i.grid.jEnd gridDim v
  have hhead := head_congr (i := i) m₁ m₂ (fun p hp x => hm _ fun v' _ _ hmem => by
    rcases hmem with hmem | hmem
    · exact (hi.reads p hp).1 hmem.1
    · exact (hi.reads p hp).2 hmem.1) h
  obtain ⟨hqh, hkSh, hvh, hdecay, hbeta, hqScale⟩ := hhead
  have hsrow : ∀ j, jStart ≤ j → j < jEnd → ∀ ii < i.kd, i.srow m₁ h j ii = i.srow m₂ h j ii :=
    fun j hlo hhi ii hii => hm _ fun v' hv' hne => notMem_writes hi hp (hts v hv) (hts v' hv')
      hne.symm (state_mem_writes ⟨j, Set.mem_Ico.mpr ⟨hlo, hhi⟩, rfl⟩ hii)
  have hrow : ∀ j, jStart ≤ j → j < jEnd → ∀ ii < i.kd, i.newRow m₁ h j ii = i.newRow m₂ h j ii :=
    fun j hlo hhi ii hii => by
      rw [GdnRecurInst.newRow, GdnRecurInst.newRow, column, column, hkSh, hvh, hdecay, hbeta,
        hsrow j hlo hhi ii hii]
      exact congrArg (fun d => i.srow m₂ h j ii * i.decay m₂ h +
        i.kSh m₂ h ii * ((i.vh m₂ h j - d) * i.beta m₂ h))
        (dotLoop_congr (fun ii hii => congrArg (· * _) (hsrow j hlo hhi ii hii)) fun _ _ => rfl)
  constructor
  · intro x hx
    have hkd : 0 < i.kd := Nat.pos_of_ne_zero fun h0 => by rw [h0, Nat.mul_zero] at hx; omega
    exact hrow _ (Nat.le_add_right _ _)
      (Nat.add_lt_of_lt_sub' ((Nat.div_lt_iff_lt_mul hkd).mpr hx)) _ (Nat.mod_lt _ hkd)
  · intro x hx
    have hj := Nat.add_lt_of_lt_sub' hx
    change i.newOut m₁ h (jStart + x) = i.newOut m₂ h (jStart + x)
    rw [GdnRecurInst.newOut, GdnRecurInst.newOut, hqh, hqScale]
    exact dotLoop_congr (hrow _ (Nat.le_add_right _ _) hj) fun _ _ => rfl

/-- A column of a block after the block. -/
lemma blockEffect_cols (hi : i.Sound) {h j : ℕ} (hhead : i.grid.head vblock = h)
    (hj : j ∈ i.grid.columns gridDim vblock) :
    (∀ ii < i.kd, (blockEffect i gridDim vblock m).cell
        (i.state.add ((h * i.vd + j) * i.kd + ii)) = i.newRow m h j ii) ∧
      (blockEffect i gridDim vblock m).cell (i.output.add (h * i.vd + j)) = i.newOut m h j := by
  obtain ⟨hlo, hhi⟩ := Set.mem_Ico.mp hj
  subst hhead
  constructor
  · intro ii hii
    have hrow : i.srow (fillColumns i (i.grid.head vblock) _ _ (i.newRow m _) m) _ j ii =
        i.newRow m (i.grid.head vblock) j ii := srow_fillColumns hlo hhi hii
    rw [← hrow, blockEffect]
    refine cell_fill_of_ne ?_
    exact hi.output_state.symm
  · rw [show i.grid.head vblock * i.vd + j = i.grid.head vblock * i.vd +
      i.grid.jStart gridDim vblock + (j - i.grid.jStart gridDim vblock) by omega,
      ← DevPtr.add_add (k := j - i.grid.jStart gridDim vblock), blockEffect,
      cell_fill_add (by omega), Nat.add_sub_cancel' hlo]

/-- **The kernel updates every column once and writes nothing else**, in any order of the blocks
and of the threads of each. -/
theorem opGdnRecurrent_eq {o : ThreadOrder} {ph : ℕ → ℕ → ThreadOrder} (hi : i.Sound)
    (hp : i.Partition gridDim) :
    opGdnRecurrent o ph gridDim i m =
      (m.fill i.state (i.numHeads * i.vd * i.kd) fun x =>
          i.newRow m (x / i.kd / i.vd) (x / i.kd % i.vd) (x % i.kd)).fill
        i.output (i.numHeads * i.vd) fun c => i.newOut m (c / i.vd) (c % i.vd) := by
  have hlt : ∀ v ∈ o.of i.gridX, v < i.gridX := fun v hv => o.mem_of.mp hv
  have hfree := raceFree_gdnBlock (V := V) hi hp hlt ph
  have hnd := o.nodup i.gridX
  -- the block of a column
  have hcolumn : ∀ c < i.numHeads * i.vd, ∃ v < i.gridX, i.grid.head v = c / i.vd ∧
      c % i.vd ∈ i.grid.columns gridDim v := fun c hc => by
    have hvd : 0 < i.vd := Nat.pos_of_ne_zero fun h0 => by rw [h0, Nat.mul_zero] at hc; omega
    obtain ⟨v, hv, hhead, hj⟩ := (hp.once.cover (c / i.vd)
      ((Nat.div_lt_iff_lt_mul hvd).mpr hc) (c % i.vd)).mpr (Nat.mod_lt _ hvd)
    exact ⟨v, hv, hhead, hj⟩
  refine ext_cell fun a => ?_
  rw [opGdnRecurrent]
  by_cases hout : a ∈ i.output.cells (i.numHeads * i.vd)
  · obtain ⟨c, hc, rfl⟩ := DevPtr.exists_add_of_mem hout
    obtain ⟨v, hv, hhead, hj⟩ := hcolumn c hc
    have hcols : c ∈ i.cols gridDim v := ⟨_, hj, by rw [hhead, Nat.div_add_mod']⟩
    rw [hfree.runThreads_of_mem hnd (o.mem_of.mpr hv) (output_mem_writes hcols), gdnBlock_eq hi,
      cell_fill_add hc]
    have heff := (blockEffect_cols (m := m) hi hhead hj).2
    rwa [Nat.div_add_mod'] at heff
  · rw [cell_fill_of_notMem hout]
    by_cases hstate : a ∈ i.state.cells (i.numHeads * i.vd * i.kd)
    · obtain ⟨x, hx, rfl⟩ := DevPtr.exists_add_of_mem hstate
      have hkd : 0 < i.kd := Nat.pos_of_ne_zero fun h0 => by rw [h0, Nat.mul_zero] at hx; omega
      obtain ⟨v, hv, hhead, hj⟩ := hcolumn (x / i.kd) ((Nat.div_lt_iff_lt_mul hkd).mpr hx)
      have hcols : x / i.kd ∈ i.cols gridDim v := ⟨_, hj, by rw [hhead, Nat.div_add_mod']⟩
      have hmem := state_mem_writes hcols (Nat.mod_lt x hkd)
      have heff := (blockEffect_cols (m := m) hi hhead hj).1 _ (Nat.mod_lt x hkd)
      rw [Nat.div_add_mod' (x / i.kd), Nat.div_add_mod'] at heff
      rw [Nat.div_add_mod'] at hmem
      rw [hfree.runThreads_of_mem hnd (o.mem_of.mpr hv) hmem, gdnBlock_eq hi, cell_fill_add hx]
      exact heff
    · rw [cell_fill_of_notMem hstate]
      refine hfree.runThreads_of_notMem fun v hv ha => ?_
      obtain ⟨c, ⟨j, hj, rfl⟩, hcell⟩ := exists_of_mem_writes ha
      have hc := rowMajor_lt (head_lt hp v) (lt_of_mem_columns hp (hlt v hv) hj)
      rcases hcell with ⟨ii, hii, rfl⟩ | rfl
      · exact hstate (DevPtr.add_mem_cells.mpr (rowMajor_lt hc hii))
      · exact hout (DevPtr.add_mem_cells.mpr hc)

end Grid

end Kernel

end Braidinfer.Recurrent
