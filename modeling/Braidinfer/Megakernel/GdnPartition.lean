/-
The columns of the recurrent state that the blocks of a GDN recurrence update.

The compiler fixes the number of virtual blocks from its own estimate of the grid; the kernel
divides the columns of a head by the number of blocks per head of the grid that was launched.

* `updatesOnce_iff`: **the two give every column to exactly one block exactly when the cut after
  the last emitted block is at the width of the head**.
-/
import Mathlib

namespace Braidinfer.Megakernel

namespace GdnPartition

/-! ### Grids -/

/-- `SHARED_LPROJ_TOTAL`, in bytes. -/
def sharedLprojTotal : ℕ := 31776

/-- `NUM_CUS`. -/
def numCus : ℕ := 48

/-- `MAX_BLOCKS_PER_SM` of `add_device`. -/
def maxBlocksPerSm : ℕ := 2

/-- A device: `max_active_blocks_per_sm(256, ·)` of the worker kernel, which does not grow with
the shared memory, and `multiprocessor_count`. -/
structure Device where
  maxActiveBlocksPerSm : ℕ → ℕ
  antitone : Antitone maxActiveBlocksPerSm
  multiprocessorCount : ℕ

/-- The compilers that emit a GDN recurrence. -/
inductive Compiler
  /-- the decode compiler, of a model with or without MoE layers -/
  | decode (hasMoe : Bool)
  /-- the prefill compilers, of a model of this `hidden_size` -/
  | prefill (hiddenSize : ℕ)
deriving DecidableEq, Repr

/-- `shared_mem` of a compiler. -/
def Compiler.sharedMem : Compiler → ℕ
  | .decode hasMoe => max (if hasMoe then 1024 * 4 else 256 * 4 * 2) 31776
  | .prefill hiddenSize => max (max (256 * 4 * 2) (hiddenSize * 4)) 31776

/-- `num_blocks` of a compiler. -/
def Compiler.numBlocks (c : Compiler) (d : Device) : ℕ :=
  max (d.maxActiveBlocksPerSm c.sharedMem) 1 * numCus

/-- `gridDim.x` of the worker that `add_device` launches. -/
def Device.gridDim (d : Device) : ℕ :=
  max (min (d.maxActiveBlocksPerSm sharedLprojTotal) maxBlocksPerSm * d.multiprocessorCount)
    d.multiprocessorCount

/-- `blocks_per_head` of a grid, in the compilers and in the kernel. -/
def blocksPerHead (grid numHeads : ℕ) : ℕ := max (grid / numHeads) 1

lemma blocksPerHead_pos (grid numHeads : ℕ) : 0 < blocksPerHead grid numHeads :=
  lt_of_lt_of_le Nat.one_pos (le_max_right _ _)

/-! ### The instruction and its blocks -/

/-- The GDN geometry of a model. -/
structure Geometry where
  numHeads : ℕ
  keyDim : ℕ
  valueDim : ℕ
  numHeads_pos : 0 < numHeads

/-- `GdnRecurInst`, without its pointers. -/
structure GdnRecurInst where
  gridX : ℕ
  numHeads : ℕ
  kd : ℕ
  vd : ℕ
deriving DecidableEq, Repr

/-- The instruction that `compile_gdn_layer` and the prefill compilers emit. -/
def gdnRecur (geo : Geometry) (numBlocks : ℕ) : GdnRecurInst where
  gridX := geo.numHeads * blocksPerHead numBlocks geo.numHeads
  numHeads := geo.numHeads
  kd := geo.keyDim
  vd := geo.valueDim

namespace GdnRecurInst

variable (i : GdnRecurInst) (gridDim vblock : ℕ)

/-- `num_heads`, at least one. -/
def heads : ℕ := if i.numHeads = 0 then 1 else i.numHeads

/-- `h`. -/
def head : ℕ := vblock % i.heads

/-- `block_in_head`. -/
def blockInHead : ℕ := vblock / i.heads

/-- `j_start` of the `b`-th block of a head, which is `j_end` of the block before. -/
def cut (b : ℕ) : ℕ := b * i.vd / blocksPerHead gridDim i.heads

/-- `j_start`. -/
def jStart : ℕ := i.cut gridDim (i.blockInHead vblock)

/-- `j_end`. -/
def jEnd : ℕ := i.cut gridDim (i.blockInHead vblock + 1)

/-- The columns that a block updates. -/
def columns : Set ℕ := Set.Ico (i.jStart gridDim vblock) (i.jEnd gridDim vblock)

end GdnRecurInst

/-- The ranges of the blocks of each head are disjoint, and together they are the columns of the
head. -/
structure UpdatesOnce (i : GdnRecurInst) (gridDim : ℕ) : Prop where
  disjoint : ∀ a < i.gridX, ∀ b < i.gridX, i.head a = i.head b → a ≠ b →
    Disjoint (i.columns gridDim a) (i.columns gridDim b)
  cover : ∀ h < i.numHeads, ∀ j,
    (∃ b < i.gridX, i.head b = h ∧ j ∈ i.columns gridDim b) ↔ j < i.vd

/-! ### Cuts -/

variable {i : GdnRecurInst} {geo : Geometry} {gridDim numBlocks : ℕ}

@[simp] lemma heads_gdnRecur : (gdnRecur geo numBlocks).heads = geo.numHeads :=
  if_neg geo.numHeads_pos.ne'

@[simp] lemma cut_zero : i.cut gridDim 0 = 0 := by
  simp [GdnRecurInst.cut]

variable (i gridDim) in
lemma cut_mono : Monotone (i.cut gridDim) := by
  intro a b hab
  exact Nat.div_le_div_right (Nat.mul_le_mul_right _ hab)

/-- Two blocks of one head are the same block when they have the same place in it. -/
lemma eq_of_blockInHead_eq {a b : ℕ} (hhead : i.head a = i.head b)
    (hblock : i.blockInHead a = i.blockInHead b) : a = b := by
  calc a = i.heads * i.blockInHead a + i.head a := (Nat.div_add_mod a i.heads).symm
    _ = i.heads * i.blockInHead b + i.head b := by rw [hhead, hblock]
    _ = b := Nat.div_add_mod b i.heads

/-- The ranges of the blocks of a head are disjoint on any grid. -/
lemma columns_disjoint {a b : ℕ} (hhead : i.head a = i.head b) (hne : a ≠ b) :
    Disjoint (i.columns gridDim a) (i.columns gridDim b) := by
  have hplace : i.blockInHead a ≠ i.blockInHead b := by
    intro hblock
    exact hne (eq_of_blockInHead_eq hhead hblock)
  exact (cut_mono i gridDim).pairwise_disjoint_on_Ico_succ hplace

/-- The columns that the emitted blocks of a head update are those below the last cut. -/
lemma exists_mem_columns_iff {h j : ℕ} (hh : h < geo.numHeads) :
    (∃ b < (gdnRecur geo numBlocks).gridX, (gdnRecur geo numBlocks).head b = h ∧
        j ∈ (gdnRecur geo numBlocks).columns gridDim b) ↔
      j < (gdnRecur geo numBlocks).cut gridDim (blocksPerHead numBlocks geo.numHeads) := by
  constructor
  · rintro ⟨b, hb, -, -, hj⟩
    have hplace : b / geo.numHeads < blocksPerHead numBlocks geo.numHeads :=
      (Nat.div_lt_iff_lt_mul geo.numHeads_pos).2 (by rw [Nat.mul_comm]; exact hb)
    refine lt_of_lt_of_le hj (cut_mono _ _ ?_)
    rw [GdnRecurInst.blockInHead, heads_gdnRecur]
    exact hplace
  · intro hj
    have hmem := Ico_subset_biUnion_Ico _ ((gdnRecur geo numBlocks).cut gridDim)
      (show j ∈ Set.Ico _ _ from ⟨by simp, hj⟩)
    simp only [Set.mem_iUnion, Finset.mem_range] at hmem
    obtain ⟨p, hp, hjp⟩ := hmem
    -- the block of head `h` at place `p`
    have hplace : (gdnRecur geo numBlocks).blockInHead (geo.numHeads * p + h) = p := by
      rw [GdnRecurInst.blockInHead, heads_gdnRecur, Nat.mul_add_div geo.numHeads_pos,
        Nat.div_eq_of_lt hh, Nat.add_zero]
    refine ⟨geo.numHeads * p + h, ?_, ?_, ?_⟩
    · calc geo.numHeads * p + h < geo.numHeads * p + geo.numHeads := by omega
        _ = geo.numHeads * (p + 1) := by ring
        _ ≤ geo.numHeads * blocksPerHead numBlocks geo.numHeads :=
            Nat.mul_le_mul_left _ hp
    · rw [GdnRecurInst.head, heads_gdnRecur, Nat.mul_add_mod, Nat.mod_eq_of_lt hh]
    · rw [GdnRecurInst.columns, GdnRecurInst.jStart, GdnRecurInst.jEnd, hplace]
      exact hjp

/-- **Every column has one block exactly when the last cut is at `value_dim`.** -/
lemma updatesOnce_gdnRecur_iff :
    UpdatesOnce (gdnRecur geo numBlocks) gridDim ↔
      (gdnRecur geo numBlocks).cut gridDim (blocksPerHead numBlocks geo.numHeads) =
        geo.valueDim := by
  constructor
  · intro h
    have hcover := h.cover 0 geo.numHeads_pos
    refine Nat.le_antisymm (Nat.le_of_not_lt ?_) (Nat.le_of_not_lt ?_)
    · intro hlt
      exact lt_irrefl _ ((hcover geo.valueDim).1 ((exists_mem_columns_iff geo.numHeads_pos).2 hlt))
    · intro hlt
      exact lt_irrefl _ ((exists_mem_columns_iff geo.numHeads_pos).1 ((hcover _).2 hlt))
  · intro hcut
    refine ⟨fun a _ b _ hhead hne => columns_disjoint hhead hne, ?_⟩
    intro h hh j
    rw [exists_mem_columns_iff hh, hcut]
    exact Iff.rfl

/-- The last cut of `c` blocks of a grid with `g` blocks per head. -/
lemma mul_div_eq_self_iff {c g vd : ℕ} (hg : 0 < g) :
    c * vd / g = vd ↔ vd = 0 ∨ g ≤ c ∧ (c - g) * vd < g := by
  rcases Nat.eq_zero_or_pos vd with rfl | hvd
  · simp
  rw [Nat.div_eq_iff hg]
  constructor
  · rintro ⟨hlow, hhigh⟩
    have hgc : g ≤ c := Nat.le_of_mul_le_mul_right (by rw [Nat.mul_comm]; omega) hvd
    refine Or.inr ⟨hgc, ?_⟩
    rw [Nat.sub_mul]
    have : g * vd = vd * g := Nat.mul_comm _ _
    omega
  · rintro (hzero | ⟨hgc, hlt⟩)
    · omega
    · rw [Nat.sub_mul] at hlt
      have hle : g * vd ≤ c * vd := Nat.mul_le_mul_right _ hgc
      have : g * vd = vd * g := Nat.mul_comm _ _
      constructor <;> omega

/-- **The recurrence updates every column of every head exactly once if and only if** the state has
no columns or the blocks per head that the compiler assumes are those of the launched grid, or
exceed them by too little to reach one more column. -/
theorem updatesOnce_iff (geo : Geometry) (d : Device) (c : Compiler) :
    UpdatesOnce (gdnRecur geo (c.numBlocks d)) d.gridDim ↔
      geo.valueDim = 0 ∨
        blocksPerHead d.gridDim geo.numHeads ≤ blocksPerHead (c.numBlocks d) geo.numHeads ∧
        (blocksPerHead (c.numBlocks d) geo.numHeads - blocksPerHead d.gridDim geo.numHeads) *
          geo.valueDim < blocksPerHead d.gridDim geo.numHeads := by
  rw [updatesOnce_gdnRecur_iff, ← mul_div_eq_self_iff (blocksPerHead_pos _ _), GdnRecurInst.cut,
    heads_gdnRecur]
  exact Iff.rfl

/-- A device of `cus` multiprocessors, where the 64 KiB of shared memory bound the blocks. -/
def ldsBound (cus : ℕ) : Device where
  maxActiveBlocksPerSm := fun s => min 16 (65536 / max s 1)
  antitone := by
    intro a b hab
    have hdiv : 65536 / max b 1 ≤ 65536 / max a 1 :=
      Nat.div_le_div_left (max_le_max_right 1 hab) (lt_of_lt_of_le Nat.one_pos (le_max_right a 1))
    exact min_le_min_left 16 hdiv
  multiprocessorCount := cus

/-- On 42 multiprocessors the decode compiler emits three blocks per head and the kernel divides
the columns by two: the third block updates the columns `128` to `192`. -/
theorem updates_past_the_head :
    ¬ ∀ (geo : Geometry) (d : Device) (c : Compiler),
      UpdatesOnce (gdnRecur geo (c.numBlocks d)) d.gridDim := by
  intro hall
  have honce := hall ⟨32, 128, 128, by decide⟩ (ldsBound 42) (.decode true)
  have hmem := (honce.cover 0 (by decide) 128).1 ⟨64, by decide, by decide, by decide, by decide⟩
  exact absurd hmem (by decide)

end GdnPartition

end Braidinfer.Megakernel
