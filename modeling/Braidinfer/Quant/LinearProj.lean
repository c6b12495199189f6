/-
The quantized linear projections (`op_linear_proj_rnf4_full`, `op_linear_proj_rnf4`,
`op_linear_proj_pcg32_full`, `op_linear_proj_pcg32` in `kernels/megakernel_ops.hip`, with
`wave32_reduce_sum` and `block_reduce_sum_256` of `kernels/rdna3_reduce.h`).

Each is called for one block.  The full kernels take the rows of a block with a stride, for one
token in tiles of the input that are staged in shared memory; the others take one row per virtual
block.  Every thread counts some elements of a row; the sums go through shared memory.

* `Region`: the regions of shared memory; `LinearProjInst`: the arguments;
* `pairVisits`, `groupVisits`, `wordVisits`: the elements that a thread counts, with the weights
  that it decodes for them;
* `fullGrid`, `perRow`: the two kinds of kernels over the grid;
* `Leaves`: **the outputs hold the products and shared memory was used soundly**;
* `Sweep`: the threads count some elements once; `waveSums_eq`, `reduceAll_eq`: the reductions.
-/
import Braidinfer.Lib.Scratch
import Braidinfer.Quant.ExpertGemv

namespace Braidinfer.Quant

open Braidinfer.Lib

/-! ### Shared memory and arguments -/

/-- `B_TILE` -/
def bTile : ℕ := 8

/-- `LPROJ_TILE_FLOATS` -/
def lprojTileFloats : ℕ := 7680

/-- `LPROJ_MAX_ROWS` -/
def lprojMaxRows : ℕ := 256

/-- The regions of a block's shared memory: the sums of the waves, the tile of the input
(`lds_tile`), the sums of the rows (`row_partial`). -/
inductive Region
  | sums
  | tile
  | rows
  deriving DecidableEq

/-- The words of a region. -/
def Region.size : Region → ℕ
  | .sums => 8
  | .tile => lprojTileFloats
  | .rows => lprojMaxRows

/-- The shared memory of a block. -/
abbrev Lds (K : Type*) := Scratch Region.size K

/-- `LinearProjInst`, with what the pointers point to. -/
structure LinearProjInst (K : Type*) where
  weight : ℕ → UInt8
  input : ℕ → K
  outDim : ℕ
  inDim : ℕ
  batch : ℕ

/-- What a call does: its stores to `output`, and whether its accesses to shared memory were all
within their regions and of words that it had stored. -/
structure Outcome (K : Type*) where
  stores : List (ℕ × K)
  clean : Bool

/-- Several calls. -/
def Outcome.all {K : Type*} (calls : List (Outcome K)) : Outcome K where
  stores := calls.flatMap (·.stores)
  clean := calls.all (·.clean)

/-! ### Reductions -/

section Reductions

variable {K : Type*} [CommRing K]

/-- `permlanex16_swap_add`: the first lane of the other half of the wave. -/
def permlanex16SwapAdd (v : ℕ → K) : ℕ → K := fun tid =>
  v tid + v (tid / 32 * 32 + if tid % 32 < 16 then 16 else 0)

/-- `wave32_reduce_sum` -/
def wave32ReduceSum (v : ℕ → K) : ℕ → K :=
  permlanex16SwapAdd (xmaskAdd 1 (xmaskAdd 2 (xmaskAdd 4 (xmaskAdd 8 v))))

/-- Lane 0 of each wave stores the sum of the wave; thread 0 adds these up.  `foreign` are the sums
that waves of the block have stored for the next row by then. -/
def waveSums (m : Lds K) (acc : ℕ → K) (foreign : List (ℕ × K)) : Lds K × K :=
  let v := wave32ReduceSum acc
  let m := (m.store .sums (((List.range blockDim).filter fun tid => tid % 32 = 0).map
    fun tid => (tid / 32, v tid))).clobber .sums foreign
  (m.load .sums (List.range 8), ((List.range 8).map (m.word .sums)).sum)

/-- `block_reduce_sum_256`: a barrier is behind the sum of thread 0, and only this thread uses the
result here. -/
def blockReduceSum256 (m : Lds K) (acc : ℕ → K) : Lds K × K :=
  let r := waveSums m acc []
  let m := (r.1.store .sums [(0, r.2)]).load .sums [0]
  (m, m.word .sums 0)

/-- Reductions one after the other, each for an address of `output`. -/
def reduceAll (m : Lds K) : List (ℕ × (ℕ → K)) → Outcome K
  | [] => ⟨[], m.ok⟩
  | (addr, acc) :: work =>
      let r := blockReduceSum256 m acc
      let rest := reduceAll r.1 work
      ⟨(addr, r.2) :: rest.stores, rest.clean⟩

end Reductions

/-! ### What a thread counts -/

section Visits

variable {K : Type*} (f : Format K) (rowData : ℕ → UInt8) (inDim : ℕ)

/-- A pair of elements of a row: their indices and weights. -/
def pairVisits (pair : ℕ) : List (ℕ × K) :=
  let elem := pair * 2
  let v := f.values (f.groupData rowData (elem / f.groupSize)) (elem % f.groupSize / 2)
  [(elem, v.1), (elem + 1, v.2)]

/-- The loop over the pairs of a row (`num_pairs` of them) in thread `tid`. -/
def rnf4Visits (tid : ℕ) : List (ℕ × K) :=
  (strided tid blockDim (inDim / 2)).flatMap (pairVisits f rowData)

/-- The loop over the pairs of the groups from `g0` to `g1` in a lane. -/
def rnf4TileVisits (g0 g1 lane : ℕ) : List (ℕ × K) :=
  let p0 := g0 * f.groupSize / 2
  let p1 := min (g1 * f.groupSize / 2) (inDim / 2)
  (strided (p0 + lane) 32 p1).flatMap (pairVisits f rowData)

/-- The elements of group `g`: `for (i = 0; i < count; i += 2)`. -/
def groupPairs (g : ℕ) : List (ℕ × K) :=
  let base := g * f.groupSize
  let count := min f.groupSize (inDim - base)
  (strided 0 2 count).flatMap fun i =>
    let v := f.values (f.groupData rowData g) (i / 2)
    [(base + i, v.1), (base + i + 1, v.2)]

/-- The loop over the groups of a row in thread `tid`. -/
def pcg32Visits (tid : ℕ) : List (ℕ × K) :=
  (strided tid blockDim (f.numGroups inDim)).flatMap (groupPairs f rowData inDim)

end Visits

/-- `*(const uint32_t*)p` -/
def u32At (p : ℕ → UInt8) (off : ℕ) : ℕ := u16At p off + 2 ^ 16 * u16At p (off + 2)

/-- A group of `PcG32Q4` by whole words, whose first element is `base`: all of its elements. -/
def wordVisits {K : Type*} [CommRing K] (bf16ToF32 : ℕ → K) (gp : ℕ → UInt8) (base : ℕ) :
    List (ℕ × K) :=
  let mw := u32At gp 16
  let mn := bf16ToF32 (mw &&& 0xFFFF)
  let sc := bf16ToF32 (mw >>> 16)
  (List.range 4).flatMap fun wi => (List.range 4).flatMap fun bi =>
    let byte : UInt8 := .ofNat ((u32At gp (4 * wi) >>> (8 * bi)) &&& 0xFF)
    let i := (wi * 4 + bi) * 2
    [(base + i, lowNibble byte * sc + mn), (base + i + 1, highNibble byte * sc + mn)]

/-- The loop over the groups from `g0` to `g1` in a lane. -/
def pcg32TileVisits {K : Type*} [CommRing K] (bf16ToF32 : ℕ → K) (rowData : ℕ → UInt8)
    (g0 g1 lane : ℕ) : List (ℕ × K) :=
  let f := pcg32 bf16ToF32
  (strided (g0 + lane) 32 g1).flatMap fun g =>
    wordVisits bf16ToF32 (f.groupData rowData g) (g * f.groupSize)

/-! ### The kernels -/

section Kernels

variable {K : Type*} [CommRing K] (f : Format K) (i : LinearProjInst K)

/-- The products of what a thread counts. -/
def dot (visits : List (ℕ × K)) (x : ℕ → K) : K := (visits.map fun v => v.2 * x v.1).sum

/-- The reductions of a row: one for each of the tokens `batches`. -/
def rowWork (visits : (ℕ → UInt8) → ℕ → ℕ → List (ℕ × K)) (batches : List ℕ) (row : ℕ) :
    List (ℕ × (ℕ → K)) :=
  let rowData := f.rowData i.weight i.inDim row
  batches.map fun b => (b * i.outDim + row, fun tid =>
    dot (visits rowData i.inDim tid) fun e => i.input (b * i.inDim + e))

/-- The tokens in the order of `for (b0 = 0; b0 < batch; b0 += B_TILE)`. -/
def tiledBatches (batch : ℕ) : List ℕ :=
  (strided 0 bTile batch).flatMap fun b0 =>
    let tileEnd := if b0 + bTile < batch then b0 + bTile else batch
    (List.range (tileEnd - b0)).map (b0 + ·)

/-- What a thread counts of row `row` for a single token. -/
def rowAcc (visits : (ℕ → UInt8) → ℕ → ℕ → List (ℕ × K)) (row tid : ℕ) : K :=
  dot (visits (f.rowData i.weight i.inDim row) i.inDim tid) i.input

/-- The sums of the next row of a block, of the waves that are `ahead` of thread 0.  Its own wave
never is. -/
def nextSums (visits : (ℕ → UInt8) → ℕ → ℕ → List (ℕ × K)) (gridDim : ℕ) (ahead : ℕ → Bool)
    (row : ℕ) : List (ℕ × K) :=
  if row + gridDim < i.outDim then
    ((List.range' 1 7).filter ahead).map fun w =>
      (w, wave32ReduceSum (rowAcc f i visits (row + gridDim)) (32 * w))
  else []

/-- The kernels with one row per virtual block.  For a single token nothing keeps the waves of a
block from storing the sums of its next row, `foreign`, while thread 0 adds up. -/
def opLinearProj (visits : (ℕ → UInt8) → ℕ → ℕ → List (ℕ × K)) (batches : ℕ → List ℕ)
    (row : ℕ) (foreign : List (ℕ × K)) (junk : Region → ℕ → K) : Outcome K :=
  let batch := if i.batch ≤ 1 then 1 else i.batch
  if i.outDim ≤ row then ⟨[], true⟩
  else if batch = 1 then
    let r := waveSums (Scratch.start Region.size junk) (rowAcc f i visits row) foreign
    ⟨[(row, r.2)], r.1.ok⟩
  else reduceAll (Scratch.start Region.size junk) (rowWork f i visits (batches batch) row)

/-- All threads in `for (k = tid; k < n; k += stride)`. -/
def threadLoop (n : ℕ) : List ℕ := (List.range blockDim).flatMap fun tid => strided tid blockDim n

/-- What thread `tid` counts of the groups `g0`, …, `g1`, for the rows `rc`, …, `rc + 7` of a
block: each of the eight waves has a row, each lane of a wave some of the groups or pairs. -/
def chunkVisits (laneVisits : (ℕ → UInt8) → ℕ → ℕ → ℕ → List (ℕ × K)) (gridDim blockIdx g0 g1 : ℕ)
    (numRows rc tid : ℕ) : List (ℕ × K) :=
  let ri := rc + tid / 32
  if ri < numRows then
    let row := blockIdx + ri * gridDim
    laneVisits (f.rowData i.weight i.inDim row) g0 g1 (tid % 32)
  else []

/-- The rows of a chunk: `ri < num_rows` for the eight waves. -/
def chunkRows (numRows rc : ℕ) : List ℕ :=
  ((List.range 8).map (rc + ·)).filter (· < numRows)

/-- A chunk of the rows on a tile. -/
def rowChunk (laneVisits : (ℕ → UInt8) → ℕ → ℕ → ℕ → List (ℕ × K)) (gridDim blockIdx g0 g1 : ℕ)
    (numRows : ℕ) (m : Lds K) (rc : ℕ) : Lds K :=
  let tileStart := g0 * f.groupSize
  let visits := chunkVisits f i laneVisits gridDim blockIdx g0 g1 numRows rc
  let m := m.load .tile ((List.range blockDim).flatMap fun tid =>
    (visits tid).map fun v => v.1 - tileStart)
  let acc := wave32ReduceSum fun tid => dot (visits tid) fun e => m.word .tile (e - tileStart)
  -- lane 0 of each wave that has a row
  let m := m.load .rows (chunkRows numRows rc)
  m.store .rows ((chunkRows numRows rc).map fun ri =>
    (ri, m.word .rows ri + acc (32 * (ri - rc))))

/-- `groups_per_tile` -/
def Format.groupsPerTile {K : Type*} (f : Format K) : ℕ := lprojTileFloats / f.groupSize

/-- `n_tiles` -/
def Format.numTiles {K : Type*} (f : Format K) (inDim : ℕ) : ℕ :=
  (f.numGroups inDim + f.groupsPerTile - 1) / f.groupsPerTile

/-- A tile of the input: staging it, and all rows of the block. -/
def tileStep (laneVisits : (ℕ → UInt8) → ℕ → ℕ → ℕ → List (ℕ × K)) (gridDim blockIdx : ℕ)
    (numRows : ℕ) (m : Lds K) (t : ℕ) : Lds K :=
  let g0 := t * f.groupsPerTile
  let g1 := min (g0 + f.groupsPerTile) (f.numGroups i.inDim)
  let tileStart := g0 * f.groupSize
  let tileLen := min ((g1 - g0) * f.groupSize) (i.inDim - tileStart)
  let m := m.store .tile ((threadLoop tileLen).map fun k => (k, i.input (tileStart + k)))
  (strided 0 8 numRows).foldl (rowChunk f i laneVisits gridDim blockIdx g0 g1 numRows) m

/-- A block of a full kernel, for one token. -/
def tiledRows (laneVisits : (ℕ → UInt8) → ℕ → ℕ → ℕ → List (ℕ × K)) (gridDim blockIdx : ℕ)
    (junk : Region → ℕ → K) : Outcome K :=
  let numRows := (strided blockIdx gridDim i.outDim).length
  let m := (Scratch.start Region.size junk).store .rows ((threadLoop numRows).map (·, 0))
  let m := (List.range (f.numTiles i.inDim)).foldl
    (tileStep f i laneVisits gridDim blockIdx numRows) m
  let m := m.load .rows (List.range numRows)
  ⟨(List.range numRows).map fun ri => (blockIdx + ri * gridDim, m.word .rows ri), m.ok⟩

/-- The full kernels. -/
def opLinearProjFull (laneVisits : (ℕ → UInt8) → ℕ → ℕ → ℕ → List (ℕ × K))
    (visits : (ℕ → UInt8) → ℕ → ℕ → List (ℕ × K)) (batches : ℕ → List ℕ)
    (gridDim blockIdx : ℕ) (junk : Region → ℕ → K) : Outcome K :=
  let batch := if i.batch ≤ 1 then 1 else i.batch
  if batch = 1 then tiledRows f i laneVisits gridDim blockIdx junk
  else reduceAll (Scratch.start Region.size junk)
    ((strided blockIdx gridDim i.outDim).flatMap (rowWork f i visits (batches batch)))

end Kernels

section Members

variable {K : Type*} [CommRing K] (bf16ToF32 nf4Table : ℕ → K) (i : LinearProjInst K)

/-- `op_linear_proj_rnf4_full` -/
def opLinearProjRnf4Full (gridDim blockIdx : ℕ) (junk : Region → ℕ → K) : Outcome K :=
  let f := rnf4 bf16ToF32 nf4Table
  opLinearProjFull f i (fun rowData => rnf4TileVisits f rowData i.inDim) (rnf4Visits f)
    tiledBatches gridDim blockIdx junk

/-- `op_linear_proj_rnf4`, where `ahead vblock` are the waves that are in the next virtual block of
their block while thread 0 adds up. -/
def opLinearProjRnf4 (gridDim : ℕ) (ahead : ℕ → ℕ → Bool) (vblock : ℕ) (junk : Region → ℕ → K) :
    Outcome K :=
  let f := rnf4 bf16ToF32 nf4Table
  opLinearProj f i (rnf4Visits f) tiledBatches vblock
    (nextSums f i (rnf4Visits f) gridDim (ahead vblock) vblock) junk

/-- `op_linear_proj_pcg32_full` -/
def opLinearProjPcg32Full (gridDim blockIdx : ℕ) (junk : Region → ℕ → K) : Outcome K :=
  let f := pcg32 bf16ToF32
  opLinearProjFull f i (pcg32TileVisits bf16ToF32) (pcg32Visits f) List.range gridDim blockIdx
    junk

/-- `op_linear_proj_pcg32`: it starts with a barrier, so that no wave is ahead. -/
def opLinearProjPcg32 (vblock : ℕ) (junk : Region → ℕ → K) : Outcome K :=
  let f := pcg32 bf16ToF32
  opLinearProj f i (pcg32Visits f) List.range vblock [] junk

end Members

/-! ### The grid -/

/-- A full kernel on all blocks; `junk` is what each finds in shared memory. -/
def fullGrid {K : Type*} (op : ℕ → ℕ → (Region → ℕ → K) → Outcome K) (gridDim : ℕ)
    (junk : ℕ → Region → ℕ → K) : Outcome K :=
  .all ((List.range gridDim).map fun blockIdx => op gridDim blockIdx (junk blockIdx))

/-- The loop of each block over the virtual blocks, `grid_x = out_dim` of them. -/
def perRow {K : Type*} (op : ℕ → (Region → ℕ → K) → Outcome K) (gridDim outDim : ℕ)
    (junk : ℕ → Region → ℕ → K) : Outcome K :=
  .all ((List.range gridDim).flatMap fun blockIdx =>
    (strided blockIdx gridDim outDim).map fun vb => op vb (junk vb))

/-- **The outputs hold the products**, in whatever order the stores of the blocks are done, and
shared memory was used soundly. -/
structure Leaves {K : Type*} (i : LinearProjInst K) (val : ℕ → ℕ → K) (run : Outcome K) :
    Prop where
  output : ∀ stores, stores.Perm run.stores → ∀ (out : ℕ → K), ∀ b < i.batch, ∀ row < i.outDim,
    applyStores out stores (b * i.outDim + row) = val b row
  clean : run.clean = true

/-- The product of a row with the input of token `b`. -/
def rowProduct {K : Type*} [CommRing K] (f : Format K) (i : LinearProjInst K) (b row : ℕ) : K :=
  f.product i.weight (fun e => i.input (b * i.inDim + e)) i.inDim row

/-! ### The reductions -/

section Reduce

variable {K : Type*} [CommRing K] {m : Lds K}

/-- Lane 0 of a wave has the sum of the wave. -/
lemma wave32ReduceSum_mul (v : ℕ → K) (w : ℕ) :
    wave32ReduceSum v (32 * w) = ∑ l ∈ Finset.range 32, v (32 * w + l) := by
  have hlow := butterfly_mul 4 v (2 * w)
  have hhigh := butterfly_mul 4 v (2 * w + 1)
  rw [show 2 ^ 4 * (2 * w) = 32 * w by omega] at hlow
  rw [show 2 ^ 4 * (2 * w + 1) = 32 * w + 16 by omega] at hhigh
  rw [wave32ReduceSum, permlanex16SwapAdd, Nat.mul_div_cancel_left _ (by decide),
    Nat.mul_mod_right, if_pos (by decide), Nat.mul_comm w]
  calc butterfly 4 v (32 * w) + butterfly 4 v (32 * w + 16)
      = ∑ j ∈ Finset.range 16, v (32 * w + j) +
          ∑ j ∈ Finset.range 16, v (32 * w + 16 + j) := by rw [hlow, hhigh]; rfl
    _ = ∑ l ∈ Finset.range (16 + 16), v (32 * w + l) := by
        rw [Finset.sum_range_add]
        simp only [Nat.add_assoc]

omit [CommRing K] in
/-- The addresses that the waves store to. -/
lemma mem_waveStores {v : ℕ → K} {s : ℕ × K} :
    s ∈ ((List.range blockDim).filter fun tid => tid % 32 = 0).map
      (fun tid => (tid / 32, v tid)) ↔ ∃ w < 8, s = (w, v (32 * w)) := by
  simp only [List.mem_map, List.mem_filter, List.mem_range, decide_eq_true_iff, blockDim]
  constructor
  · rintro ⟨tid, ⟨hlt, hmod⟩, rfl⟩
    refine ⟨tid / 32, by omega, ?_⟩
    rw [show 32 * (tid / 32) = tid by omega]
  · rintro ⟨w, hw, rfl⟩
    exact ⟨32 * w, ⟨by omega, Nat.mul_mod_right _ _⟩,
      by rw [Nat.mul_div_cancel_left _ (by decide)]⟩

/-- **The total** of thread 0. -/
lemma waveSums_eq (m : Lds K) (acc : ℕ → K) :
    (waveSums m acc []).2 = ∑ tid ∈ Finset.range blockDim, acc tid := by
  have hword : ∀ w < 8, (m.store .sums (((List.range blockDim).filter fun tid => tid % 32 = 0).map
      fun tid => (tid / 32, wave32ReduceSum acc tid))).word .sums w =
        wave32ReduceSum acc (32 * w) := fun w hw => by
    rw [Scratch.word_store]
    refine applyStores_of_forall (mem_waveStores.mpr ⟨w, hw, rfl⟩) fun s hs heq => ?_
    obtain ⟨w', -, rfl⟩ := mem_waveStores.mp hs
    obtain rfl : w' = w := heq
    rfl
  rw [waveSums, Scratch.clobber_nil]
  calc _ = ∑ w ∈ Finset.range 8, wave32ReduceSum acc (32 * w) :=
        Finset.sum_congr rfl fun w hw => hword w (Finset.mem_range.mp hw)
    _ = ∑ w ∈ Finset.range 8, ∑ l ∈ Finset.range 32, acc (w * 32 + l) :=
        Finset.sum_congr rfl fun w _ => by rw [wave32ReduceSum_mul, Nat.mul_comm]
    _ = ∑ tid ∈ Finset.range blockDim, acc tid := (sum_range_mul 8 32).symm

/-- The waves use shared memory soundly. -/
lemma ok_waveSums (m : Lds K) (acc : ℕ → K) :
    (waveSums m acc []).1.ok = true ↔ m.ok = true := by
  rw [waveSums, Scratch.clobber_nil, Scratch.ok_load, Scratch.ok_store, and_assoc]
  refine ⟨fun h => h.1, fun h => ⟨h, fun s hs => ?_, fun w hw => ?_⟩⟩
  · obtain ⟨w, hw, rfl⟩ := mem_waveStores.mp hs
    exact hw
  · have hlt := List.mem_range.mp hw
    exact ⟨hlt, Scratch.written_store.mpr (.inr ⟨_, mem_waveStores.mpr ⟨w, hlt, rfl⟩, rfl⟩)⟩

/-- A sum of the next row is no word of the call. -/
lemma not_ok_waveSums {m : Lds K} {acc : ℕ → K} {foreign : List (ℕ × K)} {s : ℕ × K}
    (hs : s ∈ foreign) (hlt : s.1 < 8) : (waveSums m acc foreign).1.ok = false := by
  refine Bool.eq_false_iff.mpr fun hok => ?_
  have hwritten := (Scratch.ok_load.mp hok).2 s.1 (List.mem_range.mpr hlt)
  rw [Scratch.written_clobber_of_mem hs] at hwritten
  cases hwritten.2

/-- **Every thread gets the total.** -/
lemma blockReduceSum256_eq (m : Lds K) (acc : ℕ → K) :
    (blockReduceSum256 m acc).2 = ∑ tid ∈ Finset.range blockDim, acc tid := by
  rw [← waveSums_eq m acc, blockReduceSum256, Scratch.word_load, Scratch.word_store]
  exact applyStores_of_mem (List.nodup_singleton _) (List.mem_singleton_self _)

lemma ok_blockReduceSum256 (m : Lds K) (acc : ℕ → K) :
    (blockReduceSum256 m acc).1.ok = true ↔ m.ok = true := by
  rw [blockReduceSum256, Scratch.ok_load, Scratch.ok_store, ok_waveSums, and_assoc]
  refine ⟨fun h => h.1, fun h => ⟨h, fun s hs => ?_, fun w hw => ?_⟩⟩
  · rw [List.mem_singleton.mp hs]
    exact Nat.succ_pos 7
  · rw [List.mem_singleton.mp hw]
    exact ⟨Nat.succ_pos 7,
      Scratch.written_store.mpr (.inr ⟨_, List.mem_singleton_self _, rfl⟩)⟩

/-- **Reductions one after the other** store the sums. -/
theorem reduceAll_eq (m : Lds K) (work : List (ℕ × (ℕ → K))) :
    (reduceAll m work).stores =
        work.map (fun w => (w.1, ∑ tid ∈ Finset.range blockDim, w.2 tid)) ∧
      ((reduceAll m work).clean = true ↔ m.ok = true) := by
  induction work generalizing m with
  | nil => exact ⟨rfl, Iff.rfl⟩
  | cons w work ih =>
      obtain ⟨hstores, hclean⟩ := ih (blockReduceSum256 m w.2).1
      constructor
      · rw [reduceAll, hstores, blockReduceSum256_eq, List.map_cons]
      · rw [reduceAll, hclean, ok_blockReduceSum256]

end Reduce

/-! ### Sweeps -/

/-- `n` threads count each element of `elems` once, with its decoded weight. -/
structure Sweep {K : Type*} (f : Format K) (rowData : ℕ → UInt8) (n : ℕ)
    (visits : ℕ → List (ℕ × K)) (elems : List ℕ) : Prop where
  once : ((List.range n).flatMap fun tid => (visits tid).map Prod.fst).Perm elems
  decoded : ∀ tid, ∀ v ∈ visits tid, v.2 = f.decode rowData v.1

section Sweeps

variable {K : Type*} {f : Format K} {rowData : ℕ → UInt8} {inDim n : ℕ}
  {visits : ℕ → List (ℕ × K)} {elems : List ℕ}

/-- What all threads of a sweep add up. -/
lemma Sweep.sum [CommRing K] (h : Sweep f rowData n visits elems) (x : ℕ → K) :
    ∑ tid ∈ Finset.range n, dot (visits tid) x =
      (elems.map fun e => f.decode rowData e * x e).sum := by
  calc ∑ tid ∈ Finset.range n, dot (visits tid) x
      = ∑ tid ∈ Finset.range n,
          (((visits tid).map Prod.fst).map fun e => f.decode rowData e * x e).sum := by
        refine Finset.sum_congr rfl fun tid _ => ?_
        rw [dot, List.map_map]
        exact congrArg List.sum (List.map_congr_left fun v hv => by
          rw [h.decoded tid v hv, Function.comp_apply])
    _ = (((List.range n).flatMap fun tid => (visits tid).map Prod.fst).map
          fun e => f.decode rowData e * x e).sum := by
        rw [sum_map_flatMap, sum_map_range]
    _ = (elems.map fun e => f.decode rowData e * x e).sum := (h.once.map _).sum_eq

/-- Threads that take units of elements with a stride. -/
lemma Sweep.of_units {unit : ℕ → List (ℕ × K)} {elemsOf : ℕ → List ℕ} {d : ℕ} (hd : 0 < d)
    (a m : ℕ) (hunit : ∀ p, ((unit p).map Prod.fst).Perm (elemsOf p))
    (hdecoded : ∀ p, ∀ v ∈ unit p, v.2 = f.decode rowData v.1) :
    Sweep f rowData d (fun tid => (strided (a + tid) d m).flatMap unit)
      ((List.range' a (m - a)).flatMap elemsOf) := by
  constructor
  · have hflat : ((List.range d).flatMap fun tid =>
        ((strided (a + tid) d m).flatMap unit).map Prod.fst) =
        ((List.range d).flatMap fun tid => strided (a + tid) d m).flatMap fun p =>
          (unit p).map Prod.fst := by
      rw [List.flatMap_assoc]
      exact List.flatMap_congr fun tid _ => List.map_flatMap
    rw [hflat]
    exact ((perm_strided hd a m).flatMap_right _).trans
      (List.Perm.flatMap_left _ fun p _ => hunit p)
  · intro tid v hv
    obtain ⟨p, -, hv⟩ := List.mem_flatMap.mp hv
    exact hdecoded p v hv

/-! ### Pairs -/

lemma map_fst_pairVisits (pair : ℕ) :
    (pairVisits f rowData pair).map Prod.fst = List.range' (pair * 2) 2 := rfl

lemma decoded_pairVisits (hf : f.Even) (pair : ℕ) {v : ℕ × K}
    (hv : v ∈ pairVisits f rowData pair) : v.2 = f.decode rowData v.1 := by
  have hpos := hf.pos
  have hmod := Nat.mod_lt (pair * 2) hpos
  have hpar : pair * 2 % f.groupSize % 2 = 0 := by
    rw [Nat.mod_mod_of_dvd _ (Nat.dvd_of_mod_eq_zero hf.even), Nat.mul_mod_left]
  have hb : 2 * (pair * 2 % f.groupSize / 2) = pair * 2 % f.groupSize := by omega
  have hdiv := Nat.div_add_mod' (pair * 2) f.groupSize
  obtain ⟨hlow, hhigh⟩ := Format.decode_pair hf rowData (g := pair * 2 / f.groupSize)
    (b := pair * 2 % f.groupSize / 2) (by omega)
  rw [hb, hdiv] at hlow hhigh
  rcases List.mem_cons.mp hv with rfl | hv
  · exact hlow.symm
  · obtain rfl := List.mem_singleton.mp hv
    exact hhigh.symm

/-- Pairs from `a` on. -/
lemma sweep_pairs (rowData : ℕ → UInt8) (hf : f.Even) {d : ℕ} (hd : 0 < d) (a m : ℕ) :
    Sweep f rowData d (fun tid => (strided (a + tid) d m).flatMap (pairVisits f rowData))
      (List.range' (a * 2) ((m - a) * 2)) := by
  rw [← flatMap_range']
  exact Sweep.of_units hd a m (fun p => by rw [map_fst_pairVisits])
    fun p v hv => decoded_pairVisits hf p hv

/-- **A row by pairs**: all elements but the last one of a row of odd length. -/
theorem sweep_rnf4Visits (hf : f.Even) (rowData : ℕ → UInt8) (inDim : ℕ) :
    Sweep f rowData blockDim (rnf4Visits f rowData inDim) (List.range (inDim / 2 * 2)) := by
  have h := sweep_pairs rowData hf (show 0 < blockDim by decide) 0 (inDim / 2)
  simp only [Nat.zero_add, Nat.zero_mul, Nat.sub_zero, ← List.range_eq_range'] at h
  exact h

/-! ### Groups -/

lemma mem_groupPairs {g : ℕ} {v : ℕ × K} (hv : v ∈ groupPairs f rowData inDim g) :
    ∃ b, 2 * b < min f.groupSize (inDim - g * f.groupSize) ∧
      (v = (g * f.groupSize + 2 * b, (f.values (f.groupData rowData g) b).1) ∨
        v = (g * f.groupSize + 2 * b + 1, (f.values (f.groupData rowData g) b).2)) := by
  obtain ⟨i, hi, hv⟩ := List.mem_flatMap.mp hv
  obtain ⟨hlt, -, hmod⟩ := mem_strided.mp hi
  have heven : 2 * (i / 2) = i := by omega
  refine ⟨i / 2, by omega, ?_⟩
  rw [heven]
  simpa using hv

lemma decoded_groupPairs (hf : f.Even) (g : ℕ) {v : ℕ × K}
    (hv : v ∈ groupPairs f rowData inDim g) : v.2 = f.decode rowData v.1 := by
  obtain ⟨b, hb, hv⟩ := mem_groupPairs hv
  obtain ⟨hlow, hhigh⟩ := Format.decode_pair hf rowData (g := g)
    (hb.trans_le (Nat.min_le_left _ _))
  rcases hv with rfl | rfl
  · exact hlow.symm
  · exact hhigh.symm

/-- The loop stops at the first pair that starts past the row. -/
lemma map_fst_groupPairs (hf : f.Even) (rowData : ℕ → UInt8) (inDim g : ℕ) :
    ((groupPairs f rowData inDim g).map Prod.fst).Perm (List.range' (g * f.groupSize)
      (min f.groupSize ((inDim + 1) / 2 * 2 - g * f.groupSize))) := by
  set base := g * f.groupSize with hbase
  set count := min f.groupSize (inDim - base) with hcount
  have heven := hf.even
  have hbase2 : base % 2 = 0 := by rw [hbase, Nat.mul_mod, heven, Nat.mul_zero, Nat.zero_mod]
  have hlen : min f.groupSize ((inDim + 1) / 2 * 2 - base) = (count + 1) / 2 * 2 := by omega
  have hfst : (groupPairs f rowData inDim g).map Prod.fst =
      (strided 0 2 count).flatMap fun i => [base + i, base + i + 1] := by
    rw [groupPairs, List.map_flatMap]
    rfl
  have hperm : (strided 0 2 count).Perm
      ((List.range ((count - 0 + (2 - 1)) / 2)).map fun k => 0 + k * 2) :=
    strided_perm_map (Nat.succ_pos 1)
  have hloop := hperm.flatMap_right fun i => [base + i, base + i + 1]
  rw [hfst, hlen]
  refine hloop.trans (List.Perm.of_eq ?_)
  calc ((List.range ((count - 0 + (2 - 1)) / 2)).map fun k => 0 + k * 2).flatMap
        (fun i => [base + i, base + i + 1])
      = (List.range' 0 ((count + 1) / 2)).flatMap fun k =>
          (List.range' (k * 2) 2).map (base + ·) := by
        rw [List.flatMap_map, ← List.range_eq_range']
        refine List.flatMap_congr fun k _ => ?_
        simp [List.range'_succ, Nat.add_assoc]
    _ = (List.range' (0 * 2) ((count + 1) / 2 * 2)).map (base + ·) := by
        rw [← flatMap_range', List.map_flatMap]
    _ = List.range' base ((count + 1) / 2 * 2) := by
        rw [Nat.zero_mul, List.map_add_range', Nat.add_zero]

/-- **A row by groups**: all elements, and the one past a row of odd length. -/
theorem sweep_pcg32Visits (hf : f.Even) (rowData : ℕ → UInt8) (inDim : ℕ) :
    Sweep f rowData blockDim (pcg32Visits f rowData inDim)
      (List.range ((inDim + 1) / 2 * 2)) := by
  have hle : (inDim + 1) / 2 * 2 ≤ f.numGroups inDim * f.groupSize := by
    have hrow := Format.le_numGroups_mul hf inDim
    have hpar : f.numGroups inDim * f.groupSize % 2 = 0 := by
      rw [Nat.mul_mod, hf.even, Nat.mul_zero, Nat.zero_mod]
    omega
  have h := Sweep.of_units (show 0 < blockDim by decide) 0 (f.numGroups inDim)
    (map_fst_groupPairs hf rowData inDim) fun g v hv => decoded_groupPairs hf g hv
  rw [Nat.sub_zero, ← List.range_eq_range', flatMap_range_min hle] at h
  simp only [Nat.zero_add] at h
  exact h

end Sweeps

/-! ### The kernels without tiles -/

section Kernels

variable {K : Type*} [CommRing K] {f : Format K} {i : LinearProjInst K}

/-- The sum over some elements of a row, with the inputs `x`. -/
def rowSum (f : Format K) (i : LinearProjInst K) (elems : List ℕ) (x : ℕ → K) (row : ℕ) : K :=
  (elems.map fun e => f.decode (f.rowData i.weight i.inDim row) e * x e).sum

/-- The input of token `b`. -/
def tokenInput (i : LinearProjInst K) (b : ℕ) : ℕ → K := fun e => i.input (b * i.inDim + e)

/-- The stores of a run are those of `val` for all tokens and the rows `rows`. -/
def Stores (i : LinearProjInst K) (rows : ℕ → Prop) (val : ℕ → ℕ → K) (run : Outcome K) : Prop :=
  ∀ s, s ∈ run.stores ↔ ∃ b < i.batch, ∃ row, rows row ∧ s = (b * i.outDim + row, val b row)

/-- **What a run leaves**: each output holds what was stored for it. -/
theorem leaves_iff {val S : ℕ → ℕ → K} {run : Outcome K}
    (h : Stores i (· < i.outDim) S run) :
    Leaves i val run ↔
      (∀ b < i.batch, ∀ row < i.outDim, S b row = val b row) ∧ run.clean = true := by
  have hout : ∀ stores, stores.Perm run.stores → ∀ (out : ℕ → K), ∀ b < i.batch,
      ∀ row < i.outDim, applyStores out stores (b * i.outDim + row) = S b row := by
    intro stores hperm out b hb row hrow
    refine applyStores_of_forall (hperm.mem_iff.mpr ((h _).mpr ⟨b, hb, row, hrow, rfl⟩))
      fun s hs heq => ?_
    obtain ⟨b', -, row', hrow', rfl⟩ := (h s).mp (hperm.mem_iff.mp hs)
    -- an address belongs to one token and one row
    obtain ⟨rfl, rfl⟩ := rowMajor_inj hrow' hrow heq
    rfl
  constructor
  · rintro ⟨houtput, hclean⟩
    refine ⟨fun b hb row hrow => ?_, hclean⟩
    rw [← hout _ (List.Perm.refl _) (fun _ => 0) b hb row hrow]
    exact houtput _ (List.Perm.refl _) _ b hb row hrow
  · rintro ⟨hval, hclean⟩
    refine ⟨fun stores hperm out b hb row hrow => ?_, hclean⟩
    rw [hout stores hperm out b hb row hrow, hval b hb row hrow]

omit [CommRing K] in
/-- Calls that between them take all rows. -/
lemma stores_all {ι : Type*} {calls : List ι} {op : ι → Outcome K} {rows : ι → ℕ → Prop}
    {S : ℕ → ℕ → K} (hop : ∀ c ∈ calls, Stores i (rows c) S (op c))
    (hrows : ∀ row, (∃ c ∈ calls, rows c row) ↔ row < i.outDim) :
    Stores i (· < i.outDim) S (.all (calls.map op)) := by
  intro s
  simp only [Outcome.all, List.flatMap_map, List.mem_flatMap]
  constructor
  · rintro ⟨c, hc, hs⟩
    obtain ⟨b, hb, row, hrow, rfl⟩ := (hop c hc s).mp hs
    exact ⟨b, hb, row, (hrows row).mp ⟨c, hc, hrow⟩, rfl⟩
  · rintro ⟨b, hb, row, hrow, rfl⟩
    obtain ⟨c, hc, hrow⟩ := (hrows row).mpr hrow
    exact ⟨c, hc, (hop c hc _).mpr ⟨b, hb, row, hrow, rfl⟩⟩

omit [CommRing K] in
lemma clean_all {ι : Type*} {calls : List ι} {op : ι → Outcome K} :
    (Outcome.all (calls.map op)).clean = true ↔ ∀ c ∈ calls, (op c).clean = true := by
  simp only [Outcome.all, List.all_map, List.all_eq_true, Function.comp_apply]

/-- The rows of the blocks of a grid. -/
lemma exists_block_iff {gridDim : ℕ} (hgrid : 1 ≤ gridDim) (row outDim : ℕ) :
    (∃ block ∈ List.range gridDim, row ∈ strided block gridDim outDim) ↔ row < outDim := by
  constructor
  · rintro ⟨block, -, hmem⟩
    exact (mem_strided.mp hmem).1
  · intro hrow
    have hlt : row % gridDim < gridDim := Nat.mod_lt _ hgrid
    exact ⟨row % gridDim, List.mem_range.mpr hlt, (mem_strided_of_lt hlt).mpr ⟨hrow, rfl⟩⟩

variable {visits : (ℕ → UInt8) → ℕ → ℕ → List (ℕ × K)} {elems : List ℕ} {batches : ℕ → List ℕ}

section Rows

variable (hsweep : ∀ rowData, Sweep f rowData blockDim (visits rowData i.inDim) elems)
include hsweep

/-- The sums of the reductions of a row. -/
lemma mem_rowWork_sums (tokens rows : List ℕ) (s : ℕ × K) :
    s ∈ (rows.flatMap (rowWork f i visits tokens)).map
        (fun w => (w.1, ∑ tid ∈ Finset.range blockDim, w.2 tid)) ↔
      ∃ b ∈ tokens, ∃ row ∈ rows,
        s = (b * i.outDim + row, rowSum f i elems (tokenInput i b) row) := by
  have hsum : ∀ b row, ∑ tid ∈ Finset.range blockDim,
      dot (visits (f.rowData i.weight i.inDim row) i.inDim tid) (tokenInput i b) =
        rowSum f i elems (tokenInput i b) row := fun b row => (hsweep _).sum _
  rw [List.mem_map]
  constructor
  · rintro ⟨w, hw, rfl⟩
    obtain ⟨row, hrow, hw⟩ := List.mem_flatMap.mp hw
    obtain ⟨b, hb, rfl⟩ := List.mem_map.mp hw
    exact ⟨b, hb, row, hrow, Prod.ext rfl (hsum b row)⟩
  · rintro ⟨b, hb, row, hrow, rfl⟩
    exact ⟨_, List.mem_flatMap.mpr ⟨row, hrow, List.mem_map.mpr ⟨b, hb, rfl⟩⟩,
      Prod.ext rfl (hsum b row)⟩

/-- **A row of a kernel with one row per virtual block**, with no wave ahead. -/
lemma opLinearProj_spec (hbatch : 1 ≤ i.batch)
    (hbatches : ∀ b, b ∈ batches i.batch ↔ b < i.batch) {row : ℕ} (hrow : row < i.outDim)
    {foreign : List (ℕ × K)} (hforeign : i.batch = 1 → foreign = []) (junk : Region → ℕ → K) :
    Stores i (· = row) (fun b => rowSum f i elems (tokenInput i b))
        (opLinearProj f i visits batches row foreign junk) ∧
      (opLinearProj f i visits batches row foreign junk).clean = true := by
  have hbatch' : (if i.batch ≤ 1 then 1 else i.batch) = i.batch := by
    split_ifs <;> omega
  have hwork := reduceAll_eq (Scratch.start Region.size junk)
    (rowWork f i visits (batches i.batch) row)
  rw [opLinearProj, hbatch', if_neg (by omega)]
  simp only
  split_ifs with hone
  · rw [hforeign hone]
    refine ⟨fun s => ?_, (ok_waveSums (Scratch.start Region.size junk)
      (rowAcc f i visits row)).mpr rfl⟩
    have hacc : (∑ tid ∈ Finset.range blockDim, rowAcc f i visits row tid) =
      ∑ tid ∈ Finset.range blockDim,
        dot (visits (f.rowData i.weight i.inDim row) i.inDim tid) i.input := rfl
    have hinput : tokenInput i 0 = i.input := by
      funext e
      rw [tokenInput, Nat.zero_mul, Nat.zero_add]
    have hstore : (0 * i.outDim + row, rowSum f i elems (tokenInput i 0) row) =
        (row, rowSum f i elems i.input row) := by rw [hinput, Nat.zero_mul, Nat.zero_add]
    rw [hone, List.mem_singleton, waveSums_eq, hacc, (hsweep _).sum]
    constructor
    · rintro rfl
      exact ⟨0, Nat.one_pos, row, rfl, hstore.symm⟩
    · rintro ⟨b, hb, row', rfl, rfl⟩
      obtain rfl := Nat.lt_one_iff.mp hb
      exact hstore
  · refine ⟨fun s => ?_, hwork.2.mpr rfl⟩
    have hmem := mem_rowWork_sums hsweep (batches i.batch) [row] s
    rw [List.flatMap_singleton] at hmem
    rw [hwork.1, hmem]
    simp only [hbatches, List.mem_singleton]

/-- **The kernels with one row per virtual block**, over the grid, with no wave ahead. -/
theorem perRow_spec (hbatch : 1 ≤ i.batch)
    (hbatches : ∀ b, b ∈ batches i.batch ↔ b < i.batch) {gridDim : ℕ} (hgrid : 1 ≤ gridDim)
    {foreign : ℕ → List (ℕ × K)} (hforeign : i.batch = 1 → ∀ row < i.outDim, foreign row = [])
    (junk : ℕ → Region → ℕ → K) :
    let run := perRow (fun row => opLinearProj f i visits batches row (foreign row)) gridDim
      i.outDim junk
    Stores i (· < i.outDim) (fun b => rowSum f i elems (tokenInput i b)) run ∧
      run.clean = true := by
  intro run
  have hrows : ∀ row, (∃ vb ∈ (List.range gridDim).flatMap fun block =>
      strided block gridDim i.outDim, row = vb) ↔ row < i.outDim := fun row => by
    simp only [exists_eq_right', List.mem_flatMap]
    exact exists_block_iff hgrid row i.outDim
  have hspec := fun vb (hvb : vb < i.outDim) =>
    opLinearProj_spec hsweep hbatch hbatches hvb (fun hone => hforeign hone vb hvb) (junk vb)
  have hrun : run = .all (((List.range gridDim).flatMap fun block =>
      strided block gridDim i.outDim).map fun vb =>
        opLinearProj f i visits batches vb (foreign vb) (junk vb)) :=
    congrArg Outcome.all List.map_flatMap.symm
  rw [hrun]
  constructor
  · exact stores_all (fun vb hvb => (hspec vb ((hrows vb).mp ⟨vb, hvb, rfl⟩)).1) hrows
  · exact clean_all.mpr fun vb hvb => (hspec vb ((hrows vb).mp ⟨vb, hvb, rfl⟩)).2

omit hsweep in
/-- For a single token a wave that is ahead spoils the sum of thread 0. -/
theorem perRow_not_clean (hone : i.batch = 1) {gridDim : ℕ} (hgrid : 1 ≤ gridDim)
    (hmany : gridDim < i.outDim) {ahead : ℕ → ℕ → Bool} (hahead : ahead 0 1 = true)
    (junk : ℕ → Region → ℕ → K) :
    (perRow (fun row => opLinearProj f i visits batches row
      (nextSums f i visits gridDim (ahead row) row)) gridDim i.outDim junk).clean = false := by
  refine Bool.eq_false_iff.mpr fun hclean => ?_
  rw [perRow, ← List.map_flatMap] at hclean
  have hmem : 0 ∈ (List.range gridDim).flatMap fun block => strided block gridDim i.outDim :=
    List.mem_flatMap.mpr ((exists_block_iff hgrid 0 i.outDim).mpr (by omega))
  have hrow := clean_all.mp hclean 0 hmem
  rw [opLinearProj, hone, if_neg (by omega)] at hrow
  -- the second wave has stored the sum of row `gridDim`
  have hnext : (1, wave32ReduceSum (rowAcc f i visits (0 + gridDim)) (32 * 1)) ∈
      nextSums f i visits gridDim (ahead 0) 0 := by
    rw [nextSums, if_pos (by omega)]
    refine List.mem_map_of_mem (List.mem_filter.mpr ⟨?_, hahead⟩)
    rw [List.mem_range'_1]
    exact ⟨Nat.le_refl 1, by decide⟩
  simp only [le_refl, if_true, not_ok_waveSums hnext (show 1 < 8 by decide)] at hrow
  cases hrow

variable {laneVisits : (ℕ → UInt8) → ℕ → ℕ → ℕ → List (ℕ × K)}

/-- **The full kernels for several tokens.** -/
theorem fullGrid_spec (hbatch : 1 < i.batch)
    (hbatches : ∀ b, b ∈ batches i.batch ↔ b < i.batch) {gridDim : ℕ} (hgrid : 1 ≤ gridDim)
    (junk : ℕ → Region → ℕ → K) :
    Stores i (· < i.outDim) (fun b => rowSum f i elems (tokenInput i b))
        (fullGrid (opLinearProjFull f i laneVisits visits batches) gridDim junk) ∧
      (fullGrid (opLinearProjFull f i laneVisits visits batches) gridDim junk).clean = true := by
  have hblock : ∀ block, opLinearProjFull f i laneVisits visits batches gridDim block
      (junk block) = reduceAll (Scratch.start Region.size (junk block))
        ((strided block gridDim i.outDim).flatMap (rowWork f i visits (batches i.batch))) :=
    fun block => by
      have hbatch' : (if i.batch ≤ 1 then 1 else i.batch) = i.batch := if_neg (by omega)
      rw [opLinearProjFull, hbatch', if_neg (by omega)]
  constructor
  · have hstores : ∀ block ∈ List.range gridDim,
        Stores i (· ∈ strided block gridDim i.outDim)
          (fun b => rowSum f i elems (tokenInput i b))
          (opLinearProjFull f i laneVisits visits batches gridDim block (junk block)) :=
      fun block _ s => by
        rw [hblock, (reduceAll_eq _ _).1, mem_rowWork_sums hsweep]
        simp only [hbatches]
    exact stores_all hstores fun row => exists_block_iff hgrid row i.outDim
  · refine clean_all.mpr fun block _ => ?_
    rw [hblock]
    exact (reduceAll_eq _ _).2.mpr rfl

end Rows

lemma mem_tiledBatches {batch b : ℕ} : b ∈ tiledBatches batch ↔ b < batch := by
  have htile : bTile = 8 := rfl
  simp only [tiledBatches, List.mem_flatMap, List.mem_map, List.mem_range, mem_strided]
  constructor
  · rintro ⟨b0, hb0, k, hk, rfl⟩
    split at hk <;> omega
  · intro hb
    refine ⟨b / 8 * 8, by rw [htile]; omega, b % 8, ?_, by omega⟩
    split <;> omega

end Kernels

end Braidinfer.Quant
