/-
The expert GEMVs (`coop_gemv_pcg32`, `coop_gemv_rnf4` and their fused gate/up forms in
`kernels/moe_expert_ops.h`, `subwave_reduce_sum` in `kernels/rdna3_reduce.h`).

A block takes rows with a stride.  For a row, `tpg` consecutive threads share a group, each with its
part of the bytes; the sums of a group's threads are exchanged between lanes, the first lane writes
the sum to shared memory, and thread 0 adds these up.  `tpg` is a power of two that depends on the
number of groups.

* `Split`: `tpg` and what follows from it; `visits`: the elements a thread counts, with the weights
  it reads for them;
* `visits_cover`: **each element is counted by one thread, once**, with its decoded weight;
* `rowTotal_eq`: thread 0 writes the product of the row;
* `expertGemv_computes`: **so do all blocks**, for every grid.
-/
import Braidinfer.Lib.RowMem
import Braidinfer.Quant.Format
import Mathlib.Tactic.IntervalCases

namespace Braidinfer.Quant

open Braidinfer.Lib

/-! ### The split of a row -/

/-- `blockDim.x` -/
def blockDim : ℕ := 256

/-- `while (tpg * 2 <= raw_tpg) tpg <<= 1` -/
def growTpg (rawTpg : ℕ) : ℕ → ℕ → ℕ
  | 0, tpg => tpg
  | fuel + 1, tpg => if tpg * 2 ≤ rawTpg then growTpg rawTpg fuel (tpg * 2) else tpg

namespace Format

variable {K : Type*} (f : Format K) (inDim : ℕ)

/-- `raw_tpg` -/
def rawTpg : ℕ := min (blockDim / max (f.numGroups inDim) 1) f.maxTpg

/-- `tpg` -/
def tpg : ℕ := growTpg (f.rawTpg inDim) (f.rawTpg inDim) 1

/-- `groups_per_block` -/
def groupsPerBlock : ℕ := blockDim / f.tpg inDim

/-- `elems_per_thread` -/
def elemsPerThread : ℕ := f.groupSize / f.tpg inDim

/-- `bytes_per_thread` -/
def bytesPerThread : ℕ := f.elemsPerThread inDim / 2

/-- What a thread counts of group `g`: the index of the input, and the weight. -/
def groupVisits (rowData : ℕ → UInt8) (lane g : ℕ) : List (ℕ × K) :=
  let gp := f.groupData rowData g
  let byteOff := lane * f.bytesPerThread inDim
  let elemBase := g * f.groupSize + lane * f.elemsPerThread inDim
  let count := min (f.elemsPerThread inDim) (inDim - elemBase)
  ((List.range (f.bytesPerThread inDim)).takeWhile fun b => b * 2 < count).flatMap fun b =>
    let v := f.values gp (byteOff + b)
    if b * 2 + 1 < count then [(elemBase + b * 2, v.1), (elemBase + b * 2 + 1, v.2)]
    else [(elemBase + b * 2, v.1)]

/-- What thread `tid` counts of a row. -/
def visits (rowData : ℕ → UInt8) (tid : ℕ) : List (ℕ × K) :=
  (strided (tid / f.tpg inDim) (f.groupsPerBlock inDim) (f.numGroups inDim)).flatMap fun g =>
    f.groupVisits inDim rowData (tid % f.tpg inDim) g

end Format

/-- `subwave_reduce_dynamic`: `subwave_reduce_sum<W>` exchanges with the masks `W / 2, …, 2, 1`. -/
def subwaveReduceDynamic {K : Type*} [CommRing K] (v : ℕ → K) : ℕ → ℕ → K
  | 16 => xmaskAdd 1 (xmaskAdd 2 (xmaskAdd 4 (xmaskAdd 8 v)))
  | 8 => xmaskAdd 1 (xmaskAdd 2 (xmaskAdd 4 v))
  | 4 => xmaskAdd 1 (xmaskAdd 2 v)
  | 2 => xmaskAdd 1 v
  | _ => v

section Kernels

variable {K : Type*} [CommRing K] (f : Format K) (inDim outDim : ℕ) (input : ℕ → K)

/-- `acc` of a thread after the loop over the groups. -/
def threadAcc (rowData : ℕ → UInt8) (tid : ℕ) : K :=
  ((f.visits inDim rowData tid).map fun v => v.2 * input v.1).sum

/-- The work on a row: shared memory afterwards, and the `total` of thread 0. -/
def rowTotal (rowData : ℕ → UInt8) (shared : ℕ → K) : (ℕ → K) × K :=
  let acc := subwaveReduceDynamic (threadAcc f inDim input rowData) (f.tpg inDim)
  -- lane 0 of each group of threads stores its partial sum
  let stores := ((List.range blockDim).filter fun tid => tid % f.tpg inDim = 0).map fun tid =>
    (tid / f.tpg inDim, acc tid)
  let shared := applyStores shared stores
  (shared, ((List.range (f.groupsPerBlock inDim)).map shared).sum)

/-- The stores of a block to `output`, over its rows. -/
def blockRows (weight : ℕ → UInt8) : (ℕ → K) → List ℕ → List (ℕ × K)
  | _, [] => []
  | shared, row :: rows =>
      let r := rowTotal f inDim input (f.rowData weight inDim row) shared
      (row, r.2) :: blockRows weight r.1 rows

/-- `coop_gemv_pcg32` and `coop_gemv_rnf4`: the stores of all blocks, with what each finds in shared
memory. -/
def coopGemv (weight : ℕ → UInt8) (gridDim : ℕ) (shared : ℕ → ℕ → K) : List (ℕ × K) :=
  (List.range gridDim).flatMap fun block =>
    blockRows f inDim input weight (shared block) (strided block gridDim outDim)

/-- The fused forms: the even blocks take the rows of `gate_weight`, the odd ones those of
`up_weight`.  The result is the stores to `gate_out` and those to `up_out`. -/
def coopGemvFusedGateUp (gateWeight upWeight : ℕ → UInt8) (gridDim : ℕ) (shared : ℕ → ℕ → K) :
    List (ℕ × K) × List (ℕ × K) :=
  let halfGrid := max (gridDim / 2) 1
  let rowsOf (weight : ℕ → UInt8) (block : ℕ) : List (ℕ × K) :=
    blockRows f inDim input weight (shared block) (strided (block / 2) halfGrid outDim)
  (((List.range gridDim).filter (· % 2 = 0)).flatMap (rowsOf gateWeight),
    ((List.range gridDim).filter (· % 2 ≠ 0)).flatMap (rowsOf upWeight))

end Kernels

section Members

variable {K : Type*} [CommRing K] (bf16ToF32 nf4Table : ℕ → K) (inDim outDim : ℕ) (input : ℕ → K)
  (weight gateWeight upWeight : ℕ → UInt8) (gridDim : ℕ) (shared : ℕ → ℕ → K)

/-- `coop_gemv_pcg32` -/
def coopGemvPcg32 : List (ℕ × K) :=
  coopGemv (pcg32 bf16ToF32) inDim outDim input weight gridDim shared

/-- `coop_gemv_rnf4` -/
def coopGemvRnf4 : List (ℕ × K) :=
  coopGemv (rnf4 bf16ToF32 nf4Table) inDim outDim input weight gridDim shared

/-- `coop_gemv_pcg32_fused_gate_up` -/
def coopGemvPcg32FusedGateUp : List (ℕ × K) × List (ℕ × K) :=
  coopGemvFusedGateUp (pcg32 bf16ToF32) inDim outDim input gateWeight upWeight gridDim shared

/-- `coop_gemv_rnf4_fused_gate_up` -/
def coopGemvRnf4FusedGateUp : List (ℕ × K) × List (ℕ × K) :=
  coopGemvFusedGateUp (rnf4 bf16ToF32 nf4Table) inDim outDim input gateWeight upWeight gridDim
    shared

end Members

/-- The stores of a kernel leave `dot row` in each of the first `outDim` outputs, in any order. -/
structure Computes {K : Type*} (outDim : ℕ) (dot : ℕ → K) (stores : List (ℕ × K)) : Prop where
  written : ∀ row < outDim, ∃ s ∈ stores, s.1 = row
  exact : ∀ s ∈ stores, s.1 < outDim ∧ s.2 = dot s.1

/-- The stores to the two outputs of a fused kernel. -/
def ComputesBoth {K : Type*} (outDim : ℕ) (gateDot upDot : ℕ → K)
    (out : List (ℕ × K) × List (ℕ × K)) : Prop :=
  Computes outDim gateDot out.1 ∧ Computes outDim upDot out.2

/-- Each element of a row is counted by one thread, once, with its decoded weight. -/
structure Covers {K : Type*} (f : Format K) (inDim : ℕ) (rowData : ℕ → UInt8) : Prop where
  once : ((List.range blockDim).flatMap fun tid =>
    (f.visits inDim rowData tid).map Prod.fst).Perm (List.range inDim)
  decoded : ∀ tid < blockDim, ∀ v ∈ f.visits inDim rowData tid,
    v.1 < inDim ∧ v.2 = f.decode rowData v.1

/-- What the outputs hold in the end, in whatever order the stores are done. -/
lemma Computes.output {K : Type*} {outDim : ℕ} {dot : ℕ → K} {stores : List (ℕ × K)}
    (h : Computes outDim dot stores) {stores' : List (ℕ × K)} (hp : stores'.Perm stores)
    (out : ℕ → K) {row : ℕ} (hrow : row < outDim) : applyStores out stores' row = dot row := by
  obtain ⟨⟨r, v⟩, hs, rfl⟩ := h.written row hrow
  obtain rfl : v = dot r := (h.exact _ hs).2
  exact applyStores_of_forall (hp.mem_iff.mpr hs) fun s hs' heq => by
    rw [(h.exact s (hp.mem_iff.mp hs')).2, heq]

/-! ### The split -/

lemma growTpg_spec (rawTpg fuel tpg : ℕ) :
    ∃ k, growTpg rawTpg fuel tpg = tpg * 2 ^ k ∧ tpg * 2 ^ k ≤ max tpg rawTpg := by
  induction fuel generalizing tpg with
  | zero => exact ⟨0, by rw [growTpg, pow_zero, Nat.mul_one], by simp⟩
  | succ fuel ih =>
      rw [growTpg]
      split
      · next hle =>
          obtain ⟨k, hk, hbound⟩ := ih (tpg * 2)
          refine ⟨k + 1, ?_, ?_⟩
          · rw [hk, Nat.pow_succ', Nat.mul_assoc]
          · rw [Nat.pow_succ', ← Nat.mul_assoc]
            omega
      · exact ⟨0, by rw [pow_zero, Nat.mul_one], by simp⟩

/-- A format whose groups can be split: `maxTpg` threads have a whole number of bytes each. -/
def Format.Splits {K : Type*} (f : Format K) : Prop :=
  ∃ m ≤ 4, f.maxTpg = 2 ^ m ∧ 2 ^ (m + 1) ∣ f.groupSize

/-- What the sizes of a split have to do with each other. -/
structure Split {K : Type*} (f : Format K) (inDim : ℕ) : Prop where
  pow : ∃ k ≤ 4, f.tpg inDim = 2 ^ k
  block : f.groupsPerBlock inDim * f.tpg inDim = blockDim
  group : f.tpg inDim * f.elemsPerThread inDim = f.groupSize
  bytes : f.elemsPerThread inDim = 2 * f.bytesPerThread inDim

section Split

variable {K : Type*} {f : Format K} {inDim : ℕ}

lemma Format.Splits.split (hf : f.Splits) (inDim : ℕ) : Split f inDim := by
  obtain ⟨m, hm, hmax, hdvd⟩ := hf
  obtain ⟨k, hk, hbound⟩ := growTpg_spec (f.rawTpg inDim) (f.rawTpg inDim) 1
  rw [Nat.one_mul] at hk hbound
  have hraw : f.rawTpg inDim ≤ 2 ^ m := hmax ▸ Nat.min_le_right _ _
  have hkm : k ≤ m := by
    rw [← Nat.pow_le_pow_iff_right Nat.one_lt_two]
    exact hbound.trans (max_le Nat.one_le_two_pow hraw)
  have htpg : f.tpg inDim = 2 ^ k := hk
  have hgroup : 2 ^ (k + 1) ∣ f.groupSize :=
    (Nat.pow_dvd_pow 2 (Nat.succ_le_succ hkm)).trans hdvd
  obtain ⟨n, hn⟩ := hgroup
  have helems : f.elemsPerThread inDim = 2 * n := by
    rw [Format.elemsPerThread, htpg, hn, Nat.pow_succ, Nat.mul_assoc,
      Nat.mul_div_cancel_left _ (Nat.two_pow_pos k)]
  refine ⟨⟨k, hkm.trans hm, htpg⟩, ?_, ?_, ?_⟩
  · refine Nat.div_mul_cancel ?_
    rw [htpg]
    exact Nat.pow_dvd_pow 2 (show k ≤ 8 by omega)
  · rw [htpg, helems, hn, Nat.pow_succ, Nat.mul_assoc]
  · rw [Format.bytesPerThread, helems, Nat.mul_div_cancel_left _ Nat.zero_lt_two]

lemma Split.tpg_pos (hs : Split f inDim) : 0 < f.tpg inDim := by
  obtain ⟨k, -, hk⟩ := hs.pow
  rw [hk]
  exact Nat.two_pow_pos k

lemma Split.groupsPerBlock_pos (hs : Split f inDim) : 0 < f.groupsPerBlock inDim := by
  refine Nat.pos_of_ne_zero fun h => ?_
  have hblock := hs.block
  rw [h, Nat.zero_mul] at hblock
  cases hblock

end Split

lemma pcg32_splits {K : Type*} [CommRing K] (bf16ToF32 : ℕ → K) : (pcg32 bf16ToF32).Splits :=
  ⟨4, le_rfl, rfl, show 2 ^ 5 ∣ 32 from ⟨1, rfl⟩⟩

lemma rnf4_splits {K : Type*} [CommRing K] (bf16ToF32 nf4Table : ℕ → K) :
    (rnf4 bf16ToF32 nf4Table).Splits :=
  ⟨3, by decide, rfl, show 2 ^ 4 ∣ 128 from ⟨8, rfl⟩⟩

/-! ### The elements of a thread -/

section Visits

variable {K : Type*} {f : Format K} {inDim lane g : ℕ} {rowData : ℕ → UInt8}

/-- The pairs that a thread takes of a group: all that start before its end. -/
lemma groupVisits_eq (hs : Split f inDim) :
    f.groupVisits inDim rowData lane g =
      (List.range ((min (f.elemsPerThread inDim)
          (inDim - (g * f.groupSize + lane * f.elemsPerThread inDim)) + 1) / 2)).flatMap fun b =>
        let elemBase := g * f.groupSize + lane * f.elemsPerThread inDim
        let v := f.values (f.groupData rowData g) (lane * f.bytesPerThread inDim + b)
        if b * 2 + 1 < min (f.elemsPerThread inDim) (inDim - elemBase) then
          [(elemBase + b * 2, v.1), (elemBase + b * 2 + 1, v.2)]
        else [(elemBase + b * 2, v.1)] := by
  have hbytes := hs.bytes
  set count := min (f.elemsPerThread inDim)
    (inDim - (g * f.groupSize + lane * f.elemsPerThread inDim)) with hcount
  have hloop : (List.range (f.bytesPerThread inDim)).takeWhile (fun b => b * 2 < count) =
      List.range ((count + 1) / 2) := by
    rw [takeWhile_range (m := (count + 1) / 2), Nat.min_eq_right (by omega)]
    intro b
    rw [decide_eq_true_iff]
    omega
  rw [Format.groupVisits]
  simp only [← hcount, hloop]

/-- What a thread counts of a group are decoded elements of its part of the group. -/
lemma mem_groupVisits (hf : f.Even) (hs : Split f inDim) (hlane : lane < f.tpg inDim) {v : ℕ × K}
    (hv : v ∈ f.groupVisits inDim rowData lane g) :
    v.1 < inDim ∧ v.2 = f.decode rowData v.1 := by
  have hbytes := hs.bytes
  have hgroup := hs.group
  rw [groupVisits_eq hs, List.mem_flatMap] at hv
  obtain ⟨b, hb, hv⟩ := hv
  rw [List.mem_range] at hb
  -- the byte is one of the group
  have hbyte : 2 * (lane * f.bytesPerThread inDim + b) < f.groupSize := by
    have hstep := Nat.mul_le_mul_right (f.elemsPerThread inDim) (Nat.succ_le_of_lt hlane)
    rw [Nat.succ_mul, hgroup, hbytes, Nat.mul_left_comm] at hstep
    omega
  have hbase : g * f.groupSize + 2 * (lane * f.bytesPerThread inDim + b) =
      g * f.groupSize + lane * f.elemsPerThread inDim + b * 2 := by
    rw [hbytes, Nat.mul_left_comm]
    omega
  obtain ⟨hlow, hhigh⟩ := Format.decode_pair hf rowData (g := g) hbyte
  rw [hbase] at hlow hhigh
  simp only at hv
  split at hv
  · rcases List.mem_cons.mp hv with rfl | hv
    · exact ⟨by omega, hlow.symm⟩
    · obtain rfl := List.mem_singleton.mp hv
      exact ⟨by omega, hhigh.symm⟩
  · obtain rfl := List.mem_singleton.mp hv
    exact ⟨by omega, hlow.symm⟩

variable {M : Type*} [AddCommMonoid M]

/-- What a thread counts of a group is its part of it, as far as the row goes. -/
lemma sum_groupVisits (hs : Split f inDim) (F : ℕ → M) :
    ((f.groupVisits inDim rowData lane g).map fun v => F v.1).sum =
      ∑ k ∈ Finset.range (f.elemsPerThread inDim),
        if g * f.groupSize + (lane * f.elemsPerThread inDim + k) < inDim then
          F (g * f.groupSize + (lane * f.elemsPerThread inDim + k)) else 0 := by
  set elemBase := g * f.groupSize + lane * f.elemsPerThread inDim with hbase
  set count := min (f.elemsPerThread inDim) (inDim - elemBase) with hcount
  calc ((f.groupVisits inDim rowData lane g).map fun v => F v.1).sum
      = ∑ b ∈ Finset.range ((count + 1) / 2),
          (F (elemBase + b * 2) +
            if b * 2 + 1 < count then F (elemBase + (b * 2 + 1)) else 0) := by
        rw [groupVisits_eq hs, sum_map_flatMap, sum_map_range]
        refine Finset.sum_congr rfl fun b _ => ?_
        simp only [← hbase, ← hcount]
        split <;> simp [Nat.add_assoc]
    _ = ∑ k ∈ Finset.range count, F (elemBase + k) := sum_pairs (fun k => F (elemBase + k)) count
    _ = ∑ k ∈ Finset.range (f.elemsPerThread inDim),
          if k < count then F (elemBase + k) else 0 :=
        (sum_range_of_le (Nat.min_le_left _ _) fun k => F (elemBase + k)).symm
    _ = _ := by
        refine Finset.sum_congr rfl fun k hk => ?_
        have hk' := Finset.mem_range.mp hk
        rw [← Nat.add_assoc, ← hbase]
        exact if_congr (by omega) rfl rfl

/-- **The threads of a block cover a row once**: the lanes of a group cover it, and the groups of
threads cover the groups of the row. -/
theorem sum_visits (hf : f.Even) (hs : Split f inDim) (rowData : ℕ → UInt8) (F : ℕ → M) :
    ∑ q ∈ Finset.range (f.groupsPerBlock inDim), ∑ l ∈ Finset.range (f.tpg inDim),
        ((f.visits inDim rowData (q * f.tpg inDim + l)).map fun v => F v.1).sum =
      ∑ e ∈ Finset.range inDim, F e := by
  set F' : ℕ → M := fun e => if e < inDim then F e else 0 with hF'
  have hlane : ∀ q, ∀ l ∈ Finset.range (f.tpg inDim),
      ((f.visits inDim rowData (q * f.tpg inDim + l)).map fun v => F v.1).sum =
        ((strided q (f.groupsPerBlock inDim) (f.numGroups inDim)).map fun g =>
          ∑ k ∈ Finset.range (f.elemsPerThread inDim),
            F' (g * f.groupSize + (l * f.elemsPerThread inDim + k))).sum := fun q l hl => by
    have hl' := Finset.mem_range.mp hl
    rw [Format.visits, rowMajor_div hl', rowMajor_mod hl', sum_map_flatMap]
    exact congrArg List.sum (List.map_congr_left fun g _ => sum_groupVisits hs F)
  have hgroup : ∀ g, ∑ l ∈ Finset.range (f.tpg inDim),
      ∑ k ∈ Finset.range (f.elemsPerThread inDim),
        F' (g * f.groupSize + (l * f.elemsPerThread inDim + k)) =
      ∑ j ∈ Finset.range f.groupSize, F' (g * f.groupSize + j) := fun g => by
    rw [← hs.group, sum_range_mul]
  calc ∑ q ∈ Finset.range (f.groupsPerBlock inDim), ∑ l ∈ Finset.range (f.tpg inDim),
        ((f.visits inDim rowData (q * f.tpg inDim + l)).map fun v => F v.1).sum
      = ∑ q ∈ Finset.range (f.groupsPerBlock inDim), ∑ l ∈ Finset.range (f.tpg inDim),
          ((strided q (f.groupsPerBlock inDim) (f.numGroups inDim)).map fun g =>
            ∑ k ∈ Finset.range (f.elemsPerThread inDim),
              F' (g * f.groupSize + (l * f.elemsPerThread inDim + k))).sum :=
        Finset.sum_congr rfl fun q _ => Finset.sum_congr rfl fun l hl => hlane q l hl
    _ = ∑ q ∈ Finset.range (f.groupsPerBlock inDim),
          ((strided q (f.groupsPerBlock inDim) (f.numGroups inDim)).map fun g =>
            ∑ j ∈ Finset.range f.groupSize, F' (g * f.groupSize + j)).sum := by
        refine Finset.sum_congr rfl fun q _ => ?_
        rw [← sum_map_sum]
        exact congrArg List.sum (List.map_congr_left fun g _ => hgroup g)
    _ = ∑ g ∈ Finset.range (f.numGroups inDim),
          ∑ j ∈ Finset.range f.groupSize, F' (g * f.groupSize + j) :=
        sum_strided hs.groupsPerBlock_pos _
    _ = ∑ e ∈ Finset.range (f.numGroups inDim * f.groupSize), F' e := (sum_range_mul _ _).symm
    _ = ∑ e ∈ Finset.range inDim, F e := sum_range_of_le (Format.le_numGroups_mul hf inDim) F

/-- **Each element is counted by one thread, once**, with its decoded weight. -/
theorem covers (hf : f.Even) (hs : Split f inDim) (rowData : ℕ → UInt8) :
    Covers f inDim rowData := by
  refine ⟨?_, fun tid _ v hv => ?_⟩
  · -- the sum of the singletons is the list itself
    have hsum := sum_visits hf hs rowData fun e => ({e} : Multiset ℕ)
    rw [← sum_range_mul (f := fun tid =>
      ((f.visits inDim rowData tid).map fun v => ({v.1} : Multiset ℕ)).sum), hs.block] at hsum
    have hsingle : ∀ l : List ℕ, (l.map fun e => ({e} : Multiset ℕ)).sum = l := fun l =>
      Multiset.sum_map_singleton (l : Multiset ℕ)
    rw [← Multiset.coe_eq_coe, ← hsingle, ← hsingle (List.range inDim), sum_map_flatMap]
    simp only [List.map_map]
    exact hsum
  · obtain ⟨g, -, hv⟩ := List.mem_flatMap.mp hv
    exact mem_groupVisits hf hs (Nat.mod_lt _ hs.tpg_pos) hv

/-- What lane 0 of each group of threads stores. -/
lemma shared_apply (hs : Split f inDim) (acc shared : ℕ → K) {q : ℕ}
    (hq : q < f.groupsPerBlock inDim) :
    applyStores shared (((List.range blockDim).filter fun tid => tid % f.tpg inDim = 0).map
      fun tid => (tid / f.tpg inDim, acc tid)) q = acc (f.tpg inDim * q) := by
  have hpos := hs.tpg_pos
  refine applyStores_of_mem ?_ (List.mem_map.mpr ⟨f.tpg inDim * q, ?_, ?_⟩)
  · rw [List.map_map]
    refine List.Nodup.map_on (fun a ha b hb heq => ?_) (List.nodup_range.filter _)
    simp only [List.mem_filter, decide_eq_true_iff] at ha hb
    rw [← Nat.div_add_mod a (f.tpg inDim), ← Nat.div_add_mod b (f.tpg inDim), ha.2, hb.2]
    exact congrArg (f.tpg inDim * · + 0) heq
  · have hlt : f.tpg inDim * q < blockDim := by
      rw [← hs.block, Nat.mul_comm]
      exact Nat.mul_lt_mul_of_pos_right hq hpos
    simp only [List.mem_filter, List.mem_range, decide_eq_true_iff]
    exact ⟨hlt, Nat.mul_mod_right _ _⟩
  · simp only [Nat.mul_div_cancel_left _ hpos]

end Visits

/-! ### A row -/

section Rows

variable {K : Type*} [CommRing K] {f : Format K} {inDim outDim : ℕ} {input : ℕ → K}
  {rowData weight : ℕ → UInt8}

/-- Lane 0 of a group of threads has their sum. -/
lemma subwaveReduceDynamic_mul {k : ℕ} (hk : k ≤ 4) (v : ℕ → K) (q : ℕ) :
    subwaveReduceDynamic v (2 ^ k) (2 ^ k * q) =
      ∑ l ∈ Finset.range (2 ^ k), v (2 ^ k * q + l) := by
  rw [← butterfly_mul]
  interval_cases k <;> rfl

/-- What a thread sums up, with decoded weights. -/
lemma threadAcc_eq (hf : f.Even) (hs : Split f inDim) (tid : ℕ) :
    threadAcc f inDim input rowData tid =
      ((f.visits inDim rowData tid).map fun v => f.decode rowData v.1 * input v.1).sum := by
  refine congrArg List.sum (List.map_congr_left fun v hv => ?_)
  obtain ⟨g, -, hv⟩ := List.mem_flatMap.mp hv
  rw [(mem_groupVisits hf hs (Nat.mod_lt _ hs.tpg_pos) hv).2]

/-- **Thread 0 writes the product of the row**, whatever shared memory held before. -/
theorem rowTotal_eq (hf : f.Even) (hs : Split f inDim) (shared : ℕ → K) :
    (rowTotal f inDim input rowData shared).2 =
      ∑ e ∈ Finset.range inDim, f.decode rowData e * input e := by
  obtain ⟨k, hk, htpg⟩ := hs.pow
  calc (rowTotal f inDim input rowData shared).2
      = ∑ q ∈ Finset.range (f.groupsPerBlock inDim),
          subwaveReduceDynamic (threadAcc f inDim input rowData) (f.tpg inDim)
            (f.tpg inDim * q) :=
        Finset.sum_congr rfl fun q hq => shared_apply hs _ _ (Finset.mem_range.mp hq)
    _ = ∑ q ∈ Finset.range (f.groupsPerBlock inDim), ∑ l ∈ Finset.range (f.tpg inDim),
          threadAcc f inDim input rowData (q * f.tpg inDim + l) := by
        refine Finset.sum_congr rfl fun q _ => ?_
        rw [htpg, subwaveReduceDynamic_mul hk, Nat.mul_comm]
    _ = ∑ e ∈ Finset.range inDim, f.decode rowData e * input e := by
        rw [← sum_visits hf hs rowData fun e => f.decode rowData e * input e]
        exact Finset.sum_congr rfl fun q _ => Finset.sum_congr rfl fun l _ =>
          threadAcc_eq hf hs _

/-- A block writes the product to each of its rows. -/
lemma blockRows_eq (hf : f.Even) (hs : Split f inDim) (shared : ℕ → K) (rows : List ℕ) :
    blockRows f inDim input weight shared rows =
      rows.map fun row => (row, f.product weight input inDim row) := by
  induction rows generalizing shared with
  | nil => rfl
  | cons row rows ih => rw [blockRows, rowTotal_eq hf hs, ih, List.map_cons, Format.product]

/-! ### The grid -/

/-- Blocks that between them have all rows compute the product. -/
lemma computes_of_rows (hf : f.Even) (hs : Split f inDim) {blocks : List ℕ} (start : ℕ → ℕ)
    {stride : ℕ} {shared : ℕ → ℕ → K}
    (hall : ∀ row < outDim, ∃ block ∈ blocks, row ∈ strided (start block) stride outDim) :
    Computes outDim (f.product weight input inDim) (blocks.flatMap fun block =>
      blockRows f inDim input weight (shared block) (strided (start block) stride outDim)) := by
  constructor
  · intro row hrow
    obtain ⟨block, hblock, hmem⟩ := hall row hrow
    refine ⟨(row, f.product weight input inDim row), List.mem_flatMap.mpr ⟨block, hblock, ?_⟩, rfl⟩
    rw [blockRows_eq hf hs]
    exact List.mem_map_of_mem hmem
  · intro s hs'
    obtain ⟨block, -, hmem⟩ := List.mem_flatMap.mp hs'
    rw [blockRows_eq hf hs] at hmem
    obtain ⟨row, hrow, rfl⟩ := List.mem_map.mp hmem
    exact ⟨(mem_strided.mp hrow).1, rfl⟩

/-- **A GEMV computes the product**, for every grid. -/
lemma coopGemv_computes (hf : f.Even) (hs : Split f inDim) {gridDim : ℕ} (hgrid : 1 ≤ gridDim)
    (shared : ℕ → ℕ → K) :
    Computes outDim (f.product weight input inDim)
      (coopGemv f inDim outDim input weight gridDim shared) := by
  refine computes_of_rows hf hs id fun row hrow => ?_
  have hlt : row % gridDim < gridDim := Nat.mod_lt _ hgrid
  exact ⟨row % gridDim, List.mem_range.mpr hlt, (mem_strided_of_lt hlt).mpr ⟨hrow, rfl⟩⟩

/-- **A fused GEMV computes both products**, for every grid of two or more blocks. -/
lemma coopGemvFused_computes (hf : f.Even) (hs : Split f inDim) {gridDim : ℕ}
    (hgrid : 2 ≤ gridDim) (gateWeight upWeight : ℕ → UInt8) (shared : ℕ → ℕ → K) :
    ComputesBoth outDim (f.product gateWeight input inDim) (f.product upWeight input inDim)
      (coopGemvFusedGateUp f inDim outDim input gateWeight upWeight gridDim shared) := by
  have hhalf : max (gridDim / 2) 1 = gridDim / 2 := by omega
  -- the blocks `2 * r` and `2 * r + 1` have the rows with remainder `r`
  have hlt : ∀ row, row % max (gridDim / 2) 1 < max (gridDim / 2) 1 := fun row =>
    Nat.mod_lt _ (by omega)
  constructor
  · refine computes_of_rows hf hs (· / 2) fun row hrow => ?_
    have := hlt row
    refine ⟨2 * (row % max (gridDim / 2) 1), ?_, (mem_strided_of_lt (by omega)).mpr ⟨hrow, ?_⟩⟩
    · simp only [List.mem_filter, List.mem_range, decide_eq_true_iff]
      omega
    · omega
  · refine computes_of_rows hf hs (· / 2) fun row hrow => ?_
    have := hlt row
    refine ⟨2 * (row % max (gridDim / 2) 1) + 1, ?_,
      (mem_strided_of_lt (by omega)).mpr ⟨hrow, ?_⟩⟩
    · simp only [List.mem_filter, List.mem_range, decide_eq_true_iff]
      omega
    · omega

end Rows

/-- **The expert GEMVs compute the matrix-vector product**, over any exact arithmetic: for every
grid each row gets the sum over its elements, each counted once; the fused forms do so for both
matrices. -/
theorem expertGemv_computes {K : Type*} [CommRing K] (bf16ToF32 nf4Table : ℕ → K)
    (inDim outDim : ℕ) (input : ℕ → K) (weight gateWeight upWeight : ℕ → UInt8) (gridDim : ℕ)
    (hgrid : 1 ≤ gridDim) (shared : ℕ → ℕ → K) :
    (Computes outDim ((pcg32 bf16ToF32).product weight input inDim)
        (coopGemvPcg32 bf16ToF32 inDim outDim input weight gridDim shared) ∧
      Computes outDim ((rnf4 bf16ToF32 nf4Table).product weight input inDim)
        (coopGemvRnf4 bf16ToF32 nf4Table inDim outDim input weight gridDim shared)) ∧
    (2 ≤ gridDim →
      ComputesBoth outDim ((pcg32 bf16ToF32).product gateWeight input inDim)
          ((pcg32 bf16ToF32).product upWeight input inDim)
          (coopGemvPcg32FusedGateUp bf16ToF32 inDim outDim input gateWeight upWeight gridDim
            shared) ∧
        ComputesBoth outDim ((rnf4 bf16ToF32 nf4Table).product gateWeight input inDim)
          ((rnf4 bf16ToF32 nf4Table).product upWeight input inDim)
          (coopGemvRnf4FusedGateUp bf16ToF32 nf4Table inDim outDim input gateWeight upWeight
            gridDim shared)) ∧
    ∀ rowData, Covers (pcg32 bf16ToF32) inDim rowData ∧
      Covers (rnf4 bf16ToF32 nf4Table) inDim rowData := by
  have hpcg := (pcg32_splits bf16ToF32).split inDim
  have hrnf := (rnf4_splits bf16ToF32 nf4Table).split inDim
  exact ⟨⟨coopGemv_computes pcg32_even hpcg hgrid shared,
      coopGemv_computes rnf4_even hrnf hgrid shared⟩,
    fun htwo => ⟨coopGemvFused_computes pcg32_even hpcg htwo gateWeight upWeight shared,
      coopGemvFused_computes rnf4_even hrnf htwo gateWeight upWeight shared⟩,
    fun rowData => ⟨covers pcg32_even hpcg rowData, covers rnf4_even hrnf rowData⟩⟩

/-- Three blocks, a row of 33 elements: the two even blocks both have every gate row. -/
theorem expertGemv_computes_threeBlocks :
    1 ≤ 3 ∧ ComputesBoth 2 ((pcg32 fun x => (x : ℤ)).product (fun _ => 1) (fun _ => 1) 33)
      ((pcg32 fun x => (x : ℤ)).product (fun _ => 2) (fun _ => 1) 33)
      (coopGemvPcg32FusedGateUp (fun x => (x : ℤ)) 33 2 (fun _ => 1) (fun _ => 1) (fun _ => 2) 3
        fun _ _ => 0) :=
  ⟨by decide, ((expertGemv_computes (fun x => (x : ℤ)) (fun x => (x : ℤ)) 33 2 (fun _ => 1)
    (fun _ => 0) (fun _ => 1) (fun _ => 2) 3 (by decide) fun _ _ => 0).2.1 (by decide)).1⟩

end Braidinfer.Quant
