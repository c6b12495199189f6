/-
The full linear projections for one token, and when the quantized projections compute the product.

A block stages the input in tiles.  The rows of the block are taken eight at a time, one by each
wave; what is counted of a tile is added to the sums of the rows in shared memory.  The pairs of
`Rnf4G128` stop at the end of the row; the groups of `PcG32Q4` are counted as a whole, so that a
partial group reads words of the tile that this tile did not stage.

* `sweep_rnf4TileVisits`, `sweep_pcg32TileVisits`: what the lanes of a wave count of a tile;
* `rowChunk_spec`, `tileStep_spec`: what a step adds, and which words it needs;
* `tiledGrid_spec`: **the sums of a full kernel for one token**;
* `linearProj_iff`: **when all paths leave the product**, for every input.
-/
import Braidinfer.Quant.LinearProj
import Braidinfer.Quant.Quantizer
import Mathlib.Tactic.Ring

namespace Braidinfer.Quant

open Braidinfer.Lib

/-! ### Words -/

/-- A byte of a word. -/
lemma byte_u32At (p : ℕ → UInt8) (off : ℕ) {bi : ℕ} (hbi : bi < 4) :
    UInt8.ofNat ((u32At p off >>> (8 * bi)) &&& 0xFF) = p (off + bi) := by
  have hand : ∀ x : ℕ, x &&& 0xFF = x % 256 := fun x => Nat.and_two_pow_sub_one_eq_mod x 8
  have h0 := (p off).toNat_lt
  have h1 := (p (off + 1)).toNat_lt
  have h2 := (p (off + 2)).toNat_lt
  have h3 := (p (off + 3)).toNat_lt
  have hword : u32At p off = (p off).toNat + 256 * (p (off + 1)).toNat +
      2 ^ 16 * ((p (off + 2)).toNat + 256 * (p (off + 3)).toNat) := rfl
  rw [hand, Nat.shiftRight_eq_div_pow, hword, ← UInt8.toNat_inj, UInt8.toNat_ofNat']
  interval_cases bi
  · simp only [Nat.add_zero]
    omega
  · omega
  · omega
  · omega

/-- The two halves of a word. -/
lemma halves_u32At (p : ℕ → UInt8) (off : ℕ) :
    u32At p off &&& 0xFFFF = u16At p off ∧ u32At p off >>> 16 = u16At p (off + 2) := by
  have hand : u32At p off &&& 0xFFFF = u32At p off % 65536 :=
    Nat.and_two_pow_sub_one_eq_mod _ 16
  have hlt : ∀ off, u16At p off < 65536 := fun off => by
    have h0 := (p off).toNat_lt
    have h1 := (p (off + 1)).toNat_lt
    rw [u16At]
    omega
  have hlow := hlt off
  rw [hand, Nat.shiftRight_eq_div_pow, u32At]
  omega

section Words

variable {K : Type*} [CommRing K] {bf16ToF32 : ℕ → K} {gp rowData : ℕ → UInt8} {base g : ℕ}

/-- A group by words has the elements of its bytes. -/
lemma wordVisits_eq : wordVisits bf16ToF32 gp base =
    (List.range 16).flatMap fun b =>
      let v := (pcg32 bf16ToF32).values gp b
      [(base + b * 2, v.1), (base + b * 2 + 1, v.2)] := by
  obtain ⟨hmn, hsc⟩ := halves_u32At gp 16
  have hrange : List.range 16 =
      (List.range 4).flatMap fun wi => (List.range 4).map fun bi => wi * 4 + bi := rfl
  rw [wordVisits, hrange, List.flatMap_assoc]
  refine List.flatMap_congr fun wi _ => ?_
  rw [List.flatMap_map]
  refine List.flatMap_congr fun bi hbi => ?_
  have hbyte := byte_u32At gp (4 * wi) (List.mem_range.mp hbi)
  simp only [hmn, hsc, hbyte]
  rw [Nat.mul_comm 4 wi]
  rfl

lemma map_fst_wordVisits :
    (wordVisits bf16ToF32 gp base).map Prod.fst = List.range' base 32 := by
  have h := congrArg (List.map (base + ·)) (flatMap_range' 2 0 16)
  rw [Nat.zero_mul, List.map_add_range', Nat.add_zero, List.map_flatMap] at h
  rw [wordVisits_eq, List.map_flatMap, ← h, ← List.range_eq_range']
  refine List.flatMap_congr fun b _ => ?_
  simp [List.range'_succ, Nat.add_assoc]

lemma decoded_wordVisits {v : ℕ × K}
    (hv : v ∈ wordVisits bf16ToF32 ((pcg32 bf16ToF32).groupData rowData g) (g * 32)) :
    v.2 = (pcg32 bf16ToF32).decode rowData v.1 := by
  rw [wordVisits_eq, List.mem_flatMap] at hv
  obtain ⟨b, hb, hv⟩ := hv
  have hlt := List.mem_range.mp hb
  obtain ⟨hlow, hhigh⟩ := Format.decode_pair (f := pcg32 bf16ToF32) pcg32_even rowData (g := g)
    (b := b) (show 2 * b < 32 by omega)
  rw [Nat.mul_comm b 2] at hv
  rcases List.mem_cons.mp hv with rfl | hv
  · exact hlow.symm
  · obtain rfl := List.mem_singleton.mp hv
    exact hhigh.symm

end Words

/-! ### Tiles -/

/-- The elements below `E` that belong to tile `t`. -/
def tileElems (E t : ℕ) : List ℕ :=
  List.range' (t * lprojTileFloats) (min lprojTileFloats (E - t * lprojTileFloats))

/-- The lanes of a wave count the elements below `E`, tile by tile. -/
structure Tiling {K : Type*} (f : Format K) (inDim E : ℕ)
    (laneVisits : (ℕ → UInt8) → ℕ → ℕ → ℕ → List (ℕ × K)) : Prop where
  size : f.groupsPerTile * f.groupSize = lprojTileFloats
  le : E ≤ f.numGroups inDim * f.groupSize
  sweep : ∀ rowData t, Sweep f rowData 32
    (laneVisits rowData (t * f.groupsPerTile)
      (min (t * f.groupsPerTile + f.groupsPerTile) (f.numGroups inDim))) (tileElems E t)

section Tilings

variable {K : Type*} [CommRing K] {bf16ToF32 nf4Table : ℕ → K} {inDim : ℕ}

lemma mem_tileElems {E t e : ℕ} : e ∈ tileElems E t ↔
    t * lprojTileFloats ≤ e ∧ e < (t + 1) * lprojTileFloats ∧ e < E := by
  rw [tileElems, List.mem_range'_1, Nat.succ_mul]
  omega

/-- **The tiles of `Rnf4G128`**: whole pairs of the row. -/
theorem tiling_rnf4 : Tiling (rnf4 bf16ToF32 nf4Table) inDim (inDim / 2 * 2)
    (fun rowData => rnf4TileVisits (rnf4 bf16ToF32 nf4Table) rowData inDim) := by
  have hrow := Format.le_numGroups_mul (f := rnf4 bf16ToF32 nf4Table) rnf4_even inDim
  refine ⟨show 7680 / 128 * 128 = 7680 from rfl, by omega, fun rowData t => ?_⟩
  have hsize : (rnf4 bf16ToF32 nf4Table).groupSize = 128 := rfl
  have hgpt : (rnf4 bf16ToF32 nf4Table).groupsPerTile = 60 := show 7680 / 128 = 60 from rfl
  have h := sweep_pairs (f := rnf4 bf16ToF32 nf4Table) rowData rnf4_even (show 0 < 32 by decide)
    (t * 60 * 128 / 2)
    (min (min (t * 60 + 60) ((rnf4 bf16ToF32 nf4Table).numGroups inDim) * 128 / 2) (inDim / 2))
  have helems : List.range' (t * 60 * 128 / 2 * 2)
      ((min (min (t * 60 + 60) ((rnf4 bf16ToF32 nf4Table).numGroups inDim) * 128 / 2) (inDim / 2) -
        t * 60 * 128 / 2) * 2) = tileElems (inDim / 2 * 2) t := by
    rw [hsize] at hrow
    rw [tileElems, lprojTileFloats]
    congr 1
    · omega
    · omega
  rw [helems] at h
  rw [hgpt]
  exact h

/-- **The tiles of `PcG32Q4`**: whole groups. -/
theorem tiling_pcg32 : Tiling (pcg32 bf16ToF32) inDim ((pcg32 bf16ToF32).numGroups inDim * 32)
    (pcg32TileVisits bf16ToF32) := by
  refine ⟨show 7680 / 32 * 32 = 7680 from rfl, le_rfl, fun rowData t => ?_⟩
  have hgpt : (pcg32 bf16ToF32).groupsPerTile = 240 := show 7680 / 32 = 240 from rfl
  have hunit : ∀ g, ((wordVisits bf16ToF32 ((pcg32 bf16ToF32).groupData rowData g)
      (g * 32)).map Prod.fst).Perm (List.range' (g * 32) 32) := fun g =>
    List.Perm.of_eq map_fst_wordVisits
  have h := Sweep.of_units (show 0 < 32 by decide) (t * 240)
    (min (t * 240 + 240) ((pcg32 bf16ToF32).numGroups inDim)) hunit
    fun g v hv => decoded_wordVisits hv
  have helems : List.range' (t * 240 * 32)
      ((min (t * 240 + 240) ((pcg32 bf16ToF32).numGroups inDim) - t * 240) * 32) =
        tileElems ((pcg32 bf16ToF32).numGroups inDim * 32) t := by
    rw [tileElems, lprojTileFloats]
    congr 1
    · omega
    · omega
  rw [flatMap_range', helems] at h
  rw [hgpt]
  exact h

end Tilings

/-! ### A chunk of rows -/

section Chunks

variable {K : Type*} [CommRing K] {f : Format K} {i : LinearProjInst K}
  {E t gridDim blockIdx numRows rc : ℕ}
  {laneVisits : (ℕ → UInt8) → ℕ → ℕ → ℕ → List (ℕ × K)} {m m' m'' : Lds K}

/-- What the words of the tile add to the sum of a row. -/
def tileSum (f : Format K) (i : LinearProjInst K) (E t : ℕ) (word : ℕ → K) (row : ℕ) : K :=
  rowSum f i (tileElems E t) (fun e => word (e - t * lprojTileFloats)) row

/-- The words of the tile that are counted have been stored. -/
def TileWritten (E t : ℕ) (m : Lds K) : Prop :=
  ∀ e ∈ tileElems E t, m.written .tile (e - t * lprojTileFloats) = true

/-- From `m` to `m'`, `S` was added to the rows of `rows`, which needs `need`. -/
structure AddsRows (numRows : ℕ) (S : ℕ → K) (need : Prop) (rows : ℕ → Prop) (m m' : Lds K) :
    Prop where
  tile : m'.word .tile = m.word .tile
  tileWritten : m'.written .tile = m.written .tile
  added : ∀ ri < numRows, rows ri → m'.word .rows ri = m.word .rows ri + S ri
  kept : ∀ ri < numRows, ¬ rows ri → m'.word .rows ri = m.word .rows ri
  written : ∀ ri, m.written .rows ri = true → m'.written .rows ri = true
  ok : (∀ ri < numRows, m.written .rows ri = true) →
    (m'.ok = true ↔ m.ok = true ∧ ∀ ri < numRows, rows ri → need ∧ ri < lprojMaxRows)

/-- Adding to other rows afterwards. -/
lemma AddsRows.trans {S : ℕ → K} {need : Prop} {rows rows' : ℕ → Prop}
    (h : AddsRows numRows S need rows m m') (h' : AddsRows numRows S need rows' m' m'')
    (hdisj : ∀ ri, rows ri → ¬ rows' ri) :
    AddsRows numRows S need (fun ri => rows ri ∨ rows' ri) m m'' := by
  refine ⟨h'.tile.trans h.tile, h'.tileWritten.trans h.tileWritten, ?_, ?_, ?_, ?_⟩
  · rintro ri hri (hrow | hrow)
    · rw [h'.kept ri hri (hdisj ri hrow), h.added ri hri hrow]
    · rw [h'.added ri hri hrow, h.kept ri hri fun hr => hdisj ri hr hrow]
  · rintro ri hri hrow
    rw [not_or] at hrow
    rw [h'.kept ri hri hrow.2, h.kept ri hri hrow.1]
  · exact fun ri hri => h'.written ri (h.written ri hri)
  · intro hw
    rw [h'.ok fun ri hri => h.written ri (hw ri hri), h.ok hw, and_assoc]
    refine and_congr_right fun _ => ⟨fun hboth ri hri hrow => ?_, fun hall => ⟨?_, ?_⟩⟩
    · exact hrow.elim (hboth.1 ri hri) (hboth.2 ri hri)
    · exact fun ri hri hrow => hall ri hri (.inl hrow)
    · exact fun ri hri hrow => hall ri hri (.inr hrow)

lemma mem_chunkRows (hrc : rc % 8 = 0) {ri : ℕ} :
    ri ∈ chunkRows numRows rc ↔ ri < numRows ∧ ri / 8 * 8 = rc := by
  simp only [chunkRows, List.mem_filter, List.mem_map, List.mem_range, decide_eq_true_iff]
  constructor
  · rintro ⟨⟨w, hw, rfl⟩, hlt⟩
    exact ⟨hlt, by omega⟩
  · rintro ⟨hlt, hri⟩
    exact ⟨⟨ri - rc, by omega, by omega⟩, hlt⟩

omit [CommRing K] in
/-- A thread counts for the row of its wave. -/
lemma chunkVisits_wave {g0 g1 w lane : ℕ} (hlane : lane < 32) (hlt : rc + w < numRows) :
    chunkVisits f i laneVisits gridDim blockIdx g0 g1 numRows rc (32 * w + lane) =
      laneVisits (f.rowData i.weight i.inDim (blockIdx + (rc + w) * gridDim)) g0 g1 lane := by
  have hdiv : (32 * w + lane) / 32 = w := by omega
  have hmod : (32 * w + lane) % 32 = lane := by omega
  simp only [chunkVisits, hdiv, hmod]
  rw [if_pos hlt]

section Tiling

variable (ht : Tiling f i.inDim E laneVisits)
include ht

omit [CommRing K] in
/-- The words that a chunk loads: those of the elements of the tile, if it has a row. -/
lemma chunk_loads (hrc : rc % 8 = 0) (p : ℕ → Prop) :
    (∀ off ∈ (List.range blockDim).flatMap (fun tid =>
      (chunkVisits f i laneVisits gridDim blockIdx (t * f.groupsPerTile)
        (min (t * f.groupsPerTile + f.groupsPerTile) (f.numGroups i.inDim)) numRows rc tid).map
          fun v => v.1 - t * lprojTileFloats), p off) ↔
      ∀ ri < numRows, ri / 8 * 8 = rc → ∀ e ∈ tileElems E t, p (e - t * lprojTileFloats) := by
  constructor
  · intro hall ri hri hchunk e he
    have hsweep := ht.sweep (f.rowData i.weight i.inDim (blockIdx + ri * gridDim)) t
    obtain ⟨lane, hlane, he⟩ := List.mem_flatMap.mp (hsweep.once.mem_iff.mpr he)
    obtain ⟨v, hv, rfl⟩ := List.mem_map.mp he
    have hlane := List.mem_range.mp hlane
    have hrow : rc + (ri - rc) = ri := by omega
    refine hall _ (List.mem_flatMap.mpr ⟨32 * (ri - rc) + lane, ?_, List.mem_map.mpr ⟨v, ?_, rfl⟩⟩)
    · rw [List.mem_range, blockDim]
      omega
    · rw [chunkVisits_wave hlane (by omega), hrow]
      exact hv
  · intro hall off hoff
    obtain ⟨tid, htid, hoff⟩ := List.mem_flatMap.mp hoff
    obtain ⟨v, hv, rfl⟩ := List.mem_map.mp hoff
    have htid := List.mem_range.mp htid
    rw [blockDim] at htid
    by_cases hlt : rc + tid / 32 < numRows
    · have hsplit : tid = 32 * (tid / 32) + tid % 32 := by omega
      have hmod := Nat.mod_lt tid (show 0 < 32 by decide)
      rw [hsplit, chunkVisits_wave hmod hlt] at hv
      refine hall (rc + tid / 32) hlt (by omega) v.1 ?_
      exact (ht.sweep _ t).once.mem_iff.mp (List.mem_flatMap.mpr
        ⟨tid % 32, List.mem_range.mpr hmod, List.mem_map.mpr ⟨v, hv, rfl⟩⟩)
    · rw [chunkVisits, if_neg hlt] at hv
      cases hv

/-- What lane 0 of a wave has for its row. -/
lemma chunk_acc (word : ℕ → K) {ri : ℕ} (hrc : rc ≤ ri) (hri : ri < numRows) :
    wave32ReduceSum (fun tid => dot (chunkVisits f i laneVisits gridDim blockIdx
      (t * f.groupsPerTile) (min (t * f.groupsPerTile + f.groupsPerTile) (f.numGroups i.inDim))
        numRows rc tid) fun e => word (e - t * lprojTileFloats)) (32 * (ri - rc)) =
      tileSum f i E t word (blockIdx + ri * gridDim) := by
  rw [wave32ReduceSum_mul, tileSum, rowSum, ← (ht.sweep _ t).sum]
  refine Finset.sum_congr rfl fun lane hlane => ?_
  have hrow : rc + (ri - rc) = ri := by omega
  rw [chunkVisits_wave (Finset.mem_range.mp hlane) (by omega), hrow]

/-- **A chunk of rows** adds what the tile has for its rows. -/
theorem rowChunk_spec (hrc : rc % 8 = 0) (m : Lds K) :
    AddsRows numRows (fun ri => tileSum f i E t (m.word .tile) (blockIdx + ri * gridDim))
      (TileWritten E t m) (fun ri => ri / 8 * 8 = rc) m
      (rowChunk f i laneVisits gridDim blockIdx (t * f.groupsPerTile)
        (min (t * f.groupsPerTile + f.groupsPerTile) (f.numGroups i.inDim)) numRows m rc) := by
  have hstart : t * f.groupsPerTile * f.groupSize = t * lprojTileFloats := by
    rw [Nat.mul_assoc, ht.size]
  rw [rowChunk, hstart]
  have hword := fun ri => applyStores_map (m := m.word .rows) (chunkRows numRows rc) (fun ri =>
    m.word .rows ri + wave32ReduceSum (fun tid => dot (chunkVisits f i laneVisits gridDim blockIdx
      (t * f.groupsPerTile) (min (t * f.groupsPerTile + f.groupsPerTile) (f.numGroups i.inDim))
        numRows rc tid) fun e => m.word .tile (e - t * lprojTileFloats)) (32 * (ri - rc))) ri
  refine ⟨Scratch.word_store_of_ne (by decide), Scratch.written_store_of_ne (by decide),
    fun ri hri hchunk => ?_, fun ri hri hchunk => ?_, fun ri hri => ?_, fun hw => ?_⟩
  · rw [Scratch.word_store]
    refine (hword ri).trans ?_
    rw [if_pos ((mem_chunkRows hrc).mpr ⟨hri, hchunk⟩), chunk_acc ht _ (by omega) hri]
  · rw [Scratch.word_store]
    refine (hword ri).trans ?_
    rw [if_neg fun hmem => hchunk ((mem_chunkRows hrc).mp hmem).2]
  · exact Scratch.written_store.mpr (.inl hri)
  · rw [Scratch.ok_store, Scratch.ok_load, Scratch.ok_load, chunk_loads ht hrc]
    constructor
    · rintro ⟨⟨⟨hok, htile⟩, hrows⟩, -⟩
      refine ⟨hok, fun ri hri hchunk => ⟨fun e he => (htile ri hri hchunk e he).2, ?_⟩⟩
      exact (hrows ri ((mem_chunkRows hrc).mpr ⟨hri, hchunk⟩)).1
    · rintro ⟨hok, hall⟩
      refine ⟨⟨⟨hok, fun ri hri hchunk e he => ⟨?_, (hall ri hri hchunk).1 e he⟩⟩,
        fun ri hri => ?_⟩, fun s hs => ?_⟩
      · obtain ⟨hle, hlt, -⟩ := mem_tileElems.mp he
        rw [Nat.succ_mul] at hlt
        exact show e - t * lprojTileFloats < lprojTileFloats by omega
      · obtain ⟨hlt, hchunk⟩ := (mem_chunkRows hrc).mp hri
        exact ⟨(hall ri hlt hchunk).2, hw ri hlt⟩
      · obtain ⟨ri, hri, rfl⟩ := List.mem_map.mp hs
        obtain ⟨hlt, hchunk⟩ := (mem_chunkRows hrc).mp hri
        exact (hall ri hlt hchunk).2

/-- Chunks one after the other. -/
lemma foldl_rowChunk {l : List ℕ} (hl : l.Nodup) (hmod : ∀ rc ∈ l, rc % 8 = 0) (m : Lds K) :
    AddsRows numRows (fun ri => tileSum f i E t (m.word .tile) (blockIdx + ri * gridDim))
      (TileWritten E t m) (fun ri => ri / 8 * 8 ∈ l) m
      (l.foldl (rowChunk f i laneVisits gridDim blockIdx (t * f.groupsPerTile)
        (min (t * f.groupsPerTile + f.groupsPerTile) (f.numGroups i.inDim)) numRows) m) := by
  induction l generalizing m with
  | nil =>
      refine ⟨rfl, rfl, fun ri _ h => absurd h List.not_mem_nil, fun _ _ _ => rfl, fun _ h => h,
        fun _ => ⟨fun h => ⟨h, fun ri _ h => absurd h List.not_mem_nil⟩, fun h => h.1⟩⟩
  | cons rc l ih =>
      rw [List.nodup_cons] at hl
      have hstep : AddsRows numRows
          (fun ri => tileSum f i E t (m.word .tile) (blockIdx + ri * gridDim))
          (TileWritten E t m) (fun ri => ri / 8 * 8 = rc) m _ :=
        rowChunk_spec ht (hmod rc List.mem_cons_self) m
      have hrest := ih hl.2 (fun rc hrc => hmod rc (List.mem_cons_of_mem _ hrc))
        (rowChunk f i laneVisits gridDim blockIdx (t * f.groupsPerTile)
          (min (t * f.groupsPerTile + f.groupsPerTile) (f.numGroups i.inDim)) numRows m rc)
      rw [hstep.tile] at hrest
      have hneed : TileWritten E t (rowChunk f i laneVisits gridDim blockIdx (t * f.groupsPerTile)
          (min (t * f.groupsPerTile + f.groupsPerTile) (f.numGroups i.inDim)) numRows m rc) =
          TileWritten E t m := by rw [TileWritten, TileWritten, hstep.tileWritten]
      rw [hneed] at hrest
      rw [List.foldl_cons]
      have hboth := hstep.trans hrest fun ri hri hmem => hl.1 (hri ▸ hmem)
      simp only [List.mem_cons]
      exact hboth

end Tiling

/-! ### A tile -/

/-- What a word of the tile holds when an element of tile `t` is counted: the input, past the row
what was there before. -/
def heldInput (i : LinearProjInst K) (junk : ℕ → K) (e : ℕ) : K :=
  if e < i.inDim then i.input e
  else if e < lprojTileFloats then junk e else i.input (e - lprojTileFloats)

/-- Before tile `t` is staged, the words hold the tile before it. -/
structure Staged (i : LinearProjInst K) (junk : ℕ → K) (t : ℕ) (m : Lds K) : Prop where
  word : ∀ o < lprojTileFloats, m.word .tile o =
    if t = 0 then junk o else i.input (t * lprojTileFloats + o - lprojTileFloats)
  written : ∀ o < lprojTileFloats, (m.written .tile o = true ↔ 0 < t)

/-- Some sums of the rows, and all of them stored. -/
structure RowSums (numRows : ℕ) (sums : ℕ → K) (m : Lds K) : Prop where
  word : ∀ ri < numRows, m.word .rows ri = sums ri
  written : ∀ ri < numRows, m.written .rows ri = true

/-- The elements of tile `t` that are counted have been stored by this call. -/
def Fresh (inDim E t : ℕ) : Prop := ∀ e ∈ tileElems E t, e < inDim ∨ 0 < t

omit [CommRing K] in
lemma mem_threadLoop {n k : ℕ} : k ∈ threadLoop n ↔ k < n := by
  have hperm := perm_strided (show 0 < blockDim by decide) 0 n
  simp only [Nat.zero_add, Nat.sub_zero, ← List.range_eq_range'] at hperm
  rw [threadLoop, hperm.mem_iff, List.mem_range]

omit [CommRing K] in
/-- A tile starts within the row. -/
lemma Tiling.tile_le (ht : Tiling f i.inDim E laneVisits) (hf : f.Even) {t : ℕ}
    (hlt : t < f.numTiles i.inDim) : t * lprojTileFloats < i.inDim := by
  have hgpt : 0 < f.groupsPerTile := by
    refine Nat.pos_of_ne_zero fun h => ?_
    have hsize := ht.size
    rw [h, Nat.zero_mul] at hsize
    cases hsize
  have hgroups : t * f.groupsPerTile < f.numGroups i.inDim := by
    have h := Nat.succ_le_of_lt hlt
    rw [Format.numTiles, Nat.le_div_iff_mul_le hgpt, Nat.succ_mul] at h
    omega
  have hrow := Format.numGroups_mul_lt hf i.inDim
  have hmul := Nat.mul_le_mul_right f.groupSize (Nat.succ_le_of_lt hgroups)
  rw [Nat.succ_mul, Nat.mul_assoc, ht.size] at hmul
  omega

variable (ht : Tiling f i.inDim E laneVisits) (hf : f.Even) {junk : ℕ → K}
include ht hf

omit [CommRing K] in
/-- `tile_len` -/
lemma tileLen_eq (t : ℕ) :
    min ((min (t * f.groupsPerTile + f.groupsPerTile) (f.numGroups i.inDim) -
        t * f.groupsPerTile) * f.groupSize) (i.inDim - t * f.groupsPerTile * f.groupSize) =
      min lprojTileFloats (i.inDim - t * lprojTileFloats) := by
  have hrow := Format.le_numGroups_mul hf i.inDim
  have hstart : t * f.groupsPerTile * f.groupSize = t * lprojTileFloats := by
    rw [Nat.mul_assoc, ht.size]
  rw [Nat.sub_mul, ← Nat.mul_min_mul_right, Nat.add_mul, ht.size, hstart]
  omega

/-- **A tile** adds what its elements have for each row, and needs them to be fresh. -/
theorem tileStep_spec {sums : ℕ → K} (hlt : t < f.numTiles i.inDim) (hs : Staged i junk t m)
    (hr : RowSums numRows sums m) :
    (t + 1 < f.numTiles i.inDim →
        Staged i junk (t + 1) (tileStep f i laneVisits gridDim blockIdx numRows m t)) ∧
      RowSums numRows (fun ri => sums ri +
          rowSum f i (tileElems E t) (heldInput i junk) (blockIdx + ri * gridDim))
        (tileStep f i laneVisits gridDim blockIdx numRows m t) ∧
      ((tileStep f i laneVisits gridDim blockIdx numRows m t).ok = true ↔
        m.ok = true ∧ ∀ ri < numRows, Fresh i.inDim E t ∧ ri < lprojMaxRows) := by
  have hstart : t * f.groupsPerTile * f.groupSize = t * lprojTileFloats := by
    rw [Nat.mul_assoc, ht.size]
  rw [tileStep, tileLen_eq ht hf t, hstart]
  set tileLen := min lprojTileFloats (i.inDim - t * lprojTileFloats) with hlen
  set m1 := m.store .tile
    ((threadLoop tileLen).map fun k => (k, i.input (t * lprojTileFloats + k))) with hm1
  -- the words of the tile, staged or left from before
  have hword : ∀ o < lprojTileFloats,
      m1.word .tile o = heldInput i junk (t * lprojTileFloats + o) := fun o ho => by
    have hsite := applyStores_map (m := m.word .tile) (threadLoop tileLen)
      (fun k => i.input (t * lprojTileFloats + k)) o
    rw [hm1, Scratch.word_store, heldInput]
    refine hsite.trans ?_
    rw [hs.word o ho]
    by_cases hin : t * lprojTileFloats + o < i.inDim
    · rw [if_pos (mem_threadLoop.mpr (by omega)), if_pos hin]
    · have hout : ¬ o < tileLen := by omega
      rw [if_neg (mem_threadLoop.not.mpr hout), if_neg hin]
      rcases Nat.eq_zero_or_pos t with rfl | hpos
      · rw [if_pos rfl, Nat.zero_mul, Nat.zero_add, if_pos ho]
      · have hmul := Nat.mul_le_mul_right lprojTileFloats hpos
        rw [Nat.succ_mul, Nat.zero_mul, Nat.zero_add] at hmul
        rw [if_neg hpos.ne', if_neg (by omega)]
  have hwritten : ∀ o < lprojTileFloats, (m1.written .tile o = true ↔
      t * lprojTileFloats + o < i.inDim ∨ 0 < t) := fun o ho => by
    have hmem : (∃ s ∈ (threadLoop tileLen).map fun k =>
        (k, i.input (t * lprojTileFloats + k)), s.1 = o) ↔ o < tileLen := by
      rw [← mem_threadLoop]
      constructor
      · rintro ⟨s, hs, rfl⟩
        obtain ⟨k, hk, rfl⟩ := List.mem_map.mp hs
        exact hk
      · exact fun hmem => ⟨_, List.mem_map.mpr ⟨o, hmem, rfl⟩, rfl⟩
    rw [hm1, Scratch.written_store, hs.written o ho, hmem]
    clear hmem
    omega
  have hfresh : TileWritten E t m1 ↔ Fresh i.inDim E t := by
    refine forall₂_congr fun e he => ?_
    obtain ⟨hle, hltE, -⟩ := mem_tileElems.mp he
    rw [Nat.succ_mul] at hltE
    rw [hwritten _ (by omega), Nat.add_sub_cancel' hle]
  have hsum : ∀ row, tileSum f i E t (m1.word .tile) row =
      rowSum f i (tileElems E t) (heldInput i junk) row := fun row => by
    refine congrArg List.sum (List.map_congr_left fun e he => ?_)
    obtain ⟨hle, hltE, -⟩ := mem_tileElems.mp he
    rw [Nat.succ_mul] at hltE
    show _ * m1.word .tile (e - t * lprojTileFloats) = _
    rw [hword _ (by omega), Nat.add_sub_cancel' hle]
  have hrows : m1.word .rows = m.word .rows := Scratch.word_store_of_ne (by decide)
  have hrowsw : m1.written .rows = m.written .rows := Scratch.written_store_of_ne (by decide)
  have hok : m1.ok = true ↔ m.ok = true := by
    rw [hm1, Scratch.ok_store]
    refine and_iff_left fun s hs => ?_
    obtain ⟨k, hk, rfl⟩ := List.mem_map.mp hs
    exact (mem_threadLoop.mp hk).trans_le (Nat.min_le_left _ _)
  have hall : ∀ ri < numRows, ri / 8 * 8 ∈ strided 0 8 numRows := fun ri hri =>
    mem_strided.mpr ⟨by omega, Nat.zero_le _, by omega⟩
  have hadds : AddsRows numRows
      (fun ri => tileSum f i E t (m1.word .tile) (blockIdx + ri * gridDim)) (TileWritten E t m1)
      (fun ri => ri / 8 * 8 ∈ strided 0 8 numRows) m1 _ :=
    foldl_rowChunk ht nodup_strided (fun rc hrc => (mem_strided.mp hrc).2.2) m1
  refine ⟨fun hnext => ⟨fun o ho => ?_, fun o ho => ?_⟩, ⟨fun ri hri => ?_, fun ri hri => ?_⟩, ?_⟩
  · have hin := ht.tile_le hf hnext
    rw [Nat.succ_mul] at hin
    have heq : (t + 1) * lprojTileFloats + o - lprojTileFloats = t * lprojTileFloats + o := by
      rw [Nat.succ_mul]
      omega
    rw [hadds.tile, hword o ho, heldInput, if_pos (by omega), if_neg (Nat.succ_ne_zero t), heq]
  · have hin := ht.tile_le hf hnext
    rw [Nat.succ_mul] at hin
    rw [hadds.tileWritten, hwritten o ho]
    exact iff_of_true (.inl (by omega)) (Nat.succ_pos t)
  · rw [hadds.added ri hri (hall ri hri), hrows, hr.word ri hri, hsum]
  · exact hadds.written ri (by rw [hrowsw]; exact hr.written ri hri)
  · rw [hadds.ok fun ri hri => by rw [hrowsw]; exact hr.written ri hri, hok, hfresh]
    exact and_congr_right fun _ => forall₂_congr fun ri hri =>
      ⟨fun h => h (hall ri hri), fun h _ => h⟩

variable (gridDim blockIdx) in
/-- **The tiles one after the other.** -/
lemma foldl_tileStep (hs : Staged i junk 0 m) (hr : RowSums numRows (fun _ => 0) m) {n : ℕ}
    (hn : n ≤ f.numTiles i.inDim) :
    let m' := (List.range n).foldl (tileStep f i laneVisits gridDim blockIdx numRows) m
    (n < f.numTiles i.inDim → Staged i junk n m') ∧
      RowSums numRows (fun ri => ∑ t ∈ Finset.range n,
        rowSum f i (tileElems E t) (heldInput i junk) (blockIdx + ri * gridDim)) m' ∧
      (m'.ok = true ↔
        m.ok = true ∧ ∀ t < n, ∀ ri < numRows, Fresh i.inDim E t ∧ ri < lprojMaxRows) := by
  induction n with
  | zero =>
      exact ⟨fun _ => hs, hr, fun h => ⟨h, fun t ht => absurd ht (Nat.not_lt_zero t)⟩,
        fun h => h.1⟩
  | succ n ih =>
      obtain ⟨hstaged, hsums, hok⟩ := ih (Nat.le_of_succ_le hn)
      obtain ⟨hnext, hadded, hstep⟩ := tileStep_spec ht hf hn (hstaged hn) hsums
      rw [List.range_succ, List.foldl_append]
      refine ⟨hnext, ?_, ?_⟩
      · simp only [Finset.sum_range_succ]
        exact hadded
      · rw [List.foldl_cons, List.foldl_nil, hstep, hok, and_assoc]
        refine and_congr_right fun _ => ⟨fun h t hlt => ?_, fun h => ⟨fun t hlt => ?_, ?_⟩⟩
        · rcases Nat.lt_succ_iff_lt_or_eq.mp hlt with hlt | rfl
          · exact h.1 t hlt
          · exact h.2
        · exact h t (Nat.lt_succ_of_lt hlt)
        · exact h n (Nat.lt_succ_self n)

/-- **A block of a full kernel**, for one token. -/
theorem tiledRows_spec (junk : Region → ℕ → K) :
    (tiledRows f i laneVisits gridDim blockIdx junk).stores =
        (List.range (strided blockIdx gridDim i.outDim).length).map (fun ri =>
          (blockIdx + ri * gridDim, rowSum f i (List.range E) (heldInput i (junk .tile))
            (blockIdx + ri * gridDim))) ∧
      ((tiledRows f i laneVisits gridDim blockIdx junk).clean = true ↔
        ∀ ri < (strided blockIdx gridDim i.outDim).length,
          ri < lprojMaxRows ∧ ∀ t < f.numTiles i.inDim, Fresh i.inDim E t) := by
  set numRows := (strided blockIdx gridDim i.outDim).length with hnum
  set m0 := (Scratch.start Region.size junk).store .rows
    ((threadLoop numRows).map fun ri => (ri, (0 : K))) with hm0
  have hs : Staged i (junk .tile) 0 m0 := by
    refine ⟨fun o _ => ?_, fun o _ => ?_⟩
    · rw [if_pos rfl, hm0, Scratch.word_store_of_ne (by decide)]
      rfl
    · rw [hm0, Scratch.written_store_of_ne (by decide)]
      exact iff_of_false Bool.false_ne_true (lt_irrefl 0)
  have hr : RowSums numRows (fun _ => 0) m0 := by
    refine ⟨fun ri hri => ?_, fun ri hri => ?_⟩
    · rw [hm0, Scratch.word_store]
      exact (applyStores_map (threadLoop numRows) (fun _ => (0 : K)) ri).trans
        (if_pos (mem_threadLoop.mpr hri))
    · exact Scratch.written_store.mpr
        (.inr ⟨_, List.mem_map.mpr ⟨ri, mem_threadLoop.mpr hri, rfl⟩, rfl⟩)
  have hok0 : m0.ok = true ↔ ∀ ri < numRows, ri < lprojMaxRows := by
    rw [hm0, Scratch.ok_store]
    constructor
    · exact fun h ri hri => h.2 _ (List.mem_map.mpr ⟨ri, mem_threadLoop.mpr hri, rfl⟩)
    · refine fun h => ⟨rfl, fun s hs => ?_⟩
      obtain ⟨ri, hri, rfl⟩ := List.mem_map.mp hs
      exact h ri (mem_threadLoop.mp hri)
  obtain ⟨-, hsums, hok⟩ := foldl_tileStep gridDim blockIdx ht hf hs hr
    (le_refl (f.numTiles i.inDim))
  -- the tiles make up the elements
  have helems : (List.range (f.numTiles i.inDim)).flatMap (tileElems E) = List.range E := by
    refine flatMap_range_min (ht.le.trans ?_)
    have hgpt : 0 < f.groupsPerTile := Nat.pos_of_ne_zero fun h => by
      have hsize := ht.size
      rw [h, Nat.zero_mul] at hsize
      cases hsize
    have hceil : f.numGroups i.inDim ≤ f.numTiles i.inDim * f.groupsPerTile := by
      have hdiv := Nat.div_add_mod (f.numGroups i.inDim + f.groupsPerTile - 1) f.groupsPerTile
      have hmod := Nat.mod_lt (f.numGroups i.inDim + f.groupsPerTile - 1) hgpt
      rw [Format.numTiles, Nat.mul_comm]
      omega
    rw [← ht.size, ← Nat.mul_assoc]
    exact Nat.mul_le_mul_right _ hceil
  have htotal : ∀ row, ∑ t ∈ Finset.range (f.numTiles i.inDim),
      rowSum f i (tileElems E t) (heldInput i (junk .tile)) row =
        rowSum f i (List.range E) (heldInput i (junk .tile)) row := fun row => by
    rw [rowSum, ← helems, sum_map_flatMap, sum_map_range]
    rfl
  constructor
  · refine List.map_congr_left fun ri hri => ?_
    rw [← htotal]
    exact Prod.ext rfl (hsums.word ri (List.mem_range.mp hri))
  · have hclean : (tiledRows f i laneVisits gridDim blockIdx junk).clean = true ↔
        ((List.range (f.numTiles i.inDim)).foldl
          (tileStep f i laneVisits gridDim blockIdx numRows) m0).ok = true ∧
          ∀ ri ∈ List.range numRows, ri < lprojMaxRows ∧ _ := Scratch.ok_load
    rw [hclean, hok, hok0]
    constructor
    · rintro ⟨⟨hrows, htiles⟩, -⟩ ri hri
      exact ⟨hrows ri hri, fun t hlt => (htiles t hlt ri hri).1⟩
    · intro h
      refine ⟨⟨fun ri hri => (h ri hri).1, fun t hlt ri hri => ⟨(h ri hri).2 t hlt, (h ri hri).1⟩⟩,
        fun ri hri => ⟨(h ri (List.mem_range.mp hri)).1, ?_⟩⟩
      exact hsums.written ri (List.mem_range.mp hri)

variable {visits : (ℕ → UInt8) → ℕ → ℕ → List (ℕ × K)} {batches : ℕ → List ℕ}

variable (visits batches) in
/-- **A full kernel for one token**, over the grid. -/
theorem tiledGrid_spec (hbatch : i.batch = 1) (hout : 1 ≤ i.outDim) (hgrid : 1 ≤ gridDim)
    (junk : ℕ → Region → ℕ → K) :
    Stores i (· < i.outDim)
        (fun _ row => rowSum f i (List.range E) (heldInput i (junk (row % gridDim) .tile)) row)
        (fullGrid (opLinearProjFull f i laneVisits visits batches) gridDim junk) ∧
      ((fullGrid (opLinearProjFull f i laneVisits visits batches) gridDim junk).clean = true ↔
        i.outDim ≤ lprojMaxRows * gridDim ∧ ∀ t < f.numTiles i.inDim, Fresh i.inDim E t) := by
  have hop : ∀ block, opLinearProjFull f i laneVisits visits batches gridDim block (junk block) =
      tiledRows f i laneVisits gridDim block (junk block) := fun block => by
    rw [opLinearProjFull, hbatch]
    rfl
  have hlen : ∀ block ri, ri < (strided block gridDim i.outDim).length ↔
      block + ri * gridDim < i.outDim := fun block ri => lt_length_strided hgrid
  constructor
  · have hstores : ∀ block ∈ List.range gridDim,
        Stores i (· ∈ strided block gridDim i.outDim)
          (fun _ row => rowSum f i (List.range E) (heldInput i (junk (row % gridDim) .tile)) row)
          (opLinearProjFull f i laneVisits visits batches gridDim block (junk block)) := by
      intro block hblock s
      have hlt := List.mem_range.mp hblock
      rw [hop, (tiledRows_spec ht hf (junk block)).1, List.mem_map, hbatch]
      have hmod : ∀ ri, (block + ri * gridDim) % gridDim = block := fun ri => by
        rw [Nat.add_mul_mod_self_right, Nat.mod_eq_of_lt hlt]
      constructor
      · rintro ⟨ri, hri, rfl⟩
        refine ⟨0, Nat.one_pos, block + ri * gridDim, (mem_strided_of_lt hlt).mpr
          ⟨(hlen block ri).mp (List.mem_range.mp hri), hmod ri⟩, ?_⟩
        simp only [Nat.zero_mul, Nat.zero_add, hmod]
      · rintro ⟨b, hb, row, hrow, rfl⟩
        obtain rfl := Nat.lt_one_iff.mp hb
        obtain ⟨hrow, hrem⟩ := (mem_strided_of_lt hlt).mp hrow
        have heq : block + row / gridDim * gridDim = row := by
          rw [← hrem]
          exact Nat.mod_add_div' row gridDim
        refine ⟨row / gridDim, List.mem_range.mpr ((hlen _ _).mpr (by rw [heq]; exact hrow)), ?_⟩
        simp only [heq, hrem, Nat.zero_mul, Nat.zero_add]
    exact stores_all hstores fun row => exists_block_iff hgrid row i.outDim
  · rw [fullGrid, clean_all]
    simp only [hop, (tiledRows_spec ht hf _).2, hlen, List.mem_range]
    constructor
    · intro h
      refine ⟨?_, (h 0 hgrid 0 (by omega)).2⟩
      -- row 256 of block 0 has no room
      by_contra hmany
      have hrow := (h 0 hgrid lprojMaxRows (by omega)).1
      exact lt_irrefl _ hrow
    · rintro ⟨hfew, hfresh⟩ block hblock ri hri
      refine ⟨Nat.lt_of_mul_lt_mul_right (a := gridDim) ?_, hfresh⟩
      omega

end Chunks

/-! ### The four paths -/

section Paths

variable {K : Type*} [CommRing K]

/-- The full kernel for `Rnf4G128` leaves the products. -/
def Rnf4FullProjects (bf16ToF32 nf4Table : ℕ → K) (i : LinearProjInst K) (gridDim : ℕ)
    (junk : ℕ → Region → ℕ → K) : Prop :=
  Leaves i (rowProduct (rnf4 bf16ToF32 nf4Table) i)
    (fullGrid (opLinearProjRnf4Full bf16ToF32 nf4Table i) gridDim junk)

/-- The kernel for `Rnf4G128` with one row per virtual block leaves the products, however far the
waves of a block are ahead of each other. -/
def Rnf4RowProjects (bf16ToF32 nf4Table : ℕ → K) (i : LinearProjInst K) (gridDim : ℕ)
    (vjunk : ℕ → Region → ℕ → K) : Prop :=
  ∀ ahead, Leaves i (rowProduct (rnf4 bf16ToF32 nf4Table) i)
    (perRow (opLinearProjRnf4 bf16ToF32 nf4Table i gridDim ahead) gridDim i.outDim vjunk)

/-- Both kernels for `PcG32Q4` leave the products. -/
def Pcg32Projects (bf16ToF32 : ℕ → K) (i : LinearProjInst K) (gridDim : ℕ)
    (junk vjunk : ℕ → Region → ℕ → K) : Prop :=
  let product := rowProduct (pcg32 bf16ToF32) i
  Leaves i product (fullGrid (opLinearProjPcg32Full bf16ToF32 i) gridDim junk) ∧
    Leaves i product (perRow (opLinearProjPcg32 bf16ToF32 i) gridDim i.outDim vjunk)

/-- The rows of a block have room in shared memory. -/
def RowsFit (i : LinearProjInst K) (gridDim : ℕ) : Prop :=
  i.batch = 1 → i.outDim ≤ lprojMaxRows * gridDim

/-- No block has two rows of a single token. -/
def RowsAlone (i : LinearProjInst K) (gridDim : ℕ) : Prop := i.batch = 1 → i.outDim ≤ gridDim

/-- The last element of a row of odd length adds nothing. -/
def LastVanishes (f : Format K) (i : LinearProjInst K) : Prop :=
  i.inDim % 2 = 1 → ∀ b < i.batch, ∀ row < i.outDim,
    f.decode (f.rowData i.weight i.inDim row) (i.inDim - 1) * tokenInput i b (i.inDim - 1) = 0

/-- The element past a row of odd length, of the padding and of the next token, adds nothing. -/
def NextVanishes (f : Format K) (i : LinearProjInst K) : Prop :=
  i.inDim % 2 = 1 → ∀ b < i.batch, ∀ row < i.outDim,
    f.decode (f.rowData i.weight i.inDim row) i.inDim * tokenInput i b i.inDim = 0

/-- For one token, the elements past a partial group meet a tile that was full before, and add
nothing with what it held there. -/
def StaleVanishes (f : Format K) (i : LinearProjInst K) : Prop :=
  i.batch = 1 → i.inDim % f.groupSize ≠ 0 → lprojTileFloats < i.inDim ∧ ∀ row < i.outDim,
    ∑ k ∈ Finset.range (f.numGroups i.inDim * f.groupSize - i.inDim),
      f.decode (f.rowData i.weight i.inDim row) (i.inDim + k) *
        i.input (i.inDim + k - lprojTileFloats) = 0

variable {f : Format K} {i : LinearProjInst K} {gridDim : ℕ} {bf16ToF32 nf4Table : ℕ → K}

/-- The pairs of a row give its product if nothing is lost. -/
lemma rowSum_pairs_iff :
    (∀ b < i.batch, ∀ row < i.outDim,
      rowSum f i (List.range (i.inDim / 2 * 2)) (tokenInput i b) row = rowProduct f i b row) ↔
      LastVanishes f i := by
  rcases Nat.mod_two_eq_zero_or_one i.inDim with heven | hodd
  · have hlen : i.inDim / 2 * 2 = i.inDim := by omega
    rw [hlen]
    exact iff_of_true (fun b _ row _ => rfl) fun hodd => absurd hodd (by omega)
  · have hlen : i.inDim / 2 * 2 + 1 = i.inDim := by omega
    have hproduct : ∀ b row, rowProduct f i b row =
        rowSum f i (List.range (i.inDim / 2 * 2)) (tokenInput i b) row +
          f.decode (f.rowData i.weight i.inDim row) (i.inDim - 1) *
            tokenInput i b (i.inDim - 1) := fun b row => by
      rw [← show i.inDim / 2 * 2 = i.inDim - 1 by omega]
      exact (congrArg (fun n => ∑ e ∈ Finset.range n,
        f.decode (f.rowData i.weight i.inDim row) e * tokenInput i b e) hlen.symm).trans
          (Finset.sum_range_succ _ _)
    simp only [hproduct, left_eq_add, LastVanishes, hodd, forall_true_left]

/-- The pairs of the groups give the product if the element past the row adds nothing. -/
lemma rowSum_groups_iff :
    (∀ b < i.batch, ∀ row < i.outDim,
      rowSum f i (List.range ((i.inDim + 1) / 2 * 2)) (tokenInput i b) row =
        rowProduct f i b row) ↔ NextVanishes f i := by
  rcases Nat.mod_two_eq_zero_or_one i.inDim with heven | hodd
  · have hlen : (i.inDim + 1) / 2 * 2 = i.inDim := by omega
    rw [hlen]
    exact iff_of_true (fun b _ row _ => rfl) fun hodd => absurd hodd (by omega)
  · have hlen : (i.inDim + 1) / 2 * 2 = i.inDim + 1 := by omega
    have hsum : ∀ b row, rowSum f i (List.range ((i.inDim + 1) / 2 * 2)) (tokenInput i b) row =
        rowProduct f i b row + f.decode (f.rowData i.weight i.inDim row) i.inDim *
          tokenInput i b i.inDim := fun b row => by
      rw [hlen]
      exact Finset.sum_range_succ _ _
    simp only [hsum, add_eq_left, NextVanishes, hodd, forall_true_left]

omit [CommRing K] in
lemma tokenInput_zero : tokenInput i 0 = i.input := by
  funext e
  rw [tokenInput, Nat.zero_mul, Nat.zero_add]

omit [CommRing K] in
/-- The tiles of `PcG32Q4` need no word of before, unless the only tile ends in a partial group. -/
lemma fresh_pcg32_iff (f : Format K) (hsize : f.groupSize = 32) (inDim : ℕ) :
    (∀ t < f.numTiles inDim, Fresh inDim (f.numGroups inDim * f.groupSize) t) ↔
      (inDim % f.groupSize ≠ 0 → lprojTileFloats < inDim) := by
  have heven : f.Even := ⟨by omega, by rw [hsize]⟩
  have hrow := Format.le_numGroups_mul heven inDim
  have hless := Format.numGroups_mul_lt heven inDim
  have hfloats : lprojTileFloats = 7680 := rfl
  rw [hsize] at hrow hless ⊢
  constructor
  · intro hall hpartial
    by_contra hshort
    -- the element past the row is counted with the first tile
    have htiles : 0 < f.numTiles inDim := by
      rw [Format.numTiles, Format.groupsPerTile, hsize, hfloats]
      omega
    have hmem : inDim ∈ tileElems (f.numGroups inDim * 32) 0 :=
      mem_tileElems.mpr ⟨by omega, by omega, by omega⟩
    exact (hall 0 htiles inDim hmem).elim (lt_irrefl _) (lt_irrefl _)
  · intro h t _ e he
    obtain ⟨-, hhigh, hlt⟩ := mem_tileElems.mp he
    by_cases hwhole : inDim % 32 = 0
    · left
      omega
    · have hlong := h hwhole
      rcases Nat.eq_zero_or_pos t with rfl | ht
      · left
        omega
      · exact .inr ht

/-- Whole groups with what the tiles held give the product if the elements past the row add
nothing. -/
lemma rowSum_words_iff (f : Format K) (hf : f.Even) (hlong : i.inDim % f.groupSize ≠ 0 →
    lprojTileFloats < i.inDim) (junk : ℕ → ℕ → K) :
    (∀ row < i.outDim, rowSum f i (List.range (f.numGroups i.inDim * f.groupSize))
      (heldInput i (junk row)) row = rowProduct f i 0 row) ↔
      (i.inDim % f.groupSize ≠ 0 → ∀ row < i.outDim,
        ∑ k ∈ Finset.range (f.numGroups i.inDim * f.groupSize - i.inDim),
          f.decode (f.rowData i.weight i.inDim row) (i.inDim + k) *
            i.input (i.inDim + k - lprojTileFloats) = 0) := by
  have hrow := Format.le_numGroups_mul hf i.inDim
  have hless := Format.numGroups_mul_lt hf i.inDim
  set past := f.numGroups i.inDim * f.groupSize - i.inDim with hpast
  have hsplit : ∀ row, rowSum f i (List.range (f.numGroups i.inDim * f.groupSize))
      (heldInput i (junk row)) row = rowProduct f i 0 row +
        ∑ k ∈ Finset.range past, f.decode (f.rowData i.weight i.inDim row) (i.inDim + k) *
          heldInput i (junk row) (i.inDim + k) := fun row => by
    rw [rowSum, sum_map_range, ← Nat.add_sub_cancel' hrow, ← hpast, Finset.sum_range_add]
    congr 1
    refine Finset.sum_congr rfl fun e he => ?_
    have hlt := Finset.mem_range.mp he
    simp only [heldInput, if_pos hlt, Nat.zero_mul, Nat.zero_add]
  by_cases hwhole : i.inDim % f.groupSize = 0
  · -- no elements are past the row
    have hnone : past = 0 := by
      obtain ⟨n, hn⟩ := Nat.dvd_of_mod_eq_zero hwhole
      rw [hn, Nat.mul_comm f.groupSize n] at hrow hless
      have hle : f.numGroups i.inDim ≤ n := by
        have hlt := hless
        rw [← Nat.succ_mul] at hlt
        rw [hn, Nat.mul_comm f.groupSize n]
        exact Nat.lt_succ_iff.mp (Nat.lt_of_mul_lt_mul_right hlt)
      have hmul := Nat.mul_le_mul_right f.groupSize hle
      rw [Nat.mul_comm n, ← hn] at hmul
      omega
    refine iff_of_true (fun row _ => ?_) fun h => absurd hwhole h
    rw [hsplit, hnone, Finset.sum_range_zero, add_zero]
  · have hinput : ∀ row, ∑ k ∈ Finset.range past,
        f.decode (f.rowData i.weight i.inDim row) (i.inDim + k) *
          heldInput i (junk row) (i.inDim + k) =
        ∑ k ∈ Finset.range past, f.decode (f.rowData i.weight i.inDim row) (i.inDim + k) *
          i.input (i.inDim + k - lprojTileFloats) := fun row => by
      have h := hlong hwhole
      refine Finset.sum_congr rfl fun k _ => ?_
      rw [heldInput, if_neg (by omega), if_neg (by omega)]
    simp only [hsplit, hinput, add_eq_left, ne_eq, hwhole, not_false_eq_true, forall_true_left]

section Grid

variable (hout : 1 ≤ i.outDim) (hbatch : 1 ≤ i.batch) (hgrid : 1 ≤ gridDim)
  (junk vjunk : ℕ → Region → ℕ → K)
include hout hbatch hgrid

omit hout in
/-- **When the kernel for `Rnf4G128` with one row per virtual block leaves the product.** -/
lemma rnf4RowProjects_iff : Rnf4RowProjects bf16ToF32 nf4Table i gridDim vjunk ↔
    LastVanishes (rnf4 bf16ToF32 nf4Table) i ∧ RowsAlone i gridDim := by
  set f := rnf4 bf16ToF32 nf4Table with hf
  have hsweep := fun rowData => sweep_rnf4Visits (f := f) rnf4_even rowData i.inDim
  have hspec : RowsAlone i gridDim → ∀ ahead, Leaves i (rowProduct f i)
      (perRow (opLinearProjRnf4 bf16ToF32 nf4Table i gridDim ahead) gridDim i.outDim vjunk) ↔
        LastVanishes f i := by
    intro halone ahead
    have hforeign : i.batch = 1 → ∀ row < i.outDim,
        nextSums f i (rnf4Visits f) gridDim (ahead row) row = [] := fun hone row _ => by
      have := halone hone
      exact if_neg (by omega)
    obtain ⟨hstores, hclean⟩ :=
      perRow_spec hsweep hbatch (fun b => mem_tiledBatches) hgrid hforeign vjunk
    rw [← rowSum_pairs_iff]
    exact (leaves_iff hstores).trans (and_iff_left hclean)
  constructor
  · intro hall
    have halone : RowsAlone i gridDim := by
      intro hone
      by_contra hmany
      have hclean := (hall fun _ _ => true).clean
      have hspoilt : (perRow (opLinearProjRnf4 bf16ToF32 nf4Table i gridDim fun _ _ => true)
          gridDim i.outDim vjunk).clean = false :=
        perRow_not_clean hone hgrid (not_le.mp hmany) (by rfl) vjunk
      exact absurd (hclean.symm.trans hspoilt) (by decide)
    exact ⟨(hspec halone fun _ _ => true).mp (hall _), halone⟩
  · rintro ⟨hlast, halone⟩ ahead
    exact (hspec halone ahead).mpr hlast

/-- **When the full kernel for `Rnf4G128` leaves the product.** -/
lemma rnf4FullProjects_iff : Rnf4FullProjects bf16ToF32 nf4Table i gridDim junk ↔
    LastVanishes (rnf4 bf16ToF32 nf4Table) i ∧ RowsFit i gridDim := by
  set f := rnf4 bf16ToF32 nf4Table with hf
  have hsweep := fun rowData => sweep_rnf4Visits (f := f) rnf4_even rowData i.inDim
  rw [Rnf4FullProjects, ← rowSum_pairs_iff]
  rcases Nat.eq_or_lt_of_le hbatch with hone | hmany
  · have htiling : Tiling f i.inDim (i.inDim / 2 * 2)
        (fun rowData => rnf4TileVisits f rowData i.inDim) := tiling_rnf4
    obtain ⟨hstores, hclean⟩ := tiledGrid_spec htiling rnf4_even (rnf4Visits f) tiledBatches
      hone.symm hout hgrid junk
    have hfresh : ∀ t < f.numTiles i.inDim, Fresh i.inDim (i.inDim / 2 * 2) t :=
      fun t _ e he => .inl ((mem_tileElems.mp he).2.2.trans_le (Nat.div_mul_le_self _ _))
    have hheld : ∀ row junk, rowSum f i (List.range (i.inDim / 2 * 2)) (heldInput i junk) row =
        rowSum f i (List.range (i.inDim / 2 * 2)) (tokenInput i 0) row := fun row junk => by
      refine congrArg List.sum (List.map_congr_left fun e he => ?_)
      have hlt := (List.mem_range.mp he).trans_le (Nat.div_mul_le_self i.inDim 2)
      rw [heldInput, if_pos hlt, tokenInput_zero]
    refine (leaves_iff hstores).trans (and_congr ?_ ?_)
    · simp only [hheld, ← hone, Nat.lt_one_iff, forall_eq]
      rfl
    · rw [RowsFit, ← hone]
      exact hclean.trans ⟨fun h _ => h.1, fun h => ⟨h rfl, hfresh⟩⟩
  · obtain ⟨hstores, hclean⟩ := fullGrid_spec hsweep hmany (fun b => mem_tiledBatches) hgrid junk
    refine (leaves_iff hstores).trans (and_congr_right fun _ => ?_)
    exact iff_of_true hclean fun hone => absurd hone (by omega)

/-- **When the kernels for `PcG32Q4` leave the product.** -/
lemma pcg32Projects_iff : Pcg32Projects bf16ToF32 i gridDim junk vjunk ↔
    NextVanishes (pcg32 bf16ToF32) i ∧ RowsFit i gridDim ∧
      StaleVanishes (pcg32 bf16ToF32) i := by
  set f := pcg32 bf16ToF32 with hf
  have hsweep := fun rowData => sweep_pcg32Visits (f := f) pcg32_even rowData i.inDim
  have hbatches : ∀ b, b ∈ List.range i.batch ↔ b < i.batch := fun b => List.mem_range
  obtain ⟨hstores, hclean⟩ :=
    perRow_spec hsweep hbatch hbatches hgrid (fun _ _ _ => rfl) vjunk
  have hrow : Leaves i (rowProduct f i)
      (perRow (opLinearProjPcg32 bf16ToF32 i) gridDim i.outDim vjunk) ↔ NextVanishes f i := by
    rw [← rowSum_groups_iff]
    exact (leaves_iff hstores).trans (and_iff_left hclean)
  rw [Pcg32Projects, hrow]
  rcases Nat.eq_or_lt_of_le hbatch with hone | hmany
  · have htiling : Tiling f i.inDim (f.numGroups i.inDim * f.groupSize)
        (pcg32TileVisits bf16ToF32) := tiling_pcg32
    obtain ⟨hstores, hclean⟩ := tiledGrid_spec htiling pcg32_even (pcg32Visits f) List.range
      hone.symm hout hgrid junk
    have hfresh := fresh_pcg32_iff f rfl i.inDim
    have hfull : Leaves i (rowProduct f i)
        (fullGrid (opLinearProjPcg32Full bf16ToF32 i) gridDim junk) ↔
          RowsFit i gridDim ∧ StaleVanishes f i := by
      refine (leaves_iff hstores).trans ?_
      rw [RowsFit, StaleVanishes, ← hone]
      simp only [forall_true_left, Nat.lt_one_iff, forall_eq]
      constructor
      · rintro ⟨hval, hok⟩
        obtain ⟨hfit, hall⟩ := hclean.mp hok
        have hlong := hfresh.mp hall
        have hzero := (rowSum_words_iff f pcg32_even hlong
          fun row => junk (row % gridDim) .tile).mp hval
        exact ⟨hfit, fun hpartial => ⟨hlong hpartial, hzero hpartial⟩⟩
      · rintro ⟨hfit, hstale⟩
        have hlong := fun hpartial => (hstale hpartial).1
        refine ⟨(rowSum_words_iff f pcg32_even hlong
          fun row => junk (row % gridDim) .tile).mpr fun hpartial => (hstale hpartial).2, ?_⟩
        exact hclean.mpr ⟨hfit, hfresh.mpr hlong⟩
    rw [hfull, and_comm]
  · obtain ⟨hstores, hclean⟩ := fullGrid_spec hsweep hmany hbatches hgrid junk
    have hfull : Leaves i (rowProduct f i)
        (fullGrid (opLinearProjPcg32Full bf16ToF32 i) gridDim junk) ↔ NextVanishes f i := by
      rw [← rowSum_groups_iff]
      exact (leaves_iff hstores).trans (and_iff_left hclean)
    have hfit : RowsFit i gridDim ∧ StaleVanishes f i :=
      ⟨fun hone => absurd hone (by omega), fun hone => absurd hone (by omega)⟩
    rw [hfull, and_self, and_iff_left hfit]

/-- **On the usual dimensions all paths leave the product**: rows of whole groups, at most 256 of
them for a block, and one for each block where nothing keeps the waves of a block together. -/
theorem projects_of_dims (hwhole : i.inDim % 32 = 0) (hfit : i.outDim ≤ lprojMaxRows * gridDim) :
    Rnf4FullProjects bf16ToF32 nf4Table i gridDim junk ∧
      (RowsAlone i gridDim → Rnf4RowProjects bf16ToF32 nf4Table i gridDim vjunk) ∧
      Pcg32Projects bf16ToF32 i gridDim junk vjunk := by
  have heven : ¬ i.inDim % 2 = 1 := by omega
  rw [rnf4FullProjects_iff hout hbatch hgrid, rnf4RowProjects_iff hbatch hgrid,
    pcg32Projects_iff hout hbatch hgrid]
  exact ⟨⟨fun hodd => absurd hodd heven, fun _ => hfit⟩,
    fun halone => ⟨fun hodd => absurd hodd heven, halone⟩, fun hodd => absurd hodd heven,
    fun _ => hfit, fun _ hpartial => absurd hwhole hpartial⟩

end Grid

end Paths

/-- **When the quantized projections leave the product**, for every input.  Of a row of odd length
the kernels for `Rnf4G128` lose the last element and those for `PcG32Q4` count one element more; for
one token the full kernels have room for 256 rows in a block, that for `PcG32Q4` counts partial
groups as whole ones, and in that for `Rnf4G128` with one row per virtual block the waves of a block
may store the sums of its next row too early.  The product is left if and only if all this changes
nothing. -/
theorem linearProj_iff {K : Type*} [CommRing K] (bf16ToF32 nf4Table : ℕ → K)
    (i : LinearProjInst K) (gridDim : ℕ) (junk vjunk : ℕ → Region → ℕ → K)
    (hout : 1 ≤ i.outDim) (hbatch : 1 ≤ i.batch) (hgrid : 1 ≤ gridDim) :
    (Rnf4FullProjects bf16ToF32 nf4Table i gridDim junk ↔
      LastVanishes (rnf4 bf16ToF32 nf4Table) i ∧ RowsFit i gridDim) ∧
    (Rnf4RowProjects bf16ToF32 nf4Table i gridDim vjunk ↔
      LastVanishes (rnf4 bf16ToF32 nf4Table) i ∧ RowsAlone i gridDim) ∧
    (Pcg32Projects bf16ToF32 i gridDim junk vjunk ↔
      NextVanishes (pcg32 bf16ToF32) i ∧ RowsFit i gridDim ∧
        StaleVanishes (pcg32 bf16ToF32) i) :=
  ⟨rnf4FullProjects_iff hout hbatch hgrid junk, rnf4RowProjects_iff hbatch hgrid vjunk,
    pcg32Projects_iff hout hbatch hgrid junk vjunk⟩

/-- 300 rows of two groups of 32, on two blocks, and on 300 for the kernel that needs a block a
row: all kernels leave the product. -/
theorem linearProj_iff_twoBlocks : 1 ≤ 300 ∧
    Rnf4FullProjects Bf16.value nf4Table ⟨fun _ => 0x3F, fun e => e, 300, 64, 1⟩ 2
      (fun _ _ _ => 7) ∧
    Rnf4RowProjects Bf16.value nf4Table ⟨fun _ => 0x3F, fun e => e, 300, 64, 1⟩ 300
      (fun _ _ _ => 7) ∧
    Pcg32Projects Bf16.value ⟨fun _ => 0x3F, fun e => e, 300, 64, 1⟩ 2
      (fun _ _ _ => 7) (fun _ _ _ => 7) := by
  obtain ⟨hfull, -, hpcg⟩ := linearProj_iff Bf16.value nf4Table
    ⟨fun _ => 0x3F, fun e => e, 300, 64, 1⟩ 2 (fun _ _ _ => 7) (fun _ _ _ => 7) (by decide)
    (by decide) (by decide)
  obtain ⟨-, hrow, -⟩ := linearProj_iff Bf16.value nf4Table
    ⟨fun _ => 0x3F, fun e => e, 300, 64, 1⟩ 300 (fun _ _ _ => 7) (fun _ _ _ => 7) (by decide)
    (by decide) (by decide)
  refine ⟨by decide, hfull.mpr ⟨fun hodd => ?_, fun _ => ?_⟩, hrow.mpr ⟨fun hodd => ?_, fun _ => ?_⟩,
    hpcg.mpr ⟨fun hodd => ?_, fun _ => ?_, fun _ hpartial => ?_⟩⟩
  · exact absurd hodd (show ¬ 64 % 2 = 1 by decide)
  · exact show 300 ≤ 256 * 2 by decide
  · exact absurd hodd (show ¬ 64 % 2 = 1 by decide)
  · exact show 300 ≤ 300 by decide
  · exact absurd hodd (show ¬ 64 % 2 = 1 by decide)
  · exact show 300 ≤ 256 * 2 by decide
  · exact absurd (show 64 % 32 = 0 by decide) hpartial

/-- A single weight of `-1` is lost, a single group is counted with words that nobody staged, row
256 of a block has no room, and a wave may spoil the sum of the row before. -/
theorem not_projects_small :
    ¬ Rnf4FullProjects Bf16.value nf4Table
        ⟨fun a => if a = 64 then 0x80 else if a = 65 then 0x3F else 0, fun _ => 1, 1, 1, 1⟩ 1
        (fun _ _ _ => 0) ∧
      ¬ Pcg32Projects Bf16.value ⟨fun _ => 0, fun _ => 1, 1, 1, 1⟩ 1
        (fun _ _ _ => 0) (fun _ _ _ => 0) ∧
      ¬ Rnf4FullProjects Bf16.value nf4Table ⟨fun _ => 0, fun _ => 1, 257, 128, 1⟩ 1
        (fun _ _ _ => 0) ∧
      ¬ Rnf4RowProjects Bf16.value nf4Table ⟨fun _ => 0, fun _ => 1, 2, 128, 1⟩ 1
        (fun _ _ _ => 0) := by
  refine ⟨fun h => ?_, fun h => ?_, fun h => ?_, fun h => ?_⟩
  · obtain ⟨hlast, -⟩ := (rnf4FullProjects_iff le_rfl le_rfl le_rfl _).mp h
    have hzero := hlast rfl 0 Nat.one_pos 0 Nat.one_pos
    have hone : Bf16.value (16256 : ℕ) = 1 := by norm_num [Bf16.value, Bf16.magnitude]
    have hnone : Bf16.value (0 : ℕ) = 0 := by norm_num [Bf16.value, Bf16.magnitude]
    have hdecode : nf4Table 0 * Bf16.value (16256 : ℕ) + nf4Table 0 * Bf16.value (0 : ℕ) = 0 := by
      rw [tokenInput, mul_one] at hzero
      exact hzero
    rw [hone, hnone] at hdecode
    norm_num [nf4Table] at hdecode
  · obtain ⟨-, -, hstale⟩ := (pcg32Projects_iff le_rfl le_rfl le_rfl _ _).mp h
    have hlong := (hstale rfl (show ¬ 1 % 32 = 0 by decide)).1
    exact absurd hlong (show ¬ 7680 < 1 by decide)
  · obtain ⟨-, hfit⟩ := (rnf4FullProjects_iff (by decide) le_rfl le_rfl _).mp h
    exact absurd (hfit rfl) (show ¬ 257 ≤ 256 * 1 by decide)
  · obtain ⟨-, halone⟩ := (rnf4RowProjects_iff le_rfl le_rfl _).mp h
    exact absurd (halone rfl) (show ¬ 2 ≤ 1 by decide)

end Braidinfer.Quant
