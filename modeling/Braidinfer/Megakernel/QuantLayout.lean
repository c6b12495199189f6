/-
The layout of a quantized chunk (`quantized_chunk_kv_bytes` and `quantized_kv_offsets` in
`paged_kv.rs`, `quantize_sealed_chunk_via_worker` in `megakernel_run.rs`, and the addresses of
`op_kv_quantize` and `op_attn_paged_quant` in `megakernel_ops.hip`).

K and V of every layer have four regions each: packed integers and scales of two stages.  The
offsets are computed once in `usize` and once, for V, in the `int`s of the decoder; the quantizer
indexes with `int`s as well, and reads its values from the f32 chunk.

* `InRegion`, `inRegion_iff`: the regions, as parts of one block for K or V of a layer;
* `kernelPerKv_eq_iff`: the decoder's `per_kv` is right exactly as long as it fits in an `int`;
* `kvQuantizeWrites_eq`, `kvQuantizeReads_eq`: the addresses of a block of the quantizer;
* `quantLayout_agrees`: **regions tile the chunk and scales are aligned; the decoder finds V and the
  quantizer writes the regions and reads the rows of its layer**, if `per_kv` fits.
-/
import Braidinfer.Megakernel.KvLayout
import Braidinfer.Megakernel.KvQuantize

namespace Braidinfer.Megakernel

open Braidinfer.Lib Braidinfer.PagedKv

/-! ### The regions -/

/-- `quantized_chunk_kv_bytes` -/
def quantizedChunkKvBytes (cfg : AttnConfig) (ct numAttnLayers : ℕ) : ℕ :=
  numAttnLayers * (2 * quantPerKv cfg ct)

/-- The kinds of regions. -/
inductive QuantRegion
  | q1Data
  | q1Scale
  | rData
  | rScale
deriving DecidableEq, Repr

/-- Where the region of a kind starts. -/
def QuantOffsets.get (off : QuantOffsets) : QuantRegion → ℕ
  | .q1Data => off.q1Data
  | .q1Scale => off.q1Scale
  | .rData => off.rData
  | .rScale => off.rScale

/-- The bytes of a region. -/
def QuantRegion.size (cfg : AttnConfig) (ct : ℕ) : QuantRegion → ℕ
  | .q1Data | .rData => quantDataBytes cfg ct
  | .q1Scale | .rScale => quantScaleBytes cfg

/-- Byte `a` of a chunk is in a region. -/
def InRegion (cfg : AttnConfig) (ct layer : ℕ) (isV : Bool) (r : QuantRegion) (a : ℕ) : Prop :=
  (quantizedKvOffsets cfg ct layer isV).get r ≤ a ∧
    a < (quantizedKvOffsets cfg ct layer isV).get r + r.size cfg ct

/-! ### The `int`s of the kernels -/

/-- The value of an `int` expression. -/
def int32 (z : ℤ) : ℤ := Int.bmod z (2 ^ 32)

/-- `per_kv` of `op_attn_paged_quant`. -/
def kernelPerKv (cfg : AttnConfig) (ct : ℕ) : ℤ :=
  let numKvHeads := toI32 cfg.numKvHeads
  let chunkTokens := toI32 ct
  let headDim := toI32 cfg.headDim
  let dataBytes := (int32 (int32 (numKvHeads * chunkTokens) * headDim)).tdiv 2
  let scaleBytes := int32 (int32 (numKvHeads * headDim) * 4)
  int32 (2 * int32 (dataBytes + scaleBytes))

/-- The threads that pass `tid < n`. -/
def threadsBelow (n : ℤ) : List ℕ := (List.range blockDim).filter fun tid : ℕ => (tid : ℤ) < n

/-- A write of `op_kv_quantize`: through which of its pointers, where, and how many bytes. -/
structure KvWrite where
  region : QuantRegion
  addr : ℤ
  bytes : ℕ

/-- The writes of block `vblock` of `op_kv_quantize`. -/
def kvQuantizeWrites (i : KvQuantizeInst) (vblock : ℕ) : List KvWrite :=
  let nkh := toI32 i.numKvHeads
  let hd := toI32 i.headDim
  let ct := toI32 i.chunkTokens
  let channel := toI32 vblock
  let totalChannels := int32 (nkh * hd)
  if totalChannels ≤ channel then []
  else
    let head := channel.tdiv hd
    let dim := channel.tmod hd
    (threadsBelow (ct.tdiv 2)).flatMap (fun tid : ℕ =>
        let dataIdx := head * ct.tdiv 2 * hd + int32 (tid * hd) + dim
        [⟨.q1Data, i.q1Data + dataIdx, 1⟩, ⟨.rData, i.rData + dataIdx, 1⟩]) ++
      [⟨.q1Scale, i.q1Scale + 4 * channel, 4⟩, ⟨.rScale, i.rScale + 4 * channel, 4⟩]

/-- The addresses of the floats that block `vblock` of `op_kv_quantize` reads. -/
def kvQuantizeReads (i : KvQuantizeInst) (vblock : ℕ) : List ℤ :=
  let nkh := toI32 i.numKvHeads
  let hd := toI32 i.headDim
  let ct := toI32 i.chunkTokens
  let channel := toI32 vblock
  let totalChannels := int32 (nkh * hd)
  if totalChannels ≤ channel then []
  else
    let head := channel.tdiv hd
    let dim := channel.tmod hd
    (threadsBelow ct).map fun tid : ℕ =>
      i.src + 4 * (head * ct * hd + int32 (tid * hd) + dim)

/-- The blocks of an emitted `OP_KV_QUANTIZE`: `(nkh * hd) as u32`. -/
def kvQuantizeGrid (cfg : AttnConfig) : ℕ := cfg.numKvHeads * cfg.headDim % 2 ^ 32

/-- The regions are the chunk. -/
structure ChunkTiled (cfg : AttnConfig) (L : ℕ) : Prop where
  inside : ∀ layer < L, ∀ isV r a, InRegion cfg chunkTokens layer isV r a →
    a < quantizedChunkKvBytes cfg chunkTokens L
  tile : ∀ a < quantizedChunkKvBytes cfg chunkTokens L, ∃! p : ℕ × Bool × QuantRegion,
    p.1 < L ∧ InRegion cfg chunkTokens p.1 p.2.1 p.2.2 a
  aligned : ∀ layer < L, ∀ isV,
    4 ∣ (quantizedKvOffsets cfg chunkTokens layer isV).q1Scale ∧
      4 ∣ (quantizedKvOffsets cfg chunkTokens layer isV).rScale

/-- The kernels compute the same regions: the decoder finds those of V, the quantizer writes into
those of its layer, and it reads the rows of its layer. -/
structure KernelsAgree (cfg : AttnConfig) (L f32Ptr chunkPtr : ℕ) : Prop where
  decoder : ∀ layer < L, ∀ r,
    ((quantizedKvOffsets cfg chunkTokens layer false).get r : ℤ) + kernelPerKv cfg chunkTokens =
      (quantizedKvOffsets cfg chunkTokens layer true).get r
  writes : ∀ layer < L, ∀ isV, ∀ vblock < kvQuantizeGrid cfg,
    ∀ w ∈ kvQuantizeWrites (kvQuantizeInst cfg chunkTokens f32Ptr chunkPtr layer isV) vblock,
      ∀ k < w.bytes, ∃ a : ℕ, w.addr + k = (chunkPtr + a : ℕ) ∧
        InRegion cfg chunkTokens layer isV w.region a
  reads : ∀ layer < L, ∀ isV, ∀ a : ℤ,
    (∃ vblock < kvQuantizeGrid cfg,
      ∃ r ∈ kvQuantizeReads (kvQuantizeInst cfg chunkTokens f32Ptr chunkPtr layer isV) vblock,
        r ≤ a ∧ a < r + 4) ↔
    ∃ h < cfg.numKvHeads, ∃ t < chunkTokens, ∃ o < cfg.headDim * f32Bytes,
      a = (f32Ptr + rowOffset cfg layer isV h t + o : ℕ)

/-! ### Tiling -/

section Tiling

variable {cfg : AttnConfig} {ct layer L a : ℕ} {isV : Bool} {r : QuantRegion}

/-- Where the part of a kind starts in the block of K or V of a layer. -/
def QuantRegion.start (cfg : AttnConfig) (ct : ℕ) : QuantRegion → ℕ
  | .q1Data => 0
  | .q1Scale => quantDataBytes cfg ct
  | .rData => quantDataBytes cfg ct + quantScaleBytes cfg
  | .rScale => 2 * quantDataBytes cfg ct + quantScaleBytes cfg

lemma get_eq (layer : ℕ) (isV : Bool) (r : QuantRegion) :
    (quantizedKvOffsets cfg ct layer isV).get r = regionBase cfg ct layer isV + r.start cfg ct := by
  rw [quantizedKvOffsets_eq]
  cases r <;> simp only [QuantOffsets.get, QuantRegion.start] <;> ring

/-- V of a layer follows its K. -/
lemma regionBase_true (layer : ℕ) :
    regionBase cfg ct layer true = regionBase cfg ct layer false + quantPerKv cfg ct := by
  simp only [regionBase, Bool.toNat_true, Bool.toNat_false]
  ring

/-- A region is a part of the block of K or V of its layer. -/
lemma inRegion_iff : InRegion cfg ct layer isV r a ↔
    ∃ o, a = regionBase cfg ct layer isV + o ∧ r.start cfg ct ≤ o ∧
      o < r.start cfg ct + r.size cfg ct := by
  rw [InRegion, get_eq]
  constructor
  · rintro ⟨hle, hlt⟩
    exact ⟨a - regionBase cfg ct layer isV, by omega, by omega, by omega⟩
  · rintro ⟨o, rfl, hle, hlt⟩
    omega

/-- The four parts lie inside the block. -/
lemma part_le (r : QuantRegion) : r.start cfg ct + r.size cfg ct ≤ quantPerKv cfg ct := by
  rw [quantPerKv]
  cases r <;> simp only [QuantRegion.start, QuantRegion.size] <;> omega

/-- Every byte of the block is in exactly one of them. -/
lemma existsUnique_part {o : ℕ} (ho : o < quantPerKv cfg ct) :
    ∃! r : QuantRegion, r.start cfg ct ≤ o ∧ o < r.start cfg ct + r.size cfg ct := by
  rw [quantPerKv] at ho
  have hunique : ∀ r r' : QuantRegion, r.start cfg ct ≤ o → o < r.start cfg ct + r.size cfg ct →
      r'.start cfg ct ≤ o → o < r'.start cfg ct + r'.size cfg ct → r' = r := by
    intro r r' h1 h2 h3 h4
    cases r <;> cases r' <;> simp only [QuantRegion.start, QuantRegion.size] at h1 h2 h3 h4 <;>
      first
        | rfl
        | omega
  have hpart : ∃ r : QuantRegion, r.start cfg ct ≤ o ∧ o < r.start cfg ct + r.size cfg ct := by
    by_cases h1 : o < quantDataBytes cfg ct
    · exact ⟨.q1Data, Nat.zero_le _, by simpa [QuantRegion.start, QuantRegion.size] using h1⟩
    by_cases h2 : o < quantDataBytes cfg ct + quantScaleBytes cfg
    · exact ⟨.q1Scale, Nat.le_of_not_lt h1, h2⟩
    by_cases h3 : o < 2 * quantDataBytes cfg ct + quantScaleBytes cfg
    · refine ⟨.rData, Nat.le_of_not_lt h2, ?_⟩
      simp only [QuantRegion.start, QuantRegion.size]
      omega
    · refine ⟨.rScale, Nat.le_of_not_lt h3, ?_⟩
      simp only [QuantRegion.start, QuantRegion.size]
      omega
  obtain ⟨r, hle, hlt⟩ := hpart
  exact ⟨r, ⟨hle, hlt⟩, fun r' h => hunique r r' hle hlt h.1 h.2⟩

/-- Blocks lie inside the chunk. -/
lemma regionBase_add_lt {o : ℕ} (hl : layer < L) (ho : o < quantPerKv cfg ct) :
    regionBase cfg ct layer isV + o < quantizedChunkKvBytes cfg ct L := by
  have hblock : 2 * layer + isV.toNat < 2 * L := by
    have := Bool.toNat_lt isV
    omega
  calc regionBase cfg ct layer isV + o
      < 2 * L * quantPerKv cfg ct := rowMajor_lt hblock ho
    _ = quantizedChunkKvBytes cfg ct L := by
        rw [quantizedChunkKvBytes]
        ring

/-- Every byte of the chunk is in a block. -/
lemma exists_block (ha : a < quantizedChunkKvBytes cfg ct L) :
    ∃ layer < L, ∃ isV, ∃ o < quantPerKv cfg ct, a = regionBase cfg ct layer isV + o := by
  have hpos : 0 < quantPerKv cfg ct := Nat.pos_of_ne_zero fun h0 => by
    rw [quantizedChunkKvBytes, h0, Nat.mul_zero] at ha
    cases ha
  have hblock : a / quantPerKv cfg ct < 2 * L := by
    refine Nat.div_lt_of_lt_mul (lt_of_lt_of_eq ha ?_)
    rw [quantizedChunkKvBytes]
    ring
  have hdigits := Nat.div_add_mod' a (quantPerKv cfg ct)
  set b := a / quantPerKv cfg ct with hb
  refine ⟨b / 2, by omega, decide (b % 2 = 1), a % quantPerKv cfg ct, Nat.mod_lt _ hpos, ?_⟩
  have hbit : 2 * (b / 2) + (decide (b % 2 = 1)).toNat = b := by
    rcases Nat.mod_two_eq_zero_or_one b with h | h <;> simp [h] <;> omega
  rw [regionBase, hbit, hdigits]

/-- **The regions of all layers tile the chunk.** -/
lemma existsUnique_region (ha : a < quantizedChunkKvBytes cfg ct L) :
    ∃! p : ℕ × Bool × QuantRegion, p.1 < L ∧ InRegion cfg ct p.1 p.2.1 p.2.2 a := by
  obtain ⟨layer, hl, isV, o, ho, rfl⟩ := exists_block ha
  obtain ⟨r, ⟨hle, hlt⟩, hunique⟩ := existsUnique_part ho
  refine ⟨(layer, isV, r), ⟨hl, inRegion_iff.mpr ⟨o, rfl, hle, hlt⟩⟩, ?_⟩
  rintro ⟨layer', isV', r'⟩ ⟨-, hin⟩
  obtain ⟨o', heq, hle', hlt'⟩ := inRegion_iff.mp hin
  obtain ⟨rfl, rfl, rfl⟩ := regionBase_inj ho (lt_of_lt_of_le hlt' (part_le r')) heq
  rw [hunique r' ⟨hle', hlt'⟩]

/-- Scales are aligned. -/
lemma scale_aligned (layer : ℕ) (isV : Bool) :
    4 ∣ (quantizedKvOffsets cfg chunkTokens layer isV).q1Scale ∧
      4 ∣ (quantizedKvOffsets cfg chunkTokens layer isV).rScale := by
  have hdata : quantDataBytes cfg chunkTokens = 4 * (8 * (cfg.numKvHeads * cfg.headDim)) := by
    rw [quantDataBytes_eq cfg (by decide), show chunkTokens / 2 = 32 from rfl]
    ring
  have hscale : quantScaleBytes cfg = 4 * (cfg.numKvHeads * cfg.headDim) := by
    rw [quantScaleBytes]
    ring
  have hbase : 4 ∣ regionBase cfg chunkTokens layer isV := by
    refine Dvd.dvd.mul_left ?_ _
    rw [quantPerKv, hdata, hscale]
    exact ⟨2 * (8 * (cfg.numKvHeads * cfg.headDim) + cfg.numKvHeads * cfg.headDim), by ring⟩
  rw [quantizedKvOffsets_eq]
  simp only
  omega

/-- The regions are the chunk, whatever the geometry. -/
lemma chunkTiled (cfg : AttnConfig) (L : ℕ) : ChunkTiled cfg L where
  inside := by
    intro layer hl isV r a hin
    obtain ⟨o, rfl, -, hlt⟩ := inRegion_iff.mp hin
    exact regionBase_add_lt hl (lt_of_lt_of_le hlt (part_le r))
  tile := fun _ ha => existsUnique_region ha
  aligned := fun layer _ isV => scale_aligned layer isV

end Tiling

/-! ### The decoder -/

lemma quantPerKv_eq (cfg : AttnConfig) {ct : ℕ} (heven : ct % 2 = 0) :
    quantPerKv cfg ct = (ct + 8) * (cfg.numKvHeads * cfg.headDim) := by
  have hct : 2 * (ct / 2) = ct := by omega
  rw [quantPerKv, quantDataBytes_eq cfg heven, quantScaleBytes]
  calc 2 * (cfg.numKvHeads * (ct / 2) * cfg.headDim + cfg.numKvHeads * cfg.headDim * 4)
      = (2 * (ct / 2) + 8) * (cfg.numKvHeads * cfg.headDim) := by ring
    _ = (ct + 8) * (cfg.numKvHeads * cfg.headDim) := by rw [hct]

/-- An `int` expression whose value is a natural number below `2^31`. -/
lemma int32_natCast {n : ℕ} (h : n < 2 ^ 31) : int32 n = n := toI32_of_lt h

lemma int32_lt (z : ℤ) : int32 z < 2 ^ 31 := by
  have h := Int.bmod_lt (x := z) (m := 2 ^ 32) (by decide)
  calc int32 z < (((2 ^ 32 : ℕ) : ℤ) + 1) / 2 := h
    _ = 2 ^ 31 := by norm_num

/-- Where `per_kv` fits, the factors of a channel count do, and the floats of a head. -/
lemma dims_lt {a b ct : ℕ} (hpos : 0 < a * b) (hint : (ct + 8) * (a * b) < 2 ^ 31) :
    a < 2 ^ 31 ∧ b < 2 ^ 31 ∧ ct * b < 2 ^ 31 ∧ a * ct < 2 ^ 31 ∧ ct * (a * b) < 2 ^ 31 ∧
      8 * (a * b) < 2 ^ 31 := by
  have ha : a ≤ a * b := Nat.le_mul_of_pos_right a (Nat.pos_of_mul_pos_left hpos)
  have hb : b ≤ a * b := Nat.le_mul_of_pos_left b (Nat.pos_of_mul_pos_right hpos)
  have hsum : (ct + 8) * (a * b) = ct * (a * b) + 8 * (a * b) := Nat.add_mul _ _ _
  have hcb : ct * b ≤ ct * (a * b) := Nat.mul_le_mul_left ct hb
  have hac : a * ct ≤ ct * (a * b) :=
    calc a * ct = ct * a := Nat.mul_comm a ct
      _ ≤ ct * (a * b) := Nat.mul_le_mul_left ct ha
  omega

/-- `per_kv` of the decoder is that of the layout, if it fits in an `int`. -/
lemma kernelPerKv_eq (cfg : AttnConfig) {ct : ℕ} (heven : ct % 2 = 0) (hct : ct ≤ 128)
    (hint : quantPerKv cfg ct < 2 ^ 31) : kernelPerKv cfg ct = quantPerKv cfg ct := by
  rw [quantPerKv_eq cfg heven] at hint ⊢
  set n := cfg.numKvHeads * cfg.headDim with hn
  rcases Nat.eq_zero_or_pos n with hzero | hpos
  · rw [hzero]
    have hint0 : int32 0 = 0 := rfl
    have htoI0 : toI32 0 = 0 := rfl
    rcases Nat.mul_eq_zero.mp (hn.symm.trans hzero) with h | h <;>
      simp only [kernelPerKv, h, htoI0, hint0, zero_mul, mul_zero, Int.zero_tdiv, add_zero,
        Nat.cast_zero]
  · obtain ⟨hheads, hdim, -, hrow, hdata, hscale⟩ := dims_lt hpos hint
    have hdata' : int32 (int32 (toI32 cfg.numKvHeads * toI32 ct) * toI32 cfg.headDim) =
        ((ct * n : ℕ) : ℤ) := by
      rw [toI32_of_lt hheads, toI32_of_lt (by omega), toI32_of_lt hdim, ← Nat.cast_mul,
        int32_natCast hrow, ← Nat.cast_mul,
        show cfg.numKvHeads * ct * cfg.headDim = ct * n by rw [hn]; ring]
      exact int32_natCast hdata
    have hscale' : int32 (int32 (toI32 cfg.numKvHeads * toI32 cfg.headDim) * 4) =
        ((4 * n : ℕ) : ℤ) := by
      rw [toI32_of_lt hheads, toI32_of_lt hdim, ← Nat.cast_mul, ← hn,
        int32_natCast (by omega), Nat.mul_comm 4 n]
      exact_mod_cast int32_natCast (n := n * 4) (by omega)
    have hhalf : ((ct * n : ℕ) : ℤ).tdiv 2 = ((ct / 2 * n : ℕ) : ℤ) := by
      have h2 : ct * n = ct / 2 * n * 2 := by
        rw [show ct / 2 * n * 2 = ct / 2 * 2 * n by ring, Nat.div_mul_cancel
          (Nat.dvd_of_mod_eq_zero heven)]
      rw [show (2 : ℤ) = ((2 : ℕ) : ℤ) from rfl, ← Int.ofNat_tdiv]
      exact congrArg _ (Nat.div_eq_of_eq_mul_left Nat.two_pos h2)
    have hdouble : 2 * (ct / 2 * n + 4 * n) = (ct + 8) * n := by
      have h2 : 2 * (ct / 2) = ct := by omega
      calc 2 * (ct / 2 * n + 4 * n) = (2 * (ct / 2) + 8) * n := by ring
        _ = (ct + 8) * n := by rw [h2]
    rw [kernelPerKv]
    simp only [hdata', hscale', hhalf]
    rw [← Nat.cast_add, int32_natCast (by omega)]
    rw [show 2 * ((ct / 2 * n + 4 * n : ℕ) : ℤ) = (((ct + 8) * n : ℕ) : ℤ) by
      rw [← hdouble]; push_cast; ring]
    exact int32_natCast hint

/-- For a chunk, `per_kv` of the decoder is right **exactly as long as it fits in an `int`**. -/
lemma kernelPerKv_eq_iff (cfg : AttnConfig) :
    kernelPerKv cfg chunkTokens = quantPerKv cfg chunkTokens ↔
      72 * (cfg.numKvHeads * cfg.headDim) < 2 ^ 31 := by
  have heq : quantPerKv cfg chunkTokens = 72 * (cfg.numKvHeads * cfg.headDim) :=
    quantPerKv_eq cfg (by decide)
  rw [← heq]
  constructor
  · intro h
    have hlt : (quantPerKv cfg chunkTokens : ℤ) < 2 ^ 31 := h ▸ int32_lt _
    exact_mod_cast hlt
  · exact kernelPerKv_eq cfg (by decide) (by decide)

/-! ### The quantizer -/

section Quantizer

variable {cfg : AttnConfig} {ct f32Ptr chunkPtr layer channel : ℕ} {isV : Bool}

/-- The place of a float of a channel among those of K or V of a layer. -/
def channelIdx (cfg : AttnConfig) (ct channel t : ℕ) : ℕ :=
  channel / cfg.headDim * ct * cfg.headDim + t * cfg.headDim + channel % cfg.headDim

lemma threadsBelow_natCast {n : ℕ} (h : n ≤ blockDim) : threadsBelow (n : ℤ) = List.range n := by
  obtain ⟨k, hk⟩ := Nat.exists_eq_add_of_le h
  have hbelow : ∀ tid ∈ List.range n, decide ((tid : ℤ) < n) = true := fun tid htid => by
    simpa using List.mem_range.mp htid
  have habove : ∀ tid ∈ (List.range k).map (n + ·), ¬ decide ((tid : ℤ) < n) = true := by
    intro tid htid
    obtain ⟨j, -, rfl⟩ := List.mem_map.mp htid
    simp
  rw [threadsBelow, hk, List.range_add, List.filter_append, List.filter_eq_self.mpr hbelow,
    List.filter_eq_nil_iff.mpr habove, List.append_nil]

/-- One thread packs a pair. -/
lemma threads_pairs (hct : ct ≤ 128) :
    threadsBelow ((toI32 ct).tdiv 2) = List.range (ct / 2) := by
  rw [toI32_of_lt (by omega), show (ct : ℤ).tdiv 2 = ((ct / 2 : ℕ) : ℤ) from rfl,
    threadsBelow_natCast (by rw [blockDim]; omega)]

/-- The `int`s of the blocks of an instruction do not overflow. -/
structure IntsFit (cfg : AttnConfig) (ct : ℕ) : Prop where
  heads : toI32 cfg.numKvHeads = cfg.numKvHeads
  dim : toI32 cfg.headDim = cfg.headDim
  tokens : toI32 ct = ct
  row : ∀ t ≤ ct, int32 ((t : ℤ) * cfg.headDim) = (t * cfg.headDim : ℕ)
  total : int32 ((cfg.numKvHeads : ℤ) * cfg.headDim) = (cfg.numKvHeads * cfg.headDim : ℕ)
  channel : ∀ channel < cfg.numKvHeads * cfg.headDim, toI32 channel = channel
  grid : kvQuantizeGrid cfg = cfg.numKvHeads * cfg.headDim

lemma intsFit (hct : ct ≤ 128) (hpos : 0 < cfg.numKvHeads * cfg.headDim)
    (hchannels : cfg.numKvHeads * cfg.headDim < 2 ^ 31) (hrow : ct * cfg.headDim < 2 ^ 31) :
    IntsFit cfg ct := by
  have hheads : cfg.numKvHeads ≤ cfg.numKvHeads * cfg.headDim :=
    Nat.le_mul_of_pos_right _ (Nat.pos_of_mul_pos_left hpos)
  have hdim : cfg.headDim ≤ cfg.numKvHeads * cfg.headDim :=
    Nat.le_mul_of_pos_left _ (Nat.pos_of_mul_pos_right hpos)
  refine ⟨toI32_of_lt (by omega), toI32_of_lt (by omega), toI32_of_lt (by omega), fun t ht => ?_,
    ?_, fun channel hc => toI32_of_lt (hc.trans hchannels), Nat.mod_eq_of_lt (by omega)⟩
  · rw [← Nat.cast_mul]
    exact int32_natCast (lt_of_le_of_lt (Nat.mul_le_mul_right _ ht) hrow)
  · rw [← Nat.cast_mul]
    exact int32_natCast hchannels

/-- They do not where `per_kv` fits. -/
lemma intsFit_of_perKv (hct : ct ≤ 128) (hint : (ct + 8) * (cfg.numKvHeads * cfg.headDim) < 2 ^ 31)
    (hc : channel < cfg.numKvHeads * cfg.headDim) : IntsFit cfg ct := by
  have hpos := Nat.zero_lt_of_lt hc
  obtain ⟨-, -, hrow, -, -, hchannels⟩ := dims_lt hpos hint
  exact intsFit hct hpos (by omega) hrow

namespace IntsFit

variable (h : IntsFit cfg ct) (hc : channel < cfg.numKvHeads * cfg.headDim)

include h hc

/-- The guard of a block lets its channel pass. -/
lemma guard : ¬ int32 (toI32 cfg.numKvHeads * toI32 cfg.headDim) ≤ toI32 channel := by
  rw [h.heads, h.dim, h.total, h.channel channel hc]
  exact not_le.mpr (by exact_mod_cast hc)

lemma dataIdx {pair : ℕ} (hp : pair < ct / 2) :
    (toI32 channel).tdiv (toI32 cfg.headDim) * (toI32 ct).tdiv 2 * toI32 cfg.headDim +
        int32 (pair * toI32 cfg.headDim) + (toI32 channel).tmod (toI32 cfg.headDim) =
      (QuantSlot.dataIdx cfg ct channel pair : ℕ) := by
  rw [h.channel channel hc, h.dim, h.tokens, h.row pair (by omega), ← Int.ofNat_tdiv,
    ← Int.ofNat_tmod, show (ct : ℤ).tdiv 2 = ((ct / 2 : ℕ) : ℤ) from rfl, QuantSlot.dataIdx]
  push_cast
  ring

lemma channelIdx {t : ℕ} (ht : t < ct) :
    (toI32 channel).tdiv (toI32 cfg.headDim) * toI32 ct * toI32 cfg.headDim +
        int32 (t * toI32 cfg.headDim) + (toI32 channel).tmod (toI32 cfg.headDim) =
      (channelIdx cfg ct channel t : ℕ) := by
  rw [h.channel channel hc, h.dim, h.tokens, h.row t ht.le, ← Int.ofNat_tdiv, ← Int.ofNat_tmod,
    Megakernel.channelIdx]
  push_cast
  ring

end IntsFit

/-- The writes of a block, without overflow. -/
lemma kvQuantizeWrites_eq (hct : ct ≤ 128)
    (hint : (ct + 8) * (cfg.numKvHeads * cfg.headDim) < 2 ^ 31)
    (hc : channel < cfg.numKvHeads * cfg.headDim) :
    kvQuantizeWrites (kvQuantizeInst cfg ct f32Ptr chunkPtr layer isV) channel =
      let off := quantizedKvOffsets cfg ct layer isV
      (List.range (ct / 2)).flatMap (fun pair =>
          let dataIdx := QuantSlot.dataIdx cfg ct channel pair
          [⟨.q1Data, (chunkPtr + off.q1Data + dataIdx : ℕ), 1⟩,
            ⟨.rData, (chunkPtr + off.rData + dataIdx : ℕ), 1⟩]) ++
        [⟨.q1Scale, (chunkPtr + off.q1Scale + 4 * channel : ℕ), 4⟩,
          ⟨.rScale, (chunkPtr + off.rScale + 4 * channel : ℕ), 4⟩] := by
  have hfit := intsFit_of_perKv hct hint hc
  simp only [kvQuantizeWrites, kvQuantizeInst, if_neg (hfit.guard hc), threads_pairs hct]
  refine congrArg₂ (· ++ ·) (List.flatMap_congr fun pair hpair => ?_) ?_
  · rw [hfit.dataIdx hc (List.mem_range.mp hpair), ← Nat.cast_add, ← Nat.cast_add]
  · simp only [hfit.channel channel hc, Nat.cast_add, Nat.cast_mul, Nat.cast_ofNat]

/-- A block writes into the regions of its layer. -/
lemma kvQuantizeWrites_inRegion (hint : 72 * (cfg.numKvHeads * cfg.headDim) < 2 ^ 31)
    (hc : channel < cfg.numKvHeads * cfg.headDim) {w : KvWrite}
    (hw : w ∈ kvQuantizeWrites (kvQuantizeInst cfg chunkTokens f32Ptr chunkPtr layer isV) channel)
    {k : ℕ} (hk : k < w.bytes) :
    ∃ a : ℕ, w.addr + k = (chunkPtr + a : ℕ) ∧ InRegion cfg chunkTokens layer isV w.region a := by
  simp only [kvQuantizeWrites_eq (by decide : chunkTokens ≤ 128) hint hc, List.mem_append,
    List.mem_flatMap, List.mem_range, List.mem_cons, List.not_mem_nil, or_false] at hw
  set off := quantizedKvOffsets cfg chunkTokens layer isV with hoff
  have hdata : ∀ pair < 32, QuantSlot.dataIdx cfg chunkTokens channel pair <
      quantDataBytes cfg chunkTokens := fun pair hp => QuantSlot.dataIdx_lt (by decide) hc hp
  -- a place in a region, counted from its start
  have hplace : ∀ r o, o < QuantRegion.size cfg chunkTokens r →
      InRegion cfg chunkTokens layer isV r (off.get r + o) := fun r o ho =>
    ⟨Nat.le_add_right _ _, Nat.add_lt_add_left ho _⟩
  obtain ⟨pair, hp, rfl | rfl⟩ | rfl | rfl := hw
  · refine ⟨_, ?_, hplace .q1Data _ (hdata pair hp)⟩
    have hk0 : k = 0 := Nat.lt_one_iff.mp hk
    rw [hk0, Nat.add_assoc]
    exact add_zero _
  · refine ⟨_, ?_, hplace .rData _ (hdata pair hp)⟩
    have hk0 : k = 0 := Nat.lt_one_iff.mp hk
    rw [hk0, Nat.add_assoc]
    exact add_zero _
  · refine ⟨_, ?_, hplace .q1Scale (4 * channel + k) (QuantSlot.scaleIdx_lt hc hk)⟩
    rw [QuantOffsets.get]
    push_cast
    ring
  · refine ⟨_, ?_, hplace .rScale (4 * channel + k) (QuantSlot.scaleIdx_lt hc hk)⟩
    rw [QuantOffsets.get]
    push_cast
    ring

/-- The floats a block reads, without overflow: those of its channel. -/
lemma kvQuantizeReads_eq (hct : ct ≤ 128)
    (hint : (ct + 8) * (cfg.numKvHeads * cfg.headDim) < 2 ^ 31)
    (hc : channel < cfg.numKvHeads * cfg.headDim) :
    kvQuantizeReads (kvQuantizeInst cfg ct f32Ptr chunkPtr layer isV) channel =
      (List.range ct).map fun t =>
        (((kvQuantizeInst cfg ct f32Ptr chunkPtr layer isV).src +
          4 * channelIdx cfg ct channel t : ℕ) : ℤ) := by
  have hfit := intsFit_of_perKv hct hint hc
  have hthreads : threadsBelow (toI32 ct) = List.range ct := by
    rw [hfit.tokens, threadsBelow_natCast (by rw [blockDim]; omega)]
  simp only [kvQuantizeReads, kvQuantizeInst, if_neg (hfit.guard hc), hthreads]
  refine List.map_congr_left fun t ht => ?_
  rw [hfit.channelIdx hc (List.mem_range.mp ht)]
  push_cast
  ring

/-- They are in the rows of its head. -/
lemma kvQuantizeReads_row (hint : 72 * (cfg.numKvHeads * cfg.headDim) < 2 ^ 31)
    (hc : channel < cfg.numKvHeads * cfg.headDim) :
    kvQuantizeReads (kvQuantizeInst cfg chunkTokens f32Ptr chunkPtr layer isV) channel =
      (List.range chunkTokens).map fun t =>
        ((f32Ptr + rowOffset cfg layer isV (channel / cfg.headDim) t +
          4 * (channel % cfg.headDim) : ℕ) : ℤ) := by
  have hsrc : (kvQuantizeInst cfg chunkTokens f32Ptr chunkPtr layer isV).src =
      f32Ptr + rowOffset cfg layer isV 0 0 := by
    rw [kvQuantizeInst, rowOffset, rowIndex]
    cases isV with
    | false =>
        simp only [Bool.false_eq_true, if_false, Bool.toNat_false]
        ring
    | true =>
        simp only [if_true, Bool.toNat_true]
        ring
  have hreads := @kvQuantizeReads_eq cfg chunkTokens f32Ptr chunkPtr layer channel isV (by decide)
    hint hc
  rw [hreads, hsrc]
  refine List.map_congr_left fun t _ => congrArg _ ?_
  rw [channelIdx, rowOffset, rowOffset, rowIndex, rowIndex, f32Bytes]
  ring

/-- The blocks of an instruction read **exactly the rows of their layer**. -/
lemma kvQuantizeReads_rows (hint : 72 * (cfg.numKvHeads * cfg.headDim) < 2 ^ 31) (a : ℤ) :
    (∃ vblock < cfg.numKvHeads * cfg.headDim,
      ∃ r ∈ kvQuantizeReads (kvQuantizeInst cfg chunkTokens f32Ptr chunkPtr layer isV) vblock,
        r ≤ a ∧ a < r + 4) ↔
    ∃ h < cfg.numKvHeads, ∃ t < chunkTokens, ∃ o < cfg.headDim * f32Bytes,
      a = (f32Ptr + rowOffset cfg layer isV h t + o : ℕ) := by
  constructor
  · rintro ⟨channel, hc, r, hr, hle, hlt⟩
    rw [kvQuantizeReads_row hint hc] at hr
    obtain ⟨t, ht, rfl⟩ := List.mem_map.mp hr
    obtain ⟨hpos, hhead⟩ := QuantSlot.head_lt hc
    have hdim := Nat.mod_lt channel hpos
    refine ⟨_, hhead, t, List.mem_range.mp ht,
      4 * (channel % cfg.headDim) + (a - (f32Ptr + rowOffset cfg layer isV
        (channel / cfg.headDim) t + 4 * (channel % cfg.headDim) : ℕ)).toNat, ?_, ?_⟩
    · rw [f32Bytes]
      omega
    · omega
  · rintro ⟨h, hh, t, ht, o, ho, rfl⟩
    rw [f32Bytes] at ho
    have hdim : o / 4 < cfg.headDim := by omega
    have hc : h * cfg.headDim + o / 4 < cfg.numKvHeads * cfg.headDim := rowMajor_lt hh hdim
    refine ⟨_, hc, ((f32Ptr + rowOffset cfg layer isV h t + 4 * (o / 4) : ℕ) : ℤ), ?_, ?_, ?_⟩
    · rw [kvQuantizeReads_row hint hc, rowMajor_div hdim, rowMajor_mod hdim]
      exact List.mem_map_of_mem (List.mem_range.mpr ht)
    · exact_mod_cast (by omega)
    · push_cast
      omega

end Quantizer

/-- **The layout of quantized chunks.**  The regions of all layers tile the chunk, scales aligned,
for every geometry; the `int`s of the kernels agree with it as long as `per_kv` is one. -/
theorem quantLayout_agrees (cfg : AttnConfig) (L f32Ptr chunkPtr : ℕ) :
    ChunkTiled cfg L ∧ (KernelsAgree cfg L f32Ptr chunkPtr ↔
      L = 0 ∨ 72 * (cfg.numKvHeads * cfg.headDim) < 2 ^ 31) := by
  refine ⟨chunkTiled cfg L, ?_, ?_⟩
  · intro hagree
    refine or_iff_not_imp_left.mpr fun hL => (kernelPerKv_eq_iff cfg).mp ?_
    have hdecoder := hagree.decoder 0 (Nat.pos_of_ne_zero hL) .q1Data
    simp only [quantizedKvOffsets_eq, QuantOffsets.get, regionBase, Bool.toNat_false,
      Bool.toNat_true, Nat.mul_zero, Nat.zero_mul, Nat.one_mul, Nat.cast_zero, zero_add] at hdecoder
    exact hdecoder
  · rintro (rfl | hint)
    · exact ⟨fun _ h => absurd h (Nat.not_lt_zero _), fun _ h => absurd h (Nat.not_lt_zero _),
        fun _ h => absurd h (Nat.not_lt_zero _)⟩
    have hgrid : kvQuantizeGrid cfg = cfg.numKvHeads * cfg.headDim :=
      Nat.mod_eq_of_lt (by omega)
    refine ⟨fun layer _ r => ?_, fun layer _ isV vblock hvb w hw k hk => ?_,
      fun layer _ isV a => ?_⟩
    · rw [(kernelPerKv_eq_iff cfg).mpr hint, get_eq, get_eq, regionBase_true]
      push_cast
      ring
    · exact kvQuantizeWrites_inRegion hint (hgrid ▸ hvb) hw hk
    · rw [hgrid]
      exact kvQuantizeReads_rows hint a

/-- With `2^17` KV heads of 256 the decoder's `per_kv` has overflowed. -/
theorem quantLayout_differs_beyond_int :
    ¬ ∀ (cfg : AttnConfig) (L f32Ptr chunkPtr : ℕ),
      ChunkTiled cfg L ∧ KernelsAgree cfg L f32Ptr chunkPtr := by
  intro hall
  let cfg : AttnConfig :=
    { hiddenSize := 2 ^ 25, numQHeads := 2 ^ 17, numKvHeads := 2 ^ 17, headDim := 256,
      ropeDim := 256, hasOutputGate := false, hasQkNorm := false, mropeSections := (0, 0, 0),
      rmsNormEps := 0 }
  have hdecoder := (hall cfg 1 0 0).2.decoder 0 Nat.one_pos .q1Data
  revert hdecoder
  decide

end Braidinfer.Megakernel
