/-
Int4 quantization of a channel of a sealed chunk and the layout of its bytes
(`kernels/megakernel_ops.hip`, `op_kv_quantize`; `paged_kv.rs`, `quantized_kv_offsets`).

Per channel the quantizer takes a scale from the largest value, rounds to integers in
`[-8, 7]`, and does the same once more with what is left.  The integers of two tokens share a
byte.  Floats are rational numbers here; a float in memory takes four bytes.

* `quantizePasses_spec`: what a block computes in shared memory;
* `abs_sub_stages_le`: the two stages are within `max / 196` of the value;
* `QuantSlot.offset_inj`, `regionBase_inj`: **every byte of a chunk is for one thing**;
* `nibble_packNibbles`: a token reads back its integer from the byte of its pair.
-/
import Braidinfer.Lib.Quantize
import Braidinfer.Lib.RowMem
import Braidinfer.Lib.TreeReduce
import Braidinfer.Megakernel.Attention
import Mathlib.Data.Rat.Floor

namespace Braidinfer.Megakernel

open Braidinfer.Lib

/-! ### Memory -/

/-- A byte of a quantized chunk: a byte of packed integers, or byte `k` of a float. -/
inductive QuantCell
  | byte (b : BitVec 8)
  | float (x : ℚ) (k : ℕ)
deriving DecidableEq

/-- The memory that holds quantized chunks, by address: pointers are moved by signed offsets. -/
abbrev QuantMem := ℤ → QuantCell

/-- Read a byte of packed integers; a byte of a float would be read as something else. -/
def readByte (m : QuantMem) (a : ℤ) : BitVec 8 :=
  match m a with
  | .byte b => b
  | .float _ _ => 0

/-- Read a float; four bytes that are not those of one float would be read as something
else. -/
def readFloat (m : QuantMem) (a : ℤ) : ℚ :=
  match m a with
  | .byte _ => 0
  | .float x _ => if (List.range 4).all fun k : ℕ => m (a + k) = .float x k then x else 0

/-- The stores of a float. -/
def floatStores (a : ℤ) (x : ℚ) : List (ℤ × QuantCell) :=
  (List.range 4).map fun k : ℕ => (a + k, .float x k)

/-! ### The layout -/

variable (cfg : AttnConfig) (ct : ℕ)

/-- Bytes of the packed integers of one stage, for K or V of one layer. -/
def quantDataBytes : ℕ := cfg.numKvHeads * ct * cfg.headDim / 2

/-- Bytes of the scales of one stage. -/
def quantScaleBytes : ℕ := cfg.numKvHeads * cfg.headDim * 4

/-- `per_kv`. -/
def quantPerKv : ℕ := 2 * (quantDataBytes cfg ct + quantScaleBytes cfg)

/-- Where the two stages of K or V of a layer are in a chunk. -/
structure QuantOffsets where
  q1Data : ℕ
  q1Scale : ℕ
  rData : ℕ
  rScale : ℕ

/-- `quantized_kv_offsets`. -/
def quantizedKvOffsets (layerAttnIdx : ℕ) (isValue : Bool) : QuantOffsets :=
  let dataBytes := quantDataBytes cfg ct
  let scaleBytes := quantScaleBytes cfg
  let perLayer := 2 * quantPerKv cfg ct
  let base := layerAttnIdx * perLayer + if isValue then quantPerKv cfg ct else 0
  { q1Data := base, q1Scale := base + dataBytes, rData := base + dataBytes + scaleBytes,
    rScale := base + 2 * dataBytes + scaleBytes }

/-! ### The quantizer -/

/-- Shared memory of a block, in floats. -/
abbrev Shared := ℕ → ℚ

/-- `KvQuantizeInst`. -/
structure KvQuantizeInst where
  src : ℕ
  q1Data : ℕ
  q1Scale : ℕ
  rData : ℕ
  rScale : ℕ
  numKvHeads : ℕ
  headDim : ℕ
  chunkTokens : ℕ

/-- Threads of a block. -/
def blockDim : ℕ := 256

/-- `shmem[256 + tid] = local`. -/
def storeLocal (value : ℕ → ℚ) (sh : Shared) : Shared := fun a =>
  if 256 ≤ a ∧ a - 256 < blockDim then value (a - 256) else sh a

/-- `if (tid < s) shmem[256 + tid] = fmaxf(shmem[256 + tid], shmem[256 + tid + s])`. -/
def reduceStep (sh : Shared) (s : ℕ) : Shared := fun a =>
  if 256 ≤ a ∧ a - 256 < s then max (sh a) (sh (a + s)) else sh a

/-- The loop over `s = 128; s > 0; s >>= 1`. -/
def reduceMax (sh : Shared) : Shared := [128, 64, 32, 16, 8, 4, 2, 1].foldl reduceStep sh

/-- The largest `|shmem[off + tid]|`, as every thread reads it from `shmem[256]`. -/
def blockMax (ct off : ℕ) (sh : Shared) : Shared :=
  reduceMax (storeLocal (fun tid => if tid < ct then |sh (off + tid)| else 0) sh)

/-- `(max_val > 0.0f) ? max_val / 7.0f : 1.0f`. -/
def scaleOf (maxVal : ℚ) : ℚ := if 0 < maxVal then maxVal / 7 else 1

/-- `max(-8, min(7, __float2int_rn(x)))`. -/
def clampedRound (x : ℚ) : ℤ := max (-8) (min 7 (roundHalfEven x))

/-- `(int)x`. -/
def truncInt (x : ℚ) : ℤ := if 0 ≤ x then ⌊x⌋ else ⌈x⌉

/-- `((unsigned char)(odd & 0xF) << 4) | ((unsigned char)(even & 0xF))`. -/
def packNibbles (even odd : ℤ) : BitVec 8 :=
  ((BitVec.ofInt 32 odd &&& 0xF#32).setWidth 8 <<< 4) |||
    (BitVec.ofInt 32 even &&& 0xF#32).setWidth 8

/-- `vals[tid] = (float)q` and `residuals[tid] = v - (float)q * s1`. -/
def quantizeVals (ct : ℕ) (s1 : ℚ) (sh : Shared) : Shared := fun a =>
  let invS1 := 1 / s1
  if a < ct ∧ a < blockDim then clampedRound (sh a * invS1)
  else if ct ≤ a ∧ a - ct < ct ∧ a - ct < blockDim then
    sh (a - ct) - clampedRound (sh (a - ct) * invS1) * s1
  else sh a

/-- `residuals[tid] = (float)max(-8, min(7, q))`. -/
def quantizeResiduals (ct : ℕ) (s2 : ℚ) (sh : Shared) : Shared := fun a =>
  let invS2 := 1 / s2
  if ct ≤ a ∧ a - ct < ct ∧ a - ct < blockDim then clampedRound (sh a * invS2) else sh a

/-- Both passes of `op_kv_quantize` over the loaded values: shared memory behind the last barrier,
and the two scales. -/
def quantizePasses (ct : ℕ) (sh : Shared) : Shared × ℚ × ℚ :=
  -- pass 1
  let sh := blockMax ct 0 sh
  let s1 := scaleOf (sh 256)
  let sh := quantizeVals ct s1 sh
  -- pass 2
  let sh := blockMax ct ct sh
  let s2 := scaleOf (sh 256)
  (quantizeResiduals ct s2 sh, s1, s2)

/-- The instruction for K or V of a layer. -/
def kvQuantizeInst (f32Ptr chunkPtr layer : ℕ) (isV : Bool) : KvQuantizeInst :=
  let kvStride := cfg.numKvHeads * cfg.headDim
  let f32Base := f32Ptr + layer * (2 * ct * kvStride * f32Bytes)
  let off := quantizedKvOffsets cfg ct layer isV
  { src := if isV then f32Base + ct * kvStride * f32Bytes else f32Base,
    q1Data := chunkPtr + off.q1Data, q1Scale := chunkPtr + off.q1Scale,
    rData := chunkPtr + off.rData, rScale := chunkPtr + off.rScale,
    numKvHeads := cfg.numKvHeads, headDim := cfg.headDim, chunkTokens := ct }

/-! ### The nibbles -/

/-- The integer of token `t` in a byte, with its sign. -/
def nibble (t : ℕ) (b : BitVec 8) : ℤ :=
  let n : ℤ := if t % 2 = 0 then (b &&& 0xF#8).toNat else ((b >>> 4) &&& 0xF#8).toNat
  if 7 < n then n - 16 else n

/-! ### The two stages -/

variable {cfg ct}

/-- The scale of the first stage, for the values `v` of a channel. -/
def q1Scale (ct : ℕ) (v : ℕ → ℚ) : ℚ := quantScale 7 (maxAbs v ct)

/-- The integer of the first stage, not clamped. -/
def q1Of (ct : ℕ) (v : ℕ → ℚ) (t : ℕ) : ℤ := roundHalfEven (v t * (1 / q1Scale ct v))

/-- What the first stage leaves. -/
def residual (ct : ℕ) (v : ℕ → ℚ) (t : ℕ) : ℚ := v t - q1Of ct v t * q1Scale ct v

/-- The scale of the second stage. -/
def rScale (ct : ℕ) (v : ℕ → ℚ) : ℚ := quantScale 7 (maxAbs (residual ct v) ct)

/-- The integer of the second stage, not clamped. -/
def rOf (ct : ℕ) (v : ℕ → ℚ) (t : ℕ) : ℤ := roundHalfEven (residual ct v t * (1 / rScale ct v))

variable {v : ℕ → ℚ} {t : ℕ}

lemma abs_q1Of_le (ht : t < ct) : |q1Of ct v t| ≤ 7 :=
  abs_quant_le (n := 7) (by decide) (le_maxAbs ht)

lemma abs_rOf_le (ht : t < ct) : |rOf ct v t| ≤ 7 :=
  abs_quant_le (n := 7) (by decide) (le_maxAbs ht)

/-- The first stage leaves at most a fourteenth. -/
lemma abs_residual_le (ht : t < ct) : |residual ct v t| ≤ maxAbs v ct / 14 := by
  have herr := abs_sub_quant_le (n := 7) (by decide) (le_maxAbs (f := v) ht)
  norm_num at herr
  rwa [residual, q1Of, q1Scale, one_div]

/-- **The two stages together are within a hundred and ninety-sixth.** -/
theorem abs_sub_stages_le (ht : t < ct) :
    |v t - (q1Of ct v t * q1Scale ct v + rOf ct v t * rScale ct v)| ≤ maxAbs v ct / 196 := by
  have hbound : maxAbs (residual ct v) ct ≤ maxAbs v ct / 14 :=
    maxAbs_le (div_nonneg maxAbs_nonneg (by norm_num)) fun i hi => abs_residual_le hi
  calc |v t - (q1Of ct v t * q1Scale ct v + rOf ct v t * rScale ct v)|
      = |residual ct v t - rOf ct v t * rScale ct v| := by rw [residual, sub_sub]
    _ ≤ maxAbs (residual ct v) ct / (2 * (7 : ℕ)) :=
        abs_sub_quant_le (n := 7) (by decide) (le_maxAbs ht)
    _ ≤ maxAbs v ct / 14 / (2 * (7 : ℕ)) := by gcongr
    _ = maxAbs v ct / 196 := by rw [div_div]; norm_num

/-! ### Shared memory -/

variable {sh : Shared} {off : ℕ}

lemma scaleOf_eq (m : ℚ) : scaleOf m = quantScale 7 m := by simp [scaleOf, quantScale]

/-- The clamp does not change an integer in range. -/
lemma clampedRound_eq {x : ℚ} (hx : |roundHalfEven x| ≤ 7) : clampedRound x = roundHalfEven x := by
  have h := abs_le.mp hx
  rw [clampedRound]
  omega

lemma reduceStep_of_lt {a s : ℕ} (ha : a < 256) : reduceStep sh s a = sh a :=
  if_neg fun h => Nat.not_le.mpr ha h.1

lemma reduceStep_add (s i : ℕ) :
    reduceStep sh s (256 + i) = halve s (fun i => sh (256 + i)) i := by
  simp [reduceStep, halve, Nat.add_assoc]

/-- The reduction leaves what is below its region, and its loop halves the region. -/
lemma foldl_reduceStep (steps : List ℕ) (sh : Shared) :
    (∀ a < 256, steps.foldl reduceStep sh a = sh a) ∧
      (fun i => steps.foldl reduceStep sh (256 + i)) =
        steps.foldl (fun a s => halve s a) fun i => sh (256 + i) := by
  induction steps generalizing sh with
  | nil => exact ⟨fun _ _ => rfl, rfl⟩
  | cons s steps ih =>
      obtain ⟨hlow, hhigh⟩ := ih (reduceStep sh s)
      refine ⟨fun a ha => (hlow a ha).trans (reduceStep_of_lt ha), ?_⟩
      rw [List.foldl_cons, List.foldl_cons, hhigh]
      exact congrArg (steps.foldl fun a s => halve s a) (funext fun i => reduceStep_add s i)

/-- **`shmem[256]` is the largest absolute value**, and the values stay. -/
lemma blockMax_spec (hct : ct ≤ 128) (hv : ∀ t < ct, sh (off + t) = v t) :
    blockMax ct off sh 256 = maxAbs v ct ∧ ∀ a < 256, blockMax ct off sh a = sh a := by
  set x : ℕ → ℚ := fun tid => if tid < ct then |sh (off + tid)| else 0 with hx
  have hxv : ∀ tid < ct, x tid = |v tid| := fun tid htid => by rw [hx]; simp [htid, hv tid htid]
  obtain ⟨hlow, hhigh⟩ := foldl_reduceStep [128, 64, 32, 16, 8, 4, 2, 1] (storeLocal x sh)
  have hstore : ∀ i < 256, storeLocal x sh (256 + i) = x i := fun i hi => by
    simp [storeLocal, blockDim, hi]
  have hgreatest : IsGreatest ((fun i => storeLocal x sh (256 + i)) '' Set.Iio (2 ^ 8))
      (blockMax ct off sh 256) := by
    have hmax := isGreatest_treeMax 8 fun i => storeLocal x sh (256 + i)
    rwa [show treeMax 8 (fun i => storeLocal x sh (256 + i)) 0 = blockMax ct off sh 256 from
      (congrFun hhigh 0).symm] at hmax
  refine ⟨le_antisymm ?_ (maxAbs_le ?_ fun i hi => ?_), fun a ha => (hlow a ha).trans ?_⟩
  · obtain ⟨i, hi, hval⟩ := hgreatest.1
    rw [← hval]
    change storeLocal x sh (256 + i) ≤ _
    rw [hstore i hi]
    by_cases hlt : i < ct
    · rw [hxv i hlt]
      exact le_maxAbs hlt
    · rw [hx]
      simp only [if_neg hlt]
      exact maxAbs_nonneg
  · -- the last thread has no value
    have hlast := hgreatest.2 ⟨255, by simp, rfl⟩
    simp only [hstore 255 (by decide)] at hlast
    have hzero : x 255 = 0 := if_neg (by omega)
    rwa [hzero] at hlast
  · have hle := hgreatest.2 ⟨i, Set.mem_Iio.mpr (by omega), rfl⟩
    simp only [hstore i (by omega)] at hle
    rwa [hxv i hi] at hle
  · exact if_neg fun h => Nat.not_le.mpr ha h.1

lemma quantizeVals_vals (hct : ct ≤ 128) (ht : t < ct) (s1 : ℚ) :
    quantizeVals ct s1 sh t = clampedRound (sh t * (1 / s1)) :=
  if_pos ⟨ht, by rw [blockDim]; omega⟩

lemma quantizeVals_residuals (hct : ct ≤ 128) (ht : t < ct) (s1 : ℚ) :
    quantizeVals ct s1 sh (ct + t) = sh t - clampedRound (sh t * (1 / s1)) * s1 := by
  have hdim : t < blockDim := by rw [blockDim]; omega
  simp [quantizeVals, ht, hdim]

lemma quantizeResiduals_vals (ht : t < ct) (s2 : ℚ) : quantizeResiduals ct s2 sh t = sh t :=
  if_neg fun h => Nat.not_le.mpr ht h.1

lemma quantizeResiduals_residuals (hct : ct ≤ 128) (ht : t < ct) (s2 : ℚ) :
    quantizeResiduals ct s2 sh (ct + t) = clampedRound (sh (ct + t) * (1 / s2)) := by
  have hdim : t < blockDim := by rw [blockDim]; omega
  simp [quantizeResiduals, ht, hdim]

/-- `(int)` of an integer. -/
@[simp] lemma truncInt_intCast (q : ℤ) : truncInt (q : ℚ) = q := by simp [truncInt]

/-- **What a block computes**: the integers of both stages, not clamped, and the scales. -/
lemma quantizePasses_spec (hct : ct ≤ 128) (hv : ∀ t < ct, sh t = v t) :
    (∀ t < ct, (quantizePasses ct sh).1 t = q1Of ct v t) ∧
      (∀ t < ct, (quantizePasses ct sh).1 (ct + t) = rOf ct v t) ∧
      (quantizePasses ct sh).2 = (q1Scale ct v, rScale ct v) := by
  -- the largest value
  have h₁ : ∀ t < ct, sh (0 + t) = v t := fun t ht => by rw [Nat.zero_add, hv t ht]
  obtain ⟨hmax₁, hkeep₁⟩ := blockMax_spec hct h₁
  set sh₂ := blockMax ct 0 sh with hsh₂
  have h₂ : ∀ t < ct, sh₂ t = v t := fun t ht => by rw [hkeep₁ t (by omega), hv t ht]
  have hs1 : scaleOf (sh₂ 256) = q1Scale ct v := by rw [hmax₁, scaleOf_eq, q1Scale]
  -- the integers of the first stage, and what they leave
  set sh₃ := quantizeVals ct (scaleOf (sh₂ 256)) sh₂ with hsh₃
  have hq : ∀ t < ct, clampedRound (sh₂ t * (1 / scaleOf (sh₂ 256))) = q1Of ct v t := fun t ht => by
    rw [hs1, h₂ t ht]
    exact clampedRound_eq (abs_q1Of_le ht)
  have hvals₃ : ∀ t < ct, sh₃ t = q1Of ct v t := fun t ht => by
    rw [hsh₃, quantizeVals_vals hct ht, hq t ht]
  have hres₃ : ∀ t < ct, sh₃ (ct + t) = residual ct v t := fun t ht => by
    rw [hsh₃, quantizeVals_residuals hct ht, hq t ht, h₂ t ht, hs1, residual]
  obtain ⟨hmax₃, hkeep₃⟩ := blockMax_spec hct hres₃
  set sh₄ := blockMax ct ct sh₃ with hsh₄
  have hs2 : scaleOf (sh₄ 256) = rScale ct v := by rw [hmax₃, scaleOf_eq, rScale]
  -- the integers of the second stage
  refine ⟨fun t ht => ?_, fun t ht => ?_, Prod.ext hs1 hs2⟩
  · change quantizeResiduals ct (scaleOf (sh₄ 256)) sh₄ t = _
    rw [quantizeResiduals_vals ht, hkeep₃ t (by omega), hvals₃ t ht]
  · change quantizeResiduals ct (scaleOf (sh₄ 256)) sh₄ (ct + t) = _
    rw [quantizeResiduals_residuals hct ht, hkeep₃ _ (by omega), hres₃ t ht, hs2]
    exact congrArg _ (clampedRound_eq (abs_rOf_le ht))

/-! ### The bytes of a chunk -/

/-- What a byte of the region of one channel is for. -/
inductive QuantSlot
  | q1Data (pair : ℕ)
  | q1Scale (k : ℕ)
  | rData (pair : ℕ)
  | rScale (k : ℕ)
deriving DecidableEq

namespace QuantSlot

/-- There are `ct / 2` pairs, and four bytes to a scale. -/
def Valid (ct : ℕ) : QuantSlot → Prop
  | q1Data pair | rData pair => pair < ct / 2
  | q1Scale k | rScale k => k < 4

/-- Place of the byte of a pair among those of all channels. -/
def dataIdx (cfg : AttnConfig) (ct channel pair : ℕ) : ℕ :=
  (channel / cfg.headDim * (ct / 2) + pair) * cfg.headDim + channel % cfg.headDim

/-- Place of a byte in the region of K or V of a layer. -/
def offset (cfg : AttnConfig) (ct channel : ℕ) : QuantSlot → ℕ
  | q1Data pair => dataIdx cfg ct channel pair
  | q1Scale k => quantDataBytes cfg ct + (4 * channel + k)
  | rData pair => quantDataBytes cfg ct + quantScaleBytes cfg + dataIdx cfg ct channel pair
  | rScale k => 2 * quantDataBytes cfg ct + quantScaleBytes cfg + (4 * channel + k)

/-- What is stored there for the values `v` of the channel. -/
def cell (ct : ℕ) (v : ℕ → ℚ) : QuantSlot → QuantCell
  | q1Data pair => .byte (packNibbles (q1Of ct v (pair * 2)) (q1Of ct v (pair * 2 + 1)))
  | q1Scale k => .float (Megakernel.q1Scale ct v) k
  | rData pair => .byte (packNibbles (rOf ct v (pair * 2)) (rOf ct v (pair * 2 + 1)))
  | rScale k => .float (Megakernel.rScale ct v) k

end QuantSlot

variable {channel channel' : ℕ} {slot slot' : QuantSlot}

lemma quantDataBytes_eq (cfg : AttnConfig) (heven : ct % 2 = 0) :
    quantDataBytes cfg ct = cfg.numKvHeads * (ct / 2) * cfg.headDim := by
  obtain ⟨half, rfl⟩ := Nat.dvd_of_mod_eq_zero heven
  rw [quantDataBytes, Nat.mul_div_cancel_left half (by decide),
    show cfg.numKvHeads * (2 * half) * cfg.headDim =
      2 * (cfg.numKvHeads * half * cfg.headDim) by ring,
    Nat.mul_div_cancel_left _ (by decide)]

namespace QuantSlot

/-- The head of a channel. -/
lemma head_lt (hc : channel < cfg.numKvHeads * cfg.headDim) :
    0 < cfg.headDim ∧ channel / cfg.headDim < cfg.numKvHeads := by
  have hpos : 0 < cfg.headDim := Nat.pos_of_ne_zero fun h0 => by
    rw [h0, Nat.mul_zero] at hc
    cases hc
  exact ⟨hpos, Nat.div_lt_of_lt_mul (Nat.mul_comm _ _ ▸ hc)⟩

lemma dataIdx_lt (heven : ct % 2 = 0) (hc : channel < cfg.numKvHeads * cfg.headDim) {pair : ℕ}
    (hp : pair < ct / 2) : dataIdx cfg ct channel pair < quantDataBytes cfg ct := by
  obtain ⟨hpos, hhead⟩ := head_lt hc
  rw [quantDataBytes_eq cfg heven, dataIdx]
  exact rowMajor_lt (rowMajor_lt hhead hp) (Nat.mod_lt _ hpos)

/-- The byte of a pair belongs to one channel and one pair. -/
lemma dataIdx_inj (hpos : 0 < cfg.headDim) {pair pair' : ℕ} (hp : pair < ct / 2)
    (hp' : pair' < ct / 2) (h : dataIdx cfg ct channel pair = dataIdx cfg ct channel' pair') :
    channel = channel' ∧ pair = pair' := by
  obtain ⟨hrow, hdim⟩ := rowMajor_inj (Nat.mod_lt _ hpos) (Nat.mod_lt _ hpos) h
  obtain ⟨hhead, hpair⟩ := rowMajor_inj hp hp' hrow
  refine ⟨?_, hpair⟩
  rw [← Nat.div_add_mod channel cfg.headDim, hhead, hdim, Nat.div_add_mod]

lemma scaleIdx_lt (hc : channel < cfg.numKvHeads * cfg.headDim) {k : ℕ} (hk : k < 4) :
    4 * channel + k < quantScaleBytes cfg := by
  rw [quantScaleBytes]
  omega

lemma offset_lt (heven : ct % 2 = 0) (hc : channel < cfg.numKvHeads * cfg.headDim)
    (hv : slot.Valid ct) : slot.offset cfg ct channel < quantPerKv cfg ct := by
  rw [quantPerKv]
  cases slot with
  | q1Data pair =>
      have := dataIdx_lt heven hc hv
      rw [offset]
      omega
  | q1Scale k =>
      have := scaleIdx_lt hc hv
      rw [offset]
      omega
  | rData pair =>
      have := dataIdx_lt heven hc hv
      rw [offset]
      omega
  | rScale k =>
      have := scaleIdx_lt hc hv
      rw [offset]
      omega

/-- **Every byte of a region is for one thing.** -/
lemma offset_inj (heven : ct % 2 = 0) (hc : channel < cfg.numKvHeads * cfg.headDim)
    (hc' : channel' < cfg.numKvHeads * cfg.headDim) (hv : slot.Valid ct) (hv' : slot'.Valid ct)
    (h : slot.offset cfg ct channel = slot'.offset cfg ct channel') :
    channel = channel' ∧ slot = slot' := by
  have hpos := (head_lt hc).1
  -- the four parts of the region lie one after the other
  have hdata : ∀ {c pair}, c < cfg.numKvHeads * cfg.headDim → pair < ct / 2 →
      dataIdx cfg ct c pair < quantDataBytes cfg ct := fun h h' => dataIdx_lt heven h h'
  have hscale : ∀ {c k}, c < cfg.numKvHeads * cfg.headDim → k < 4 →
      4 * c + k < quantScaleBytes cfg := fun h h' => scaleIdx_lt h h'
  cases slot <;> cases slot' <;> simp only [offset, Valid] at h hv hv'
  case q1Data.q1Data pair pair' =>
    obtain ⟨rfl, rfl⟩ := dataIdx_inj hpos hv hv' h
    exact ⟨rfl, rfl⟩
  case rData.rData pair pair' =>
    obtain ⟨rfl, rfl⟩ := dataIdx_inj hpos hv hv' (Nat.add_left_cancel h)
    exact ⟨rfl, rfl⟩
  case q1Scale.q1Scale k k' =>
    obtain ⟨rfl, rfl⟩ : channel = channel' ∧ k = k' := by omega
    exact ⟨rfl, rfl⟩
  case rScale.rScale k k' =>
    obtain ⟨rfl, rfl⟩ : channel = channel' ∧ k = k' := by omega
    exact ⟨rfl, rfl⟩
  case q1Data.q1Scale => have := hdata hc hv; omega
  case q1Data.rData => have := hdata hc hv; omega
  case q1Data.rScale => have := hdata hc hv; omega
  case q1Scale.q1Data => have := hdata hc' hv'; omega
  case q1Scale.rData => have := hscale hc hv; omega
  case q1Scale.rScale => have := hscale hc hv; omega
  case rData.q1Data => have := hdata hc' hv'; omega
  case rData.q1Scale => have := hscale hc' hv'; omega
  case rData.rScale => have := hdata hc hv; omega
  case rScale.q1Data => have := hdata hc' hv'; omega
  case rScale.q1Scale => have := hscale hc' hv'; omega
  case rScale.rData => have := hdata hc' hv'; omega

end QuantSlot

/-- Where K or V of a layer starts. -/
def regionBase (cfg : AttnConfig) (ct layer : ℕ) (isV : Bool) : ℕ :=
  (2 * layer + isV.toNat) * quantPerKv cfg ct

lemma quantizedKvOffsets_eq (layer : ℕ) (isV : Bool) :
    quantizedKvOffsets cfg ct layer isV =
      { q1Data := regionBase cfg ct layer isV,
        q1Scale := regionBase cfg ct layer isV + quantDataBytes cfg ct,
        rData := regionBase cfg ct layer isV + quantDataBytes cfg ct + quantScaleBytes cfg,
        rScale := regionBase cfg ct layer isV + 2 * quantDataBytes cfg ct +
          quantScaleBytes cfg } := by
  have hbase : layer * (2 * quantPerKv cfg ct) + (if isV then quantPerKv cfg ct else 0) =
      regionBase cfg ct layer isV := by
    rw [regionBase]
    cases isV <;> simp only [if_true, Bool.false_eq_true, if_false, Bool.toNat_true,
      Bool.toNat_false] <;> ring
  simp only [quantizedKvOffsets, hbase]

variable {layer layer' : ℕ} {isV isV' : Bool}

/-- A byte of a chunk belongs to K or V of one layer. -/
lemma regionBase_inj {o o' : ℕ} (ho : o < quantPerKv cfg ct) (ho' : o' < quantPerKv cfg ct)
    (h : regionBase cfg ct layer isV + o = regionBase cfg ct layer' isV' + o') :
    layer = layer' ∧ isV = isV' ∧ o = o' := by
  obtain ⟨hregion, rfl⟩ := rowMajor_inj ho ho' h
  cases isV <;> cases isV' <;> simp only [Bool.toNat_true, Bool.toNat_false] at hregion <;>
    simp <;> omega

/-! ### Decoding -/

/-- **A token reads back its integer** from the byte of its pair. -/
lemma nibble_packNibbles {even odd : ℤ} (heven : |even| ≤ 7) (hodd : |odd| ≤ 7) (t : ℕ) :
    nibble t (packNibbles even odd) = if t % 2 = 0 then even else odd := by
  have hall : ∀ e o : Fin 16, ∀ b : Bool,
      (let byte := packNibbles ((e : ℤ) - 8) ((o : ℤ) - 8)
       let n : ℤ := if b then (byte &&& 0xF#8).toNat else ((byte >>> 4) &&& 0xF#8).toNat
       (if 7 < n then n - 16 else n) = if b then (e : ℤ) - 8 else (o : ℤ) - 8) := by
    decide +kernel
  obtain ⟨he, he'⟩ := abs_le.mp heven
  obtain ⟨ho, ho'⟩ := abs_le.mp hodd
  have h := hall ⟨(even + 8).toNat, by omega⟩ ⟨(odd + 8).toNat, by omega⟩ (decide (t % 2 = 0))
  have heq : (((even + 8).toNat : ℕ) : ℤ) - 8 = even := by omega
  have hoq : (((odd + 8).toNat : ℕ) : ℤ) - 8 = odd := by omega
  simp only [heq, hoq, decide_eq_true_eq] at h
  exact h

/-- Reading a float back. -/
lemma readFloat_eq {m : QuantMem} {a : ℤ} {x : ℚ} (h : ∀ k : ℕ, k < 4 → m (a + k) = .float x k) :
    readFloat m a = x := by
  have hzero := h 0 (by decide)
  rw [Nat.cast_zero, add_zero] at hzero
  simp only [readFloat, hzero]
  rw [if_pos]
  simp only [List.all_eq_true, List.mem_range, decide_eq_true_eq]
  exact h

/-- The token of an integer is that of its pair. -/
lemma pair_token (t : ℕ) (x : ℕ → ℤ) :
    (if t % 2 = 0 then x (t / 2 * 2) else x (t / 2 * 2 + 1)) = x t := by
  split_ifs with h
  · rw [Nat.div_mul_cancel (Nat.dvd_of_mod_eq_zero h)]
  · rw [show t / 2 * 2 + 1 = t by omega]

end Braidinfer.Megakernel
