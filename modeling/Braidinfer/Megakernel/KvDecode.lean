/-
The quantizer over a sealed chunk and the decoder (`op_kv_quantize` and the dequantization of
`op_attn_paged_quant` in `megakernel_ops.hip`, `quantize_sealed_chunk_via_worker` in
`megakernel_run.rs`), in the `int`s of the kernels.

A block takes every `gridDim`-th channel.  There is no barrier between two channels: a wave that has
packed its pairs may load the values of the next channel over those that another wave still packs.

* `QuantEnv.InTime`: no wave does, or no block has two channels;
* `packChannel_writes`: a channel is stored at the addresses of the layout's writes;
* `chunkStores_iff`: **what is stored for a chunk**, if the waves are in time;
* `dequant_of_cells`: the decoder reads the bytes of its token and channel;
* `quantized_kv_faithful`: **decoding gives `q1 * s1 + r * s2` with the integers of the
  quantizer, no clamp having changed them, within `max / 196` of the value**.
-/
import Braidinfer.Lib.ThreadSum
import Braidinfer.Megakernel.QuantLayout

namespace Braidinfer.Megakernel

open Braidinfer.Lib

/-! ### The quantizer -/

/-- `vals[tid] = src[(long long)head * ct * hd + tid * hd + dim]`, by the threads below `ct`. -/
def loadVals (f32 : ℤ → ℚ) (i : KvQuantizeInst) (vblock : ℕ) (sh : Shared) : Shared := fun a =>
  let hd := toI32 i.headDim
  let ct := toI32 i.chunkTokens
  let channel := toI32 vblock
  if (a : ℤ) < ct ∧ a < blockDim then
    f32 (i.src + f32Bytes * (channel.tdiv hd * ct * hd + int32 (a * hd) + channel.tmod hd))
  else sh a

/-- The pack of a channel: `seen tid` is the shared memory that thread `tid` reads. -/
def packChannel (i : KvQuantizeInst) (vblock : ℕ) (s1 s2 : ℚ) (seen : ℕ → Shared) :
    List (ℤ × QuantCell) :=
  let hd := toI32 i.headDim
  let ct := toI32 i.chunkTokens
  let residuals := ct.toNat
  let channel := toI32 vblock
  let head := channel.tdiv hd
  let dim := channel.tmod hd
  (threadsBelow (ct.tdiv 2)).flatMap (fun tid : ℕ =>
      let dataIdx := head * ct.tdiv 2 * hd + int32 (tid * hd) + dim
      let sh := seen tid
      [(i.q1Data + dataIdx,
          .byte (packNibbles (truncInt (sh (tid * 2))) (truncInt (sh (tid * 2 + 1))))),
        (i.rData + dataIdx,
          .byte (packNibbles (truncInt (sh (residuals + tid * 2)))
            (truncInt (sh (residuals + (tid * 2 + 1))))))]) ++
    floatStores (i.q1Scale + f32Bytes * channel) s1 ++
    floatStores (i.rScale + f32Bytes * channel) s2

/-- Threads of a wave. -/
def waveSize : ℕ := 32

/-- What the block loads next, if it has another channel. -/
def loadedNext (f32 : ℤ → ℚ) (i : KvQuantizeInst) (vblocks : List ℕ) (sh : Shared) : Shared :=
  match vblocks with
  | [] => sh
  | vblock :: _ =>
      if int32 (toI32 i.numKvHeads * toI32 i.headDim) ≤ toI32 vblock then sh
      else loadVals f32 i vblock sh

/-- `op_kv_quantize` for the channels of a block, one after the other.  `ahead vblock tid a`: when
thread `tid` packs, the wave of thread `a` has loaded the value of its next channel. -/
def opKvQuantize (f32 : ℤ → ℚ) (i : KvQuantizeInst) (ahead : ℕ → ℕ → ℕ → Bool) :
    List ℕ → Shared → List (ℤ × QuantCell)
  | [], _ => []
  | vblock :: vblocks, sh =>
      if int32 (toI32 i.numKvHeads * toI32 i.headDim) ≤ toI32 vblock then
        opKvQuantize f32 i ahead vblocks sh
      else
        let (sh, s1, s2) := quantizePasses (toI32 i.chunkTokens).toNat (loadVals f32 i vblock sh)
        let next := loadedNext f32 i vblocks sh
        packChannel i vblock s1 s2 (fun tid a =>
            if a / waveSize ≠ tid / waveSize ∧ ahead vblock tid a then next a else sh a) ++
          opKvQuantize f32 i ahead vblocks sh

/-- What is not determined by a chunk and its instructions. -/
structure QuantEnv where
  gridDim : ℕ
  /-- What the shared memory of a block starts with. -/
  junk : ℕ → Bool → ℕ → Shared
  /-- Which waves of a block are ahead of which thread. -/
  ahead : ℕ → Bool → ℕ → ℕ → ℕ → Bool

/-- **In time**: where a block has a next channel, no wave loads it before all waves have packed
this one. -/
def QuantEnv.InTime (cfg : AttnConfig) (q : QuantEnv) : Prop :=
  ∀ layer isV channel tid a, channel + q.gridDim < cfg.numKvHeads * cfg.headDim →
    q.ahead layer isV channel tid a = false

/-- `quantize_sealed_chunk_via_worker`: the stores of all instructions. -/
def chunkStores (cfg : AttnConfig) (ct numAttnLayers f32Ptr chunkPtr : ℕ) (f32 : ℤ → ℚ)
    (q : QuantEnv) : List (ℤ × QuantCell) :=
  (List.range numAttnLayers).flatMap fun layer =>
    [false, true].flatMap fun isV =>
      (List.range q.gridDim).flatMap fun block =>
        opKvQuantize f32 (kvQuantizeInst cfg ct f32Ptr chunkPtr layer isV) (q.ahead layer isV)
          (strided block q.gridDim (kvQuantizeGrid cfg)) (q.junk layer isV block)

/-! ### The decoder -/

/-- What `op_attn_paged_quant` reads for a value. -/
structure Dequant where
  q1 : ℤ
  r : ℤ
  s1 : ℚ
  s2 : ℚ

/-- `(float)q1_nibble * s1 + (float)r_nibble * s2`. -/
def Dequant.value (d : Dequant) : ℚ := d.q1 * d.s1 + d.r * d.s2

/-- The dequantization of `op_attn_paged_quant` for head, token and channel.  Its instruction has
the offsets of K, and V is `per_kv` bytes further. -/
def dequant (cfg : AttnConfig) (ct : ℕ) (m : QuantMem) (chunkBase layer : ℕ) (isV : Bool)
    (kvHead t tid : ℕ) : Dequant :=
  let off := quantizedKvOffsets cfg ct layer false
  let skip : ℤ := if isV then kernelPerKv cfg ct else 0
  let headDim := toI32 cfg.headDim
  let pair := (t : ℤ).tdiv 2
  let idx := int32 (int32 (int32 (int32 (kvHead * (toI32 ct).tdiv 2) + pair) * headDim) + tid)
  let scaleIdx := int32 (int32 (kvHead * headDim) + tid)
  { q1 := nibble t (readByte m (chunkBase + (off.q1Data + skip) + idx)),
    r := nibble t (readByte m (chunkBase + (off.rData + skip) + idx)),
    s1 := readFloat m (chunkBase + (off.q1Scale + skip) + f32Bytes * scaleIdx),
    s2 := readFloat m (chunkBase + (off.rScale + skip) + f32Bytes * scaleIdx) }

/-- The values that a channel of K or V of a layer has in the f32 chunk. -/
def chunkVals (cfg : AttnConfig) (ct f32Ptr layer : ℕ) (isV : Bool) (f32 : ℤ → ℚ)
    (channel t : ℕ) : ℚ :=
  f32 (((kvQuantizeInst cfg ct f32Ptr 0 layer isV).src +
    f32Bytes * channelIdx cfg ct channel t : ℕ) : ℤ)

/-! ### What is stored -/

section Stores

variable {cfg : AttnConfig} {ct f32Ptr chunkPtr layer channel L : ℕ} {isV : Bool} {f32 : ℤ → ℚ}
  {q : QuantEnv}

/-- The address of a byte of a channel. -/
def QuantSlot.addr (cfg : AttnConfig) (ct chunkPtr layer : ℕ) (isV : Bool) (channel : ℕ)
    (slot : QuantSlot) : ℤ :=
  (chunkPtr + regionBase cfg ct layer isV + slot.offset cfg ct channel : ℕ)

/-- The bytes of a scale. -/
lemma addr_scale (k : ℕ) :
    QuantSlot.addr cfg ct chunkPtr layer isV channel (.q1Scale 0) + k =
        QuantSlot.addr cfg ct chunkPtr layer isV channel (.q1Scale k) ∧
      QuantSlot.addr cfg ct chunkPtr layer isV channel (.rScale 0) + k =
        QuantSlot.addr cfg ct chunkPtr layer isV channel (.rScale k) := by
  simp only [QuantSlot.addr, QuantSlot.offset]
  constructor <;> push_cast <;> ring

/-- The addresses that a block stores to are those of its writes. -/
lemma packChannel_writes {i : KvQuantizeInst} {vblock : ℕ} {s1 s2 : ℚ} {seen : ℕ → Shared}
    (hguard : ¬ int32 (toI32 i.numKvHeads * toI32 i.headDim) ≤ toI32 vblock) :
    (packChannel i vblock s1 s2 seen).map Prod.fst =
      (kvQuantizeWrites i vblock).flatMap fun w : KvWrite =>
        (List.range w.bytes).map fun k : ℕ => w.addr + k := by
  simp [packChannel, kvQuantizeWrites, if_neg hguard, floatStores, List.map_flatMap,
    List.flatMap_assoc, f32Bytes, Function.comp_def]

/-- A thread below `ct` loads its value. -/
lemma loadVals_eq (hct : ct ≤ 128) (hfit : IntsFit cfg ct)
    (hc : channel < cfg.numKvHeads * cfg.headDim) {t : ℕ} (ht : t < ct) (sh : Shared) :
    loadVals f32 (kvQuantizeInst cfg ct f32Ptr chunkPtr layer isV) channel sh t =
      chunkVals cfg ct f32Ptr layer isV f32 channel t := by
  have hthread : (t : ℤ) < toI32 ct ∧ t < blockDim := by
    rw [hfit.tokens, blockDim]
    omega
  set i := kvQuantizeInst cfg ct f32Ptr chunkPtr layer isV with hi
  have hdim : i.headDim = cfg.headDim := rfl
  have htokens : i.chunkTokens = ct := rfl
  have hsrc : i.src = (kvQuantizeInst cfg ct f32Ptr 0 layer isV).src := rfl
  simp only [loadVals, hdim, htokens, hsrc]
  rw [if_pos hthread, hfit.channelIdx hc ht, chunkVals, Nat.cast_add, Nat.cast_mul]

/-- **What a channel stores**, if no wave is ahead: each of its bytes. -/
lemma mem_packChannel_iff (hct : ct ≤ 128) (hfit : IntsFit cfg ct)
    (hc : channel < cfg.numKvHeads * cfg.headDim) {sh : Shared}
    {v : ℕ → ℚ} (hq : ∀ t < ct, sh t = q1Of ct v t) (hr : ∀ t < ct, sh (ct + t) = rOf ct v t)
    {a : ℤ} {x : QuantCell} :
    (a, x) ∈ packChannel (kvQuantizeInst cfg ct f32Ptr chunkPtr layer isV) channel
        (q1Scale ct v) (rScale ct v) (fun _ => sh) ↔
      ∃ slot : QuantSlot, slot.Valid ct ∧
        a = slot.addr cfg ct chunkPtr layer isV channel ∧
        x = slot.cell ct v := by
  let place := QuantSlot.addr cfg ct chunkPtr layer isV channel
  have hpack : packChannel (kvQuantizeInst cfg ct f32Ptr chunkPtr layer isV) channel
      (q1Scale ct v) (rScale ct v) (fun _ => sh) =
      (List.range (ct / 2)).flatMap (fun pair : ℕ =>
        [(place (.q1Data pair), (QuantSlot.q1Data pair).cell ct v),
          (place (.rData pair), (QuantSlot.rData pair).cell ct v)]) ++
        floatStores (place (.q1Scale 0)) (q1Scale ct v) ++
        floatStores (place (.rScale 0)) (rScale ct v) := by
    simp only [packChannel, kvQuantizeInst, threads_pairs hct, quantizedKvOffsets_eq]
    refine congrArg₂ (· ++ ·) (congrArg₂ (· ++ ·) (List.flatMap_congr fun pair hpair => ?_) ?_) ?_
    · have hp := List.mem_range.mp hpair
      have htokens : (toI32 ct).toNat = ct := by rw [hfit.tokens, Int.toNat_natCast]
      rw [hfit.dataIdx hc hp, htokens, hq _ (by omega), hq _ (by omega), hr _ (by omega),
        hr _ (by omega)]
      simp only [truncInt_intCast, place, QuantSlot.addr, QuantSlot.offset, QuantSlot.cell,
        List.cons.injEq, Prod.mk.injEq, and_true]
      constructor <;> push_cast <;> ring
    · simp only [hfit.channel channel hc, f32Bytes, place, QuantSlot.addr, QuantSlot.offset]
      push_cast
      congr 1
      ring
    · simp only [hfit.channel channel hc, f32Bytes, place, QuantSlot.addr, QuantSlot.offset]
      push_cast
      congr 1
      ring
  rw [hpack]
  simp only [List.mem_append, List.mem_flatMap, List.mem_range, floatStores, List.mem_map,
    List.mem_cons, List.not_mem_nil, or_false, Prod.mk.injEq]
  constructor
  · rintro ((⟨pair, hp, ⟨rfl, rfl⟩ | ⟨rfl, rfl⟩⟩ | ⟨k, hk, rfl, rfl⟩) | ⟨k, hk, rfl, rfl⟩)
    · exact ⟨.q1Data pair, hp, rfl, rfl⟩
    · exact ⟨.rData pair, hp, rfl, rfl⟩
    · exact ⟨.q1Scale k, hk, (addr_scale k).1, rfl⟩
    · exact ⟨.rScale k, hk, (addr_scale k).2, rfl⟩
  · rintro ⟨slot, hv, rfl, rfl⟩
    cases slot with
    | q1Data pair => exact .inl (.inl ⟨pair, hv, .inl ⟨rfl, rfl⟩⟩)
    | rData pair => exact .inl (.inl ⟨pair, hv, .inr ⟨rfl, rfl⟩⟩)
    | q1Scale k => exact .inl (.inr ⟨k, hv, (addr_scale k).1, rfl⟩)
    | rScale k => exact .inr ⟨k, hv, (addr_scale k).2, rfl⟩

/-- **What the channels of a block store**, if only behind the last of them a wave may be ahead. -/
lemma mem_opKvQuantize_iff (hct : ct ≤ 128) (hfit : IntsFit cfg ct) {ahead : ℕ → ℕ → ℕ → Bool}
    {vblocks : List ℕ} (hvblocks : ∀ c ∈ vblocks, c < cfg.numKvHeads * cfg.headDim)
    (hahead : ∀ c ∈ vblocks.dropLast, ∀ tid a, ahead c tid a = false) (sh : Shared)
    {a : ℤ} {x : QuantCell} :
    (a, x) ∈ opKvQuantize f32 (kvQuantizeInst cfg ct f32Ptr chunkPtr layer isV) ahead vblocks sh ↔
      ∃ channel ∈ vblocks, ∃ slot : QuantSlot, slot.Valid ct ∧
        a = slot.addr cfg ct chunkPtr layer isV channel ∧
        x = slot.cell ct (chunkVals cfg ct f32Ptr layer isV f32 channel) := by
  have htokens : (toI32 ct).toNat = ct := by rw [hfit.tokens, Int.toNat_natCast]
  set i := kvQuantizeInst cfg ct f32Ptr chunkPtr layer isV with hi
  induction vblocks generalizing sh with
  | nil => simp [opKvQuantize]
  | cons channel rest ih =>
      have hc := hvblocks channel List.mem_cons_self
      have hguard : ¬ int32 (toI32 i.numKvHeads * toI32 i.headDim) ≤ toI32 channel :=
        hfit.guard hc
      set v := chunkVals cfg ct f32Ptr layer isV f32 channel with hv
      have hload : ∀ t < ct, loadVals f32 i channel sh t = v t := fun t ht =>
        loadVals_eq hct hfit hc ht sh
      obtain ⟨hq, hr, hs⟩ := quantizePasses_spec hct hload
      set passed := (quantizePasses ct (loadVals f32 i channel sh)).1
      -- all threads see the integers of this channel
      have hseen : ∀ tid a, (if a / waveSize ≠ tid / waveSize ∧ ahead channel tid a then
          loadedNext f32 i rest passed a else passed a) = passed a := by
        intro tid a
        cases rest with
        | nil => exact ite_self _
        | cons next rest =>
            have hfalse : ahead channel tid a = false := hahead channel (by simp) tid a
            exact if_neg fun h => Bool.false_ne_true (hfalse.symm.trans h.2)
      have hrest : ∀ c ∈ rest.dropLast, ∀ tid a, ahead c tid a = false := by
        cases rest with
        | nil => simp
        | cons next rest => exact fun c hmem => hahead c (List.mem_cons_of_mem _ hmem)
      have hcons : opKvQuantize f32 i ahead (channel :: rest) sh =
          packChannel i channel (q1Scale ct v) (rScale ct v) (fun _ => passed) ++
            opKvQuantize f32 i ahead rest passed := by
        have hct' : (toI32 i.chunkTokens).toNat = ct := htokens
        simp only [opKvQuantize, if_neg hguard, hct', hseen, hs, passed]
      rw [hcons, List.mem_append]
      refine (or_congr (mem_packChannel_iff hct hfit hc hq hr)
        (ih (fun c hmem => hvblocks c (List.mem_cons_of_mem _ hmem)) hrest passed)).trans ?_
      simp only [List.mem_cons, exists_eq_or_imp, hv]

/-- A channel of a block that is not its last one has another one a grid further. -/
lemma add_lt_of_mem_dropLast {block stride n c : ℕ} (hc : c ∈ (strided block stride n).dropLast) :
    c + stride < n := by
  have hne : strided block stride n ≠ [] := fun hnil => by simp [hnil] at hc
  have hsorted : (strided block stride n).Pairwise (· < ·) := List.pairwise_lt_range.filter _
  rw [← List.dropLast_append_getLast hne, List.pairwise_append] at hsorted
  have hlt : c < (strided block stride n).getLast hne :=
    hsorted.2.2 c hc _ (List.mem_singleton_self _)
  obtain ⟨-, hstart, hmod⟩ := mem_strided.mp (List.mem_of_mem_dropLast hc)
  obtain ⟨hlast, -, hmod'⟩ := mem_strided.mp (List.getLast_mem hne)
  -- the distance of the two is a multiple of the grid
  have hdvd := Nat.dvd_sub (Nat.dvd_of_mod_eq_zero hmod') (Nat.dvd_of_mod_eq_zero hmod)
  have hle := Nat.le_of_dvd (by omega) hdvd
  omega

/-- **What is stored for a chunk**, if the waves are in time. -/
lemma chunkStores_iff (hct : ct ≤ 128) (hfit : IntsFit cfg ct) (hpos : 0 < q.gridDim)
    (htime : q.InTime cfg) {a : ℤ} {x : QuantCell} :
    (a, x) ∈ chunkStores cfg ct L f32Ptr chunkPtr f32 q ↔
      ∃ layer < L, ∃ isV, ∃ channel < cfg.numKvHeads * cfg.headDim, ∃ slot : QuantSlot,
        slot.Valid ct ∧ a = slot.addr cfg ct chunkPtr layer isV channel ∧
        x = slot.cell ct (chunkVals cfg ct f32Ptr layer isV f32 channel) := by
  have hblock : ∀ layer isV block, (a, x) ∈ opKvQuantize f32
      (kvQuantizeInst cfg ct f32Ptr chunkPtr layer isV) (q.ahead layer isV)
      (strided block q.gridDim (cfg.numKvHeads * cfg.headDim)) (q.junk layer isV block) ↔ _ :=
    fun layer isV block => mem_opKvQuantize_iff hct hfit (fun c hc => (mem_strided.mp hc).1)
      (fun c hc tid a => htime layer isV c tid a (add_lt_of_mem_dropLast hc)) _
  simp only [chunkStores, List.mem_flatMap, List.mem_range, hfit.grid, hblock]
  constructor
  · rintro ⟨layer, hl, isV, -, block, -, channel, hc, hslot⟩
    exact ⟨layer, hl, isV, channel, (mem_strided.mp hc).1, hslot⟩
  · rintro ⟨layer, hl, isV, channel, hc, hslot⟩
    exact ⟨layer, hl, isV, by cases isV <;> simp, channel % q.gridDim, Nat.mod_lt _ hpos, channel,
      mem_strided.mpr ⟨hc, Nat.mod_le _ _, Nat.sub_mod_eq_zero_of_mod_eq (Nat.mod_mod _ _).symm⟩,
      hslot⟩

/-- **After the stores of a chunk, in any order, each of its bytes holds what is stored for it**: no
other store touches it. -/
lemma applyStores_chunk (hct : ct ≤ 128) (heven : ct % 2 = 0) (hfit : IntsFit cfg ct)
    (hpos : 0 < q.gridDim) (htime : q.InTime cfg) {stores : List (ℤ × QuantCell)}
    (hstores : stores.Perm (chunkStores cfg ct L f32Ptr chunkPtr f32 q)) (m : QuantMem)
    (hl : layer < L) (hc : channel < cfg.numKvHeads * cfg.headDim) {slot : QuantSlot}
    (hv : slot.Valid ct) :
    applyStores m stores (slot.addr cfg ct chunkPtr layer isV channel) =
      slot.cell ct (chunkVals cfg ct f32Ptr layer isV f32 channel) := by
  have hmem : ∀ a x, (a, x) ∈ stores ↔ _ := fun a x =>
    hstores.mem_iff.trans (chunkStores_iff hct hfit hpos htime)
  refine applyStores_of_forall ((hmem _ _).mpr ⟨layer, hl, isV, channel, hc, slot, hv, rfl, rfl⟩) ?_
  rintro ⟨a, x⟩ hstore haddr
  obtain ⟨layer', -, isV', channel', hc', slot', hv', rfl, rfl⟩ := (hmem a x).mp hstore
  simp only [QuantSlot.addr, Nat.cast_inj, Nat.add_assoc] at haddr
  obtain ⟨rfl, rfl, ho⟩ := regionBase_inj (QuantSlot.offset_lt heven hc' hv')
    (QuantSlot.offset_lt heven hc hv) (Nat.add_left_cancel haddr)
  obtain ⟨rfl, rfl⟩ := QuantSlot.offset_inj heven hc' hc hv' hv ho
  rfl

end Stores

/-! ### Decoding -/

section Decoder

variable {cfg : AttnConfig} {ct chunkPtr layer head dim t : ℕ} {isV : Bool}

/-- The `int`s of the decoder, without overflow. -/
lemma decoder_ints (heven : ct % 2 = 0) (hct : ct ≤ 128)
    (hint : (ct + 8) * (cfg.numKvHeads * cfg.headDim) < 2 ^ 31) (hhead : head < cfg.numKvHeads)
    (hdim : dim < cfg.headDim) (ht : t < ct) :
    int32 (int32 (int32 (int32 (head * (toI32 ct).tdiv 2) + (t : ℤ).tdiv 2) *
        toI32 cfg.headDim) + dim) =
      (QuantSlot.dataIdx cfg ct (head * cfg.headDim + dim) (t / 2) : ℕ) ∧
    int32 (int32 (head * toI32 cfg.headDim) + dim) = (head * cfg.headDim + dim : ℕ) := by
  have hc : head * cfg.headDim + dim < cfg.numKvHeads * cfg.headDim := rowMajor_lt hhead hdim
  have hfit := intsFit_of_perKv hct hint hc
  obtain ⟨-, -, -, -, hdata, hchannels⟩ := dims_lt (Nat.zero_lt_of_lt hc) hint
  have hidx := QuantSlot.dataIdx_lt heven hc (show t / 2 < ct / 2 by omega)
  have hbytes : quantDataBytes cfg ct ≤ ct * (cfg.numKvHeads * cfg.headDim) := by
    rw [quantDataBytes]
    calc cfg.numKvHeads * ct * cfg.headDim / 2 ≤ cfg.numKvHeads * ct * cfg.headDim :=
          Nat.div_le_self _ _
      _ = ct * (cfg.numKvHeads * cfg.headDim) := by ring
  rw [QuantSlot.dataIdx, rowMajor_div hdim, rowMajor_mod hdim] at hidx ⊢
  -- every partial result is at most the whole
  set pairs := head * (ct / 2) + t / 2 with hpairs
  have hrow : pairs * cfg.headDim < 2 ^ 31 := by omega
  have hle : pairs ≤ pairs * cfg.headDim := Nat.le_mul_of_pos_right _ (Nat.zero_lt_of_lt hdim)
  rw [hfit.tokens, hfit.dim, show (ct : ℤ).tdiv 2 = ((ct / 2 : ℕ) : ℤ) from rfl,
    show (t : ℤ).tdiv 2 = ((t / 2 : ℕ) : ℤ) from rfl]
  constructor
  · rw [← Nat.cast_mul, int32_natCast (by omega), ← Nat.cast_add, ← hpairs,
      int32_natCast (by omega), ← Nat.cast_mul, int32_natCast hrow, ← Nat.cast_add]
    exact int32_natCast (by omega)
  · rw [← Nat.cast_mul, int32_natCast (by omega), ← Nat.cast_add]
    exact int32_natCast (by omega)

/-- **The decoder reads back what the quantizer chose**, where the bytes of the channel hold what is
stored for it. -/
lemma dequant_of_cells {m : QuantMem} {v : ℕ → ℚ} (heven : ct % 2 = 0) (hct : ct ≤ 128)
    (hint : (ct + 8) * (cfg.numKvHeads * cfg.headDim) < 2 ^ 31) (hhead : head < cfg.numKvHeads)
    (hdim : dim < cfg.headDim) (ht : t < ct)
    (hread : ∀ slot : QuantSlot, slot.Valid ct →
      m (slot.addr cfg ct chunkPtr layer isV (head * cfg.headDim + dim)) = slot.cell ct v) :
    dequant cfg ct m chunkPtr layer isV head t dim =
      ⟨q1Of ct v t, rOf ct v t, q1Scale ct v, rScale ct v⟩ := by
  obtain ⟨hidx, hscale⟩ := decoder_ints heven hct hint hhead hdim ht
  have hperKv : kernelPerKv cfg ct = quantPerKv cfg ct :=
    kernelPerKv_eq cfg heven hct (by rwa [quantPerKv_eq cfg heven])
  have hskip : (if isV then kernelPerKv cfg ct else 0) + (regionBase cfg ct layer false : ℤ) =
      (regionBase cfg ct layer isV : ℕ) := by
    cases isV with
    | false => rw [if_neg Bool.false_ne_true, zero_add]
    | true =>
        rw [if_pos rfl, hperKv, regionBase_true]
        push_cast
        ring
  have hpair : t / 2 < ct / 2 := by omega
  rw [dequant, Dequant.mk.injEq]
  simp only [quantizedKvOffsets_eq, hidx, hscale]
  refine ⟨?_, ?_, ?_, ?_⟩
  · rw [readByte, show (chunkPtr : ℤ) + ((regionBase cfg ct layer false : ℕ) +
        (if isV then kernelPerKv cfg ct else 0)) + _ = QuantSlot.addr cfg ct chunkPtr layer isV
          (head * cfg.headDim + dim) (.q1Data (t / 2)) by
      rw [QuantSlot.addr, QuantSlot.offset]; push_cast; rw [← hskip]; ring,
      hread (.q1Data (t / 2)) hpair]
    simp only [QuantSlot.cell]
    rw [nibble_packNibbles (abs_q1Of_le (by omega)) (abs_q1Of_le (by omega)),
      pair_token t (q1Of ct v)]
  · rw [readByte, show (chunkPtr : ℤ) + ((regionBase cfg ct layer false + quantDataBytes cfg ct +
        quantScaleBytes cfg : ℕ) + (if isV then kernelPerKv cfg ct else 0)) + _ =
          QuantSlot.addr cfg ct chunkPtr layer isV (head * cfg.headDim + dim) (.rData (t / 2)) by
      rw [QuantSlot.addr, QuantSlot.offset]; push_cast; rw [← hskip]; ring,
      hread (.rData (t / 2)) hpair]
    simp only [QuantSlot.cell]
    rw [nibble_packNibbles (abs_rOf_le (by omega)) (abs_rOf_le (by omega)),
      pair_token t (rOf ct v)]
  · refine readFloat_eq fun k hk => Eq.trans (congrArg m ?_) (hread (.q1Scale k) hk)
    rw [QuantSlot.addr, QuantSlot.offset, f32Bytes]
    push_cast
    rw [← hskip]
    ring
  · refine readFloat_eq fun k hk => Eq.trans (congrArg m ?_) (hread (.rScale k) hk)
    rw [QuantSlot.addr, QuantSlot.offset, f32Bytes]
    push_cast
    rw [← hskip]
    ring

end Decoder

/-- **Int4 quantization is faithful**, as long as `per_kv` is an `int` and the waves of a block that
takes several channels are in time.  Decoding a value of a quantized chunk gives the two integers
and the two scales that the quantizer chose for its token and channel; no clamp changed an integer;
and the error is at most a hundred and ninety-sixth of the largest absolute value of the channel. -/
theorem quantized_kv_faithful (cfg : AttnConfig) {ct : ℕ} (hct : ct ≤ 128) (heven : ct % 2 = 0)
    (hint : quantPerKv cfg ct < 2 ^ 31) (q : QuantEnv) (hpos : 0 < q.gridDim)
    (htime : q.InTime cfg) {L layer : ℕ} (hl : layer < L) (isV : Bool) {head dim t : ℕ}
    (hhead : head < cfg.numKvHeads) (hdim : dim < cfg.headDim) (ht : t < ct)
    (f32Ptr chunkPtr : ℕ) (f32 : ℤ → ℚ) (m : QuantMem) {stores : List (ℤ × QuantCell)}
    (hstores : stores.Perm (chunkStores cfg ct L f32Ptr chunkPtr f32 q)) :
    let v := chunkVals cfg ct f32Ptr layer isV f32 (head * cfg.headDim + dim)
    let decoded := dequant cfg ct (applyStores m stores) chunkPtr layer isV head t dim
    decoded = ⟨q1Of ct v t, rOf ct v t, q1Scale ct v, rScale ct v⟩ ∧
      clampedRound (v t * (1 / q1Scale ct v)) = q1Of ct v t ∧
      clampedRound (residual ct v t * (1 / rScale ct v)) = rOf ct v t ∧
      |v t - decoded.value| ≤ maxAbs v ct / 196 := by
  intro v decoded
  rw [quantPerKv_eq cfg heven] at hint
  have hc : head * cfg.headDim + dim < cfg.numKvHeads * cfg.headDim := rowMajor_lt hhead hdim
  have hdecoded : decoded = ⟨q1Of ct v t, rOf ct v t, q1Scale ct v, rScale ct v⟩ :=
    dequant_of_cells heven hct hint hhead hdim ht fun slot hv =>
      applyStores_chunk hct heven (intsFit_of_perKv hct hint hc) hpos htime hstores m hl hc hv
  refine ⟨hdecoded, clampedRound_eq (abs_q1Of_le ht), clampedRound_eq (abs_rOf_le ht), ?_⟩
  rw [hdecoded]
  exact abs_sub_stages_le ht

/-- Two heads of two channels, chunks of four tokens, on three blocks, so that the first block has
the last channel, too; only behind the last channel of a block waves are ahead.  V of the second
layer, second head, last channel, third token; the stores in reverse order. -/
theorem quantized_kv_faithful_small :
    let cfg : AttnConfig := ⟨4, 2, 2, 2, 2, false, false, (0, 0, 0), 0x358637bd⟩
    let q : QuantEnv := ⟨3, fun _ _ _ _ => 3, fun _ _ channel _ _ => decide (0 < channel)⟩
    let stores := (chunkStores cfg 4 2 0 100 (fun a => (a : ℚ) - 5) q).reverse
    let v := chunkVals cfg 4 0 1 true (fun a => (a : ℚ) - 5) 3
    |v 2 - (dequant cfg 4 (applyStores (fun _ => .byte 0) stores) 100 1 true 1 2 1).value| ≤
      maxAbs v 4 / 196 := by
  intro cfg q stores v
  have htime : q.InTime cfg := fun _ _ channel _ _ hnext => by
    have hfirst : channel + 3 < 4 := hnext
    exact decide_eq_false (by omega)
  have h := quantized_kv_faithful cfg (show 4 ≤ 128 by decide) (by decide) (by decide) q
    (Nat.succ_pos 2) htime (show 1 < 2 by decide) true (show 1 < cfg.numKvHeads by decide)
    (show 1 < cfg.headDim by decide) (show 2 < 4 by decide) 0 100 (fun a => (a : ℚ) - 5)
    (fun _ => .byte 0) (List.reverse_perm _)
  exact h.2.2.2

/-- With `2^17` KV heads of 256 the decoder looks for V in front of the chunk. -/
theorem quantized_kv_differs_beyond_int :
    ¬ ∀ (cfg : AttnConfig) (ct : ℕ) (q : QuantEnv) (L layer : ℕ) (isV : Bool) (head dim t : ℕ)
      (f32Ptr chunkPtr : ℕ) (f32 : ℤ → ℚ) (m : QuantMem), ct ≤ 128 → ct % 2 = 0 →
      cfg.numKvHeads * cfg.headDim ≤ q.gridDim → layer < L → head < cfg.numKvHeads →
      dim < cfg.headDim → t < ct →
      (dequant cfg ct (applyStores m (chunkStores cfg ct L f32Ptr chunkPtr f32 q)) chunkPtr layer
          isV head t dim).q1 =
        q1Of ct (chunkVals cfg ct f32Ptr layer isV f32 (head * cfg.headDim + dim)) t := by
  intro hall
  let cfg : AttnConfig :=
    { hiddenSize := 2 ^ 25, numQHeads := 2 ^ 17, numKvHeads := 2 ^ 17, headDim := 256,
      ropeDim := 256, hasOutputGate := false, hasQkNorm := false, mropeSections := (0, 0, 0),
      rmsNormEps := 0 }
  let q : QuantEnv := ⟨2 ^ 25, fun _ _ _ _ => 0, fun _ _ _ _ _ => false⟩
  have h := hall cfg 64 q 1 0 true 0 0 0 0 0 (fun _ => 1) (fun _ => .byte 0) (by decide) (by decide)
    (by decide) Nat.one_pos (by decide) (by decide) (by decide)
  have hfit : IntsFit cfg 64 := intsFit (by decide) (by decide) (by decide) (by decide)
  have htime : q.InTime cfg := fun _ _ _ _ _ _ => rfl
  -- nothing is stored there
  set stores := chunkStores cfg 64 1 0 0 (fun _ => 1) q with hstores
  have hfront : applyStores (fun _ => .byte 0) stores (-1879048192) = .byte 0 := by
    refine applyStores_of_notMem fun hmem => ?_
    obtain ⟨⟨a, x⟩, hax, rfl⟩ := List.mem_map.mp hmem
    obtain ⟨_, _, _, _, _, slot, -, ha, -⟩ :=
      (chunkStores_iff (by decide) hfit (by decide) htime).mp hax
    rw [QuantSlot.addr] at ha
    omega
  have hq1 : q1Of 64 (fun _ => 1) 0 = 7 := by decide +kernel
  have hskip : kernelPerKv cfg 64 = -1879048192 := by decide
  have hidx : int32 (int32 (int32 (int32 (((0 : ℕ) : ℤ) * (toI32 64).tdiv 2) +
      ((0 : ℕ) : ℤ).tdiv 2) * toI32 cfg.headDim) + ((0 : ℕ) : ℤ)) = 0 := by decide
  have hoff : (quantizedKvOffsets cfg 64 0 false).q1Data = 0 := by simp [quantizedKvOffsets]
  have hread : (dequant cfg 64 (applyStores (fun _ => .byte 0) stores) 0 0 true 0 0 0).q1 =
      nibble 0 (readByte (applyStores (fun _ => .byte 0) stores) (-1879048192)) := by
    simp only [dequant, hoff, hidx, hskip, if_true]
    rfl
  have hval : chunkVals cfg 64 0 0 true (fun _ => 1) (0 * cfg.headDim + 0) = fun _ => 1 :=
    funext fun t => by rw [chunkVals]
  rw [hread, readByte, hfront, hval, hq1] at h
  revert h
  decide

end Braidinfer.Megakernel
