/-
The layout of a KV chunk (`chunk_kv_bytes`, the patch of `update_step_paged_no_upload`, the layer
offsets of `emit_attention_layer`, `kernels/op_kv_write_paged_batch.hip` and the loads of
`op_attn_paged`).

The formula is written out four times, with different loop orders and units, and once behind
bit-packed instruction words.

* `rowOffset`: the layout, as one function of layer, K or V, head and token;
* `rowOffset_disjoint`, `rowOffset_add_le`: rows never overlap and stay inside the chunk;
* `kvDst_eq`, `opKvWritePagedBatch_eq`, `attnElem_eq`: the computations agree with it;
* `kvLayout_agrees`: all of it for a compiled program, and **the batched writer stores what as many
  decode steps store**.
-/
import Mathlib.Tactic.Ring
import Mathlib.Tactic.Linarith
import Mathlib.Data.Nat.Bitwise
import Mathlib.Data.List.Perm.Basic
import Braidinfer.Lib.RowMajor
import Braidinfer.Megakernel.KvCopies
import Braidinfer.Megakernel.Prefill

namespace Braidinfer.Megakernel

open Braidinfer.Lib Braidinfer.PagedKv

/-! ### The layout -/

/-- `chunk_kv_bytes`. -/
def chunkKvBytes (cfg : AttnConfig) (numAttnLayers : ℕ) : ℕ :=
  numAttnLayers * 2 * chunkTokens * (cfg.numKvHeads * cfg.headDim) * f32Bytes

/-- The number of a row inside a chunk: layers, in each K before V, in each the heads, in each the
tokens. -/
def rowIndex (cfg : AttnConfig) (layer : ℕ) (isV : Bool) (h t : ℕ) : ℕ :=
  ((layer * 2 + isV.toNat) * cfg.numKvHeads + h) * chunkTokens + t

/-- The byte offset of a row inside a chunk. -/
def rowOffset (cfg : AttnConfig) (layer : ℕ) (isV : Bool) (h t : ℕ) : ℕ :=
  rowIndex cfg layer isV h t * (cfg.headDim * f32Bytes)

variable {cfg : AttnConfig} {L layer layer' h h' t t' : ℕ} {isV isV' : Bool}

/-- Distinct rows have distinct numbers. -/
lemma rowIndex_inj (hh : h < cfg.numKvHeads) (hh' : h' < cfg.numKvHeads) (ht : t < chunkTokens)
    (ht' : t' < chunkTokens) (heq : rowIndex cfg layer isV h t = rowIndex cfg layer' isV' h' t') :
    layer = layer' ∧ isV = isV' ∧ h = h' ∧ t = t' := by
  obtain ⟨hhead, htoken⟩ := rowMajor_inj ht ht' heq
  obtain ⟨hkv, hhead⟩ := rowMajor_inj hh hh' hhead
  obtain ⟨hlayer, hv⟩ := rowMajor_inj (Bool.toNat_lt isV) (Bool.toNat_lt isV') hkv
  refine ⟨hlayer, ?_, hhead, htoken⟩
  cases isV <;> cases isV' <;> simp_all

/-- The rows of `L` layers are numbered below `L * 2 * nkh * CHUNK_TOKENS`. -/
lemma rowIndex_lt (hl : layer < L) (hh : h < cfg.numKvHeads) (ht : t < chunkTokens) :
    rowIndex cfg layer isV h t < L * 2 * cfg.numKvHeads * chunkTokens := by
  have h1 : layer * 2 + isV.toNat + 1 ≤ L * 2 := by
    have := Bool.toNat_lt isV
    omega
  have h2 : (layer * 2 + isV.toNat) * cfg.numKvHeads + h + 1 ≤ L * 2 * cfg.numKvHeads := by
    calc (layer * 2 + isV.toNat) * cfg.numKvHeads + h + 1
        ≤ (layer * 2 + isV.toNat) * cfg.numKvHeads + cfg.numKvHeads := by omega
      _ = (layer * 2 + isV.toNat + 1) * cfg.numKvHeads := by ring
      _ ≤ L * 2 * cfg.numKvHeads := Nat.mul_le_mul_right _ h1
  calc rowIndex cfg layer isV h t
      < ((layer * 2 + isV.toNat) * cfg.numKvHeads + h) * chunkTokens + chunkTokens := by
        rw [rowIndex]
        omega
    _ = ((layer * 2 + isV.toNat) * cfg.numKvHeads + h + 1) * chunkTokens := by ring
    _ ≤ L * 2 * cfg.numKvHeads * chunkTokens := Nat.mul_le_mul_right _ h2

/-- **Distinct rows are disjoint** ranges of `head_dim` floats. -/
lemma rowOffset_disjoint (hh : h < cfg.numKvHeads) (hh' : h' < cfg.numKvHeads)
    (ht : t < chunkTokens) (ht' : t' < chunkTokens)
    (hne : (layer, isV, h, t) ≠ (layer', isV', h', t')) :
    rowOffset cfg layer isV h t + cfg.headDim * f32Bytes ≤ rowOffset cfg layer' isV' h' t' ∨
      rowOffset cfg layer' isV' h' t' + cfg.headDim * f32Bytes ≤ rowOffset cfg layer isV h t := by
  have hidx : rowIndex cfg layer isV h t ≠ rowIndex cfg layer' isV' h' t' := by
    intro heq
    obtain ⟨rfl, rfl, rfl, rfl⟩ := rowIndex_inj hh hh' ht ht' heq
    exact hne rfl
  have hle : ∀ a b : ℕ, a < b → a * (cfg.headDim * f32Bytes) + cfg.headDim * f32Bytes ≤
      b * (cfg.headDim * f32Bytes) := by
    intro a b hab
    rw [← Nat.succ_mul]
    exact Nat.mul_le_mul_right _ hab
  rcases Nat.lt_or_gt_of_ne hidx with hlt | hgt
  · exact .inl (hle _ _ hlt)
  · exact .inr (hle _ _ hgt)

/-- **Every row lies inside the chunk.** -/
lemma rowOffset_add_le (hl : layer < L) (hh : h < cfg.numKvHeads) (ht : t < chunkTokens) :
    rowOffset cfg layer isV h t + cfg.headDim * f32Bytes ≤ chunkKvBytes cfg L := by
  rw [rowOffset, ← Nat.succ_mul]
  calc (rowIndex cfg layer isV h t).succ * (cfg.headDim * f32Bytes)
      ≤ L * 2 * cfg.numKvHeads * chunkTokens * (cfg.headDim * f32Bytes) :=
        Nat.mul_le_mul_right _ (rowIndex_lt hl hh ht)
    _ = chunkKvBytes cfg L := by
        rw [chunkKvBytes]
        ring

/-! ### Decode: the patched destinations -/

/-- The decode patch computes the layout. -/
lemma kvDst_eq (cfg : AttnConfig) (base layer h t : ℕ) :
    kvDst (cfg.numKvHeads * cfg.headDim) cfg.headDim base layer h t =
      (base + rowOffset cfg layer false h t, base + rowOffset cfg layer true h t) := by
  rw [kvDst, Prod.mk.injEq, rowOffset, rowOffset, rowIndex, rowIndex, Bool.toNat_false,
    Bool.toNat_true]
  constructor <;> ring

/-! ### Prefill: the batched writer -/

/-- The words of a `KvWritePagedBatchInst`. -/
structure KvWriteWords where
  gridX : ℕ
  src : Ptr
  pageTable : ℕ
  layerKvOffset : ℕ
  startPos : ℕ
  headSlice : ℕ

/-- `KvWritePagedBatchInst::new`, its arguments cast to `u32` and `u16` as the compiler casts
them. -/
def KvWritePagedBatchInst.pack (i : KvWritePagedBatchInst) : KvWriteWords :=
  let startPos := i.startPos % 2 ^ 32
  let nTokens := i.nTokens % 2 ^ 32
  let localKvHeadStart := i.localKvHeadStart % 2 ^ 16
  let localNkh := i.localNkh % 2 ^ 16
  let headDim := i.headDim % 2 ^ 16
  let chunkTokens := i.chunkTokens % 2 ^ 16
  { gridX := nTokens * localNkh % 2 ^ 32
    src := i.src
    pageTable := i.pageTable
    layerKvOffset := i.layerKvOffset
    startPos := startPos ||| nTokens <<< 32
    headSlice := ((localNkh ||| localKvHeadStart <<< 16) ||| headDim <<< 32) ||| chunkTokens <<< 48 }

/-- What one virtual block copies: `len` floats from index `src` of the source buffer to the
address `dst`. -/
structure RowCopy where
  dst : ℕ
  src : ℕ
  len : ℕ
deriving DecidableEq

/-- `op_kv_write_paged_batch`. -/
def opKvWritePagedBatch (w : KvWriteWords) (pageTable : ℕ → ℕ) (vb : ℕ) : Option RowCopy :=
  let startPos := toI32 (w.startPos % 2 ^ 32)
  let nTokens := toI32 (w.startPos / 2 ^ 32)
  let localNkh : ℕ := w.headSlice % 2 ^ 16
  let localKvStart : ℕ := w.headSlice / 2 ^ 16 % 2 ^ 16
  let headDim : ℕ := w.headSlice / 2 ^ 32 % 2 ^ 16
  let chunkTokens : ℕ := w.headSlice / 2 ^ 48 % 2 ^ 16
  let total := Int.bmod (nTokens * localNkh) (2 ^ 32)
  if total ≤ toI32 vb then none
  else
    let token := vb / localNkh
    let headLocal := vb % localNkh
    let headGlobal := localKvStart + headLocal
    let absPos := Int.bmod (startPos + token) (2 ^ 32)
    let chunkIdx := (absPos.tdiv chunkTokens).toNat
    let inChunk := (absPos.tmod chunkTokens).toNat
    some { dst := pageTable chunkIdx + w.layerKvOffset + headGlobal * chunkTokens * headDim * 4
                    + inChunk * headDim * 4
           src := (token * localNkh + headLocal) * headDim
           len := headDim }

/-- `|` of a number with a shifted one above it is their sum. -/
lemma or_shiftLeft {a b k : ℕ} (h : a < 2 ^ k) : a ||| b <<< k = b * 2 ^ k + a := by
  rw [Nat.or_comm, ← Nat.shiftLeft_add_eq_or_of_lt h, Nat.shiftLeft_eq]

/-- An `int` below `2^31` is what it was. -/
lemma bmod_of_lt {z : ℤ} (h0 : 0 ≤ z) (h : z < 2 ^ 31) : Int.bmod z (2 ^ 32) = z := by
  have h31 : (2 ^ 31 : ℤ) = 2147483648 := by norm_num
  have h32 : (2 ^ 32 : ℕ) = 4294967296 := by norm_num
  rw [h31] at h
  rw [h32]
  refine Int.bmod_eq_of_le ?_ ?_ <;> omega

lemma toI32_of_lt {n : ℕ} (h : n < 2 ^ 31) : toI32 n = n :=
  bmod_of_lt (Int.natCast_nonneg n) (by exact_mod_cast h)

/-- The fields of `head_slice` come back out. -/
lemma headSlice_fields {a b c d : ℕ} (ha : a < 2 ^ 16) (hb : b < 2 ^ 16) (hc : c < 2 ^ 16)
    (hd : d < 2 ^ 16) :
    let w := ((a ||| b <<< 16) ||| c <<< 32) ||| d <<< 48
    w % 2 ^ 16 = a ∧ w / 2 ^ 16 % 2 ^ 16 = b ∧ w / 2 ^ 32 % 2 ^ 16 = c ∧
      w / 2 ^ 48 % 2 ^ 16 = d := by
  have h1 : a ||| b <<< 16 = b * 2 ^ 16 + a := or_shiftLeft ha
  have h2 : (b * 2 ^ 16 + a) ||| c <<< 32 = c * 2 ^ 32 + (b * 2 ^ 16 + a) :=
    or_shiftLeft (by omega)
  have h3 : (c * 2 ^ 32 + (b * 2 ^ 16 + a)) ||| d <<< 48 =
      d * 2 ^ 48 + (c * 2 ^ 32 + (b * 2 ^ 16 + a)) := or_shiftLeft (by omega)
  simp only [h1, h2, h3]
  refine ⟨?_, ?_, ?_, ?_⟩ <;> omega

/-- The two fields of `start_pos` come back out. -/
lemma startPos_fields {a b : ℕ} (ha : a < 2 ^ 32) :
    (a ||| b <<< 32) % 2 ^ 32 = a ∧ (a ||| b <<< 32) / 2 ^ 32 = b := by
  rw [or_shiftLeft ha]
  constructor <;> omega

/-- The offset of K or V rows of a layer. -/
def layerOff (cfg : AttnConfig) (layer : ℕ) (isV : Bool) : ℕ :=
  if isV then layerVOff cfg layer else layerKOff cfg layer

/-- The batched writer of a layer, as the prefill compiler emits it. -/
def batchInst (cfg : AttnConfig) (layer : ℕ) (isV : Bool) (pageTablePtr startPos n : ℕ) :
    KvWritePagedBatchInst :=
  { gridX := n * cfg.numKvHeads, src := .buf .prefill (if isV then .vAttn else .kAttn),
    pageTable := pageTablePtr, layerKvOffset := layerOff cfg layer isV, startPos, nTokens := n,
    localKvHeadStart := 0, localNkh := cfg.numKvHeads, headDim := cfg.headDim, chunkTokens }

/-- The emitted instruction is that one. -/
lemma kvWritePagedBatch_eq (cfg : AttnConfig) (layer pageTablePtr startPos n : ℕ) (isV : Bool) :
    kvWritePagedBatch cfg (.buf .prefill (if isV then .vAttn else .kAttn)) pageTablePtr
      (layerOff cfg layer isV) startPos n =
        .kvWritePagedBatch (batchInst cfg layer isV pageTablePtr startPos n) := rfl

/-- A geometry and a slab that the packed fields and the `int`s of the kernels can hold. -/
structure SlabFits (cfg : AttnConfig) (startPos n : ℕ) : Prop where
  heads : cfg.numKvHeads < 2 ^ 16
  headDim : cfg.headDim < 2 ^ 16
  end_le : startPos + n ≤ 2 ^ 31
  total : n * cfg.numKvHeads < 2 ^ 31

/-- The number of virtual blocks: one for each token and head. -/
lemma pack_gridX {startPos n : ℕ} (hfit : SlabFits cfg startPos n) (pt : ℕ) :
    (batchInst cfg layer isV pt startPos n).pack.gridX = n * cfg.numKvHeads := by
  obtain ⟨hheads, hdim, hend, htotal⟩ := hfit
  change n % 2 ^ 32 * (cfg.numKvHeads % 2 ^ 16) % 2 ^ 32 = _
  rw [Nat.mod_eq_of_lt (show n < 2 ^ 32 by omega), Nat.mod_eq_of_lt hheads,
    Nat.mod_eq_of_lt (by omega)]

/-- **The batched writer computes the layout**: virtual block `vb` copies the row of token
`vb / nkh` and head `vb % nkh`. -/
lemma opKvWritePagedBatch_eq {startPos n vb : ℕ} (hfit : SlabFits cfg startPos n)
    (hvb : vb < n * cfg.numKvHeads) (pt : ℕ) (pageTable : ℕ → ℕ) :
    opKvWritePagedBatch (batchInst cfg layer isV pt startPos n).pack pageTable vb =
      some { dst := pageTable ((startPos + vb / cfg.numKvHeads) / chunkTokens) +
               rowOffset cfg layer isV (vb % cfg.numKvHeads)
                 ((startPos + vb / cfg.numKvHeads) % chunkTokens)
             src := vb * cfg.headDim
             len := cfg.headDim } := by
  obtain ⟨hheads, hdim, hend, htotal⟩ := hfit
  have hnkh : 0 < cfg.numKvHeads := Nat.pos_of_ne_zero fun h0 => by simp [h0] at hvb
  have htoken : vb / cfg.numKvHeads < n := Nat.div_lt_of_lt_mul (by rwa [Nat.mul_comm])
  have hn : n < 2 ^ 31 := lt_of_le_of_lt (Nat.le_mul_of_pos_right n hnkh) htotal
  have hstart : startPos < 2 ^ 31 := by
    have : 0 < n := Nat.zero_lt_of_lt htoken
    omega
  -- the fields come out of the words as they went in
  obtain ⟨hs1, hs2, hs3, hs4⟩ := headSlice_fields (b := 0) hheads (by decide) hdim
    (show chunkTokens < 2 ^ 16 by decide)
  obtain ⟨hp1, hp2⟩ := startPos_fields (a := startPos) (b := n) (by omega)
  have hwords : (batchInst cfg layer isV pt startPos n).pack =
      { gridX := n * cfg.numKvHeads % 2 ^ 32
        src := .buf .prefill (if isV then .vAttn else .kAttn)
        pageTable := pt
        layerKvOffset := layerOff cfg layer isV
        startPos := startPos ||| n <<< 32
        headSlice := ((cfg.numKvHeads ||| 0 <<< 16) ||| cfg.headDim <<< 32) |||
          chunkTokens <<< 48 } := by
    rw [KvWritePagedBatchInst.pack, batchInst]
    simp only [Nat.mod_eq_of_lt hheads, Nat.mod_eq_of_lt hdim,
      Nat.mod_eq_of_lt (show startPos < 2 ^ 32 by omega),
      Nat.mod_eq_of_lt (show n < 2 ^ 32 by omega),
      show (0 : ℕ) % 2 ^ 16 = 0 from rfl, show chunkTokens % 2 ^ 16 = chunkTokens from rfl]
  -- and no `int` overflows
  have htot : Int.bmod (toI32 n * cfg.numKvHeads) (2 ^ 32) = (n * cfg.numKvHeads : ℕ) := by
    rw [toI32_of_lt hn, ← Nat.cast_mul]
    exact bmod_of_lt (Int.natCast_nonneg _) (by exact_mod_cast htotal)
  have hpos : Int.bmod (toI32 startPos + (vb / cfg.numKvHeads : ℕ)) (2 ^ 32) =
      (startPos + vb / cfg.numKvHeads : ℕ) := by
    rw [toI32_of_lt hstart, ← Nat.cast_add]
    exact bmod_of_lt (Int.natCast_nonneg _) (by exact_mod_cast (by omega))
  have hguard : ¬ ((n * cfg.numKvHeads : ℕ) : ℤ) ≤ toI32 vb := by
    rw [toI32_of_lt (hvb.trans htotal)]
    exact_mod_cast Nat.not_le.mpr hvb
  have hrow : (vb / cfg.numKvHeads * cfg.numKvHeads + vb % cfg.numKvHeads) = vb :=
    Nat.div_add_mod' vb cfg.numKvHeads
  rw [opKvWritePagedBatch, hwords]
  simp only [hs1, hs2, hs3, hs4, hp1, hp2, htot, hpos, if_neg hguard, hrow, ← Int.ofNat_tdiv,
    ← Int.ofNat_tmod, Int.toNat_natCast, Nat.zero_add, Option.some.injEq, RowCopy.mk.injEq,
    and_true]
  rw [Nat.add_assoc, Nat.add_assoc, Nat.add_left_cancel_iff, layerOff, rowOffset, rowIndex]
  cases isV with
  | false =>
      simp only [Bool.false_eq_true, if_false, layerKOff, f32Bytes, Bool.toNat_false]
      ring
  | true =>
      simp only [if_true, layerVOff, layerKOff, f32Bytes, Bool.toNat_true]
      ring

/-! ### Attention: the loads -/

/-- The address of element `tid` of the K row or V row that `op_attn_paged` loads for token `t` of
chunk `c`; the index below the layer is an `int`. -/
def attnElem (i : AttnPagedInst) (pageTable : ℕ → ℕ) (isV : Bool) (kvHead c t tid : ℕ) : ℤ :=
  let tokenIdx := kvHead * i.chunkTokens + t
  pageTable c + (if isV then i.layerVOffset else i.layerKOffset) +
    4 * toI32 (tokenIdx * i.hd + tid)

/-- **The attention kernel computes the layout**, as long as the index of a layer's last float is
an `int`. -/
lemma attnElem_eq {tid : ℕ} (hint : cfg.numKvHeads * chunkTokens * cfg.headDim ≤ 2 ^ 31)
    (hh : h < cfg.numKvHeads) (ht : t < chunkTokens) (htid : tid < cfg.headDim)
    (weights seqLen c : ℕ) (output q : Ptr) (pageTable : ℕ → ℕ) :
    attnElem (attnPagedInst cfg weights layer output q seqLen) pageTable isV h c t tid =
      ((pageTable c + rowOffset cfg layer isV h t + 4 * tid : ℕ) : ℤ) := by
  have hrow :
      (h * chunkTokens + t + 1) * cfg.headDim ≤ cfg.numKvHeads * chunkTokens * cfg.headDim := by
    refine Nat.mul_le_mul_right _ ?_
    calc h * chunkTokens + t + 1 ≤ h * chunkTokens + chunkTokens := by omega
      _ = (h + 1) * chunkTokens := by ring
      _ ≤ cfg.numKvHeads * chunkTokens := Nat.mul_le_mul_right _ hh
  have hlt : (h * chunkTokens + t) * cfg.headDim + tid < 2 ^ 31 := by
    have hsucc : (h * chunkTokens + t + 1) * cfg.headDim =
        (h * chunkTokens + t) * cfg.headDim + cfg.headDim := by ring
    omega
  rw [attnElem, attnPagedInst]
  simp only
  rw [toI32_of_lt hlt, rowOffset, rowIndex]
  cases isV with
  | false =>
      simp only [Bool.false_eq_true, if_false, layerKOff, f32Bytes, Bool.toNat_false]
      push_cast
      ring
  | true =>
      simp only [if_true, layerVOff, layerKOff, f32Bytes, Bool.toNat_true]
      push_cast
      ring

/-! ### Where a token goes -/

/-- The address of the chunk of token `n`: that of the `n / CHUNK_TOKENS`-th slot of the order. -/
def tokenBase (heap : ChunkHeap) (vram : PageAllocator) (s : SequenceState) (n : ℕ) : ℕ :=
  vram.slotPtr ((s.order heap vram).getD (n / chunkTokens) u32Max)

/-- The two destinations of a token in its chunk. -/
def tokenDst (cfg : AttnConfig) (base n l h : ℕ) : ℕ × ℕ :=
  (base + rowOffset cfg l false h (n % chunkTokens), base + rowOffset cfg l true h (n % chunkTokens))

section Steps

variable {p p' : MegakernelProgram} {heap heap' : ChunkHeap} {vram : PageAllocator}
  {m m' : KvMem} {s s' : SequenceState} {n tokenId position : ℕ}

/-- A decode step patches the copies to the chunk and the row of the appended token. -/
lemma stepDst_eq (hp : KvProgram cfg L p) (hx : s.Exclusive heap vram) (hs : s.Shape heap)
    (htok : s.chunkTokens = chunkTokens) (hn : s.seqLen = n + 1) :
    stepDst p heap s vram = tokenDst cfg (tokenBase heap vram s n) n := by
  rcases hs.last with ⟨-, hzero⟩ | ⟨last, hlast, hge, hle, hseq⟩
  · omega
  have hchunks := hs.length_chunks hn
  rw [htok] at hchunks hle hseq
  rw [hchunks, Nat.add_sub_cancel, hn] at hseq
  have hoff : s.currentChunkOffset heap - 1 = n % chunkTokens := by
    have hcur : s.currentChunkOffset heap = (chunk heap last).len := by
      rw [SequenceState.currentChunkOffset, hlast]
    have := Nat.div_add_mod n chunkTokens
    omega
  have hget : s.chunks[n / chunkTokens]? = some last := by
    rw [List.getLast?_eq_getElem?, hchunks, Nat.add_sub_cancel] at hlast
    exact hlast
  funext l h
  rw [stepDst, hp.stride, hp.headDim, kvDst_eq, hoff, lastBase, hlast, tokenDst, tokenBase]
  simp only
  rw [SequenceState.slotIndex_eq_order hx hget]

/-- A series of decode steps: append the token, update the program.  The programs dispatched, in
order. -/
def decodeSteps (p : MegakernelProgram) (m : KvMem) (s : SequenceState) :
    List (ℕ × ℕ) → Option (List MegakernelProgram)
  | [] => some []
  | (tokenId, position) :: rest =>
      match s.appendToken m (toI32 position) with
      | .error _ => none
      | .ok (m, s) =>
          match updateStepPagedNoUpload p tokenId position m.heap s m.vram with
          | .error _ => none
          | .ok (heap, p) => (decodeSteps p { m with heap } s rest).map (p :: ·)

/-- What the tokens of a slab keep of the sequence and the pool. -/
structure Appended (m : KvMem) (s : SequenceState) (m' : KvMem) (s' : SequenceState) (n : ℕ) :
    Prop where
  exclusive : s'.Exclusive m'.heap m'.vram
  shape : s'.Shape m'.heap
  chunkTokens : s'.chunkTokens = s.chunkTokens
  seqLen : s'.seqLen = s.seqLen + n
  order : s'.order m'.heap m'.vram = s.order m.heap m.vram
  pool : m'.vram.pool = m.vram.pool
  chunkBytes : m'.vram.chunkBytes = m.vram.chunkBytes

lemma Appended.tokenBase (h : Appended m s m' s' n) (k : ℕ) :
    tokenBase m'.heap m'.vram s' k = tokenBase m.heap m.vram s k := by
  rw [Megakernel.tokenBase, Megakernel.tokenBase, h.order, SlotPool.slotPtr, SlotPool.slotPtr,
    h.pool, h.chunkBytes]

lemma appended_one {position : ℤ} (hx : s.Exclusive m.heap m.vram) (hs : s.Shape m.heap)
    (happ : s.appendToken m position = .ok (m', s')) : Appended m s m' s' 1 := by
  obtain ⟨hx', horder⟩ := SequenceState.appendToken_order hx happ
  obtain ⟨hs', hlen, -, htok, -⟩ := SequenceState.appendToken_shape hx hs happ
  obtain ⟨hpool, hbytes⟩ := SequenceState.appendToken_pool happ
  exact ⟨hx', hs', htok, hlen, horder, hpool, hbytes⟩

/-- The tokens of a slab, appended one after the other. -/
lemma appended_slab {ps : List ℤ} (hx : s.Exclusive m.heap m.vram) (hs : s.Shape m.heap)
    (happ : appendTokens m s ps = .ok (m', s')) : Appended m s m' s' ps.length := by
  induction ps generalizing m s with
  | nil =>
      simp only [appendTokens, Except.ok.injEq, Prod.mk.injEq] at happ
      obtain ⟨rfl, rfl⟩ := happ
      exact ⟨hx, hs, rfl, rfl, rfl, rfl, rfl⟩
  | cons q ps ih =>
      rw [appendTokens] at happ
      cases hone : s.appendToken m q with
      | error e => simp [hone] at happ
      | ok r =>
          obtain ⟨m₁, s₁⟩ := r
          simp only [hone] at happ
          have h₁ := appended_one hx hs hone
          have h₂ := ih h₁.exclusive h₁.shape happ
          refine ⟨h₂.exclusive, h₂.shape, h₂.chunkTokens.trans h₁.chunkTokens, ?_,
            h₂.order.trans h₁.order, h₂.pool.trans h₁.pool, h₂.chunkBytes.trans h₁.chunkBytes⟩
          rw [h₂.seqLen, h₁.seqLen, List.length_cons]
          omega

/-- **The copies of every decode step of a series.** -/
lemma decodeSteps_copies {steps : List (ℕ × ℕ)} {ps : List MegakernelProgram}
    (hp : KvProgram cfg L p) (hx : s.Exclusive m.heap m.vram) (hs : s.Shape m.heap)
    (htok : s.chunkTokens = chunkTokens) (hrun : decodeSteps p m s steps = some ps) :
    ps.map (fun p => kvCopies p.instructions) = (List.range steps.length).map fun t =>
      programCopies cfg L
        (tokenDst cfg (tokenBase m.heap m.vram s (s.seqLen + t)) (s.seqLen + t)) := by
  induction steps generalizing p m s ps with
  | nil =>
      rw [decodeSteps, Option.some.injEq] at hrun
      rw [← hrun]
      rfl
  | cons step steps ih =>
      obtain ⟨tokenId, position⟩ := step
      rw [decodeSteps] at hrun
      cases happ : s.appendToken m (toI32 position) with
      | error e => simp [happ] at hrun
      | ok r =>
          obtain ⟨m₁, s₁⟩ := r
          simp only [happ] at hrun
          have h₁ := appended_one hx hs happ
          cases hup : updateStepPagedNoUpload p tokenId position m₁.heap s₁ m₁.vram with
          | error e => simp [hup] at hrun
          | ok r =>
              obtain ⟨heap, p₁⟩ := r
              simp only [hup, Option.map_eq_some_iff] at hrun
              obtain ⟨ps₁, hrun, rfl⟩ := hrun
              obtain ⟨hp₁, hcopies⟩ := updateStepPagedNoUpload_kv hp hup
              -- the update rewrites generations only
              have hview := (updateStepPagedNoUpload_spec hup).sameView s₁.chunks
              have hx₁ : s₁.Exclusive heap m₁.vram := h₁.exclusive.congr hview rfl
              have hs₁ : s₁.Shape heap := h₁.shape.congr hview rfl rfl rfl rfl
              have hbase : ∀ k, tokenBase heap m₁.vram s₁ k = tokenBase m.heap m.vram s k := by
                intro k
                rw [← h₁.tokenBase k, tokenBase, tokenBase, hview.order rfl]
              have ih' := ih hp₁ (m := { m₁ with heap }) hx₁ hs₁ (h₁.chunkTokens.trans htok) hrun
              rw [List.map_cons, List.length_cons, List.range_succ_eq_map, List.map_cons,
                List.map_map]
              refine congrArg₂ List.cons ?_ ?_
              · rw [hcopies, stepDst_eq hp h₁.exclusive h₁.shape (h₁.chunkTokens.trans htok)
                  h₁.seqLen, h₁.tokenBase]
                rfl
              · rw [ih']
                refine List.map_congr_left fun t _ => ?_
                have hidx : s₁.seqLen + t = s.seqLen + (t + 1) := by
                  rw [h₁.seqLen]
                  omega
                simp only [hbase, hidx]
                rfl

/-- The entries of the prefill page table for the tokens of a slab. -/
lemma pageTable_slab (h : Appended m s m' s' n) (htok : s.chunkTokens = chunkTokens)
    (table : ℕ → ℕ) {t : ℕ} (ht : t < n) :
    writeEntries table (chunkPtrs m'.heap m'.vram s'.chunks) ((s.seqLen + t) / chunkTokens) =
      tokenBase m.heap m.vram s (s.seqLen + t) := by
  have hlen : s'.seqLen = (s.seqLen + n - 1) + 1 := by
    rw [h.seqLen]
    omega
  have hchunks := h.shape.length_chunks hlen
  rw [h.chunkTokens, htok] at hchunks
  have hlt : (s.seqLen + t) / chunkTokens < s'.chunks.length := by
    rw [hchunks]
    exact Nat.lt_succ_of_le (Nat.div_le_div_right (by omega))
  rw [← h.tokenBase, writeEntries, chunkPtrs, List.getD_eq_getElem?_getD, List.getElem?_map,
    List.getElem?_eq_getElem hlt, Option.map_some, Option.getD_some, tokenBase]
  rw [SequenceState.slotIndex_eq_order h.exclusive (List.getElem?_eq_getElem hlt)]

end Steps

/-! ### Stores -/

section Stores

variable {V : Type*}

/-- The stores of a row: address and value of every float. -/
def rowStores (dst : ℕ) (row : ℕ → V) (len : ℕ) : List (ℕ × V) :=
  (List.range len).map fun i => (dst + 4 * i, row i)

/-- The stores of a copy from an activation buffer. -/
def copyStores (bufs : Buf → ℕ → V) (c : D2dCopyInst) : List (ℕ × V) :=
  match c.src.block with
  | .buffer _ b => rowStores c.dst.off (fun i => bufs b (c.src.off + i)) c.nElems
  | .kvPool => []

/-- The stores of a batched write: all its virtual blocks. -/
def batchStores (w : KvWriteWords) (pageTable : ℕ → ℕ) (src : ℕ → V) : List (ℕ × V) :=
  (List.range w.gridX).flatMap fun vb =>
    match opKvWritePagedBatch w pageTable vb with
    | none => []
    | some r => rowStores r.dst (fun i => src (r.src + i)) r.len

/-- The copies of layer `l` among those of a program. -/
def layerSlice (cfg : AttnConfig) (l : ℕ) (copies : List D2dCopyInst) : List D2dCopyInst :=
  (copies.drop (l * (cfg.numKvHeads * 2))).take (cfg.numKvHeads * 2)

/-- The stores of layer `l` in a series of dispatched decode programs; in step `t` the K and V
buffers hold the rows of token `t` of the slab. -/
def decodeStores (cfg : AttnConfig) (l : ℕ) (ps : List MegakernelProgram) (slab : Buf → ℕ → V) :
    List (ℕ × V) :=
  ps.zipIdx.flatMap fun (p, t) => (layerSlice cfg l (kvCopies p.instructions)).flatMap
    (copyStores fun b i => slab b (t * (cfg.numKvHeads * cfg.headDim) + i))

lemma length_layerCopies (dst : ℕ → ℕ × ℕ) :
    (layerCopies cfg dst).length = cfg.numKvHeads * 2 := by
  simp [layerCopies, headCopies, List.length_flatMap]

lemma length_programCopies (dst : ℕ → ℕ → ℕ × ℕ) :
    (programCopies cfg L dst).length = L * (cfg.numKvHeads * 2) := by
  induction L with
  | zero => simp [programCopies]
  | succ L ih =>
      rw [programCopies_succ, List.length_append, ih, length_layerCopies]
      ring

lemma layerSlice_programCopies {l : ℕ} (hl : l < L) (dst : ℕ → ℕ → ℕ × ℕ) :
    layerSlice cfg l (programCopies cfg L dst) = layerCopies cfg (dst l) := by
  induction L with
  | zero => omega
  | succ L ih =>
      have hlen : (programCopies cfg L dst).length = _ := length_programCopies dst
      rw [programCopies_succ]
      rcases Nat.lt_succ_iff_lt_or_eq.mp hl with hlt | rfl
      · have hle : l * (cfg.numKvHeads * 2) + cfg.numKvHeads * 2 ≤ L * (cfg.numKvHeads * 2) := by
          rw [← Nat.succ_mul]
          exact Nat.mul_le_mul_right _ hlt
        rw [← ih hlt, layerSlice, layerSlice, List.drop_append_of_le_length (by omega),
          List.take_append_of_le_length (by rw [List.length_drop]; omega)]
      · rw [layerSlice, List.drop_left' hlen, List.take_of_length_le (length_layerCopies _).le]

/-- The stores of a batched write, token by token and head by head. -/
lemma batchStores_eq {startPos n : ℕ} (hfit : SlabFits cfg startPos n) (pt : ℕ)
    (pageTable : ℕ → ℕ) (src : ℕ → V) :
    batchStores (batchInst cfg layer isV pt startPos n).pack pageTable src =
      (List.range n).flatMap fun t => (List.range cfg.numKvHeads).flatMap fun h =>
        rowStores (pageTable ((startPos + t) / chunkTokens) +
            rowOffset cfg layer isV h ((startPos + t) % chunkTokens))
          (fun i => src ((t * cfg.numKvHeads + h) * cfg.headDim + i)) cfg.headDim := by
  rw [batchStores, pack_gridX hfit, ← flatMap_range_divMod]
  refine List.flatMap_congr fun vb hvb => ?_
  rw [opKvWritePagedBatch_eq hfit (List.mem_range.mp hvb), Nat.div_add_mod' vb cfg.numKvHeads]

/-- The stores of one layer in one decode step. -/
lemma copyStores_layer (dst : ℕ → ℕ × ℕ) (bufs : Buf → ℕ → V) :
    (layerCopies cfg dst).flatMap (copyStores bufs) =
      (List.range cfg.numKvHeads).flatMap fun h =>
        rowStores (dst h).1 (fun i => bufs .kAttn (h * cfg.headDim + i)) cfg.headDim ++
          rowStores (dst h).2 (fun i => bufs .vAttn (h * cfg.headDim + i)) cfg.headDim := by
  rw [layerCopies, List.flatMap_assoc]
  refine List.flatMap_congr fun h _ => ?_
  simp [headCopies, copyStores, kvCopyTo, Ptr.pool, Ptr.add, Ptr.buf]

/-- **The stores of a slab**: decode steps and batched writes store the same. -/
lemma decodeStores_perm {l : ℕ} {p : MegakernelProgram} {m m' : KvMem}
    {s s' : SequenceState} {steps : List (ℕ × ℕ)} {ps : List MegakernelProgram}
    {positions : List ℤ} (hl : l < L) (hfit : SlabFits cfg s.seqLen steps.length)
    (hp : KvProgram cfg L p) (hx : s.Exclusive m.heap m.vram) (hs : s.Shape m.heap)
    (htok : s.chunkTokens = chunkTokens) (hrun : decodeSteps p m s steps = some ps)
    (happ : appendTokens m s positions = .ok (m', s')) (hpos : positions.length = steps.length)
    (pt : ℕ) (table : ℕ → ℕ) (slab : Buf → ℕ → V) :
    let pageTable := writeEntries table (chunkPtrs m'.heap m'.vram s'.chunks)
    (decodeStores cfg l ps slab).Perm
      (batchStores (batchInst cfg l false pt s.seqLen steps.length).pack pageTable (slab .kAttn) ++
        batchStores (batchInst cfg l true pt s.seqLen steps.length).pack pageTable
          (slab .vAttn)) := by
  intro pageTable
  have happended := appended_slab hx hs happ
  rw [hpos] at happended
  have hcopies := decodeSteps_copies hp hx hs htok hrun
  have hlen : ps.length = steps.length := by
    simpa using congrArg List.length hcopies
  have hdecode : decodeStores cfg l ps slab = (List.range steps.length).flatMap fun t =>
      (List.range cfg.numKvHeads).flatMap fun h =>
        rowStores (pageTable ((s.seqLen + t) / chunkTokens) +
            rowOffset cfg l false h ((s.seqLen + t) % chunkTokens))
          (fun i => slab .kAttn ((t * cfg.numKvHeads + h) * cfg.headDim + i)) cfg.headDim ++
        rowStores (pageTable ((s.seqLen + t) / chunkTokens) +
            rowOffset cfg l true h ((s.seqLen + t) % chunkTokens))
          (fun i => slab .vAttn ((t * cfg.numKvHeads + h) * cfg.headDim + i)) cfg.headDim := by
    have hrange : List.range steps.length = ps.zipIdx.map Prod.snd := by
      rw [List.zipIdx_map_snd, hlen, List.range_eq_range']
    rw [decodeStores, hrange, List.flatMap_map]
    refine List.flatMap_congr fun e he => ?_
    obtain ⟨q, t⟩ := e
    have hsome : ps[t]? = some q := List.mk_mem_zipIdx_iff_getElem?.mp he
    have ht' : t < steps.length := hlen ▸ (List.getElem?_eq_some_iff.mp hsome).1
    have hget : kvCopies q.instructions = programCopies cfg L
        (tokenDst cfg (tokenBase m.heap m.vram s (s.seqLen + t)) (s.seqLen + t)) := by
      have hmap := congrArg (·[t]?) hcopies
      simp only [List.getElem?_map, List.getElem?_range ht', Option.map_some] at hmap
      rw [hsome] at hmap
      exact Option.some.inj hmap
    simp only [hget, layerSlice_programCopies hl, copyStores_layer, tokenDst,
      ← pageTable_slab happended htok table ht']
    refine List.flatMap_congr fun h _ => ?_
    have hsrc : ∀ i, t * (cfg.numKvHeads * cfg.headDim) + (h * cfg.headDim + i) =
        (t * cfg.numKvHeads + h) * cfg.headDim + i := fun i => by ring
    simp only [hsrc]
    rfl
  rw [hdecode, batchStores_eq hfit, batchStores_eq hfit]
  refine List.Perm.trans ?_ (List.flatMap_append_perm _ _ _).symm
  exact List.Perm.flatMap_left _ fun t _ => (List.flatMap_append_perm _ _ _).symm

end Stores

/-! ### All computations together -/

/-- The programs, pools and sequences that appends, decode updates and resets lead to. -/
inductive Reached (cfg : AttnConfig) (L : ℕ) : MegakernelProgram → KvMem → SequenceState → Prop
  | compile (maxSeqLen : ℕ) (layers : List LayerCode) (tail : List ℕ) (pool chunkBytes : ℕ)
      (maxChunks : UInt32) (heap : ChunkHeap) (host : Option HostPageAllocator)
      (hL : numAttn layers = L) :
      Reached cfg L (compilePaged cfg maxSeqLen layers tail)
        ⟨heap, .new pool chunkBytes maxChunks, host⟩ (.new chunkTokens)
  | append {p : MegakernelProgram} {m m' : KvMem} {s s' : SequenceState} (position : ℤ)
      (h : Reached cfg L p m s) (happ : s.appendToken m position = .ok (m', s')) :
      Reached cfg L p m' s'
  | update {p p' : MegakernelProgram} {m : KvMem} {heap : ChunkHeap} {s : SequenceState}
      (tokenId position : ℕ) (h : Reached cfg L p m s)
      (hup : updateStepPagedNoUpload p tokenId position m.heap s m.vram = .ok (heap, p')) :
      Reached cfg L p' { m with heap } s
  | reset {p : MegakernelProgram} {m m' : KvMem} {s s' : SequenceState} (h : Reached cfg L p m s)
      (hreset : s.reset { m with host := none } = .ok (m', s')) : Reached cfg L p m' s'

/-- What is known of them. -/
structure Reached.Inv (cfg : AttnConfig) (L : ℕ) (p : MegakernelProgram) (m : KvMem)
    (s : SequenceState) : Prop where
  program : KvProgram cfg L p
  exclusive : s.Exclusive m.heap m.vram
  shape : s.Shape m.heap
  chunkTokens : s.chunkTokens = PagedKv.chunkTokens

lemma Reached.inv {p : MegakernelProgram} {m : KvMem} {s : SequenceState}
    (h : Reached cfg L p m s) : Reached.Inv cfg L p m s := by
  induction h with
  | compile maxSeqLen layers tail pool chunkBytes maxChunks heap host hL =>
      exact ⟨hL ▸ compilePaged_kv cfg maxSeqLen layers tail, .new _ _ _ _ _,
        ⟨by decide, rfl, .inl ⟨rfl, rfl⟩⟩, rfl⟩
  | append position h happ ih =>
      have happended := appended_one ih.exclusive ih.shape happ
      exact ⟨ih.program, happended.exclusive, happended.shape,
        happended.chunkTokens.trans ih.chunkTokens⟩
  | @update p p' m heap s tokenId position h hup ih =>
      have hview := (updateStepPagedNoUpload_spec hup).sameView s.chunks
      exact ⟨(updateStepPagedNoUpload_kv ih.program hup).1, ih.exclusive.congr hview rfl,
        ih.shape.congr hview rfl rfl rfl rfl, ih.chunkTokens⟩
  | @reset p m m' s s' h hreset ih =>
      obtain ⟨heap', vram', s₂, hok, rfl, hx, -, -, -, -⟩ :=
        SequenceState.reset_order ih.exclusive
      obtain ⟨rfl, rfl⟩ := Prod.mk.inj (Except.ok.inj (hok.symm.trans hreset))
      exact ⟨ih.program, hx, ⟨ih.shape.tokens_pos, rfl, .inl ⟨rfl, rfl⟩⟩, ih.chunkTokens⟩

/-- One layout for a model with `L` attention layers and for the slab of `n` tokens that starts at
`startPos`. -/
structure LayoutAgrees (V : Type*) (cfg : AttnConfig) (L startPos n : ℕ) : Prop where
  /-- Decode patches the copies of the token it appended to the rows of that token. -/
  decode : ∀ {p p' : MegakernelProgram} {m : KvMem} {heap' : ChunkHeap} {s : SequenceState}
    (k tokenId position : ℕ), Reached cfg L p m s → s.seqLen = k + 1 →
    updateStepPagedNoUpload p tokenId position m.heap s m.vram = .ok (heap', p') →
    kvCopies p'.instructions = programCopies cfg L (tokenDst cfg (tokenBase m.heap m.vram s k) k)
  /-- The batched writer stores the row of every token and head. -/
  batch : ∀ (layer : ℕ) (isV : Bool) (pt : ℕ) (pageTable : ℕ → ℕ), ∀ vb < n * cfg.numKvHeads,
    opKvWritePagedBatch (batchInst cfg layer isV pt startPos n).pack pageTable vb =
      some { dst := pageTable ((startPos + vb / cfg.numKvHeads) / chunkTokens) +
               rowOffset cfg layer isV (vb % cfg.numKvHeads)
                 ((startPos + vb / cfg.numKvHeads) % chunkTokens)
             src := vb * cfg.headDim
             len := cfg.headDim }
  /-- The attention kernel loads it from there. -/
  reader : ∀ (layer weights seqLen c : ℕ) (isV : Bool) (output q : Ptr) (pageTable : ℕ → ℕ),
    ∀ h < cfg.numKvHeads, ∀ t < chunkTokens, ∀ tid < cfg.headDim,
      attnElem (attnPagedInst cfg weights layer output q seqLen) pageTable isV h c t tid =
        ((pageTable c + rowOffset cfg layer isV h t + 4 * tid : ℕ) : ℤ)
  /-- Distinct rows are disjoint. -/
  disjoint : ∀ (layer layer' : ℕ) (isV isV' : Bool) (h h' t t' : ℕ), h < cfg.numKvHeads →
    h' < cfg.numKvHeads → t < chunkTokens → t' < chunkTokens →
    (layer, isV, h, t) ≠ (layer', isV', h', t') →
    rowOffset cfg layer isV h t + cfg.headDim * f32Bytes ≤ rowOffset cfg layer' isV' h' t' ∨
      rowOffset cfg layer' isV' h' t' + cfg.headDim * f32Bytes ≤ rowOffset cfg layer isV h t
  /-- Rows stay inside the chunk. -/
  inside : ∀ layer < L, ∀ (isV : Bool), ∀ h < cfg.numKvHeads, ∀ t < chunkTokens,
    rowOffset cfg layer isV h t + cfg.headDim * f32Bytes ≤ chunkKvBytes cfg L
  /-- The slab, written in one batch or by `n` decode steps. -/
  stores : ∀ {p : MegakernelProgram} {m m' : KvMem} {s s' : SequenceState}
    {steps : List (ℕ × ℕ)} {ps : List MegakernelProgram} {positions : List ℤ} (pt : ℕ)
    (table : ℕ → ℕ) (slab : Buf → ℕ → V), ∀ l < L, Reached cfg L p m s → s.seqLen = startPos →
    steps.length = n → positions.length = n → decodeSteps p m s steps = some ps →
    appendTokens m s positions = .ok (m', s') →
    let pageTable := writeEntries table (chunkPtrs m'.heap m'.vram s'.chunks)
    (decodeStores cfg l ps slab).Perm
      (batchStores (batchInst cfg l false pt startPos n).pack pageTable (slab .kAttn) ++
        batchStores (batchInst cfg l true pt startPos n).pack pageTable (slab .vAttn))

/-- **One layout**: decode patches, batched writes and attention loads agree on where a row is, rows
never collide, and a slab written in one batch is what decode steps write, for every geometry and
slab that the packed words hold. -/
theorem kvLayout_agrees (V : Type*) (cfg : AttnConfig) (L startPos n : ℕ)
    (hfit : SlabFits cfg startPos n)
    (hint : cfg.numKvHeads * chunkTokens * cfg.headDim ≤ 2 ^ 31) :
    LayoutAgrees V cfg L startPos n where
  decode := by
    intro p p' m heap' s k tokenId position hreached hlen hup
    have hinv := hreached.inv
    rw [(updateStepPagedNoUpload_kv hinv.program hup).2,
      stepDst_eq hinv.program hinv.exclusive hinv.shape hinv.chunkTokens hlen]
  batch := fun layer isV pt pageTable vb hvb => opKvWritePagedBatch_eq hfit hvb pt pageTable
  reader := fun layer weights seqLen c isV output q pageTable h hh t ht tid htid =>
    attnElem_eq hint hh ht htid weights seqLen c output q pageTable
  disjoint := fun _ _ _ _ _ _ _ _ hh hh' ht ht' hne => rowOffset_disjoint hh hh' ht ht' hne
  inside := fun _ hl _ _ hh _ ht => rowOffset_add_le hl hh ht
  stores := by
    intro p m m' s s' steps ps positions pt table slab l hl hreached hstart hlen hpos hrun happ
    have hinv := hreached.inv
    subst hstart hlen
    exact decodeStores_perm hl hfit hinv.program hinv.exclusive hinv.shape hinv.chunkTokens hrun
      happ hpos pt table slab

/-- Two heads of four floats, and a slab over a chunk boundary. -/
theorem kvLayout_agrees_boundary :
    LayoutAgrees ℕ ⟨8, 2, 2, 4, 4, false, false, (0, 0, 0), 0x358637bd⟩ 3 60 10 :=
  kvLayout_agrees ℕ _ 3 60 10 ⟨by decide, by decide, by decide, by decide⟩ (by decide)

/-- Heads beyond `u16` leave the batched writer without a head: it stores nothing. -/
theorem kvLayout_differs_beyond_u16 :
    ¬ ∀ (cfg : AttnConfig) (L startPos n : ℕ), LayoutAgrees ℕ cfg L startPos n := by
  intro h
  have hbatch :=
    (h ⟨1, 65536, 65536, 1, 0, false, false, (0, 0, 0), 0x358637bd⟩ 1 0 1).batch 0 false 0
    (fun _ => 0) 0 (by decide)
  have hnone : opKvWritePagedBatch
      (batchInst ⟨1, 65536, 65536, 1, 0, false, false, (0, 0, 0), 0x358637bd⟩ 0 false 0 0 1).pack
      (fun _ => 0) 0 = none := by
    decide +kernel
  rw [hnone] at hbatch
  cases hbatch

end Braidinfer.Megakernel
