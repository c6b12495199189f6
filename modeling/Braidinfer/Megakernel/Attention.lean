/-
Emission of an attention layer (`megakernel/compile_attention.rs`, `emit_attention_layer`).

Both variants emit RMSNorm, the projections of Q, K and V, and the split of Q from its gate.
`PagedKv` (decode, one token) then copies the K and V rows of every head into the KV pool,
and only afterwards normalises and rotates Q and K in place; `PrefillPagedKv` normalises and
rotates first and writes K and V of all its tokens with two `OP_KV_WRITE_PAGED_BATCH`.  The
destinations of the decode copies are null here and patched at every step.
-/
import Braidinfer.Megakernel.Inst

namespace Braidinfer.Megakernel

open Braidinfer.PagedKv

/-- `AttentionVariant`. -/
inductive AttentionVariant
  | pagedKv (attnLayerIndex : ℕ)
  | prefillPagedKv (attnLayerIndex startPos pageTablePtr positionTablePtr : ℕ)

/-- The vectors that the compiler appends to. -/
structure Emitted where
  instructions : List Inst
  mropeIndices : List ℕ
  kvWriteIndices : List (List (ℕ × ℕ))
  attnPagedIndices : List ℕ
  attnQuantIndices : List ℕ

/-- `instructions.push`, for several instructions in a row. -/
def Emitted.push (e : Emitted) (is : List Inst) : Emitted :=
  { e with instructions := e.instructions ++ is }

/-- Bytes of one `f32`. -/
def f32Bytes : ℕ := 4

/-- Byte offset of a layer's K rows inside a chunk. -/
def layerKOff (cfg : AttnConfig) (attnLayerIndex : ℕ) : ℕ :=
  attnLayerIndex * 2 * chunkTokens * (cfg.numKvHeads * cfg.headDim) * f32Bytes

/-- Byte offset of a layer's V rows inside a chunk. -/
def layerVOff (cfg : AttnConfig) (attnLayerIndex : ℕ) : ℕ :=
  layerKOff cfg attnLayerIndex + chunkTokens * (cfg.numKvHeads * cfg.headDim) * f32Bytes

/-- `emit_batched_linear_proj`: one instruction for all tokens. -/
def batchedLinearProj (weight : Weight) (output input : Ptr) (outDim inDim n : ℕ) : Inst :=
  .linearProj { gridX := outDim, output, weight, input, outDim, inDim, batch := n }

/-- Steps 1 to 3: RMSNorm, the three projections, and the split of Q from its gate. -/
def projections (cfg : AttnConfig) (layer : ℕ) (side : Side) (n : ℕ) : List Inst :=
  let buf := Ptr.buf side
  let hs := cfg.hiddenSize
  let nqh := cfg.numQHeads
  let nkh := cfg.numKvHeads
  let hd := cfg.headDim
  let qMult := if cfg.hasOutputGate then 2 else 1
  let total := n * nqh * hd
  [ .rmsNorm { gridX := n, output := buf .normed, input := buf .hidden,
               weight := ⟨layer, .inputNorm⟩, dim := hs },
    batchedLinearProj ⟨layer, .qGate⟩ (buf .qGateAttn) (buf .normed) (nqh * hd * qMult) hs n,
    batchedLinearProj ⟨layer, .k⟩ (buf .kAttn) (buf .normed) (nkh * hd) hs n,
    batchedLinearProj ⟨layer, .v⟩ (buf .vAttn) (buf .normed) (nkh * hd) hs n,
    if cfg.hasOutputGate then
      .deinterleave { gridX := divCeil total 256, dstQ := buf .qAttn, dstGate := buf .gateAttn,
                      src := buf .qGateAttn, numHeads := nqh, headDim := hd, batch := n }
    else
      .d2dCopy { gridX := divCeil total 256, dst := buf .qAttn, src := buf .qGateAttn,
                 nElems := total } ]

/-- The decode copy of one head's row, its destination still null. -/
def kvCopy (cfg : AttnConfig) (src : Ptr) (h : ℕ) : Inst :=
  .d2dCopy { gridX := divCeil cfg.headDim 256, dst := .pool 0, src := src.add (h * cfg.headDim),
             nElems := cfg.headDim }

/-- One turn of the loop of step 4a: the K copy and the V copy of head `h`, with their
indices. -/
def emitKvCopy (cfg : AttnConfig) (side : Side) (acc : Emitted × List (ℕ × ℕ)) (h : ℕ) :
    Emitted × List (ℕ × ℕ) :=
  let kIdx := acc.1.instructions.length
  let e := acc.1.push [kvCopy cfg (.buf side .kAttn) h]
  let vIdx := e.instructions.length
  let e := e.push [kvCopy cfg (.buf side .vAttn) h]
  (e, acc.2 ++ [(kIdx, vIdx)])

/-- Step 4a: the KV write of `PagedKv`, before QK-norm. -/
def emitKvWrites (cfg : AttnConfig) (side : Side) (e : Emitted) : Emitted :=
  let (e, headIndices) := (List.range cfg.numKvHeads).foldl (emitKvCopy cfg side) (e, [])
  { e with kvWriteIndices := e.kvWriteIndices ++ [headIndices] }

/-- Step 4b: QK-norm, for models that have its weights. -/
def qkNormInsts (cfg : AttnConfig) (layer : ℕ) (side : Side) (n : ℕ) : List Inst :=
  if cfg.hasQkNorm then
    [ .qkNorm { gridX := n * (cfg.numQHeads + cfg.numKvHeads), q := .buf side .qAttn,
                k := .buf side .kAttn, qNorm := ⟨layer, .qNorm⟩, kNorm := ⟨layer, .kNorm⟩,
                nqh := cfg.numQHeads, nkh := cfg.numKvHeads, hd := cfg.headDim,
                batch := if 1 < n then n else 0 } ]
  else []

/-- The rotation of Q and K in place. -/
def mropeInst (cfg : AttnConfig) (side : Side) (n : ℕ) : Inst :=
  .mrope { gridX := n * (cfg.numQHeads + cfg.numKvHeads), q := .buf side .qAttn,
           k := .buf side .kAttn, posIds := side, nqh := cfg.numQHeads, nkh := cfg.numKvHeads,
           hd := cfg.headDim, rd := cfg.ropeDim, sections := cfg.mropeSections, batch := n }

/-- The QK-norm weight the attention kernels get: null without QK-norm. -/
def kNormPtr (cfg : AttnConfig) (layer : ℕ) : Option Weight :=
  if cfg.hasQkNorm then some ⟨layer, .kNorm⟩ else none

/-- `AttnPagedQInst::new`, as emitted: disabled, its pointers null. -/
def attnPagedQInst (cfg : AttnConfig) (layer : ℕ) (side : Side) : AttnPagedQInst :=
  { gridX := 0, scratch := 0, q := .buf side .qAttn, quantPageTable := 0, posTable := 0,
    nqh := cfg.numQHeads, nkh := cfg.numKvHeads, hd := cfg.headDim, quantSeqLen := 0,
    chunkTokens := chunkTokens, rd := cfg.ropeDim, kNorm := kNormPtr cfg layer,
    localQHeadStart := 0, localNqh := cfg.numQHeads }

/-- The low half holds the pairs of section 0, the high half those of section 1; each is an
`i32` widened to `u64`. -/
def packMropeSections (section0Pairs section1Pairs : ℕ) : BitVec 64 :=
  (BitVec.ofNat 32 section0Pairs).signExtend 64 |||
    (BitVec.ofNat 32 section1Pairs).signExtend 64 <<< 32

/-- `AttnPagedInst::new`, as emitted for the query at `q`: its pointers null. -/
def attnPagedInst (cfg : AttnConfig) (layer attnLayerIndex : ℕ) (output q : Ptr)
    (seqLen : ℕ) : AttnPagedInst :=
  { gridX := cfg.numQHeads, output, q, pageTable := 0, posTable := 0, nqh := cfg.numQHeads,
    nkh := cfg.numKvHeads, hd := cfg.headDim, seqLen, chunkTokens := chunkTokens,
    rd := cfg.ropeDim, layerKOffset := layerKOff cfg attnLayerIndex,
    layerVOffset := layerVOff cfg attnLayerIndex, partialState := 0,
    mropeSections := packMropeSections cfg.mropeSections.1 cfg.mropeSections.2.1,
    kNorm := kNormPtr cfg layer, epsBits := cfg.rmsNormEps.toNat, localQHeadStart := 0,
    localNqh := cfg.numQHeads }

/-- The batched KV write of `PrefillPagedKv` from one of the buffers. -/
def kvWritePagedBatch (cfg : AttnConfig) (src : Ptr) (pageTablePtr layerKvOffset startPos n : ℕ) :
    Inst :=
  .kvWritePagedBatch
    { gridX := n * cfg.numKvHeads, src, pageTable := pageTablePtr, layerKvOffset, startPos,
      nTokens := n, localKvHeadStart := 0, localNkh := cfg.numKvHeads, headDim := cfg.headDim,
      chunkTokens := chunkTokens }

/-- One turn of the causal loop of `PrefillPagedKv`. -/
def emitPrefillAttn (cfg : AttnConfig) (layer attnLayerIndex : ℕ) (side : Side)
    (startPos pageTablePtr positionTablePtr : ℕ) (e : Emitted) (t : ℕ) : Emitted :=
  let stride := t * cfg.numQHeads * cfg.headDim
  let inst := attnPagedInst cfg layer attnLayerIndex ((Ptr.buf side .attnOut).add stride)
    ((Ptr.buf side .qAttn).add stride) (startPos + t + 1)
  let e := { e with attnPagedIndices := e.attnPagedIndices ++ [e.instructions.length] }
  e.push [.attnPaged { inst with pageTable := pageTablePtr, posTable := positionTablePtr }]

/-- Steps 5 and 6, which differ between the variants. -/
def emitVariant (cfg : AttnConfig) (layer : ℕ) (side : Side) (n : ℕ) (variant : AttentionVariant)
    (e : Emitted) : Emitted :=
  let e := { e with mropeIndices := e.mropeIndices ++ [e.instructions.length] }
  let e := e.push [mropeInst cfg side n]
  match variant with
  | .pagedKv attnLayerIndex =>
      let e := { e with attnQuantIndices := e.attnQuantIndices ++ [e.instructions.length] }
      let e := e.push [.attnPagedQ (attnPagedQInst cfg layer side)]
      let e := { e with attnPagedIndices := e.attnPagedIndices ++ [e.instructions.length] }
      e.push [.attnPaged (attnPagedInst cfg layer attnLayerIndex (.buf side .attnOut)
        (.buf side .qAttn) 1)]
  | .prefillPagedKv attnLayerIndex startPos pageTablePtr positionTablePtr =>
      let e := e.push
        [ kvWritePagedBatch cfg (.buf side .kAttn) pageTablePtr (layerKOff cfg attnLayerIndex)
            startPos n,
          kvWritePagedBatch cfg (.buf side .vAttn) pageTablePtr (layerVOff cfg attnLayerIndex)
            startPos n ]
      (List.range n).foldl (emitPrefillAttn cfg layer attnLayerIndex side startPos pageTablePtr
        positionTablePtr) e

/-- Steps 10 and 11: output gate, output projection and residual. -/
def outputInsts (cfg : AttnConfig) (layer : ℕ) (side : Side) (n : ℕ) : List Inst :=
  let buf := Ptr.buf side
  let hs := cfg.hiddenSize
  let gateSize := n * cfg.numQHeads * cfg.headDim
  let gate : List Inst :=
    if cfg.hasOutputGate then
      [ .outputGate { gridX := divCeil gateSize 256, output := buf .gatedOut,
                      attnOut := buf .attnOut, gate := buf .gateAttn, size := gateSize } ]
    else []
  let finalAttn := if cfg.hasOutputGate then buf .gatedOut else buf .attnOut
  let proj := batchedLinearProj ⟨layer, .o⟩ (buf .outProj) finalAttn hs
    (cfg.numQHeads * cfg.headDim) n
  let residual : List Inst :=
    if 1 < n then
      [ .residualAdd { gridX := divCeil (n * hs) 256, output := buf .hidden, a := buf .outProj,
                       b := buf .hidden, size := n * hs } ]
    else
      match side with
      | .prefill =>
          [ .residualAdd { gridX := divCeil hs 256, output := buf .hidden, a := buf .outProj,
                           b := buf .hidden, size := hs } ]
      | .act =>
          [ .d2dCopy { gridX := divCeil hs 256, dst := buf .residual, src := buf .hidden,
                       nElems := hs },
            .residualAdd { gridX := divCeil hs 256, output := buf .hidden, a := buf .outProj,
                           b := buf .residual, size := hs } ]
  gate ++ [proj] ++ residual

/-- `emit_attention_layer`, on the prefill buffers for `n` tokens or on the activation
buffers for one. -/
def emitAttentionLayer (cfg : AttnConfig) (layer : ℕ) (side : Side) (n : ℕ)
    (variant : AttentionVariant) (e : Emitted) : Emitted :=
  let e := e.push (projections cfg layer side n)
  let e := match variant with
    | .pagedKv _ => emitKvWrites cfg side e
    | .prefillPagedKv .. => e
  let e := e.push (qkNormInsts cfg layer side n)
  let e := emitVariant cfg layer side n variant e
  e.push (outputInsts cfg layer side n)

end Braidinfer.Megakernel
