/-
What the two attention kernels of a layer do to a K vector (`kernels/megakernel_ops.hip`,
`op_attn_paged` and `op_attn_paged_quant`).

The cache holds K before QK-norm and rotation, so each kernel applies both to the vectors it
reads.  The f32 kernel takes eps and the mRoPE sections from its instruction; the quantized
one has eps written into it and takes the position of every pair from section 0.  Norm and
rotation themselves are arbitrary functions here.

* `AttnPagedInst.kVector`, `AttnPagedQInst.kVector`: the two transforms;
* `sameKTransform_iff`: **the two instructions of a layer transform K alike exactly if** the
  model has no QK-norm or its eps is the one written into the kernel, and no rotated pair has
  a position other than that of section 0.
-/
import Braidinfer.Megakernel.AttnView

namespace Braidinfer.Megakernel

/-! ### The kernels -/

section Kernels

variable {F : Type} (norm : UInt32 → Weight → ℕ → (ℕ → F) → ℕ → F)
  (rotate : ℤ → ℕ → F × F → F × F)

/-- QK-norm of the vector in shared memory, unless the weight pointer is null: `norm` of eps,
weights and `head_dim`. -/
def qkNorm (kNorm : Option Weight) (eps : UInt32) (headDim : ℕ) (k : ℕ → F) : ℕ → F :=
  match kNorm with
  | none => k
  | some w => norm eps w headDim k

/-- Rotation of the pairs `(2 * tid, 2 * tid + 1)`: `rotate` of position, pair and values. -/
def rope (ropePairs : ℕ) (pos : ℕ → ℤ) (k : ℕ → F) : ℕ → F := fun j =>
  let tid := j / 2
  if tid < ropePairs then
    let rotated := rotate (pos tid) tid (k (2 * tid), k (2 * tid + 1))
    if j % 2 = 0 then rotated.1 else rotated.2
  else k j

/-- `mrope_section0_pairs`: the low half of the field, as an `int`. -/
def AttnPagedInst.section0Pairs (i : AttnPagedInst) : ℤ := (i.mropeSections.setWidth 32).toInt

/-- `mrope_section1_pairs`: the high half of the field, as an `int`. -/
def AttnPagedInst.section1Pairs (i : AttnPagedInst) : ℤ :=
  ((i.mropeSections >>> 32).setWidth 32).toInt

/-- The section of a pair. -/
def AttnPagedInst.sectionOf (i : AttnPagedInst) (tid : ℕ) : ℕ :=
  if i.section0Pairs = 0 ∧ i.section1Pairs = 0 then 0
  else if tid < i.section0Pairs then 0
  else if tid < i.section0Pairs + i.section1Pairs then 1
  else 2

/-- The K vector of `op_attn_paged` for a token with cached values `k`. -/
def AttnPagedInst.kVector (i : AttnPagedInst) (positionTable : ℕ → ℤ) (token : ℕ) (k : ℕ → F) :
    ℕ → F :=
  let eps := UInt32.ofNat i.epsBits
  rope rotate (i.rd / 2) (fun tid => positionTable (token * 3 + i.sectionOf tid))
    (qkNorm norm i.kNorm eps i.hd k)

/-- The bits of `1e-6f`. -/
def quantEps : UInt32 := 0x358637bd

/-- The K vector of `op_attn_paged_quant` for a token with dequantized values `k`. -/
def AttnPagedQInst.kVector (i : AttnPagedQInst) (positionTable : ℕ → ℤ) (token : ℕ)
    (k : ℕ → F) : ℕ → F :=
  rope rotate (i.rd / 2) (fun _ => positionTable (token * 3))
    (qkNorm norm i.kNorm quantEps i.hd k)

end Kernels

/-! ### Agreement -/

/-- The two instructions use the same K vector for the same values at the same token, whatever
norm and rotation compute. -/
def SameKTransform (q : AttnPagedQInst) (f : AttnPagedInst) (positionTable : ℕ → ℤ) : Prop :=
  ∀ (F : Type) (norm : UInt32 → Weight → ℕ → (ℕ → F) → ℕ → F)
    (rotate : ℤ → ℕ → F × F → F × F) (token : ℕ) (k : ℕ → F), ∀ j < f.hd,
      q.kVector norm rotate positionTable token k j = f.kVector norm rotate positionTable token k j

/-- The section that the f32 kernel reads the position of a pair from. -/
def sectionOf (cfg : AttnConfig) (tid : ℕ) : ℕ :=
  (attnPagedInst cfg 0 0 (.buf .act .attnOut) (.buf .act .qAttn) 1).sectionOf tid

/-- The model has no QK-norm or the eps of the quantized kernel, and every rotated pair has
the position of section 0. -/
structure KTransformAgrees (cfg : AttnConfig) (positionTable : ℕ → ℤ) : Prop where
  eps : cfg.hasQkNorm = true → 0 < cfg.headDim → cfg.rmsNormEps = quantEps
  position : ∀ token tid, tid < cfg.ropeDim / 2 → 2 * tid < cfg.headDim →
    positionTable (token * 3 + sectionOf cfg tid) = positionTable (token * 3)

variable {cfg : AttnConfig} {layer attnLayerIndex : ℕ} {side : Side} {output query : Ptr}
  {seqLen : ℕ} {positionTable : ℕ → ℤ}

lemma eps_attnPagedInst :
    UInt32.ofNat (attnPagedInst cfg layer attnLayerIndex output query seqLen).epsBits =
      cfg.rmsNormEps := UInt32.ofNat_toNat

/-- Equal arguments give equal vectors. -/
lemma KTransformAgrees.same (h : KTransformAgrees cfg positionTable) :
    SameKTransform (attnPagedQInst cfg layer side)
      (attnPagedInst cfg layer attnLayerIndex output query seqLen) positionTable := by
  intro F norm rotate token k j hj
  have hnorm : qkNorm norm (kNormPtr cfg layer) quantEps cfg.headDim k =
      qkNorm norm (kNormPtr cfg layer) cfg.rmsNormEps cfg.headDim k := by
    rw [kNormPtr]
    split_ifs with hqk
    · rw [h.eps hqk (Nat.zero_lt_of_lt hj)]
    · rfl
  rw [AttnPagedInst.kVector, AttnPagedQInst.kVector, eps_attnPagedInst]
  change rope rotate (cfg.ropeDim / 2) _
      (qkNorm norm (kNormPtr cfg layer) quantEps cfg.headDim k) j =
    rope rotate (cfg.ropeDim / 2) _
      (qkNorm norm (kNormPtr cfg layer) cfg.rmsNormEps cfg.headDim k) j
  rw [hnorm, rope, rope]
  by_cases htid : j / 2 < cfg.ropeDim / 2
  · have hpos := h.position token (j / 2) htid (Nat.lt_of_le_of_lt (Nat.mul_div_le j 2) hj)
    simp only [if_pos htid]
    rw [← hpos]
    rfl
  · simp only [if_neg htid]

/-- A norm that returns its eps tells the two apart unless eps is the same. -/
lemma eps_of_same (h : SameKTransform (attnPagedQInst cfg layer side)
      (attnPagedInst cfg layer attnLayerIndex output query seqLen) positionTable)
    (hqk : cfg.hasQkNorm = true) (hpos : 0 < cfg.headDim) : cfg.rmsNormEps = quantEps := by
  have hsame := h UInt32 (fun eps _ _ _ _ => eps) (fun _ _ x => x) 0 (fun _ => 0) 0 hpos
  rw [AttnPagedInst.kVector, AttnPagedQInst.kVector, eps_attnPagedInst] at hsame
  have hptr : kNormPtr cfg layer = some ⟨layer, .kNorm⟩ := if_pos hqk
  simpa [rope, qkNorm, attnPagedInst, attnPagedQInst, hptr] using hsame.symm

/-- A rotation that returns its position tells the two apart unless the position is the same. -/
lemma position_of_same (h : SameKTransform (attnPagedQInst cfg layer side)
      (attnPagedInst cfg layer attnLayerIndex output query seqLen) positionTable) {token tid : ℕ}
    (htid : tid < cfg.ropeDim / 2) (hlt : 2 * tid < cfg.headDim) :
    positionTable (token * 3 + sectionOf cfg tid) = positionTable (token * 3) := by
  have hsame := h ℤ (fun _ _ _ k => k) (fun pos _ x => (pos, x.2)) token (fun _ => 0) (2 * tid) hlt
  have hdiv : 2 * tid / 2 = tid := Nat.mul_div_cancel_left tid (by decide)
  rw [AttnPagedInst.kVector, AttnPagedQInst.kVector, rope, rope] at hsame
  simp only [hdiv, Nat.mul_mod_right, if_true] at hsame
  have hrd : tid < (attnPagedInst cfg layer attnLayerIndex output query seqLen).rd / 2 := htid
  rw [if_pos (show tid < (attnPagedQInst cfg layer side).rd / 2 from htid), if_pos hrd] at hsame
  exact hsame.symm

/-- **The two instructions of a layer transform K alike exactly if** the model has no QK-norm
or its eps is the one written into the quantized kernel, and every rotated pair has the
position of section 0.  The pair is any of those of a compiled program. -/
theorem sameKTransform_iff (cfg : AttnConfig) (maxSeqLen : ℕ) (layers : List LayerCode)
    (tail : List ℕ) (positionTable : ℕ → ℤ) {k : ℕ} {q : AttnPagedQInst} {f : AttnPagedInst}
    (hq : (attnQs (compilePaged cfg maxSeqLen layers tail).instructions)[k]? = some q)
    (hf : (attns (compilePaged cfg maxSeqLen layers tail).instructions)[k]? = some f) :
    SameKTransform q f positionTable ↔ KTransformAgrees cfg positionTable := by
  obtain ⟨count, -, hqs, hfs⟩ := compilePaged_attn cfg maxSeqLen layers tail
  rw [hqs, List.getElem?_map, Option.map_eq_some_iff] at hq
  rw [hfs, List.getElem?_map, Option.map_eq_some_iff] at hf
  obtain ⟨i, hi, rfl⟩ := hq
  obtain ⟨i', hi', rfl⟩ := hf
  obtain rfl : i = i' := Option.some.inj (hi.symm.trans hi')
  exact ⟨fun h => ⟨eps_of_same h, fun token tid => position_of_same h⟩, KTransformAgrees.same⟩

/-! ### A model with another eps -/

/-- One head of two channels with QK-norm, and the given eps. -/
def qkNormModel (rmsNormEps : UInt32) : AttnConfig :=
  { hiddenSize := 2, numQHeads := 1, numKvHeads := 1, headDim := 2, ropeDim := 2,
    hasOutputGate := false, hasQkNorm := true, mropeSections := (0, 0, 0), rmsNormEps }

/-- The pair of its attention layer, with the eps of the kernel. -/
theorem sameKTransform_iff_one_layer :
    SameKTransform (attnPagedQInst (qkNormModel quantEps) 0 .act)
        (attnPagedInst (qkNormModel quantEps) 0 0 (.buf .act .attnOut) (.buf .act .qAttn) 1)
        (fun i => i / 3) ↔
      KTransformAgrees (qkNormModel quantEps) fun i => i / 3 :=
  sameKTransform_iff (qkNormModel quantEps) 64 [.attention] [] _ (k := 0) rfl rfl

/-- With `1e-5` in its configuration, the quantized kernel norms with another eps than the f32
one. -/
theorem not_sameKTransform_eps :
    ¬ ∀ (cfg : AttnConfig) (maxSeqLen : ℕ) (layers : List LayerCode) (tail : List ℕ)
      (positionTable : ℕ → ℤ) (k : ℕ) (q : AttnPagedQInst) (f : AttnPagedInst),
      (attnQs (compilePaged cfg maxSeqLen layers tail).instructions)[k]? = some q →
      (attns (compilePaged cfg maxSeqLen layers tail).instructions)[k]? = some f →
      SameKTransform q f positionTable := by
  intro hall
  have hsame : SameKTransform (attnPagedQInst (qkNormModel 0x3727c5ac) 0 .act)
      (attnPagedInst (qkNormModel 0x3727c5ac) 0 0 (.buf .act .attnOut) (.buf .act .qAttn) 1)
      (fun i => i / 3) := hall (qkNormModel 0x3727c5ac) 64 [.attention] [] _ 0 _ _ rfl rfl
  exact absurd (eps_of_same hsame rfl (by decide)) (by decide)

end Braidinfer.Megakernel
