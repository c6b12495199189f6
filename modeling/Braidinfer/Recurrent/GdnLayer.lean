/-
A GDN layer on one token, by rows.

* `GdnRows`: what a layer keeps, the last inputs of its three convolutions and the states of its
  heads; `gdnMixer`: a token, from its rows of the projections;
* `gdnConvEffect`, `effects_gdnToken`: **the instructions of a token leave what `gdnMixer` says**,
  at whatever pointers the rows of its projections are;
* `gdnLayer`: **a GDN layer on a token**; `effects_compileGdnLayer`: decoding a token is `gdnLayer`.
-/
import Braidinfer.Recurrent.Compile

namespace Braidinfer.Recurrent

open Braidinfer.Lib RowMem
open Braidinfer.Moe (LinearWeight)

variable {V : Type*} [Add V] [Sub V] [Mul V] [Div V] [Neg V] [Zero V] [One V] [NatCast V] [LT V]
  [DecidableLT V] [FloatFns V]

set_option linter.unusedSectionVars false

/-! ### Rows that instructions leave -/

section Rows

variable {M : Matrices V} {m : Mem V} {cfg : ModelConfig V}

/-- A row of a block that an instruction does not write. -/
lemma slice_effect_of_notMem {i : Inst V} {p : FPtr} {n : ℕ} (hb : p.block ∉ i.writes) :
    (effect M i m).slice p n = m.slice p n :=
  slice_congr fun _ _ => congrFun (effect_of_notMem hb) _

/-- A row of a norm. -/
lemma slice_normRows {weight : ℕ → V} {n t : ℕ} {output input : FPtr} (ht : t < n) :
    (effect M (normRows cfg weight n output input) m).slice
        (output.add (t * cfg.hiddenSize)) cfg.hiddenSize =
      pad cfg.hiddenSize (rmsNormRow cfg.rmsNormOnePlusW weight cfg.hiddenSize cfg.rmsNormEps
        (m.slice (input.add (t * cfg.hiddenSize)) cfg.hiddenSize)) :=
  slice_fill_row (f := fun t => rmsNormRow cfg.rmsNormOnePlusW weight cfg.hiddenSize cfg.rmsNormEps
    (m.slice (input.add (t * cfg.hiddenSize)) cfg.hiddenSize)) ht

/-- The row of one token. -/
lemma slice_normRow {weight : ℕ → V} {output input : FPtr} :
    (effect M (normRows cfg weight 1 output input) m).slice output cfg.hiddenSize =
      pad cfg.hiddenSize (rmsNormRow cfg.rmsNormOnePlusW weight cfg.hiddenSize cfg.rmsNormEps
        (m.slice input cfg.hiddenSize)) := by
  have hrow : (effect M (normRows cfg weight 1 output input) m).slice
      (output.add (0 * cfg.hiddenSize)) cfg.hiddenSize = _ := slice_normRows Nat.one_pos
  rw [Nat.zero_mul] at hrow
  exact hrow

/-- A projection of a row. -/
def projRow (M : Matrices V) (w : LinearWeight) (outDim inDim : ℕ) (x : ℕ → V) : ℕ → V :=
  pad outDim (M.linear (linearProjOpcodePtr w).2 inDim x)

/-- A row of a projection. -/
lemma slice_linearProj {w : LinearWeight} {output input : FPtr} {outDim inDim batch t : ℕ}
    (ht : t < batchOf batch) :
    (effect M (linearProj w output input outDim inDim batch) m).slice
        (output.add (t * outDim)) outDim =
      projRow M w outDim inDim (m.slice (input.add (t * inDim)) inDim) :=
  slice_fill_row (f := fun t => M.linear (linearProjOpcodePtr w).2 inDim
    (m.slice (input.add (t * inDim)) inDim)) ht

lemma slice_linearProj_one {w : LinearWeight} {output input : FPtr} {outDim inDim : ℕ} :
    (effect M (linearProj w output input outDim inDim 0) m).slice output outDim =
      projRow M w outDim inDim (m.slice input inDim) := by
  have hrow : (effect M (linearProj w output input outDim inDim 0) m).slice
      (output.add (0 * outDim)) outDim = _ := slice_linearProj Nat.one_pos
  rw [Nat.zero_mul, Nat.zero_mul] at hrow
  exact hrow

end Rows

/-! ### A token -/

/-- What a layer keeps: the last inputs of the convolutions of queries, keys and values, and the
states of the heads. -/
@[ext]
structure GdnRows (V : Type*) where
  q : ℕ → V
  k : ℕ → V
  v : ℕ → V
  recurrent : ℕ → V

section Token

variable (M : Matrices V) (cfg : ModelConfig V) (w : GdnLayerWeights V)

/-- The rows of a layer in memory. -/
def gdnRowsAt (idx : ℕ) (m : Mem V) : GdnRows V :=
  let hist := cfg.linearConvKernelDim - 1
  let conv : FPtr := ⟨.gdnConv idx, 0⟩
  { q := m.slice conv (cfg.qDim * hist)
    k := m.slice (conv.add (cfg.qDim * hist)) (cfg.qDim * hist)
    v := m.slice (conv.add ((cfg.qDim + cfg.qDim) * hist)) (cfg.vDim * hist)
    recurrent := m.slice ⟨.gdnRecurrent idx, 0⟩ (cfg.vDim * cfg.linearKeyHeadDim) }

/-- The gated norm of the outputs of the heads. -/
def gdnNorm (o z : ℕ → V) : ℕ → V :=
  let vd := cfg.linearValueHeadDim
  pad cfg.vDim fun k =>
    rmsNormGatedRow w.outputNorm vd cfg.rmsNormEps (pad vd fun j => o (k / vd * vd + j))
      (pad vd fun j => z (k / vd * vd + j)) (k % vd)

/-- A token, from its rows of the projections: what the layer keeps, and the row that it adds to the
hidden state. -/
def gdnMixer (s : GdnRows V) (xq xk xv a b z : ℕ → V) : GdnRows V × (ℕ → V) :=
  let kd := cfg.linearKeyHeadDim
  let vd := cfg.linearValueHeadDim
  let nvh := cfg.linearNumValueHeads
  let ck := cfg.linearConvKernelDim
  let gqa := nvh / cfg.linearNumHeads
  let q := pad cfg.qDim (convOut w.conv1dWeightQ (fun _ acc => acc) ck s.q xq)
  let k := pad cfg.qDim (convOut w.conv1dWeightK (fun _ acc => acc) ck s.k xk)
  let v := pad cfg.vDim (convOut w.conv1dWeightV (fun _ acc => acc) ck s.v xv)
  let gate := pad nvh fun h => gdnGate (w.aLog h) (a h) (w.dtBias h)
  let state := gdnState kd vd gqa k v gate b s.recurrent
  let o := pad cfg.vDim (gdnOut kd vd gqa q state)
  ({ q := pad (cfg.qDim * (ck - 1)) (convNext ck s.q xq)
     k := pad (cfg.qDim * (ck - 1)) (convNext ck s.k xk)
     v := pad (cfg.vDim * (ck - 1)) (convNext ck s.v xv)
     recurrent := pad (cfg.vDim * kd) state },
    projRow M w.wOut cfg.hiddenSize cfg.vDim (gdnNorm cfg w o z))

end Token

/-! ### The convolutions -/

section Conv

variable {m : Mem V} {c : ConvArgs V} {p : FPtr} {n : ℕ}

lemma slice_conv_output (hne : c.output.block ≠ c.state.block) :
    (c.effect m).slice c.output c.dim =
      pad c.dim (convOut c.weight c.post c.kernelSize (m.slice c.state (c.dim * c.hist))
        (m.slice c.input c.dim)) :=
  (slice_fill_of_ne hne).trans (slice_fill le_rfl)

lemma slice_conv_state :
    (c.effect m).slice c.state (c.dim * c.hist) =
      pad (c.dim * c.hist) (convNext c.kernelSize (m.slice c.state (c.dim * c.hist))
        (m.slice c.input c.dim)) :=
  slice_fill le_rfl

lemma slice_conv_of_ne (hout : p.block ≠ c.output.block) (hstate : p.block ≠ c.state.block) :
    (c.effect m).slice p n = m.slice p n :=
  (slice_fill_of_ne hstate).trans (slice_fill_of_ne hout)

/-- The states of another convolution. -/
lemma slice_conv_of_sep (hout : p.block ≠ c.output.block)
    (hsep : p.off + n ≤ c.state.off ∨ c.state.off + c.dim * c.hist ≤ p.off) :
    (c.effect m).slice p n = m.slice p n :=
  (slice_fill_of_sep hsep).trans (slice_fill_of_ne hout)

variable (cfg : ModelConfig V) (w : GdnLayerWeights V) (idx : ℕ) (xq xk xv : FPtr)

/-- The convolution of the queries. -/
def convQ : ConvArgs V :=
  ⟨⟨.gdnConv idx, 0⟩, xq, w.conv1dWeightQ, fun _ acc => acc, act .qGdn, cfg.qDim,
    cfg.linearConvKernelDim⟩

/-- The convolution of the keys. -/
def convK : ConvArgs V :=
  ⟨DevPtr.add ⟨.gdnConv idx, 0⟩ (cfg.qDim * (cfg.linearConvKernelDim - 1)), xk, w.conv1dWeightK,
    fun _ acc => acc, act .kGdn, cfg.qDim, cfg.linearConvKernelDim⟩

/-- The convolution of the values. -/
def convV : ConvArgs V :=
  ⟨DevPtr.add ⟨.gdnConv idx, 0⟩ ((cfg.qDim + cfg.qDim) * (cfg.linearConvKernelDim - 1)), xv,
    w.conv1dWeightV, fun _ acc => acc, act .vGdn, cfg.vDim, cfg.linearConvKernelDim⟩

/-- The three convolutions of a token, with its inputs at the pointers. -/
def gdnConvEffect (m : Mem V) : Mem V :=
  (convV cfg w idx xv).effect ((convK cfg w idx xk).effect ((convQ cfg w idx xq).effect m))

/-- **What the convolutions leave.** -/
lemma slices_gdnConvEffect
    (hx : ∀ x ∈ [xq, xk, xv], x.block ∉ [.gdnConv idx, .act .qGdn, .act .kGdn, .act .vGdn]) :
    let ck := cfg.linearConvKernelDim
    let s := gdnRowsAt cfg idx m
    let s' := gdnRowsAt cfg idx (gdnConvEffect cfg w idx xq xk xv m)
    (gdnConvEffect cfg w idx xq xk xv m).slice (act .qGdn) cfg.qDim =
        pad cfg.qDim (convOut w.conv1dWeightQ (fun _ acc => acc) ck s.q (m.slice xq cfg.qDim)) ∧
      (gdnConvEffect cfg w idx xq xk xv m).slice (act .kGdn) cfg.qDim =
        pad cfg.qDim (convOut w.conv1dWeightK (fun _ acc => acc) ck s.k (m.slice xk cfg.qDim)) ∧
      (gdnConvEffect cfg w idx xq xk xv m).slice (act .vGdn) cfg.vDim =
        pad cfg.vDim (convOut w.conv1dWeightV (fun _ acc => acc) ck s.v (m.slice xv cfg.vDim)) ∧
      s'.q = pad (cfg.qDim * (ck - 1)) (convNext ck s.q (m.slice xq cfg.qDim)) ∧
      s'.k = pad (cfg.qDim * (ck - 1)) (convNext ck s.k (m.slice xk cfg.qDim)) ∧
      s'.v = pad (cfg.vDim * (ck - 1)) (convNext ck s.v (m.slice xv cfg.vDim)) := by
  intro ck s s'
  rw [List.forall_mem_cons, List.forall_mem_cons, List.forall_mem_singleton] at hx
  simp only [List.mem_cons, List.not_mem_nil, or_false, not_or] at hx
  obtain ⟨-, ⟨hkc, hkq, -, -⟩, hvc, hvq, hvk, -⟩ := hx
  have hdouble : (cfg.qDim + cfg.qDim) * (ck - 1) =
      cfg.qDim * (ck - 1) + cfg.qDim * (ck - 1) := Nat.add_mul _ _ _
  let cq := convQ cfg w idx xq
  let ck' := convK cfg w idx xk
  let cv := convV cfg w idx xv
  let mq := cq.effect m
  let mk := ck'.effect mq
  -- the states of the other parts
  have hqk : mq.slice ck'.state (cfg.qDim * (ck - 1)) = s.k :=
    slice_conv_of_sep (by simp [cq, ck', convQ, convK])
      (.inr (by simp [cq, ck', convQ, convK, ConvArgs.hist]))
  have hqv : mq.slice cv.state (cfg.vDim * (ck - 1)) = s.v :=
    slice_conv_of_sep (by simp [cq, cv, convQ, convV])
      (.inr (by simp [cq, cv, convQ, convV, ConvArgs.hist, hdouble, ck]))
  have hkq' : mk.slice cq.state (cfg.qDim * (ck - 1)) = mq.slice cq.state (cfg.qDim * (ck - 1)) :=
    slice_conv_of_sep (by simp [cq, ck', convQ, convK])
      (.inl (by simp [cq, ck', convQ, convK, ck]))
  have hkv : mk.slice cv.state (cfg.vDim * (ck - 1)) = mq.slice cv.state (cfg.vDim * (ck - 1)) :=
    slice_conv_of_sep (by simp [cv, ck', convV, convK])
      (.inr (by simp [cv, ck', convV, convK, ConvArgs.hist, hdouble, ck]))
  have hvq' : s'.q = mk.slice cq.state (cfg.qDim * (ck - 1)) :=
    slice_conv_of_sep (by simp [convV]) (.inl (by simp [convV, hdouble, ck]))
  have hvk' : s'.k = mk.slice ck'.state (cfg.qDim * (ck - 1)) :=
    slice_conv_of_sep (by simp [convV]) (.inl (by simp [convV, hdouble, ck]))
  -- the inputs and the outputs of the other parts
  have hxk : mq.slice xk cfg.qDim = m.slice xk cfg.qDim := slice_conv_of_ne hkq hkc
  have hxv : mk.slice xv cfg.vDim = m.slice xv cfg.vDim :=
    (slice_conv_of_ne hvk hvc).trans (slice_conv_of_ne hvq hvc)
  have hyq : (cv.effect mk).slice (act .qGdn) cfg.qDim = mq.slice (act .qGdn) cfg.qDim :=
    (slice_conv_of_ne (by simp [cv, convV]) (by simp [cv, convV])).trans
      (slice_conv_of_ne (by simp [ck', convK]) (by simp [ck', convK]))
  have hyk : (cv.effect mk).slice (act .kGdn) cfg.qDim = mk.slice (act .kGdn) cfg.qDim :=
    slice_conv_of_ne (by simp [cv, convV]) (by simp [cv, convV])
  refine ⟨?_, ?_, ?_, ?_, ?_, ?_⟩
  · exact hyq.trans (slice_conv_output (c := cq) (by simp [cq, convQ]))
  · refine (hyk.trans (slice_conv_output (c := ck') (by simp [ck', convK]))).trans ?_
    exact congrArg₂ (fun s x => pad cfg.qDim (convOut _ _ ck s x)) hqk hxk
  · refine (slice_conv_output (c := cv) (by simp [cv, convV])).trans ?_
    exact congrArg₂ (fun s x => pad cfg.vDim (convOut _ _ ck s x)) (hkv.trans hqv) hxv
  · exact hvq'.trans (hkq'.trans (slice_conv_state (c := cq)))
  · refine (hvk'.trans (slice_conv_state (c := ck'))).trans ?_
    exact congrArg₂ (fun s x => pad (cfg.qDim * (ck - 1)) (convNext ck s x)) hqk hxk
  · refine (slice_conv_state (c := cv)).trans ?_
    exact congrArg₂ (fun s x => pad (cfg.vDim * (ck - 1)) (convNext ck s x)) (hkv.trans hqv) hxv

end Conv

/-! ### The rest of a token -/

section Tail

variable {M : Matrices V} {m : Mem V} {cfg : ModelConfig V} {w : GdnLayerWeights V}
  {gridDim numBlocks : ℕ} {a b z : FPtr}

lemma slice_gdnRecur_state {i : GdnRecurInst} (hne : i.output.block ≠ i.state.block) :
    (effect M (.gdnRecur i) m).slice i.state (i.numHeads * i.vd * i.kd) =
      pad (i.numHeads * i.vd * i.kd) (gdnState i.kd i.vd i.gqa (m.slice i.k (i.keyHeads * i.kd))
        (m.slice i.v (i.numHeads * i.vd)) (m.slice i.gate i.numHeads) (m.slice i.bProj i.numHeads)
        (m.slice i.state (i.numHeads * i.vd * i.kd))) :=
  (slice_fill_of_ne hne.symm).trans (slice_fill le_rfl)

lemma slice_gdnRecur_output {i : GdnRecurInst} :
    (effect M (.gdnRecur i) m).slice i.output (i.numHeads * i.vd) =
      pad (i.numHeads * i.vd) (gdnOut i.kd i.vd i.gqa (m.slice i.q (i.keyHeads * i.kd))
        (gdnState i.kd i.vd i.gqa (m.slice i.k (i.keyHeads * i.kd))
          (m.slice i.v (i.numHeads * i.vd)) (m.slice i.gate i.numHeads)
          (m.slice i.bProj i.numHeads) (m.slice i.state (i.numHeads * i.vd * i.kd)))) :=
  slice_fill le_rfl

/-- The rows of heads are parts of a row. -/
lemma slice_head {p : FPtr} {n w k : ℕ} (hk : k < n * w) :
    m.slice (p.add (k / w * w)) w = pad w fun j => m.slice p (n * w) (k / w * w + j) := by
  have hw : 0 < w := Nat.pos_of_ne_zero fun h0 => by rw [h0, Nat.mul_zero] at hk; omega
  have hlt : k / w < n := (Nat.div_lt_iff_lt_mul hw).mpr hk
  refine slice_add ?_
  calc k / w * w + w = (k / w + 1) * w := by rw [Nat.add_mul, Nat.one_mul]
    _ ≤ n * w := Nat.mul_le_mul_right _ hlt

/-- **What the instructions behind the convolutions leave.** -/
lemma slices_gdnTail (idx : ℕ) (h : cfg.GdnValid gridDim numBlocks)
    (hb : b.block ≠ .act .gateGdn)
    (hz : z.block ∉ [.act .gateGdn, .gdnRecurrent idx, .act .recurrentOut]) :
    let kd := cfg.linearKeyHeadDim
    let vd := cfg.linearValueHeadDim
    let nvh := cfg.linearNumValueHeads
    let gqa := nvh / cfg.linearNumHeads
    let gate := pad nvh fun h => gdnGate (w.aLog h) (m.slice a nvh h) (w.dtBias h)
    let state := gdnState kd vd gqa (m.slice (act .kGdn) cfg.qDim) (m.slice (act .vGdn) cfg.vDim)
      gate (m.slice b nvh) (m.slice ⟨.gdnRecurrent idx, 0⟩ (cfg.vDim * kd))
    let o := pad cfg.vDim (gdnOut kd vd gqa (m.slice (act .qGdn) cfg.qDim) state)
    let m' := effects M (gdnTail cfg w idx numBlocks a b z) m
    m'.slice ⟨.gdnRecurrent idx, 0⟩ (cfg.vDim * kd) = pad (cfg.vDim * kd) state ∧
      m'.slice (act .outProj) cfg.hiddenSize =
        projRow M w.wOut cfg.hiddenSize cfg.vDim (gdnNorm cfg w o (m.slice z cfg.vDim)) := by
  intro kd vd nvh gqa gate state o m'
  simp only [List.mem_cons, List.not_mem_nil, or_false, not_or] at hz
  obtain ⟨hzg, hzs, hzo⟩ := hz
  let iGate : GdnGateInst V :=
    ⟨divCeil nvh 256, act .gateGdn, a, w.aLog, w.dtBias, nvh⟩
  let iRecur : GdnRecurInst :=
    ⟨nvh * Megakernel.GdnPartition.blocksPerHead numBlocks nvh, nvh, act .qGdn, act .kGdn,
      act .vGdn, act .gateGdn, b, ⟨.gdnRecurrent idx, 0⟩, act .recurrentOut, kd, vd, gqa⟩
  let iNorm : RmsNormGateInst V :=
    ⟨nvh, act .normedGated, act .recurrentOut, z, w.outputNorm, nvh, vd, cfg.rmsNormEps⟩
  let iOut : Inst V :=
    linearProj w.wOut (act .outProj) (act .normedGated) cfg.hiddenSize (nvh * vd) 0
  let m₁ := effect M (.gdnGate iGate) m
  let m₂ := effect M (.gdnRecur iRecur) m₁
  let m₃ := effect M (.rmsNormGate iNorm) m₂
  have hm' : m' = effect M iOut m₃ := rfl
  -- the gate
  have hm₁ : m₁ = m.fill (act .gateGdn) nvh fun h =>
      gdnGate (w.aLog h) (m.slice a nvh h) (w.dtBias h) := rfl
  have hgate : m₁.slice (act .gateGdn) nvh = gate := by
    rw [hm₁]
    exact slice_fill le_rfl
  have h₁ : ∀ {p : FPtr} {n : ℕ}, p.block ≠ .act .gateGdn → m₁.slice p n = m.slice p n :=
    fun hp => by
      rw [hm₁]
      exact slice_fill_of_ne hp
  -- the recurrence
  have hgqa : iRecur.gqa = gqa := if_neg (gqa_pos h).ne'
  have hkeys : iRecur.keyHeads = cfg.linearNumHeads := by
    rw [GdnRecurInst.keyHeads, hgqa]
    exact Nat.div_div_self h.dvd h.valueHeads_pos.ne'
  have hstate : m₂.slice ⟨.gdnRecurrent idx, 0⟩ (cfg.vDim * kd) = pad (cfg.vDim * kd) state := by
    refine (slice_gdnRecur_state (i := iRecur) (by simp [iRecur])).trans ?_
    rw [hgqa, hkeys]
    simp only [iRecur, hgate, h₁ hb]
    rw [h₁ (by simp), h₁ (by simp), h₁ (by simp)]
    rfl
  have ho : m₂.slice (act .recurrentOut) cfg.vDim = o := by
    refine (slice_gdnRecur_output (i := iRecur)).trans ?_
    rw [hgqa, hkeys]
    simp only [iRecur, hgate, h₁ hb]
    rw [h₁ (by simp), h₁ (by simp), h₁ (by simp), h₁ (by simp)]
    rfl
  have hz₂ : m₂.slice z cfg.vDim = m.slice z cfg.vDim :=
    (slice_effect_of_notMem (by simp [Inst.writes, iRecur, hzs, hzo])).trans (h₁ hzg)
  -- the gated norm
  have hnorm : m₃.slice (act .normedGated) cfg.vDim = gdnNorm cfg w o (m.slice z cfg.vDim) := by
    have hm₃ : m₃ = m₂.fill (act .normedGated) cfg.vDim fun k =>
        rmsNormGatedRow w.outputNorm vd cfg.rmsNormEps
          (m₂.slice ((act .recurrentOut).add (k / vd * vd)) vd) (m₂.slice (z.add (k / vd * vd)) vd)
          (k % vd) := rfl
    rw [hm₃]
    refine (slice_fill le_rfl).trans (pad_congr fun k hk => ?_)
    rw [slice_head hk, slice_head hk]
    exact congrArg₂ (fun o z : ℕ → V => rmsNormGatedRow w.outputNorm vd cfg.rmsNormEps
      (pad vd fun j => o (k / vd * vd + j)) (pad vd fun j => z (k / vd * vd + j)) (k % vd)) ho hz₂
  constructor
  · rw [hm', slice_effect_of_notMem (by simp [iOut, linearProj, Inst.writes]),
      slice_effect_of_notMem (by simp [Inst.writes, iNorm]), hstate]
  · rw [hm', slice_linearProj_one]
    exact congrArg (projRow M w.wOut cfg.hiddenSize cfg.vDim) hnorm

/-- The blocks that a token writes. -/
def gdnBlocks (idx : ℕ) : List Block :=
  [.gdnConv idx, .gdnRecurrent idx, .act .qGdn, .act .kGdn, .act .vGdn, .act .gateGdn,
    .act .recurrentOut, .act .normedGated, .act .outProj]

/-- **A token**, with its rows at the pointers. -/
theorem effects_gdnToken (idx : ℕ) (xq xk xv : FPtr) (h : cfg.GdnValid gridDim numBlocks)
    (hp : ∀ p ∈ [xq, xk, xv, a, b, z], p.block ∉ gdnBlocks idx) :
    let m' := effects M (gdnTail cfg w idx numBlocks a b z) (gdnConvEffect cfg w idx xq xk xv m)
    (gdnRowsAt cfg idx m', m'.slice (act .outProj) cfg.hiddenSize) =
        gdnMixer M cfg w (gdnRowsAt cfg idx m) (m.slice xq cfg.qDim) (m.slice xk cfg.qDim)
          (m.slice xv cfg.vDim) (m.slice a cfg.linearNumValueHeads)
          (m.slice b cfg.linearNumValueHeads) (m.slice z cfg.vDim) ∧
      ∀ block ∉ gdnBlocks idx, m' block = m block := by
  intro m'
  set m₁ := gdnConvEffect cfg w idx xq xk xv m with hm₁
  have hne : ∀ p ∈ [xq, xk, xv, a, b, z], ∀ block ∈ gdnBlocks idx, p.block ≠ block :=
    fun p hmem block hblock heq => hp p hmem (heq ▸ hblock)
  have hconv : ∀ block ∉ [Block.gdnConv idx, .act .qGdn, .act .kGdn, .act .vGdn],
      m₁ block = m block := fun block hblock => by
    simp only [List.mem_cons, List.not_mem_nil, or_false, not_or] at hblock
    obtain ⟨hs, hq, hk, hv⟩ := hblock
    exact (fill_fill_of_ne hv hs).trans ((fill_fill_of_ne hk hs).trans (fill_fill_of_ne hq hs))
  have h₁ : ∀ {p : FPtr} {n : ℕ}, p.block ∉ [Block.gdnConv idx, .act .qGdn, .act .kGdn, .act .vGdn] →
      m₁.slice p n = m.slice p n := fun hblock => slice_congr fun _ _ => congrFun (hconv _ hblock) _
  obtain ⟨hq, hk, hv, hsq, hsk, hsv⟩ := slices_gdnConvEffect (m := m) cfg w idx xq xk xv
    fun x hx hmem => by
      refine hp x ?_ ?_
      · simp only [List.mem_cons] at hx ⊢
        tauto
      · simp only [gdnBlocks, List.mem_cons] at hmem ⊢
        tauto
  rw [← hm₁] at hq hk hv hsq hsk hsv
  have hnotMem : ∀ p ∈ [xq, xk, xv, a, b, z],
      p.block ∉ [Block.gdnConv idx, .act .qGdn, .act .kGdn, .act .vGdn] := fun p hmem hblock =>
    hp p hmem (by simp only [gdnBlocks, List.mem_cons] at hblock ⊢; tauto)
  obtain ⟨hstate, hout⟩ := slices_gdnTail (M := M) (m := m₁) (w := w) (a := a) (b := b) (z := z)
    idx h (hne b (by simp) _ (by simp [gdnBlocks])) fun hmem => hp z (by simp) (by
      simp only [gdnBlocks, List.mem_cons] at hmem ⊢; tauto)
  have htail : ∀ block ∉ [Block.act .gateGdn, .gdnRecurrent idx, .act .recurrentOut,
      .act .normedGated, .act .outProj], m' block = m₁ block := fun block hblock => by
    refine effects_of_notMem fun i hi hmem => hblock ?_
    simp only [gdnTail, linearProj, List.mem_cons, List.not_mem_nil, or_false] at hi
    rcases hi with rfl | rfl | rfl | rfl <;>
      · simp only [Inst.writes, List.mem_cons, List.not_mem_nil, or_false, act_block] at hmem ⊢
        tauto
  have hconvState : ∀ {n k : ℕ}, m'.slice (DevPtr.add ⟨.gdnConv idx, 0⟩ n) k =
      m₁.slice (DevPtr.add ⟨.gdnConv idx, 0⟩ n) k := fun {n k} =>
    slice_congr fun _ _ => congrFun (htail _ (by simp)) _
  constructor
  · have ha := h₁ (n := cfg.linearNumValueHeads) (hnotMem a (by simp))
    have hb := h₁ (n := cfg.linearNumValueHeads) (hnotMem b (by simp))
    have hz := h₁ (n := cfg.vDim) (hnotMem z (by simp))
    have hs := h₁ (p := ⟨.gdnRecurrent idx, 0⟩) (n := cfg.vDim * cfg.linearKeyHeadDim) (by simp)
    rw [hk, hv, ha, hb, hs] at hstate
    rw [hq, hk, hv, ha, hb, hs, hz] at hout
    refine Prod.ext (GdnRows.ext ?_ ?_ ?_ ?_) ?_
    · exact (hconvState (n := 0)).trans hsq
    · exact hconvState.trans hsk
    · exact hconvState.trans hsv
    · exact hstate
    · exact hout
  · intro block hblock
    refine (htail block fun hmem => hblock ?_).trans (hconv block fun hmem => hblock ?_)
    · simp only [gdnBlocks, List.mem_cons] at hmem ⊢
      tauto
    · simp only [gdnBlocks, List.mem_cons] at hmem ⊢
      tauto

end Tail

/-! ### The layer -/

section Layer

variable (M : Matrices V) (cfg : ModelConfig V) (w : GdnLayerWeights V)

/-- The projections of a row: `qkv`, `a`, `b` and `z`. -/
structure GdnProjections (V : Type*) where
  qkv : ℕ → V
  a : ℕ → V
  b : ℕ → V
  z : ℕ → V

/-- The projections of a normed row. -/
def gdnProjections (normed : ℕ → V) : GdnProjections V :=
  let hs := cfg.hiddenSize
  { qkv := projRow M w.wQkv cfg.qkvDim hs normed
    a := projRow M w.wA cfg.linearNumValueHeads hs normed
    b := projRow M w.wB cfg.linearNumValueHeads hs normed
    z := projRow M w.wZ cfg.vDim hs normed }

/-- The norm of a row. -/
def gdnNormed (x : ℕ → V) : ℕ → V :=
  pad cfg.hiddenSize (rmsNormRow cfg.rmsNormOnePlusW w.inputNorm cfg.hiddenSize cfg.rmsNormEps x)

/-- A token behind its projections: the layer's rows, and the hidden state. -/
def gdnAfter (s : GdnRows V) (p : GdnProjections V) (x : ℕ → V) : GdnRows V × (ℕ → V) :=
  let r := gdnMixer M cfg w s (pad cfg.qDim p.qkv) (pad cfg.qDim fun j => p.qkv (cfg.qDim + j))
    (pad cfg.vDim fun j => p.qkv (cfg.qDim + cfg.qDim + j)) p.a p.b p.z
  (r.1, pad cfg.hiddenSize fun j => r.2 j + x j)

/-- **A GDN layer on a token.** -/
def gdnLayer (s : GdnRows V) (x : ℕ → V) : GdnRows V × (ℕ → V) :=
  gdnAfter M cfg w s (gdnProjections M cfg w (gdnNormed cfg w x)) x

/-- The projections of a token in memory, in the buffers `buf` from row `t` on. -/
def gdnProjectionsAt (buf : Buf → FPtr) (t : ℕ) (m : Mem V) : GdnProjections V :=
  let nvh := cfg.linearNumValueHeads
  { qkv := m.slice ((buf .qkv).add (t * cfg.qkvDim)) cfg.qkvDim
    a := m.slice ((buf .aProj).add (t * nvh)) nvh
    b := m.slice ((buf .bProj).add (t * nvh)) nvh
    z := m.slice ((buf .zProj).add (t * nvh * cfg.linearValueHeadDim)) cfg.vDim }

/-- The row of the hidden state of a token. -/
def hiddenRow (buf : Buf → FPtr) (t : ℕ) (m : Mem V) : ℕ → V :=
  m.slice ((buf .hidden).add (t * cfg.hiddenSize)) cfg.hiddenSize

variable {M cfg w} {m : Mem V} {gridDim numBlocks idx n : ℕ}

lemma qkvDim_eq (cfg : ModelConfig V) : cfg.qkvDim = cfg.qDim + cfg.qDim + cfg.vDim := by
  rw [ModelConfig.qkvDim, Nat.mul_two]
  rfl

/-- **The instructions behind the projections of a token.** -/
lemma effects_gdnAfter (idx : ℕ) (buf : Buf → FPtr) (h : cfg.GdnValid gridDim numBlocks) {t : ℕ}
    (hbuf : ∀ b ∈ [Buf.qkv, .aProj, .bProj, .zProj], (buf b).block ∉ gdnBlocks idx)
    {xq xk xv : FPtr} (hxq : xq = (buf .qkv).add (t * cfg.qkvDim))
    (hxk : xk = xq.add cfg.qDim) (hxv : xv = xq.add (cfg.qDim + cfg.qDim)) (x : ℕ → V) :
    let m' := effects M (gdnTail cfg w idx numBlocks
      ((buf .aProj).add (t * cfg.linearNumValueHeads))
      ((buf .bProj).add (t * cfg.linearNumValueHeads))
      ((buf .zProj).add (t * cfg.linearNumValueHeads * cfg.linearValueHeadDim)))
      (gdnConvEffect cfg w idx xq xk xv m)
    (gdnRowsAt cfg idx m', pad cfg.hiddenSize fun j =>
        m'.slice (act .outProj) cfg.hiddenSize j + x j) =
        gdnAfter M cfg w (gdnRowsAt cfg idx m) (gdnProjectionsAt cfg buf t m) x ∧
      ∀ block ∉ gdnBlocks idx, m' block = m block := by
  intro m'
  simp only [List.forall_mem_cons, List.not_mem_nil, false_imp_iff, implies_true, and_true] at hbuf
  obtain ⟨hqkv, ha, hb, hz⟩ := hbuf
  subst hxk hxv hxq
  obtain ⟨hrows, hframe⟩ := effects_gdnToken (M := M) (m := m) (w := w) idx
    ((buf .qkv).add (t * cfg.qkvDim)) (((buf .qkv).add (t * cfg.qkvDim)).add cfg.qDim)
    (((buf .qkv).add (t * cfg.qkvDim)).add (cfg.qDim + cfg.qDim)) h
    (a := (buf .aProj).add (t * cfg.linearNumValueHeads))
    (b := (buf .bProj).add (t * cfg.linearNumValueHeads))
    (z := (buf .zProj).add (t * cfg.linearNumValueHeads * cfg.linearValueHeadDim)) (by
      simp only [List.forall_mem_cons, List.not_mem_nil, false_imp_iff, implies_true, and_true]
      exact ⟨hqkv, hqkv, hqkv, ha, hb, hz⟩)
  refine ⟨?_, hframe⟩
  have hlen := qkvDim_eq cfg
  have hq : m.slice ((buf .qkv).add (t * cfg.qkvDim)) cfg.qDim =
      pad cfg.qDim (gdnProjectionsAt cfg buf t m).qkv := slice_front (by omega)
  have hk : m.slice (((buf .qkv).add (t * cfg.qkvDim)).add cfg.qDim) cfg.qDim =
      pad cfg.qDim fun j => (gdnProjectionsAt cfg buf t m).qkv (cfg.qDim + j) :=
    slice_add (by omega)
  have hv : m.slice (((buf .qkv).add (t * cfg.qkvDim)).add (cfg.qDim + cfg.qDim)) cfg.vDim =
      pad cfg.vDim fun j => (gdnProjectionsAt cfg buf t m).qkv (cfg.qDim + cfg.qDim + j) :=
    slice_add (by omega)
  rw [hq, hk, hv] at hrows
  have hstate := congrArg Prod.fst hrows
  have hout := congrArg Prod.snd hrows
  exact Prod.ext hstate
    (congrArg (fun r : ℕ → V => pad cfg.hiddenSize fun j => r j + x j) hout)

/-- The norm and the projections of `n` rows. -/
def gdnPre (cfg : ModelConfig V) (w : GdnLayerWeights V) (buf : Buf → FPtr) (n batch : ℕ) :
    List (Inst V) :=
  let hs := cfg.hiddenSize
  let nvh := cfg.linearNumValueHeads
  [normRows cfg w.inputNorm n (buf .normed) (buf .hidden),
    linearProj w.wQkv (buf .qkv) (buf .normed) cfg.qkvDim hs batch,
    linearProj w.wA (buf .aProj) (buf .normed) nvh hs batch,
    linearProj w.wB (buf .bProj) (buf .normed) nvh hs batch,
    linearProj w.wZ (buf .zProj) (buf .normed) (nvh * cfg.linearValueHeadDim) hs batch]

/-- Buffers are blocks of their own. -/
def BlocksApart (buf : Buf → FPtr) : Prop := ∀ ⦃b b' : Buf⦄, b ≠ b' → (buf b).block ≠ (buf b').block

lemma blocksApart_act : BlocksApart act := fun _ _ hne h => hne (Block.act.inj h)

lemma blocksApart_prefill : BlocksApart prefill := fun _ _ hne h => hne (Block.prefill.inj h)

/-- The blocks that the norm and the projections write. -/
lemma effects_gdnPre_of_notMem {buf : Buf → FPtr} {batch : ℕ} {block : Block}
    (hblock : ∀ b ∈ [Buf.normed, .qkv, .aProj, .bProj, .zProj], block ≠ (buf b).block) :
    effects M (gdnPre cfg w buf n batch) m block = m block := by
  simp only [List.forall_mem_cons, List.not_mem_nil, false_imp_iff, implies_true, and_true]
    at hblock
  refine effects_of_notMem ?_
  rw [gdnPre]
  simp only [List.forall_mem_cons, List.not_mem_nil, false_imp_iff, implies_true, and_true]
  simpa only [writes_normRows, writes_linearProj, List.mem_singleton] using hblock

/-- **The projections of every row.** -/
lemma gdnProjectionsAt_gdnPre {buf : Buf → FPtr} (hbuf : BlocksApart buf) {batch t : ℕ}
    (hn : batchOf batch = n) (ht : t < n) :
    gdnProjectionsAt cfg buf t (effects M (gdnPre cfg w buf n batch) m) =
      gdnProjections M cfg w (gdnNormed cfg w (hiddenRow cfg buf t m)) := by
  subst hn
  let hs := cfg.hiddenSize
  let nvh := cfg.linearNumValueHeads
  let iQkv : Inst V := linearProj w.wQkv (buf .qkv) (buf .normed) cfg.qkvDim hs batch
  let iA : Inst V := linearProj w.wA (buf .aProj) (buf .normed) nvh hs batch
  let iB : Inst V := linearProj w.wB (buf .bProj) (buf .normed) nvh hs batch
  let iZ : Inst V :=
    linearProj w.wZ (buf .zProj) (buf .normed) (nvh * cfg.linearValueHeadDim) hs batch
  let m₁ := effect M (normRows cfg w.inputNorm (batchOf batch) (buf .normed) (buf .hidden)) m
  let m₂ := effect M iQkv m₁
  let m₃ := effect M iA m₂
  let m₄ := effect M iB m₃
  let m₅ := effect M iZ m₄
  have hkeep : ∀ {b b' : Buf} {weight : LinearWeight} {outDim inDim off k : ℕ} {input : FPtr}
      {m : Mem V}, b' ≠ b → (effect M (linearProj weight (buf b) input outDim inDim batch) m).slice
        ((buf b').add off) k = m.slice ((buf b').add off) k := fun hne =>
    slice_effect_of_notMem fun hmem => hbuf hne (List.mem_singleton.mp hmem)
  -- the normed row stays through the projections
  have hnormed : m₁.slice ((buf .normed).add (t * hs)) hs =
      gdnNormed cfg w (hiddenRow cfg buf t m) := slice_normRows ht
  have hnormed₂ : m₂.slice ((buf .normed).add (t * hs)) hs = _ := (hkeep (by decide)).trans hnormed
  have hnormed₃ : m₃.slice ((buf .normed).add (t * hs)) hs = _ := (hkeep (by decide)).trans hnormed₂
  have hnormed₄ : m₄.slice ((buf .normed).add (t * hs)) hs = _ := (hkeep (by decide)).trans hnormed₃
  have hqkv : m₂.slice ((buf .qkv).add (t * cfg.qkvDim)) cfg.qkvDim = _ := slice_linearProj ht
  have ha : m₃.slice ((buf .aProj).add (t * nvh)) nvh = _ := slice_linearProj ht
  have hb : m₄.slice ((buf .bProj).add (t * nvh)) nvh = _ := slice_linearProj ht
  have hz : m₅.slice ((buf .zProj).add (t * (nvh * cfg.linearValueHeadDim)))
      (nvh * cfg.linearValueHeadDim) = _ := slice_linearProj ht
  rw [hnormed] at hqkv
  rw [hnormed₂] at ha
  rw [hnormed₃] at hb
  rw [hnormed₄, ← Nat.mul_assoc] at hz
  change gdnProjectionsAt cfg buf t m₅ = _
  have hqkv₅ : m₅.slice ((buf .qkv).add (t * cfg.qkvDim)) cfg.qkvDim = _ :=
    (hkeep (by decide)).trans ((hkeep (by decide)).trans ((hkeep (by decide)).trans hqkv))
  have ha₅ : m₅.slice ((buf .aProj).add (t * nvh)) nvh = _ :=
    (hkeep (by decide)).trans ((hkeep (by decide)).trans ha)
  have hb₅ : m₅.slice ((buf .bProj).add (t * nvh)) nvh = _ := (hkeep (by decide)).trans hb
  rw [gdnProjectionsAt, hqkv₅, ha₅, hb₅]
  exact congrArg (GdnProjections.mk _ _ _) hz

/-- The fused projection of `a` and `b`. -/
lemma effects_ab :
    effects M (if isBf16 w.wA && isBf16 w.wB then
        [.linearProj2x ⟨act .aProj, act .bProj, w.wA.rawData, w.wB.rawData, act .normed,
          cfg.linearNumValueHeads, cfg.hiddenSize, 0⟩]
      else
        [linearProj w.wA (act .aProj) (act .normed) cfg.linearNumValueHeads cfg.hiddenSize 0,
          linearProj w.wB (act .bProj) (act .normed) cfg.linearNumValueHeads cfg.hiddenSize 0]) m =
      effects M
        [linearProj w.wA (act .aProj) (act .normed) cfg.linearNumValueHeads cfg.hiddenSize 0,
          linearProj w.wB (act .bProj) (act .normed) cfg.linearNumValueHeads cfg.hiddenSize 0] m := by
  split_ifs with hbf16
  · rw [Bool.and_eq_true] at hbf16
    obtain ⟨hA, hB⟩ := hbf16
    have hptr : ∀ {weight : LinearWeight}, isBf16 weight = true →
        linearProjOpcodePtr weight = (.linearProj, weight.rawData) := fun {weight} hw => by
      cases weight with
      | bf16 data => rfl
      | packed => exact absurd hw Bool.false_ne_true
    simp only [effects_cons, effects_nil, linearProj, effect, hptr hA, hptr hB]
  · rfl

/-- The rows of a layer are in its two blocks. -/
lemma gdnRowsAt_congr {m m' : Mem V} (hconv : m' (.gdnConv idx) = m (.gdnConv idx))
    (hrec : m' (.gdnRecurrent idx) = m (.gdnRecurrent idx)) :
    gdnRowsAt cfg idx m' = gdnRowsAt cfg idx m := by
  have hslice : ∀ {n k : ℕ}, m'.slice (DevPtr.add ⟨.gdnConv idx, 0⟩ n) k =
      m.slice (DevPtr.add ⟨.gdnConv idx, 0⟩ n) k := fun {n k} =>
    slice_congr fun _ _ => congrFun hconv _
  exact GdnRows.ext (hslice (n := 0)) hslice hslice (slice_congr fun _ _ => congrFun hrec _)

/-- **Decoding a token is `gdnLayer`.** -/
theorem effects_compileGdnLayer (idx : ℕ) (h : cfg.GdnValid gridDim numBlocks)
    (hres : ∀ x y : V, x + 1 * y = y + x) :
    let m' := effects M (compileGdnLayer cfg w idx numBlocks) m
    gdnLayer M cfg w (gdnRowsAt cfg idx m) (hiddenRow cfg act 0 m) =
      (gdnRowsAt cfg idx m', hiddenRow cfg act 0 m') := by
  intro m'
  let hs := cfg.hiddenSize
  let xq := (act .qkv).add (0 * cfg.qkvDim)
  let m₁ := effects M (gdnPre cfg w act 1 0) m
  let m₂ := effects M (gdnTail cfg w idx numBlocks
    ((act .aProj).add (0 * cfg.linearNumValueHeads))
    ((act .bProj).add (0 * cfg.linearNumValueHeads))
    ((act .zProj).add (0 * cfg.linearNumValueHeads * cfg.linearValueHeadDim)))
    (gdnConvEffect cfg w idx xq (xq.add cfg.qDim) (xq.add (cfg.qDim + cfg.qDim)) m₁)
  have hm' : m' = effect M (.scaleAdd ⟨divCeil hs 256, act .hidden, act .outProj, 1, hs⟩) m₂ := by
    simp only [m', m₂, m₁, xq, compileGdnLayer, effects_append, effects_ab, Nat.zero_mul]
    rfl
  have hproj : gdnProjectionsAt cfg act 0 m₁ =
      gdnProjections M cfg w (gdnNormed cfg w (hiddenRow cfg act 0 m)) :=
    gdnProjectionsAt_gdnPre blocksApart_act rfl Nat.one_pos
  have hrows₁ : gdnRowsAt cfg idx m₁ = gdnRowsAt cfg idx m :=
    gdnRowsAt_congr (effects_gdnPre_of_notMem (by simp)) (effects_gdnPre_of_notMem (by simp))
  obtain ⟨hafter, hframe⟩ := effects_gdnAfter (M := M) (m := m₁) (w := w) idx act h
    (t := 0) (by simp [gdnBlocks]) rfl rfl rfl (hiddenRow cfg act 0 m)
  rw [hproj, hrows₁] at hafter
  have hhidden : m₂.slice (act .hidden) hs = hiddenRow cfg act 0 m := by
    have hblock : m₂ (.act .hidden) = m (.act .hidden) :=
      (hframe _ (by simp [gdnBlocks])).trans (effects_gdnPre_of_notMem (by simp))
    rw [hiddenRow, Nat.zero_mul]
    exact slice_congr fun _ _ => congrFun hblock _
  have hrow : hiddenRow cfg act 0 m' = pad hs fun j =>
      m₂.slice (act .outProj) hs j + hiddenRow cfg act 0 m j := by
    have hfill : m' = m₂.fill (act .hidden) hs fun j =>
        m₂.slice (act .hidden) hs j + 1 * m₂.slice (act .outProj) hs j := hm'
    rw [hiddenRow, Nat.zero_mul, hfill]
    refine (slice_fill le_rfl).trans (pad_congr fun j _ => ?_)
    rw [hres, hhidden]
  have hrows : gdnRowsAt cfg idx m' = gdnRowsAt cfg idx m₂ := by
    rw [hm']
    exact gdnRowsAt_congr (effect_of_notMem (by simp [Inst.writes]))
      (effect_of_notMem (by simp [Inst.writes]))
  rw [hrows, hrow]
  exact hafter.symm

end Layer

end Braidinfer.Recurrent
