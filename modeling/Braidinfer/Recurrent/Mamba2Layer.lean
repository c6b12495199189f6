/-
A Mamba2 layer on a token, by rows.

Prefill takes the rows of a slab through the buffers of one token, so a slab is its tokens, one
after the other.

* `Mamba2Rows`: what a layer keeps, the last inputs of its convolution and the states of its heads;
  `mamba2Layer`: **a Mamba2 layer on a token**;
* `effects_compileMamba2Layer`: decoding a token is `mamba2Layer`;
* `effects_prefillMamba2Layer`: **a slab leaves what its rows leave, one after the other**.
-/
import Braidinfer.Recurrent.GdnPrefill

namespace Braidinfer.Recurrent

open Braidinfer.Lib RowMem Transducer

variable {V : Type*} [Add V] [Sub V] [Mul V] [Div V] [Neg V] [Zero V] [One V] [NatCast V] [LT V]
  [DecidableLT V] [FloatFns V]

set_option linter.unusedSectionVars false

/-! ### A token -/

/-- What a layer keeps: the last inputs of its convolution, and the states of its heads. -/
@[ext]
structure Mamba2Rows (V : Type*) where
  conv : ℕ → V
  ssm : ℕ → V

section Token

variable (M : Matrices V) (cfg : ModelConfig V) (w : Mamba2LayerWeights V)

/-- The rows of a layer in memory. -/
def mamba2RowsAt (idx : ℕ) (m : Mem V) : Mamba2Rows V :=
  let kind := cfg.mamba2
  { conv := m.slice ⟨.mamba2Conv idx, 0⟩ (kind.convDim * (kind.convKernel - 1))
    ssm := m.slice ⟨.mamba2Ssm idx, 0⟩ (kind.numHeads * (kind.headDim * kind.stateDim)) }

/-- The gated norm of the groups. -/
def mamba2Norm (y z : ℕ → V) : ℕ → V :=
  let gs := cfg.mamba2.groupSize
  pad cfg.mamba2.intermediate fun k =>
    mamba2NormGatedRow (fun j => w.normWeight (k / gs * gs + j)) gs cfg.rmsNormEps
      (pad gs fun j => y (k / gs * gs + j)) (pad gs fun j => z (k / gs * gs + j)) (k % gs)

/-- **A Mamba2 layer on a token.** -/
def mamba2Layer (s : Mamba2Rows V) (x : ℕ → V) : Mamba2Rows V × (ℕ → V) :=
  let kind := cfg.mamba2
  let hs := cfg.hiddenSize
  let nh := kind.numHeads
  let cd := kind.convDim
  let ck := kind.convKernel
  let gn := kind.nGroups * kind.stateDim
  let inter := kind.intermediate
  let group := nh / kind.nGroups
  let normed := pad hs (rmsNormRow cfg.rmsNormOnePlusW w.inputNorm hs cfg.rmsNormEps x)
  let p := projRow M w.inProj kind.inProjSize hs normed
  let xc := pad cd fun j => p (inter + j)
  let u := pad cd (convOut w.conv1dWeight (fun ch acc => acc + w.conv1dBias ch) ck s.conv xc)
  let ux := pad inter u
  let dt := pad nh fun j => p (inter + cd + j)
  let state := ssmState w.dtBias w.aLog kind.headDim kind.stateDim group ux dt
    (pad gn fun j => u (inter + j)) s.ssm
  let y := pad inter (ssmOut w.d kind.headDim kind.stateDim group ux
    (pad gn fun j => u (inter + gn + j)) state)
  let out := projRow M w.outProj hs inter (mamba2Norm cfg w y (pad inter p))
  ({ conv := pad (cd * (ck - 1)) (convNext ck s.conv xc)
     ssm := pad (nh * (kind.headDim * kind.stateDim)) state },
    pad hs fun j => out j + x j)

end Token

section Layer

variable {M : Matrices V} {m : Mem V} {cfg : ModelConfig V} {w : Mamba2LayerWeights V} {n : ℕ}

lemma slice_ssm_state {i : SsmUpdateInst V} (hne : i.output.block ≠ i.state.block) :
    (effect M (.ssmUpdate i) m).slice i.state (i.nh * (i.hd * i.sd)) =
      pad (i.nh * (i.hd * i.sd)) (ssmState i.dtBias i.aLog i.hd i.sd (i.nh / i.ng)
        (m.slice i.x (i.nh * i.hd)) (m.slice i.dt i.nh) (m.slice i.b (i.ng * i.sd))
        (m.slice i.state (i.nh * (i.hd * i.sd)))) :=
  (slice_fill_of_ne hne.symm).trans (slice_fill le_rfl)

lemma slice_ssm_output {i : SsmUpdateInst V} :
    (effect M (.ssmUpdate i) m).slice i.output (i.nh * i.hd) =
      pad (i.nh * i.hd) (ssmOut i.dWeight i.hd i.sd (i.nh / i.ng) (m.slice i.x (i.nh * i.hd))
        (m.slice i.c (i.ng * i.sd)) (ssmState i.dtBias i.aLog i.hd i.sd (i.nh / i.ng)
          (m.slice i.x (i.nh * i.hd)) (m.slice i.dt i.nh) (m.slice i.b (i.ng * i.sd))
          (m.slice i.state (i.nh * (i.hd * i.sd))))) :=
  slice_fill le_rfl

/-- The groups are the inner size. -/
lemma Mamba2Kind.Valid.groups {kind : Mamba2Kind} (h : kind.Valid) :
    kind.nGroups * kind.groupSize = kind.intermediate := by
  rw [Mamba2Kind.groupSize, Mamba2Kind.intermediate]
  exact Nat.mul_div_cancel' (h.dvd.mul_right _)

/-- The selective update of a token. -/
def mamba2Ssm (cfg : ModelConfig V) (w : Mamba2LayerWeights V) (idx : ℕ) : SsmUpdateInst V :=
  let kind := cfg.mamba2
  ⟨kind.numHeads, ⟨.mamba2Ssm idx, 0⟩, act .mamba2ConvOut,
    (act .mamba2InProj).add (kind.intermediate + kind.convDim), w.dtBias, w.aLog,
    (act .mamba2ConvOut).add kind.intermediate,
    (act .mamba2ConvOut).add (kind.intermediate + kind.nGroups * kind.stateDim), w.d,
    act .mamba2SsmOut, kind.numHeads, kind.headDim, kind.stateDim, kind.nGroups⟩

/-- **What the selective update leaves**, from the row of the convolution. -/
lemma slices_mamba2Ssm (idx : ℕ) (h : cfg.mamba2.Valid) :
    let kind := cfg.mamba2
    let gn := kind.nGroups * kind.stateDim
    let u := m.slice (act .mamba2ConvOut) kind.convDim
    let ux := pad kind.intermediate u
    let state := ssmState w.dtBias w.aLog kind.headDim kind.stateDim
      (kind.numHeads / kind.nGroups) ux (m.slice (mamba2Ssm cfg w idx).dt kind.numHeads)
      (pad gn fun j => u (kind.intermediate + j)) (mamba2RowsAt cfg idx m).ssm
    let m' := effect M (.ssmUpdate (mamba2Ssm cfg w idx)) m
    (mamba2RowsAt cfg idx m').ssm =
        pad (kind.numHeads * (kind.headDim * kind.stateDim)) state ∧
      m'.slice (act .mamba2SsmOut) kind.intermediate = pad kind.intermediate
        (ssmOut w.d kind.headDim kind.stateDim (kind.numHeads / kind.nGroups) ux
          (pad gn fun j => u (kind.intermediate + gn + j)) state) := by
  intro kind gn u ux state m'
  let i := mamba2Ssm cfg w idx
  have hcd : kind.convDim = kind.intermediate + 2 * gn := h.convDim
  have hfront : m.slice (act .mamba2ConvOut) kind.intermediate = ux := slice_front (by omega)
  have hkeys : m.slice ((act .mamba2ConvOut).add kind.intermediate) gn =
      pad gn fun j => u (kind.intermediate + j) := slice_add (by omega)
  have hreads : m.slice ((act .mamba2ConvOut).add (kind.intermediate + gn)) gn =
      pad gn fun j => u (kind.intermediate + gn + j) := slice_add (by omega)
  have hx : m.slice i.x (i.nh * i.hd) = ux := hfront
  have hb : m.slice i.b (i.ng * i.sd) = _ := hkeys
  have hc : m.slice i.c (i.ng * i.sd) = _ := hreads
  constructor
  · refine (slice_ssm_state (i := i) (by simp [i, mamba2Ssm])).trans (congrArg (pad _) ?_)
    rw [hx, hb]
    rfl
  · refine (slice_ssm_output (i := i)).trans (congrArg (pad _) ?_)
    rw [hx, hb, hc]
    rfl

/-- **What the gated norm leaves.** -/
lemma slice_mamba2Norm (h : cfg.mamba2.Valid) :
    (effect M (.mamba2NormGated ⟨cfg.mamba2.nGroups, act .mamba2ConvOut, act .mamba2SsmOut,
        act .mamba2InProj, w.normWeight, cfg.mamba2.nGroups, cfg.mamba2.groupSize,
        cfg.rmsNormEps⟩) m).slice (act .mamba2ConvOut) cfg.mamba2.intermediate =
      mamba2Norm cfg w (m.slice (act .mamba2SsmOut) cfg.mamba2.intermediate)
        (m.slice (act .mamba2InProj) cfg.mamba2.intermediate) := by
  let gs := cfg.mamba2.groupSize
  let i : Mamba2NormGatedInst V := ⟨cfg.mamba2.nGroups, act .mamba2ConvOut, act .mamba2SsmOut,
    act .mamba2InProj, w.normWeight, cfg.mamba2.nGroups, gs, cfg.rmsNormEps⟩
  have hm' : effect M (.mamba2NormGated i) m =
      m.fill (act .mamba2ConvOut) (cfg.mamba2.nGroups * gs) fun k =>
        mamba2NormGatedRow (fun j => w.normWeight (k / gs * gs + j)) gs cfg.rmsNormEps
          (m.slice ((act .mamba2SsmOut).add (k / gs * gs)) gs)
          (m.slice ((act .mamba2InProj).add (k / gs * gs)) gs) (k % gs) := rfl
  have hgroups : cfg.mamba2.nGroups * gs = cfg.mamba2.intermediate := h.groups
  rw [hm', hgroups]
  refine (slice_fill le_rfl).trans (pad_congr fun k hk => ?_)
  rw [← hgroups] at hk
  rw [slice_head hk, slice_head hk, hgroups]

/-- **Decoding a token is `mamba2Layer`.** -/
theorem effects_compileMamba2Layer (idx : ℕ) (h : cfg.mamba2.Valid) :
    let m' := effects M (compileMamba2Layer cfg w idx) m
    mamba2Layer M cfg w (mamba2RowsAt cfg idx m) (hiddenRow cfg act 0 m) =
      (mamba2RowsAt cfg idx m', hiddenRow cfg act 0 m') := by
  intro m'
  let kind := cfg.mamba2
  let hs := cfg.hiddenSize
  let cd := kind.convDim
  let ck := kind.convKernel
  let inter := kind.intermediate
  let s := mamba2RowsAt cfg idx m
  let x := m.slice (act .hidden) hs
  let p := projRow M w.inProj kind.inProjSize hs
    (pad hs (rmsNormRow cfg.rmsNormOnePlusW w.inputNorm hs cfg.rmsNormEps x))
  let xc := pad cd fun j => p (inter + j)
  let c : ConvArgs V := ⟨⟨.mamba2Conv idx, 0⟩, (act .mamba2InProj).add inter, w.conv1dWeight,
    fun ch acc => acc + w.conv1dBias ch, act .mamba2ConvOut, cd, ck⟩
  let iNorm : Mamba2NormGatedInst V := ⟨kind.nGroups, act .mamba2ConvOut, act .mamba2SsmOut,
    act .mamba2InProj, w.normWeight, kind.nGroups, kind.groupSize, cfg.rmsNormEps⟩
  let m₁ := effect M (normRows cfg w.inputNorm 1 (act .normed) (act .hidden)) m
  let m₂ := effect M (linearProj w.inProj (act .mamba2InProj) (act .normed) kind.inProjSize hs 0) m₁
  let m₃ := c.effect m₂
  let m₄ := effect M (.ssmUpdate (mamba2Ssm cfg w idx)) m₃
  let m₅ := effect M (.mamba2NormGated iNorm) m₄
  let m₆ := effect M (linearProj w.outProj (act .outProj) (act .mamba2ConvOut) hs inter 0) m₅
  let m₇ := effect M (copyRow hs (act .residual) (act .hidden)) m₆
  have hm' : m' = m₇.fill (act .hidden) hs fun j =>
      m₇.slice (act .outProj) hs j + m₇.slice (act .residual) hs j := rfl
  -- the projection and its parts
  have hsize : kind.inProjSize = inter + cd + kind.numHeads := rfl
  have hp : m₂.slice (act .mamba2InProj) kind.inProjSize = p := by
    rw [slice_linearProj_one, slice_normRow]
  have hz₂ : m₂.slice (act .mamba2InProj) inter = pad inter p := by
    rw [slice_front (n := kind.inProjSize) (by omega), hp]
  have hxc : m₂.slice c.input cd = xc := by
    rw [slice_add (n := kind.inProjSize) (by omega), hp]
  have hdt₂ : m₂.slice ((act .mamba2InProj).add (inter + cd)) kind.numHeads =
      pad kind.numHeads fun j => p (inter + cd + j) := by
    rw [slice_add (n := kind.inProjSize) (by omega), hp]
  have hkeep₂ : ∀ {q : FPtr} {k : ℕ}, q.block ≠ .act .normed → q.block ≠ .act .mamba2InProj →
      m₂.slice q k = m.slice q k := fun hn hi =>
    (slice_effect_of_notMem (by simpa using hi)).trans (slice_effect_of_notMem (by simpa using hn))
  -- the convolution
  have hs₂ : m₂.slice c.state (cd * (ck - 1)) = s.conv := hkeep₂ (by simp [c]) (by simp [c])
  have hu : m₃.slice (act .mamba2ConvOut) cd = pad cd (convOut w.conv1dWeight
      (fun ch acc => acc + w.conv1dBias ch) ck s.conv xc) := by
    refine (slice_conv_output (c := c) (by simp [c])).trans ?_
    exact congrArg₂ (fun s x => pad cd (convOut _ _ ck s x)) hs₂ hxc
  have hconv : m₃.slice c.state (cd * (ck - 1)) = pad (cd * (ck - 1)) (convNext ck s.conv xc) := by
    refine (slice_conv_state (c := c)).trans ?_
    exact congrArg₂ (fun s x => pad (cd * (ck - 1)) (convNext ck s x)) hs₂ hxc
  have hkeep₃ : ∀ {q : FPtr} {k : ℕ}, q.block ≠ .act .mamba2ConvOut → q.block ≠ .mamba2Conv idx →
      m₃.slice q k = m₂.slice q k := fun ho hs => slice_conv_of_ne (c := c) ho hs
  have hdt : m₃.slice (mamba2Ssm cfg w idx).dt kind.numHeads = _ :=
    (hkeep₃ (by simp [mamba2Ssm]) (by simp [mamba2Ssm])).trans hdt₂
  have hssm₃ : (mamba2RowsAt cfg idx m₃).ssm = s.ssm :=
    (hkeep₃ (by simp) (by simp)).trans (hkeep₂ (by simp) (by simp))
  -- the selective update, the gated norm and the residual
  obtain ⟨hstate, hy⟩ := slices_mamba2Ssm (M := M) (m := m₃) (w := w) idx h
  rw [hu, hdt, hssm₃] at hstate hy
  have hz : m₄.slice (act .mamba2InProj) inter = pad inter p :=
    (slice_effect_of_notMem (by simp [Inst.writes, mamba2Ssm])).trans
      ((hkeep₃ (by simp) (by simp)).trans hz₂)
  have hnorm : m₅.slice (act .mamba2ConvOut) inter =
      mamba2Norm cfg w (m₄.slice (act .mamba2SsmOut) inter) (pad inter p) := by
    rw [← hz]
    exact slice_mamba2Norm h
  have hout : m₇.slice (act .outProj) hs = projRow M w.outProj hs inter _ :=
    (slice_effect_of_notMem (by simp)).trans slice_linearProj_one
  have hy₄ : m₄.slice (act .mamba2SsmOut) inter = _ := hy
  rw [hnorm, hy₄] at hout
  have hres : m₇.slice (act .residual) hs = x := by
    have hcopy : m₇.slice (act .residual) hs = m₆.slice (act .hidden) hs :=
      (slice_fill le_rfl).trans pad_slice
    rw [hcopy, slice_effect_of_notMem (by simp), slice_effect_of_notMem (by simp [Inst.writes, iNorm]),
      slice_effect_of_notMem (by simp [Inst.writes, mamba2Ssm]), hkeep₃ (by simp) (by simp),
      hkeep₂ (by simp) (by simp)]
  have hkeep' : ∀ {q : FPtr} {k : ℕ}, (∀ b, q.block ≠ .act b) → m'.slice q k = m₄.slice q k :=
    fun {q k} hq => by
      rw [hm', slice_fill_of_ne (hq _), slice_effect_of_notMem (by simpa using hq _),
        slice_effect_of_notMem (by simpa using hq _),
        slice_effect_of_notMem (by simpa [Inst.writes, iNorm] using hq _)]
  have hrow : hiddenRow cfg act 0 m = x := by
    rw [hiddenRow, Nat.zero_mul]
    rfl
  have hrow' : hiddenRow cfg act 0 m' = pad hs fun j => m₇.slice (act .outProj) hs j + x j := by
    rw [hiddenRow, Nat.zero_mul, hm', ← hres]
    exact slice_fill le_rfl
  rw [hrow, hrow', hout]
  refine Prod.ext (Mamba2Rows.ext ?_ ?_) rfl
  · refine ((hkeep' (by simp)).trans ?_).symm
    exact (slice_effect_of_notMem (by simp [Inst.writes, mamba2Ssm])).trans hconv
  · exact ((hkeep' (by simp)).trans hstate).symm

/-! ### A slab -/

/-- A token is decoded in its buffers and in the layer's states. -/
lemma writes_compileMamba2Layer {idx : ℕ} {block : Block}
    (hb : ∀ b, block ≠ .act b) (hconv : block ≠ .mamba2Conv idx) (hssm : block ≠ .mamba2Ssm idx) :
    ∀ i ∈ compileMamba2Layer cfg w idx, block ∉ i.writes := by
  rw [compileMamba2Layer]
  simp only [List.forall_mem_cons, writes_normRows, writes_linearProj, writes_copyRow, act_block,
    List.mem_singleton]
  refine ⟨hb _, hb _, ?_, ?_, ?_, hb _, hb _, ?_⟩ <;> simp [Inst.writes, hb, hconv, hssm]

/-- The rows of a layer are in its two blocks. -/
lemma mamba2RowsAt_congr {idx : ℕ} {m m' : Mem V} (hconv : m' (.mamba2Conv idx) = m (.mamba2Conv idx))
    (hssm : m' (.mamba2Ssm idx) = m (.mamba2Ssm idx)) :
    mamba2RowsAt cfg idx m' = mamba2RowsAt cfg idx m :=
  Mamba2Rows.ext (slice_congr fun _ _ => congrFun hconv _) (slice_congr fun _ _ => congrFun hssm _)

/-- **A slab is its rows, one after the other.** -/
theorem effects_prefillMamba2Layer (idx : ℕ) (h : cfg.mamba2.Valid) :
    let m' := effects M (prefillMamba2Layer cfg w idx n) m
    run (mamba2Layer M cfg w) (mamba2RowsAt cfg idx m) (hiddenRows cfg n m) =
      (mamba2RowsAt cfg idx m', hiddenRows cfg n m') := by
  intro m'
  let hs := cfg.hiddenSize
  let hidden : ℕ → FPtr := fun t => (prefill .hidden).add (t * hs)
  let load : ℕ → Mem V → Mem V := fun t m => effect M (copyRow hs (act .hidden) (hidden t)) m
  let token : ℕ → Mem V → Mem V := fun t m =>
    effect M (copyRow hs (hidden t) (act .hidden))
      (effects M (compileMamba2Layer cfg w idx) (load t m))
  have hm' : m' = (List.range n).foldl (fun m t => token t m) m := by
    have htoken : ∀ t m, effects M (copyRow cfg.hiddenSize (act .hidden)
        ((prefill .hidden).add (t * cfg.hiddenSize)) :: compileMamba2Layer cfg w idx ++
          [copyRow cfg.hiddenSize ((prefill .hidden).add (t * cfg.hiddenSize)) (act .hidden)]) m =
        token t m := fun t m => by
      rw [effects_append, effects_cons]
      rfl
    simp only [m', prefillMamba2Layer, effects_flatMap, htoken]
  have hstep : ∀ t m, t < n → True → True ∧
      mamba2Layer M cfg w (mamba2RowsAt cfg idx m) (hiddenRow cfg prefill t m) =
        (mamba2RowsAt cfg idx (token t m), hiddenRow cfg prefill t (token t m)) ∧
      ∀ r, r ≠ t → hiddenRow cfg prefill r (token t m) = hiddenRow cfg prefill r m := by
    intro t m _ _
    let m₁ := load t m
    let m₂ := effects M (compileMamba2Layer cfg w idx) m₁
    have hm₂ : token t m = m₂.fill (hidden t) hs (m₂.slice (act .hidden) hs) := rfl
    have hload : hiddenRow cfg act 0 m₁ = hiddenRow cfg prefill t m := by
      rw [hiddenRow, Nat.zero_mul]
      exact (slice_fill le_rfl).trans pad_slice
    have hrows₁ : mamba2RowsAt cfg idx m₁ = mamba2RowsAt cfg idx m :=
      mamba2RowsAt_congr (effect_of_notMem (by simp)) (effect_of_notMem (by simp))
    have hstore : hiddenRow cfg prefill t (token t m) = hiddenRow cfg act 0 m₂ := by
      rw [hm₂, hiddenRow, hiddenRow, Nat.zero_mul]
      exact (slice_fill le_rfl).trans pad_slice
    have hrows₂ : mamba2RowsAt cfg idx (token t m) = mamba2RowsAt cfg idx m₂ :=
      mamba2RowsAt_congr (effect_of_notMem (by simp [hidden])) (effect_of_notMem (by simp [hidden]))
    have hlayer := effects_compileMamba2Layer (M := M) (w := w) (m := m₁) idx h
    rw [hrows₁, hload] at hlayer
    refine ⟨trivial, ?_, fun r hr => ?_⟩
    · rw [hrows₂, hstore]
      exact hlayer
    · have hblock : m₂ (.prefill .hidden) = m (.prefill .hidden) :=
        (effects_of_notMem (writes_compileMamba2Layer (by simp) (by simp) (by simp))).trans
          (effect_of_notMem (by simp))
      rw [hm₂, hiddenRow]
      exact (slice_fill_of_row_ne hr).trans (slice_congr fun _ _ => congrFun hblock _)
  obtain ⟨-, hrun⟩ := foldl_rows hstep (m := m) trivial
  rw [hm']
  exact hrun

end Layer

end Braidinfer.Recurrent
