/-
A dense FFN, by rows.

The fused kernels take all rows of a slab together, with the norm inside; the other formats take one
row after the other.  In both, a row of the hidden state depends on that row alone.

* `fusedFfnRow`, `unfusedFfnRow`, `ffnRow`: what an FFN makes of a row;
* `effects_fusedFfn`, `effects_unfusedFfn`: the instructions leave these rows;
* `effects_compileFfn`, `effects_compileFfnBatched`: **decoding a token, and a slab**.
-/
import Braidinfer.Recurrent.GdnPrefill

namespace Braidinfer.Recurrent

open Braidinfer.Lib RowMem Transducer

variable {V : Type*} [Add V] [Sub V] [Mul V] [Div V] [Neg V] [Zero V] [One V] [NatCast V] [LT V]
  [DecidableLT V] [FloatFns V]

set_option linter.unusedSectionVars false

/-! ### Rows -/

section Row

variable (M : Matrices V) (cfg : ModelConfig V) (w : FfnWeights V)

/-- A row, by the fused kernels. -/
def fusedFfnRow (rnf4 : Bool) (x : ℕ → V) : ℕ → V :=
  let hs := cfg.hiddenSize
  let is := cfg.intermediateSize
  pad hs (downResRow M rnf4 w.wDown.rawData is
    (pad is (gateUpRow M rnf4 cfg.rmsNormOnePlusW w.postNorm w.wGate.rawData w.wUp.rawData hs
      cfg.rmsNormEps x)) x)

/-- A row, by the norm, the projections and the activation. -/
def unfusedFfnRow (x : ℕ → V) : ℕ → V :=
  let hs := cfg.hiddenSize
  let is := cfg.intermediateSize
  let normed := pad hs (rmsNormRow cfg.rmsNormOnePlusW w.postNorm hs cfg.rmsNormEps x)
  let gate := projRow M w.wGate is hs normed
  let up := projRow M w.wUp is hs normed
  let down := projRow M w.wDown hs is (pad is fun j => silu (gate j) * up j)
  pad hs fun j => down j + x j

/-- **What an FFN makes of a row.** -/
def ffnRow : (ℕ → V) → ℕ → V :=
  if w.allBf16 then fusedFfnRow M cfg w false
  else if w.allRnf4 then fusedFfnRow M cfg w true
  else unfusedFfnRow M cfg w

end Row

/-- Rows of one width do not overlap. -/
lemma rows_apart {p : FPtr} {w r t : ℕ} (h : r ≠ t) :
    (p.add (r * w)).off + w ≤ (p.add (t * w)).off ∨
      (p.add (t * w)).off + w ≤ (p.add (r * w)).off := by
  have hlt : ∀ {a b : ℕ}, a < b → (p.add (a * w)).off + w ≤ (p.add (b * w)).off := fun hab => by
    have hmul := Nat.mul_le_mul_right w hab
    rw [Nat.succ_mul] at hmul
    rw [DevPtr.add_off, DevPtr.add_off]
    omega
  exact (Nat.lt_or_gt_of_ne h).imp hlt hlt

section Ffn

variable {M : Matrices V} {m : Mem V} {cfg : ModelConfig V} {w : FfnWeights V} {n t : ℕ}

/-- **The fused kernels leave every row as if it were alone.** -/
lemma effects_fusedFfn {rnf4 : Bool} {rows batch : ℕ} {ffnAct hidden residual : FPtr}
    (hrows : batchOf batch = rows) (ht : t < rows)
    (hblocks : [ffnAct.block, hidden.block, residual.block].Nodup) :
    (effects M (fusedFfn cfg w rnf4 rows batch ffnAct hidden residual) m).slice
        (hidden.add (t * cfg.hiddenSize)) cfg.hiddenSize =
      fusedFfnRow M cfg w rnf4 (m.slice (hidden.add (t * cfg.hiddenSize)) cfg.hiddenSize) := by
  subst hrows
  let hs := cfg.hiddenSize
  let is := cfg.intermediateSize
  simp only [List.nodup_cons, List.mem_cons, List.not_mem_nil, or_false, not_or, not_false_iff,
    List.nodup_nil, and_true] at hblocks
  obtain ⟨⟨hah, har⟩, hhr⟩ := hblocks
  let gateUp : (ℕ → V) → ℕ → V := gateUpRow M rnf4 cfg.rmsNormOnePlusW w.postNorm w.wGate.rawData
    w.wUp.rawData hs cfg.rmsNormEps
  let m₁ := m.fill ffnAct (batchOf batch * is) fun k =>
    gateUp (m.slice (hidden.add (k / is * hs)) hs) (k % is)
  let m₂ := m₁.fill residual (batchOf batch * hs) (m₁.slice hidden (batchOf batch * hs))
  have hm' : effects M (fusedFfn cfg w rnf4 (batchOf batch) batch ffnAct hidden residual) m =
      m₂.fill hidden (batchOf batch * hs) fun k =>
        downResRow M rnf4 w.wDown.rawData is (m₂.slice (ffnAct.add (k / hs * is)) is)
          (m₂.slice (residual.add (k / hs * hs)) hs) (k % hs) := rfl
  have hact : m₂.slice (ffnAct.add (t * is)) is =
      pad is (gateUp (m.slice (hidden.add (t * hs)) hs)) :=
    (slice_fill_of_ne (q := ffnAct.add (t * is)) har).trans
      (slice_fill_row (f := fun t => gateUp (m.slice (hidden.add (t * hs)) hs)) ht)
  have hend : t * hs + hs ≤ batchOf batch * hs := by
    rw [← Nat.succ_mul]
    exact Nat.mul_le_mul_right hs ht
  have hres : m₂.slice (residual.add (t * hs)) hs = m.slice (hidden.add (t * hs)) hs := by
    have hcopy : m₂.slice (residual.add (t * hs)) hs =
        pad hs fun j => m₁.slice hidden (batchOf batch * hs) (t * hs + j) := slice_fill_add hend
    rw [hcopy, ← slice_add hend]
    exact slice_fill_of_ne (Ne.symm hah)
  rw [hm', slice_fill_row (f := fun t => downResRow M rnf4 w.wDown.rawData is
    (m₂.slice (ffnAct.add (t * is)) is) (m₂.slice (residual.add (t * hs)) hs)) ht, hact, hres]
  rfl

/-- **The unfused FFN leaves the row**, and the other rows of the hidden state. -/
lemma effects_unfusedFfn (cfg : ModelConfig V) (w : FfnWeights V)
    (hidden residual normed gate up ffnAct down : FPtr)
    (hblocks : [hidden.block, residual.block, normed.block, gate.block, up.block, ffnAct.block,
      down.block].Nodup) :
    let m' := effects M (unfusedFfn cfg w hidden residual normed gate up ffnAct down) m
    m'.slice hidden cfg.hiddenSize = unfusedFfnRow M cfg w (m.slice hidden cfg.hiddenSize) ∧
      ∀ q : FPtr, q.block = hidden.block →
        q.off + cfg.hiddenSize ≤ hidden.off ∨ hidden.off + cfg.hiddenSize ≤ q.off →
          m'.slice q cfg.hiddenSize = m.slice q cfg.hiddenSize := by
  intro m'
  simp only [List.nodup_cons, List.mem_cons, List.not_mem_nil, or_false, not_or, not_false_iff,
    List.nodup_nil, and_true] at hblocks
  obtain ⟨⟨hhr, hhn, hhg, hhu, hha, hhd⟩, ⟨hrn, hrg, hru, hra, hrd⟩, ⟨hng, hnu, -, -⟩,
    ⟨hgu, hga, -⟩, ⟨hua, -⟩, had⟩ := hblocks
  let hs := cfg.hiddenSize
  let is := cfg.intermediateSize
  let x := m.slice hidden hs
  let xn := pad hs (rmsNormRow cfg.rmsNormOnePlusW w.postNorm hs cfg.rmsNormEps x)
  let m₁ := effect M (copyRow hs residual hidden) m
  let m₂ := effect M (normRows cfg w.postNorm 1 normed hidden) m₁
  let m₃ := effect M (linearProj w.wGate gate normed is hs 0) m₂
  let m₄ := effect M (linearProj w.wUp up normed is hs 0) m₃
  let m₅ := m₄.fill ffnAct is fun j => silu (m₄.slice gate is j) * m₄.slice up is j
  let m₆ := effect M (linearProj w.wDown down ffnAct hs is 0) m₅
  have hm' : m' = m₆.fill hidden hs fun j => m₆.slice down hs j + m₆.slice residual hs j := rfl
  have hx₁ : m₁.slice hidden hs = x := slice_effect_of_notMem (by simpa using hhr)
  have hxn : m₂.slice normed hs = xn := by
    rw [slice_normRow, hx₁]
  have hxn₃ : m₃.slice normed hs = xn := by
    rw [slice_effect_of_notMem (by simpa using hng), hxn]
  have hgate : m₄.slice gate is = projRow M w.wGate is hs xn := by
    rw [slice_effect_of_notMem (by simpa using hgu), slice_linearProj_one, hxn]
  have hup : m₄.slice up is = projRow M w.wUp is hs xn := by
    rw [slice_linearProj_one, hxn₃]
  have hact : m₅.slice ffnAct is = pad is fun j => silu (projRow M w.wGate is hs xn j) *
      projRow M w.wUp is hs xn j := by
    rw [slice_fill le_rfl, hgate, hup]
  have hdown : m₆.slice down hs = projRow M w.wDown hs is _ := slice_linearProj_one
  rw [hact] at hdown
  -- the copy of the hidden state stays
  have hres : m₆.slice residual hs = x := by
    have hcopy : m₁.slice residual hs = x := (slice_fill le_rfl).trans pad_slice
    rw [slice_effect_of_notMem (by simpa using hrd), slice_fill_of_ne hra,
      slice_effect_of_notMem (by simpa using hru), slice_effect_of_notMem (by simpa using hrg),
      slice_effect_of_notMem (by simpa using hrn), hcopy]
  constructor
  · rw [hm', slice_fill le_rfl, hdown, hres]
    rfl
  · intro q hq hsep
    rw [hm', slice_fill_of_sep hsep, slice_effect_of_notMem (by simpa [hq] using hhd),
      slice_fill_of_ne (hq ▸ hha), slice_effect_of_notMem (by simpa [hq] using hhu),
      slice_effect_of_notMem (by simpa [hq] using hhg),
      slice_effect_of_notMem (by simpa [hq] using hhn),
      slice_effect_of_notMem (by simpa [hq] using hhr)]

/-- **Decoding a token.** -/
lemma effects_compileFfn :
    hiddenRow cfg act 0 (effects M (compileFfn cfg w) m) =
      ffnRow M cfg w (hiddenRow cfg act 0 m) := by
  rw [compileFfn, ffnRow]
  split_ifs
  · exact effects_fusedFfn rfl Nat.one_pos (by simp)
  · exact effects_fusedFfn rfl Nat.one_pos (by simp)
  · simp only [hiddenRow, Nat.zero_mul]
    exact (effects_unfusedFfn _ _ _ _ _ _ _ _ _ (by simp)).1

/-- **A slab**: every row as if it were alone. -/
theorem effects_compileFfnBatched (hn : 0 < n) :
    hiddenRows cfg n (effects M (compileFfnBatched cfg w n) m) =
      (hiddenRows cfg n m).map (ffnRow M cfg w) := by
  rw [hiddenRows, hiddenRows, List.map_map, compileFfnBatched, ffnRow]
  split_ifs
  · refine List.map_congr_left fun r hr => ?_
    exact effects_fusedFfn (batchOf_pos hn) (List.mem_range.mp hr) (by simp)
  · refine List.map_congr_left fun r hr => ?_
    exact effects_fusedFfn (batchOf_pos hn) (List.mem_range.mp hr) (by simp)
  · let row : ℕ → Mem V → Mem V := fun t m =>
      effects M (unfusedFfn cfg w ((prefill .hidden).add (t * cfg.hiddenSize))
        ((prefill .residual).add (t * cfg.hiddenSize))
        ((prefill .normed).add (t * cfg.hiddenSize)) (prefill .ffnGateScratch)
        (prefill .ffnUpScratch) ((prefill .ffnAct).add (t * cfg.intermediateSize))
        (prefill .ffnDownScratch)) m
    let g : Transducer Unit (ℕ → V) (ℕ → V) := fun s x => (s, unfusedFfnRow M cfg w x)
    have hstep : ∀ t m, t < n → True → True ∧
        g () (hiddenRow cfg prefill t m) = ((), hiddenRow cfg prefill t (row t m)) ∧
        ∀ r, r ≠ t → hiddenRow cfg prefill r (row t m) = hiddenRow cfg prefill r m := by
      intro t m _ _
      obtain ⟨hrow, hother⟩ := effects_unfusedFfn (M := M) (m := m) cfg w
        ((prefill .hidden).add (t * cfg.hiddenSize)) ((prefill .residual).add (t * cfg.hiddenSize))
        ((prefill .normed).add (t * cfg.hiddenSize)) (prefill .ffnGateScratch)
        (prefill .ffnUpScratch) ((prefill .ffnAct).add (t * cfg.intermediateSize))
        (prefill .ffnDownScratch) (by simp)
      refine ⟨trivial, congrArg (Prod.mk ()) hrow.symm, fun r hr => hother _ rfl ?_⟩
      exact rows_apart hr
    obtain ⟨-, hrun⟩ := foldl_rows hstep (m := m) trivial
    rw [run_stateless (h := unfusedFfnRow M cfg w) fun _ => rfl] at hrun
    have hrows := congrArg Prod.snd hrun
    rw [List.map_map] at hrows
    rw [effects_flatMap]
    exact hrows.symm

end Ffn

end Braidinfer.Recurrent
