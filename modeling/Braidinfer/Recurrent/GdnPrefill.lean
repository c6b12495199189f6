/-
A GDN layer on a slab of rows.

Prefill projects the rows of a slab together, and then takes them through the recurrence one after
the other; decoding takes one token at a time.

* `effects_prefillGdnToken`: a row of a slab; `effects_prefillGdnLayer`: **a slab leaves what
  `gdnLayer` leaves of its rows, one after the other**.
-/
import Braidinfer.Lib.Transducer
import Braidinfer.Recurrent.GdnLayer

namespace Braidinfer.Recurrent

open Braidinfer.Lib RowMem Transducer

variable {V : Type*} [Add V] [Sub V] [Mul V] [Div V] [Neg V] [Zero V] [One V] [NatCast V] [LT V]
  [DecidableLT V] [FloatFns V]

set_option linter.unusedSectionVars false

section Slab

variable {M : Matrices V} {cfg : ModelConfig V} {w : GdnLayerWeights V} {m : Mem V}
  {gridDim numBlocks idx n t : ℕ}

/-! ### A row of a slab -/

/-- **A row of a slab**: what it leaves of the layer's rows and of its own hidden state, and what it
leaves alone. -/
lemma effects_prefillGdnToken (idx : ℕ) (h : cfg.GdnValid gridDim numBlocks) :
    let m' := effects M (prefillGdnToken cfg w idx numBlocks t) m
    gdnAfter M cfg w (gdnRowsAt cfg idx m) (gdnProjectionsAt cfg prefill t m)
        (hiddenRow cfg prefill t m) = (gdnRowsAt cfg idx m', hiddenRow cfg prefill t m') ∧
      (∀ block ∉ Block.prefill .hidden :: gdnBlocks idx, m' block = m block) ∧
      ∀ r ≠ t, hiddenRow cfg prefill r m' = hiddenRow cfg prefill r m := by
  intro m'
  let hs := cfg.hiddenSize
  let xq := (prefill .qkv).add (t * cfg.qkvDim)
  let xk := (prefill .qkv).add (t * cfg.qkvDim + cfg.qDim)
  let xv := (prefill .qkv).add (t * cfg.qkvDim + cfg.qDim + cfg.qDim)
  let hidden := (prefill .hidden).add (t * hs)
  let m₁ := effects M (gdnTail cfg w idx numBlocks
    ((prefill .aProj).add (t * cfg.linearNumValueHeads))
    ((prefill .bProj).add (t * cfg.linearNumValueHeads))
    ((prefill .zProj).add (t * cfg.linearNumValueHeads * cfg.linearValueHeadDim)))
    (gdnConvEffect cfg w idx xq xk xv m)
  have hm' : m' = m₁.fill hidden hs fun j =>
      m₁.slice (act .outProj) hs j + m₁.slice hidden hs j := by
    simp only [m', m₁, prefillGdnToken, effects_append]
    rfl
  have hxk : xk = xq.add cfg.qDim := DevPtr.add_add.symm
  have hxv : xv = xq.add (cfg.qDim + cfg.qDim) := by
    simp only [xv, xq, DevPtr.add_add, Nat.add_assoc]
  obtain ⟨hafter, hframe⟩ := effects_gdnAfter (M := M) (m := m) (w := w) idx prefill h (t := t)
    (by simp [gdnBlocks]) rfl hxk hxv (hiddenRow cfg prefill t m)
  have hblock : m₁ (.prefill .hidden) = m (.prefill .hidden) := hframe _ (by simp [gdnBlocks])
  have hother : ∀ block ≠ Block.prefill .hidden, m' block = m₁ block := fun block hne => by
    rw [hm']
    exact fill_of_ne hne
  have hrow : hiddenRow cfg prefill t m' = pad hs fun j =>
      m₁.slice (act .outProj) hs j + hiddenRow cfg prefill t m j := by
    have hkeep : m₁.slice hidden hs = hiddenRow cfg prefill t m :=
      slice_congr fun _ _ => congrFun hblock _
    rw [hiddenRow, hm', hkeep]
    exact slice_fill le_rfl
  have hrows : gdnRowsAt cfg idx m' = gdnRowsAt cfg idx m₁ :=
    gdnRowsAt_congr (hother _ (by simp)) (hother _ (by simp))
  refine ⟨?_, fun block hnot => ?_, fun r hr => ?_⟩
  · rw [hrows, hrow]
    exact hafter.symm
  · rw [List.mem_cons, not_or] at hnot
    exact (hother block hnot.1).trans (hframe block hnot.2)
  · rw [hiddenRow, hm']
    exact (slice_fill_of_row_ne hr).trans (slice_congr fun _ _ => congrFun hblock _)

/-- The projections of a row are in four blocks. -/
lemma gdnProjectionsAt_congr {m m' : Mem V} {buf : Buf → FPtr}
    (h : ∀ b ∈ [Buf.qkv, .aProj, .bProj, .zProj], m' (buf b).block = m (buf b).block) :
    gdnProjectionsAt cfg buf t m' = gdnProjectionsAt cfg buf t m := by
  simp only [List.forall_mem_cons, List.not_mem_nil, false_imp_iff, implies_true, and_true] at h
  obtain ⟨hqkv, ha, hb, hz⟩ := h
  have hslice : ∀ {b : Buf} {off k : ℕ}, m' (buf b).block = m (buf b).block →
      m'.slice ((buf b).add off) k = m.slice ((buf b).add off) k := fun hblock =>
    slice_congr fun _ _ => congrFun hblock _
  rw [gdnProjectionsAt, hslice hqkv, hslice ha, hslice hb, hslice hz]
  rfl

/-! ### A slab -/

/-- The rows of the hidden state of a slab. -/
def hiddenRows (cfg : ModelConfig V) (n : ℕ) (m : Mem V) : List (ℕ → V) :=
  (List.range n).map (hiddenRow cfg prefill · m)

/-- **A slab is its rows, one after the other.** -/
theorem effects_prefillGdnLayer (idx : ℕ) (h : cfg.GdnValid gridDim numBlocks) (hn : 0 < n) :
    let m' := effects M (prefillGdnLayer cfg w idx numBlocks n) m
    run (gdnLayer M cfg w) (gdnRowsAt cfg idx m) (hiddenRows cfg n m) =
      (gdnRowsAt cfg idx m', hiddenRows cfg n m') := by
  intro m'
  let m₁ := effects M (gdnPre cfg w prefill n n) m
  let token : ℕ → Mem V → Mem V := fun t m => effects M (prefillGdnToken cfg w idx numBlocks t) m
  have hm' : m' = (List.range n).foldl (fun m t => token t m) m₁ := by
    simp only [m', prefillGdnLayer, effects_append, effects_flatMap]
    rfl
  -- rows that are not done yet still have their projections
  let inv : ℕ → Mem V → Prop := fun t m => ∀ r, t ≤ r → r < n →
    gdnProjectionsAt cfg prefill r m =
      gdnProjections M cfg w (gdnNormed cfg w (hiddenRow cfg prefill r m))
  have hhidden : ∀ r, hiddenRow cfg prefill r m₁ = hiddenRow cfg prefill r m := fun r =>
    slice_congr fun _ _ => congrFun (effects_gdnPre_of_notMem (by simp)) _
  have hinit : inv 0 m₁ := fun r _ hr => by
    rw [hhidden]
    exact gdnProjectionsAt_gdnPre blocksApart_prefill (batchOf_pos hn) hr
  have hstep : ∀ t m, t < n → inv t m → inv (t + 1) (token t m) ∧
      gdnLayer M cfg w (gdnRowsAt cfg idx m) (hiddenRow cfg prefill t m) =
        (gdnRowsAt cfg idx (token t m), hiddenRow cfg prefill t (token t m)) ∧
      ∀ r, r ≠ t → hiddenRow cfg prefill r (token t m) = hiddenRow cfg prefill r m := by
    intro t m ht hinv
    obtain ⟨hafter, hframe, hother⟩ := effects_prefillGdnToken (M := M) (w := w) (m := m)
      (t := t) idx h
    refine ⟨fun r hr hrn => ?_, ?_, hother⟩
    · rw [hother r (by omega), ← hinv r (by omega) hrn]
      refine gdnProjectionsAt_congr fun b hb => hframe _ ?_
      simp only [List.mem_cons, List.not_mem_nil, or_false] at hb
      rcases hb with rfl | rfl | rfl | rfl <;> simp [gdnBlocks]
    · rw [gdnLayer, ← hinv t le_rfl ht]
      exact hafter
  obtain ⟨-, hrun⟩ := foldl_rows hstep hinit
  have hrows : gdnRowsAt cfg idx m₁ = gdnRowsAt cfg idx m :=
    gdnRowsAt_congr (effects_gdnPre_of_notMem (by simp)) (effects_gdnPre_of_notMem (by simp))
  rw [hrows, ← hm'] at hrun
  rw [hiddenRows, hiddenRows, ← hrun]
  exact congrArg (run _ _) (List.map_congr_left fun r _ => (hhidden r).symm)

end Slab

end Braidinfer.Recurrent
