/-
The layout of the multi-GPU decode program.

The passes find the instructions of a layer through recorded indices into one flat program.  Here
the program is read back as one block a layer, so that later results need no index.

* `compileInner_eq`: the program before the passes, block by block;
* `pass1_eq`: the first pass patches every block in place;
* `compileInnerP2p_eq`: **the program after both passes, block by block**, with the places the
  recorded indices point to.
-/
import Braidinfer.Moe.Compile

namespace Braidinfer.Moe

open Braidinfer.Lib

/-- A layer with its index. -/
abbrev Entry := ℕ × Layer

/-! ### Blocks -/

section Blocks

variable (p2p : P2pConfig) (m : Model)

/-- The block of a layer, given the code of its MoE FFN. -/
def blockWith (f : ℕ → MoeLayer → List Inst) (e : Entry) : List Inst :=
  e.2.mixer.map .other ++ (e.2.moe.map (f e.1)).getD []

/-- The indices of the MoE layers' blocks that start at `start`, at an offset in the FFN code. -/
def indicesFrom (f : ℕ → MoeLayer → List Inst) (off : MoeLayer → Option ℕ) :
    ℕ → List Entry → List (ℕ × ℕ)
  | _, [] => []
  | start, e :: es =>
      ((e.2.moe.bind off).map fun n => (start + e.2.mixer.length + n, e.1)).toList ++
        indicesFrom f off (start + (blockWith f e).length) es

/-- The FFN code that `compile_inner` emits. -/
def rawFfn (layerIdx : ℕ) (moe : MoeLayer) : List Inst :=
  multiGpuPre m.hiddenSize layerIdx moe ++ Inst.barrier layerIdx ::
    (if moe.fc2LatentProj then [] else multiGpuPost m.hiddenSize layerIdx moe)

/-- The FFN code before the barrier's place, after the first pass. -/
def stagedPre (layerIdx : ℕ) (moe : MoeLayer) : List Inst :=
  [.d2dCopy (.new Buf.residual.ptr Buf.hidden.ptr m.hiddenSize),
   .rmsNorm Buf.normed.ptr Buf.hidden.ptr ⟨layerIdx, .norm⟩ m.hiddenSize,
   .linearProj Buf.moeScores.ptr ⟨layerIdx, .gate⟩ Buf.normed.ptr moe.numExperts m.hiddenSize,
   stageActivation m layerIdx moe,
   .moeGate (gateInst layerIdx moe),
   .d2dCopy (routingIdsCopy moe),
   .d2dCopy (routingWeightsCopy layerIdx moe !moe.fc1LatentProj)]

/-- The FFN code after the first pass. -/
def stagedFfn (layerIdx : ℕ) (moe : MoeLayer) : List Inst :=
  stagedPre m layerIdx moe ++ .d2dCopy (zeroSlotCopy moe) ::
    (if moe.fc2LatentProj then [] else multiGpuPost m.hiddenSize layerIdx moe)

/-- The FFN code after both passes, up to the barrier's place. -/
def p2pHead (layerIdx : ℕ) (moe : MoeLayer) : List Inst :=
  stagedPre m layerIdx moe ++ latentStage moe ++ [.d2dCopy (zeroSlotCopy moe)]

/-- The FFN code after both passes, behind the barrier's place and the sum step. -/
def p2pTail (layerIdx : ℕ) (moe : MoeLayer) : List Inst :=
  latentPost m layerIdx moe ++
    (if moe.fc2LatentProj then [] else multiGpuPost m.hiddenSize layerIdx moe)

/-- The FFN code after both passes. -/
def p2pFfn (layerIdx : ℕ) (moe : MoeLayer) : List Inst :=
  p2pHead m layerIdx moe ++
    .moeDispatchPost (postInst p2p m layerIdx moe p2p.optionC) :: p2pTail m layerIdx moe

/-- The layers at hand are layers of the model. -/
def Model.Holds (es : List Entry) : Prop := ∀ e ∈ es, m.moeWeights e.1 = e.2.moe

end Blocks

variable {p2p : P2pConfig} {m : Model} {f g : ℕ → MoeLayer → List Inst} {e : Entry}
  {es : List Entry} {off : MoeLayer → Option ℕ} {start i : ℕ}

lemma Model.Holds.head (h : m.Holds (e :: es)) : m.moeWeights e.1 = e.2.moe :=
  h e List.mem_cons_self

lemma Model.Holds.tail (h : m.Holds (e :: es)) : m.Holds es :=
  fun e' he' => h e' (List.mem_cons_of_mem _ he')

lemma Model.holds_enumerated (m : Model) : m.Holds m.enumerated := by
  intro e he
  obtain ⟨⟨l, i⟩, hmem, rfl⟩ := List.mem_map.mp he
  obtain ⟨-, -, hl⟩ := List.mem_zipIdx hmem
  have hget : m.layers[i]? = some l := by
    rw [hl]
    exact List.getElem?_eq_getElem _
  simp only [Model.moeWeights, hget, Option.bind_some]

lemma length_blockWith_of_moe {moe : MoeLayer} (h : e.2.moe = some moe) :
    (blockWith f e).length = e.2.mixer.length + (f e.1 moe).length := by
  simp [blockWith, h]

/-! ### Before the passes -/

lemma compileLayer_eq (prog : Program) : compileLayer m.hiddenSize prog e =
    { prog with
      instructions := prog.instructions ++ blockWith (rawFfn m) e
      barrierLayerMap := prog.barrierLayerMap ++
        indicesFrom (rawFfn m) (fun _ => some 7) prog.instructions.length [e] } := by
  obtain ⟨li, mixer, moe⟩ := e
  cases moe with
  | none => simp [compileLayer, blockWith, indicesFrom]
  | some moe =>
      cases hfc2 : moe.fc2LatentProj <;>
        simp [compileLayer, compileMoeFfnMultiGpu, blockWith, indicesFrom, rawFfn, hfc2,
          multiGpuPre, Nat.add_assoc]

lemma foldl_compileLayer (prog : Program) : es.foldl (compileLayer m.hiddenSize) prog =
    { prog with
      instructions := prog.instructions ++ es.flatMap (blockWith (rawFfn m))
      barrierLayerMap := prog.barrierLayerMap ++
        indicesFrom (rawFfn m) (fun _ => some 7) prog.instructions.length es } := by
  induction es generalizing prog with
  | nil => simp [indicesFrom]
  | cons e es ih =>
      rw [List.foldl_cons, ih, compileLayer_eq]
      simp [indicesFrom]

/-- **The program before the passes**, block by block. -/
theorem compileInner_eq : compileInner m =
    ⟨m.embedding.map .other ++ m.enumerated.flatMap (blockWith (rawFfn m)) ++
        m.lmHead.map .other,
      indicesFrom (rawFfn m) (fun _ => some 7) m.embedding.length m.enumerated, [], []⟩ := by
  rw [compileInner, foldl_compileLayer]
  simp

/-! ### The first pass -/

lemma set_append_add {α : Type*} (l l' : List α) (n : ℕ) (a : α) :
    (l ++ l').set (l.length + n) a = l ++ l'.set n a := by
  rw [List.set_append_right _ _ (Nat.le_add_right _ _), Nat.add_sub_cancel_left]

lemma length_stagedFfn (li : ℕ) (moe : MoeLayer) :
    (stagedFfn m li moe).length = (rawFfn m li moe).length := by
  simp [stagedFfn, rawFfn, stagedPre, multiGpuPre]

lemma length_blockWith_stagedFfn : (blockWith (stagedFfn m) e).length =
    (blockWith (rawFfn m) e).length := by
  cases h : e.2.moe with
  | none => simp [blockWith, h]
  | some moe => rw [length_blockWith_of_moe h, length_blockWith_of_moe h, length_stagedFfn]

/-- What the first pass does at the barrier of one layer. -/
lemma pass1Layer_block (p2p : P2pConfig) (st : Pass1) (done rest : List Inst) {li : ℕ}
    {moe : MoeLayer} (hmoe : m.moeWeights li = some moe)
    (hst : st.instructions = done ++ rawFfn m li moe ++ rest)
    (hsent : st.moeActSentinel li = false) :
    pass1Layer p2p m st (done.length + 7, li) =
      { instructions := done ++ stagedFfn m li moe ++ rest
        moeActD2dIndices := st.moeActD2dIndices ++
          if moe.fc1LatentProj then [] else [(done.length + 6, li)]
        moeActSentinel := if moe.fc1LatentProj then st.moeActSentinel
          else Function.update st.moeActSentinel li true
        resultDescs := if p2p.optionC then Function.update st.resultDescs li true
          else st.resultDescs
        decodeParams := Function.update st.decodeParams li (some (decodeMoeParams m moe)) } := by
  have hguard : done.length + 7 ≥ 4 ∧
      isNormedStageCopy st.instructions[done.length + 7 - 4]? = true := by
    refine ⟨by omega, ?_⟩
    rw [hst, List.append_assoc, show done.length + 7 - 4 = done.length + 3 by omega,
      List.getElem?_append_right (Nat.le_add_right _ _), Nat.add_sub_cancel_left]
    rfl
  have h4 : done.length + 7 - 4 = done.length + 3 := by omega
  have h2 : done.length + 7 - 2 = done.length + 5 := by omega
  have h1 : done.length + 7 - 1 = done.length + 6 := by omega
  simp only [pass1Layer, hmoe]
  rw [if_pos hguard]
  simp only [h4, h2, h1, hst, List.append_assoc, set_append_add]
  cases hfc1 : moe.fc1LatentProj with
  | false =>
      simp [rawFfn, stagedFfn, multiGpuPre, stagedPre, hfc1]
  | true =>
      simp [rawFfn, stagedFfn, multiGpuPre, stagedPre, hfc1, hsent]

/-- The tables of `MoeP2pContext` after the first pass, for one layer. -/
structure Pass1.Covers (p2p : P2pConfig) (m : Model) (st : Pass1) (li : ℕ) (moe : MoeLayer) :
    Prop where
  moeActSentinel : st.moeActSentinel li = !moe.fc1LatentProj
  resultDescs : st.resultDescs li = p2p.optionC
  decodeParams : st.decodeParams li = some (decodeMoeParams m moe)

/-- Two states of the first pass have the same tables for a layer. -/
structure Pass1.SameAt (st st' : Pass1) (li : ℕ) : Prop where
  moeActSentinel : st'.moeActSentinel li = st.moeActSentinel li
  resultDescs : st'.resultDescs li = st.resultDescs li
  decodeParams : st'.decodeParams li = st.decodeParams li

/-- The place of the signalled copy in the FFN code, for layers that have a sentinel. -/
def signalOff (moe : MoeLayer) : Option ℕ := if moe.fc1LatentProj then none else some 6

/-- The result of the first pass over some layers. -/
structure Pass1.Result (p2p : P2pConfig) (m : Model) (es : List Entry) (done rest : List Inst)
    (st st' : Pass1) : Prop where
  instructions : st'.instructions = done ++ es.flatMap (blockWith (stagedFfn m)) ++ rest
  moeActD2dIndices : st'.moeActD2dIndices = st.moeActD2dIndices ++
    indicesFrom (rawFfn m) signalOff done.length es
  sameAt : ∀ li ∉ es.map Prod.fst, st.SameAt st' li
  covers : ∀ e ∈ es, ∀ moe, e.2.moe = some moe → st'.Covers p2p m e.1 moe

/-- The first pass over one layer. -/
lemma pass1_entry (p2p : P2pConfig) (st : Pass1) (done rest : List Inst)
    (he : m.moeWeights e.1 = e.2.moe)
    (hst : st.instructions = done ++ blockWith (rawFfn m) e ++ rest)
    (hsent : st.moeActSentinel e.1 = false) (hdescs : st.resultDescs e.1 = false) :
    Pass1.Result p2p m [e] done rest st
      ((indicesFrom (rawFfn m) (fun _ => some 7) done.length [e]).foldl (pass1Layer p2p m) st) := by
  obtain ⟨li, mixer, moe⟩ := e
  cases moe with
  | none =>
      refine ⟨by simpa [indicesFrom, blockWith] using hst, by simp [indicesFrom], ?_, ?_⟩
      · exact fun _ _ => ⟨rfl, rfl, rfl⟩
      · intro e he moe hmoe
        rw [List.mem_singleton.mp he] at hmoe
        cases hmoe
  | some moe =>
      have hblock := pass1Layer_block p2p st (done ++ mixer.map .other) rest he
        (by simpa [blockWith] using hst) hsent
      rw [List.length_append, List.length_map] at hblock
      have hfold : (indicesFrom (rawFfn m) (fun _ => some 7) done.length
          [(li, ⟨mixer, some moe⟩)]).foldl (pass1Layer p2p m) st =
            pass1Layer p2p m st (done.length + mixer.length + 7, li) := by
        simp [indicesFrom]
      rw [hfold, hblock]
      refine ⟨by simp [blockWith], ?_, ?_, ?_⟩
      · cases hfc1 : moe.fc1LatentProj <;> simp [indicesFrom, signalOff, hfc1]
      · intro li' hli'
        have hne : li' ≠ li := by simpa using hli'
        refine ⟨?_, ?_, Function.update_of_ne hne ..⟩
        · dsimp only
          split_ifs
          · rfl
          · exact Function.update_of_ne hne ..
        · dsimp only
          split_ifs
          · exact Function.update_of_ne hne ..
          · rfl
      · intro e he moe' hmoe'
        rw [List.mem_singleton.mp he] at hmoe' ⊢
        obtain rfl : moe = moe' := Option.some.inj hmoe'
        refine ⟨?_, ?_, Function.update_self ..⟩
        · cases hfc1 : moe.fc1LatentProj
          · simp
          · simpa using hsent
        · cases hC : p2p.optionC
          · simpa using hdescs
          · simp

lemma foldl_pass1Layer (p2p : P2pConfig) (st : Pass1) (done rest : List Inst) (hes : m.Holds es)
    (hnd : (es.map Prod.fst).Nodup)
    (hst : st.instructions = done ++ es.flatMap (blockWith (rawFfn m)) ++ rest)
    (hsent : ∀ e ∈ es, st.moeActSentinel e.1 = false)
    (hdescs : ∀ e ∈ es, st.resultDescs e.1 = false) :
    Pass1.Result p2p m es done rest st
      ((indicesFrom (rawFfn m) (fun _ => some 7) done.length es).foldl (pass1Layer p2p m) st) := by
  induction es generalizing st done with
  | nil =>
      exact ⟨hst, by simp [indicesFrom], fun _ _ => ⟨rfl, rfl, rfl⟩, fun e he => nomatch he⟩
  | cons e es ih =>
      rw [List.map_cons, List.nodup_cons] at hnd
      have hhead := pass1_entry p2p st done (es.flatMap (blockWith (rawFfn m)) ++ rest) hes.head
        (by simpa using hst) (hsent e List.mem_cons_self) (hdescs e List.mem_cons_self)
      set st₁ := (indicesFrom (rawFfn m) (fun _ => some 7) done.length [e]).foldl
        (pass1Layer p2p m) st with hst₁
      have hne : ∀ e' ∈ es, e'.1 ∉ [e].map Prod.fst := by
        intro e' he' hmem
        rw [List.map_singleton, List.mem_singleton] at hmem
        exact hnd.1 (hmem ▸ List.mem_map_of_mem he')
      have htail := ih st₁ (done ++ blockWith (stagedFfn m) e) hes.tail hnd.2
        (by simpa using hhead.instructions)
        (fun e' he' => ((hhead.sameAt _ (hne e' he')).moeActSentinel).trans
          (hsent e' (List.mem_cons_of_mem _ he')))
        (fun e' he' => ((hhead.sameAt _ (hne e' he')).resultDescs).trans
          (hdescs e' (List.mem_cons_of_mem _ he')))
      have hlen : (done ++ blockWith (stagedFfn m) e).length =
          done.length + (blockWith (rawFfn m) e).length := by
        rw [List.length_append, length_blockWith_stagedFfn]
      rw [hlen] at htail
      have hfold : (indicesFrom (rawFfn m) (fun _ => some 7) done.length (e :: es)).foldl
          (pass1Layer p2p m) st = (indicesFrom (rawFfn m) (fun _ => some 7)
            (done.length + (blockWith (rawFfn m) e).length) es).foldl (pass1Layer p2p m) st₁ := by
        rw [hst₁, ← List.foldl_append]
        simp [indicesFrom]
      rw [hfold]
      refine ⟨by simpa using htail.instructions, ?_, ?_, ?_⟩
      · rw [htail.moeActD2dIndices, hhead.moeActD2dIndices, hlen]
        simp [indicesFrom]
      · intro li hli
        rw [List.map_cons, List.mem_cons, not_or] at hli
        have h₁ := hhead.sameAt li (by simpa using hli.1)
        have h₂ := htail.sameAt li hli.2
        exact ⟨h₂.1.trans h₁.1, h₂.2.trans h₁.2, h₂.3.trans h₁.3⟩
      · intro e' he' moe hmoe
        rcases List.mem_cons.mp he' with rfl | he'
        · -- the later layers leave the tables of this one alone
          have h₁ := hhead.covers e' List.mem_cons_self moe hmoe
          have h₂ := htail.sameAt e'.1 hnd.1
          exact ⟨h₂.1.trans h₁.1, h₂.2.trans h₁.2, h₂.3.trans h₁.3⟩
        · exact htail.covers e' he' moe hmoe

/-! ### The second pass -/

/-- The barrier indices of layers from `start` on. -/
abbrev barrierIndices (m : Model) (start : ℕ) (es : List Entry) : List (ℕ × ℕ) :=
  indicesFrom (rawFfn m) (fun _ => some 7) start es

lemma le_of_mem_indicesFrom {n : ℕ × ℕ} (h : n ∈ indicesFrom f off start es) : start ≤ n.1 := by
  induction es generalizing start with
  | nil => cases h
  | cons e es ih =>
      rcases List.mem_append.mp h with h | h
      · obtain ⟨k, -, rfl⟩ := Option.map_eq_some_iff.mp (Option.mem_toList.mp h)
        dsimp only
        omega
      · have := ih h
        omega

/-- A recorded index points into the FFN code of its layer. -/
lemma mem_indicesFrom {n : ℕ × ℕ} (h : n ∈ indicesFrom f off start es) :
    ∃ e ∈ es, ∃ moe k before behind, e.2.moe = some moe ∧ off moe = some k ∧
      n = (start + before.length + k, e.1) ∧
      es.flatMap (blockWith f) = before ++ f e.1 moe ++ behind := by
  induction es generalizing start with
  | nil => cases h
  | cons e es ih =>
      rcases List.mem_append.mp h with h | h
      · obtain ⟨k, hk, rfl⟩ := Option.map_eq_some_iff.mp (Option.mem_toList.mp h)
        obtain ⟨moe, hmoe, hoff⟩ := Option.bind_eq_some_iff.mp hk
        refine ⟨e, List.mem_cons_self, moe, k, e.2.mixer.map .other, es.flatMap (blockWith f), hmoe,
          hoff, by rw [List.length_map], ?_⟩
        simp [blockWith, hmoe]
      · obtain ⟨e', he', moe, k, before, behind, hmoe, hoff, rfl, heq⟩ := ih h
        refine ⟨e', List.mem_cons_of_mem _ he', moe, k, blockWith f e ++ before, behind, hmoe, hoff,
          ?_, ?_⟩
        · rw [List.length_append, Nat.add_assoc start]
        · rw [List.flatMap_cons, heq]
          simp only [List.append_assoc]

/-- Every MoE layer with an offset has its index. -/
lemma exists_mem_indicesFrom {moe : MoeLayer} {k : ℕ} (he : e ∈ es) (hmoe : e.2.moe = some moe)
    (hoff : off moe = some k) : ∃ i, (i, e.1) ∈ indicesFrom f off start es := by
  induction es generalizing start with
  | nil => cases he
  | cons e' es ih =>
      rcases List.mem_cons.mp he with rfl | he
      · refine ⟨start + e.2.mixer.length + k, List.mem_append_left _ ?_⟩
        simp [hmoe, hoff]
      · obtain ⟨i, hi⟩ := ih he
        exact ⟨i, List.mem_append_right _ hi⟩

lemma barrierAt_of_lt (h : i < start) : barrierAt m (barrierIndices m start es) i = none := by
  have hnone : (barrierIndices m start es).find? (·.1 == i) = none := by
    rw [List.find?_eq_none]
    intro n hn
    have := le_of_mem_indicesFrom hn
    simp only [beq_iff_eq]
    omega
  rw [barrierAt, hnone, Option.bind_none]

/-- In the block of a layer only the barrier's place is in the map. -/
lemma barrierAt_block (he : m.moeWeights e.1 = e.2.moe) {n : ℕ}
    (hn : n < (blockWith (rawFfn m) e).length) :
    barrierAt m (barrierIndices m start (e :: es)) (start + n) =
      e.2.moe.bind fun moe => if n = e.2.mixer.length + 7 then some (e.1, moe) else none := by
  have htail : barrierAt m (barrierIndices m (start + (blockWith (rawFfn m) e).length) es)
      (start + n) = none := barrierAt_of_lt (by omega)
  cases hmoe : e.2.moe with
  | none => simpa [barrierIndices, indicesFrom, hmoe] using htail
  | some moe =>
      by_cases h : n = e.2.mixer.length + 7
      · have hkey : start + e.2.mixer.length + 7 = start + n := by omega
        simp [barrierIndices, barrierAt, indicesFrom, hmoe, hkey, h, he]
      · have hkey : ¬ start + e.2.mixer.length + 7 = start + n := by omega
        rw [barrierAt] at htail
        simp only [barrierIndices, barrierAt, indicesFrom, hmoe, Option.bind_some, Option.map_some,
          Option.toList_some, List.singleton_append, List.find?_cons, if_neg h,
          beq_eq_false_iff_ne.mpr hkey]
        exact htail

lemma barrierAt_tail (h : start + (blockWith (rawFfn m) e).length ≤ i) :
    barrierAt m (barrierIndices m start (e :: es)) i =
      barrierAt m (barrierIndices m (start + (blockWith (rawFfn m) e).length) es) i := by
  cases hmoe : e.2.moe with
  | none => simp [barrierIndices, indicesFrom, hmoe]
  | some moe =>
      have hkey : ¬ start + e.2.mixer.length + 7 = i := by
        rw [length_blockWith_of_moe hmoe] at h
        simp only [rawFfn, multiGpuPre, List.length_append, List.length_cons,
          List.length_nil] at h
        omega
      simp only [barrierIndices, barrierAt, indicesFrom, hmoe, Option.bind_some, Option.map_some,
        Option.toList_some, List.singleton_append, List.find?_cons,
        beq_eq_false_iff_ne.mpr hkey]

section Pass2

variable {st : Pass1} {map : List (ℕ × ℕ)}

/-- The map points into the block of a layer at the barrier only. -/
def PointsAtBarrier (m : Model) (map : List (ℕ × ℕ)) (start : ℕ) (e : Entry) : Prop :=
  ∀ n < (blockWith (rawFfn m) e).length, barrierAt m map (start + n) =
    e.2.moe.bind fun moe => if n = e.2.mixer.length + 7 then some (e.1, moe) else none

lemma PointsAtBarrier.eq_none (hmap : PointsAtBarrier m map start e) {n : ℕ}
    (hn : n < (blockWith (rawFfn m) e).length) (hne : n ≠ e.2.mixer.length + 7) :
    barrierAt m map (start + n) = none := by
  rw [hmap n hn]
  cases e.2.moe with
  | none => rfl
  | some moe => rw [Option.bind_some, if_neg hne]

/-- Away from the barrier nothing is inserted before an instruction. -/
lemma PointsAtBarrier.before_eq_nil (hmap : PointsAtBarrier m map start e) {n : ℕ}
    (hn : n < (blockWith (rawFfn m) e).length) (hne : n ≠ e.2.mixer.length + 7) :
    insertBefore m map (start + n) = [] := by
  simp only [insertBefore, hmap.eq_none hn hne]

/-- Away from the barrier nothing is inserted after an instruction. -/
lemma PointsAtBarrier.after_eq_nil (hmap : PointsAtBarrier m map start e) {n : ℕ}
    (hn : n < (blockWith (rawFfn m) e).length) (hne : n ≠ e.2.mixer.length + 7) :
    insertAfter p2p m st map (start + n) = [] := by
  simp only [insertAfter, hmap.eq_none hn hne]

lemma length_rawFfn (li : ℕ) (moe : MoeLayer) : (rawFfn m li moe).length = 8 +
    (if moe.fc2LatentProj then [] else multiGpuPost m.hiddenSize li moe).length := by
  simp only [rawFfn, multiGpuPre, List.length_append, List.length_cons, List.length_nil]
  omega

/-- The block up to the barrier's place, after the first pass. -/
def untilBarrier (m : Model) (e : Entry) (moe : MoeLayer) : List Inst :=
  e.2.mixer.map .other ++ stagedPre m e.1 moe

lemma length_untilBarrier (moe : MoeLayer) :
    (untilBarrier m e moe).length = e.2.mixer.length + 7 := by
  simp [untilBarrier, stagedPre]

lemma blockWith_stagedFfn {moe : MoeLayer} (hmoe : e.2.moe = some moe) :
    blockWith (stagedFfn m) e = untilBarrier m e moe ++ .d2dCopy (zeroSlotCopy moe) ::
      (if moe.fc2LatentProj then [] else multiGpuPost m.hiddenSize e.1 moe) := by
  simp [blockWith, hmoe, stagedFfn, untilBarrier]

variable (hst : ∀ moe, e.2.moe = some moe → st.Covers p2p m e.1 moe)
  (hmap : PointsAtBarrier m map start e)

include hmap in
lemma insertBefore_barrier {moe : MoeLayer} (hmoe : e.2.moe = some moe) :
    insertBefore m map (start + (e.2.mixer.length + 7)) = latentStage moe := by
  have hlen : (blockWith (rawFfn m) e).length = e.2.mixer.length + (rawFfn m e.1 moe).length :=
    length_blockWith_of_moe hmoe
  have hraw := length_rawFfn (m := m) e.1 moe
  have hat : barrierAt m map (start + (e.2.mixer.length + 7)) = some (e.1, moe) := by
    rw [hmap _ (by omega), hmoe, Option.bind_some, if_pos rfl]
  simp only [insertBefore, hat]

include hst hmap in
lemma insertAfter_barrier {moe : MoeLayer} (hmoe : e.2.moe = some moe) :
    insertAfter p2p m st map (start + (e.2.mixer.length + 7)) =
      .moeDispatchPost (postInst p2p m e.1 moe p2p.optionC) :: latentPost m e.1 moe := by
  have hlen : (blockWith (rawFfn m) e).length = e.2.mixer.length + (rawFfn m e.1 moe).length :=
    length_blockWith_of_moe hmoe
  have hraw := length_rawFfn (m := m) e.1 moe
  have hat : barrierAt m map (start + (e.2.mixer.length + 7)) = some (e.1, moe) := by
    rw [hmap _ (by omega), hmoe, Option.bind_some, if_pos rfl]
  simp only [insertAfter, hat, (hst moe hmoe).resultDescs]

include hst hmap in
/-- The second pass over the block of a layer. -/
lemma splice_block :
    splice (insertBefore m map) (insertAfter p2p m st map) start (blockWith (stagedFfn m) e) =
      blockWith (p2pFfn p2p m) e := by
  cases hmoe : e.2.moe with
  | none =>
      have hlen : (blockWith (stagedFfn m) e).length = (blockWith (rawFfn m) e).length :=
        length_blockWith_stagedFfn
      have hmix : (blockWith (rawFfn m) e).length = e.2.mixer.length := by simp [blockWith, hmoe]
      rw [splice_of_nil (fun n hn => hmap.before_eq_nil (by omega) (by omega))
        (fun n hn => hmap.after_eq_nil (by omega) (by omega))]
      simp [blockWith, hmoe]
  | some moe =>
      have hlen : (blockWith (rawFfn m) e).length =
          e.2.mixer.length + (rawFfn m e.1 moe).length := length_blockWith_of_moe hmoe
      have hraw := length_rawFfn (m := m) e.1 moe
      have huntil := length_untilBarrier (m := m) (e := e) moe
      have hmixer : splice (insertBefore m map) (insertAfter p2p m st map) start
          (untilBarrier m e moe) = untilBarrier m e moe :=
        splice_of_nil (fun n hn => hmap.before_eq_nil (by omega) (by omega))
          (fun n hn => hmap.after_eq_nil (by omega) (by omega))
      have hshift : ∀ n, start + (e.2.mixer.length + 7) + 1 + n =
          start + (e.2.mixer.length + 8 + n) := fun n => by omega
      have hrest : splice (insertBefore m map) (insertAfter p2p m st map)
          (start + (e.2.mixer.length + 7) + 1)
          (if moe.fc2LatentProj then [] else multiGpuPost m.hiddenSize e.1 moe) =
            if moe.fc2LatentProj then [] else multiGpuPost m.hiddenSize e.1 moe := by
        refine splice_of_nil (fun n hn => ?_) fun n hn => ?_
        · rw [hshift]
          exact hmap.before_eq_nil (by omega) (by omega)
        · rw [hshift]
          exact hmap.after_eq_nil (by omega) (by omega)
      rw [blockWith_stagedFfn hmoe, splice_append, hmixer, huntil, splice,
        insertBefore_barrier hmap hmoe, insertAfter_barrier hst hmap hmoe, hrest]
      simp [blockWith, hmoe, p2pFfn, p2pHead, p2pTail, untilBarrier]

/-- The place of the `n`-th FFN instruction after the second pass, up to the barrier's place. -/
def movedOff (moe : MoeLayer) (n : ℕ) : ℕ := if n = 7 then 7 + (latentStage moe).length else n

variable (p2p st) in
include hmap in
lemma splicedAt_block {moe : MoeLayer} (hmoe : e.2.moe = some moe) {n : ℕ} (hn : n ≤ 7)
    (rest : List Inst) :
    splicedAt (insertBefore m map) (insertAfter p2p m st map) start
      (blockWith (stagedFfn m) e ++ rest) (e.2.mixer.length + n) =
        e.2.mixer.length + movedOff moe n := by
  have hlen : (blockWith (rawFfn m) e).length = e.2.mixer.length + (rawFfn m e.1 moe).length :=
    length_blockWith_of_moe hmoe
  have hraw := length_rawFfn (m := m) e.1 moe
  have huntil := length_untilBarrier (m := m) (e := e) moe
  have hpre : ∀ k < (untilBarrier m e moe).length, insertBefore m map (start + k) = [] :=
    fun k hk => hmap.before_eq_nil (by omega) (by omega)
  have hpost : ∀ k < (untilBarrier m e moe).length,
      insertAfter p2p m st map (start + k) = [] :=
    fun k hk => hmap.after_eq_nil (by omega) (by omega)
  rw [blockWith_stagedFfn hmoe, List.append_assoc]
  by_cases h7 : n = 7
  · have hplace : e.2.mixer.length + n = (untilBarrier m e moe).length + 0 := by omega
    rw [hplace, splicedAt_append, splice_of_nil hpre hpost, List.cons_append, splicedAt, huntil,
      insertBefore_barrier hmap hmoe, movedOff, if_pos h7]
    omega
  · rw [splicedAt_append_left (by omega), splicedAt_of_nil hpre hpost (by omega), movedOff,
      if_neg h7]

end Pass2

section Pass2Run

variable {st : Pass1} {map : List (ℕ × ℕ)}

/-- From `start` on the map has the barriers of the layers `es`. -/
def MapFrom (m : Model) (map : List (ℕ × ℕ)) (start : ℕ) (es : List Entry) : Prop :=
  ∀ i ≥ start, barrierAt m map i = barrierAt m (barrierIndices m start es) i

lemma MapFrom.head (hmap : MapFrom m map start (e :: es)) (he : m.moeWeights e.1 = e.2.moe) :
    PointsAtBarrier m map start e := by
  intro n hn
  rw [hmap _ (Nat.le_add_right _ _), barrierAt_block he hn]

lemma MapFrom.tail (hmap : MapFrom m map start (e :: es)) :
    MapFrom m map (start + (blockWith (rawFfn m) e).length) es := by
  intro i hi
  rw [hmap i (by omega), barrierAt_tail hi]

/-- The second pass over some layers. -/
lemma splice_blocks (hes : m.Holds es)
    (hst : ∀ e ∈ es, ∀ moe, e.2.moe = some moe → st.Covers p2p m e.1 moe)
    (hmap : MapFrom m map start es) :
    splice (insertBefore m map) (insertAfter p2p m st map) start
      (es.flatMap (blockWith (stagedFfn m))) = es.flatMap (blockWith (p2pFfn p2p m)) := by
  induction es generalizing start with
  | nil => rfl
  | cons e es ih =>
      rw [List.flatMap_cons, List.flatMap_cons, splice_append,
        splice_block (hst e List.mem_cons_self) (hmap.head hes.head), length_blockWith_stagedFfn,
        ih hes.tail (fun e' he' => hst e' (List.mem_cons_of_mem _ he')) hmap.tail]

/-- Recorded indices after the second pass. -/
lemma moved_indicesFrom (hes : m.Holds es)
    (hst : ∀ e ∈ es, ∀ moe, e.2.moe = some moe → st.Covers p2p m e.1 moe)
    (done rest : List Inst) (hmap : MapFrom m map done.length es)
    (hoff : ∀ moe n, off moe = some n → n ≤ 7) :
    (indicesFrom (rawFfn m) off done.length es).map (fun n =>
      (splicedAt (insertBefore m map) (insertAfter p2p m st map) 0
        (done ++ es.flatMap (blockWith (stagedFfn m)) ++ rest) n.1, n.2)) =
      indicesFrom (p2pFfn p2p m) (fun moe => (off moe).map (movedOff moe))
        (splice (insertBefore m map) (insertAfter p2p m st map) 0 done).length es := by
  induction es generalizing done with
  | nil => rfl
  | cons e es ih =>
      have hhead := hmap.head hes.head
      have hspliced := splice_block (hst e List.mem_cons_self) hhead
      have htail := ih hes.tail (fun e' he' => hst e' (List.mem_cons_of_mem _ he'))
        (done ++ blockWith (stagedFfn m) e)
        (by rw [List.length_append, length_blockWith_stagedFfn]; exact hmap.tail)
      rw [List.length_append, length_blockWith_stagedFfn, splice_append, Nat.zero_add, hspliced,
        List.length_append] at htail
      rw [indicesFrom, indicesFrom, List.map_append, ← htail]
      congr 1
      · cases hmoe : e.2.moe with
        | none => rfl
        | some moe =>
            rw [Option.bind_some, Option.bind_some]
            cases hn : off moe with
            | none => rfl
            | some n =>
                have hat := splicedAt_block p2p st hhead hmoe (hoff moe n hn)
                  (es.flatMap (blockWith (stagedFfn m)) ++ rest)
                simp only [Option.map_some, Option.toList_some, List.map_cons, List.map_nil,
                  List.flatMap_cons, List.append_assoc]
                rw [Nat.add_assoc, splicedAt_append, Nat.zero_add, hat, Nat.add_assoc]
      · simp only [List.flatMap_cons, List.append_assoc]

lemma MapFrom.skip (hmap : MapFrom m map start es) :
    MapFrom m map (start + (es.flatMap (blockWith (rawFfn m))).length) [] := by
  induction es generalizing start with
  | nil => exact hmap
  | cons e es ih =>
      rw [List.flatMap_cons, List.length_append, ← Nat.add_assoc]
      exact ih hmap.tail

/-- Code that the map does not point into stays as it is. -/
lemma splice_of_none {l : List Inst} (h : ∀ n < l.length, barrierAt m map (start + n) = none) :
    splice (insertBefore m map) (insertAfter p2p m st map) start l = l := by
  refine splice_of_nil (fun n hn => ?_) fun n hn => ?_
  · simp only [insertBefore, h n hn]
  · simp only [insertAfter, h n hn]

end Pass2Run

/-! ### Both passes -/

lemma Model.nodup_enumerated (m : Model) : (m.enumerated.map Prod.fst).Nodup := by
  have hfst : m.enumerated.map Prod.fst = List.range' 0 m.layers.length := by
    simp [Model.enumerated, Function.comp_def]
  rw [hfst]
  exact List.nodup_range'

lemma length_flatMap_stagedFfn : (es.flatMap (blockWith (stagedFfn m))).length =
    (es.flatMap (blockWith (rawFfn m))).length := by
  induction es with
  | nil => rfl
  | cons e es ih =>
      rw [List.flatMap_cons, List.flatMap_cons, List.length_append, List.length_append, ih,
        length_blockWith_stagedFfn]

variable (p2p m) in
/-- The result of the first pass on the compiled program. -/
lemma pass1_eq : Pass1.Result p2p m m.enumerated (m.embedding.map .other) (m.lmHead.map .other)
    ⟨(compileInner m).instructions, [], fun _ => false, fun _ => false, fun _ => none⟩
    (pass1 p2p m (compileInner m)) := by
  have hfold := foldl_pass1Layer p2p ⟨(compileInner m).instructions, [], fun _ => false,
    fun _ => false, fun _ => none⟩ (m.embedding.map .other) (m.lmHead.map .other)
    m.holds_enumerated m.nodup_enumerated (by rw [compileInner_eq]) (fun _ _ => rfl)
    fun _ _ => rfl
  rw [List.length_map] at hfold
  rw [pass1]
  have hmap : (compileInner m).barrierLayerMap =
      barrierIndices m m.embedding.length m.enumerated := by rw [compileInner_eq]
  rw [hmap]
  exact hfold

/-- The place of the sum step in the FFN code. -/
def postOff (moe : MoeLayer) : ℕ := 7 + (latentStage moe).length

/-- **The program after both passes**, block by block. -/
theorem compileInnerP2p_eq : (compileInnerP2p p2p m).1 =
    { instructions := m.embedding.map .other ++
        m.enumerated.flatMap (blockWith (p2pFfn p2p m)) ++ m.lmHead.map .other
      barrierLayerMap := indicesFrom (p2pFfn p2p m) (fun moe => some (postOff moe))
        m.embedding.length m.enumerated
      moeActD2dIndices := indicesFrom (p2pFfn p2p m) signalOff m.embedding.length m.enumerated
      moePostSeqIndices := if p2p.optionC then
        (indicesFrom (p2pFfn p2p m) (fun moe => some (postOff moe)) m.embedding.length
          m.enumerated).map fun n => n.1 + 1 else [] } := by
  have hres := pass1_eq p2p m
  have hbar : (compileInner m).barrierLayerMap =
      barrierIndices m m.embedding.length m.enumerated := by rw [compileInner_eq]
  set st := pass1 p2p m (compileInner m) with hst
  set map := (compileInner m).barrierLayerMap with hmapdef
  have hfrom : MapFrom m map (m.embedding.map Inst.other).length m.enumerated := by
    intro i _
    rw [hbar, List.length_map]
  have hemb : splice (insertBefore m map) (insertAfter p2p m st map) 0
      (m.embedding.map Inst.other) = m.embedding.map Inst.other := by
    refine splice_of_none fun n hn => ?_
    rw [hbar, Nat.zero_add]
    exact barrierAt_of_lt (by simpa using hn)
  have hhead : splice (insertBefore m map) (insertAfter p2p m st map)
      ((m.embedding.map Inst.other).length +
        (m.enumerated.flatMap (blockWith (rawFfn m))).length) (m.lmHead.map Inst.other) =
      m.lmHead.map Inst.other :=
    splice_of_none fun n _ => hfrom.skip _ (by omega)
  have hmoved : ∀ off : MoeLayer → Option ℕ, (∀ moe n, off moe = some n → n ≤ 7) →
      (indicesFrom (rawFfn m) off m.embedding.length m.enumerated).map (fun n =>
        (splicedAt (insertBefore m map) (insertAfter p2p m st map) 0 st.instructions n.1, n.2)) =
      indicesFrom (p2pFfn p2p m) (fun moe => (off moe).map (movedOff moe))
        m.embedding.length m.enumerated := by
    intro off hoff
    have h := moved_indicesFrom m.holds_enumerated hres.covers (m.embedding.map .other)
      (m.lmHead.map .other) hfrom hoff
    rwa [hemb, List.length_map, ← hres.instructions] at h
  have hsig : (fun moe => (signalOff moe).map (movedOff moe)) = signalOff := by
    funext moe
    cases hfc1 : moe.fc1LatentProj <;> simp [signalOff, hfc1, movedOff]
  have hbarrier : map.map (fun n => (splicedAt (insertBefore m map) (insertAfter p2p m st map) 0
      st.instructions n.1, n.2)) = indicesFrom (p2pFfn p2p m) (fun moe => some (postOff moe))
        m.embedding.length m.enumerated := by
    have h := hmoved (fun _ => some 7) (by simp)
    rwa [show indicesFrom (rawFfn m) (fun _ => some 7) m.embedding.length m.enumerated = map from
      hbar.symm] at h
  have hsignal := hmoved signalOff (by
    intro moe n h
    cases hfc1 : moe.fc1LatentProj <;> simp [signalOff, hfc1] at h
    omega)
  rw [hsig] at hsignal
  rw [compileInnerP2p]
  dsimp only
  rw [← hst, ← hmapdef, pass2]
  congr 1
  · rw [hres.instructions, List.append_assoc, splice_append, splice_append, hemb, Nat.zero_add,
      splice_blocks m.holds_enumerated hres.covers hfrom, length_flatMap_stagedFfn, hhead,
      List.append_assoc]
  · rw [hres.moeActD2dIndices, List.nil_append, List.length_map]
    exact hsignal
  · rw [← hbarrier, List.map_map]
    rfl

/-- The tables of `MoeP2pContext` after compiling. -/
theorem compileInnerP2p_covers (he : e ∈ m.enumerated) {moe : MoeLayer}
    (hmoe : e.2.moe = some moe) : (compileInnerP2p p2p m).2.Covers p2p m e.1 moe :=
  (pass1_eq p2p m).covers e he moe hmoe

end Braidinfer.Moe
