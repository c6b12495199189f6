/-
The slices of expert tensors that the loading of a layer takes (`load_moe_weights_inner` in
`moe_weights.rs`).

Experts that are not in a fused tensor are copied into a buffer on the host, each out of a `u16`
slice that `from_raw_parts` makes at the start of its tensor.  The length of the slice comes from
the configuration, and nothing compares it with that of the tensor.

* `FuseLoop`: such a loop, with the panics of its buffer; `mem_slices_iff`: the slices it takes;
* `gateUpLoop`, `upLoop`, `downLoop`: the three of them;
* `hostFuse_gateUp`, `hostFuse_up`, `hostFuse_down`: what they copy, if the tensors have their size;
* `gateUpLoop_passes`, `projLoop_passes`: without overflow only a missing tensor stops a loop;
* `expertSlices_iff`: **every slice is a tensor of its size exactly if every tensor that the loops
  get to has that size**.
-/
import Braidinfer.Loader.Moe

namespace Braidinfer.Loader

open Braidinfer.Lib
open Braidinfer.Bqnt
open Moe (ModelError)
open Engine (ConfigParse.Number)
open Engine.ConfigParse (ModelConfig fromConfigValue)
open Engine.MixedPrefill (MoeConfig)

/-! ### The loops -/

/-- A product of sizes, as a `usize`. -/
def usize (n : ℕ) : ℕ := n % 2 ^ 64

/-- The data of a tensor, nothing if there is none. -/
def SafeTensorSet.bytes (st : SafeTensorSet) (name : String) : List UInt8 :=
  (st.tensorData name).getD []

/-- A slice of `elems` `u16`s from the start of a tensor. -/
structure TensorSlice where
  name : String
  elems : ℕ
deriving DecidableEq, Repr

/-- A loop that copies the tensors of the experts into `host_buf`, whose part for an expert has
`expertElems` elements.  Each tensor is a slice of `sliceElems`, and they go between the `cuts` of
that part.  `names` are the tensors of an expert, if they are all found. -/
structure FuseLoop where
  numExperts : ℕ
  expertElems : ℕ
  sliceElems : ℕ
  cuts : List ℕ
  names : ℕ → Option (List String)

namespace FuseLoop

variable (l : FuseLoop)

/-- The length of `host_buf`. -/
def len : ℕ := usize (l.numExperts * l.expertElems)

/-- `vec![0u16; len]` panics over `isize::MAX` bytes. -/
def allocates : Bool := 2 * l.len < 2 ^ 63

/-- `host_buf[start..stop].copy_from_slice(slice)` does not panic. -/
def copiesTo (start stop : ℕ) : Bool :=
  start ≤ stop ∧ stop ≤ l.len ∧ stop - start = l.sliceElems

/-- The copies of expert `e` do not panic. -/
def copies (e : ℕ) : Bool :=
  let dstOff := usize (e * l.expertElems)
  (l.cuts.zip l.cuts.tail).all fun (a, b) => l.copiesTo (usize (dstOff + a)) (usize (dstOff + b))

/-- The slices that the loop takes on its way through some experts. -/
def slicesOf : List ℕ → List TensorSlice
  | [] => []
  | e :: es =>
      match l.names e with
      | none => []
      | some names => names.map (⟨·, l.sliceElems⟩) ++ if l.copies e then slicesOf es else []

/-- The slices that the loop takes. -/
def slices : List TensorSlice := if l.allocates then l.slicesOf (List.range l.numExperts) else []

/-- The loop gets past an expert. -/
def Passes (e : ℕ) : Prop := (l.names e).isSome ∧ l.copies e

instance (e : ℕ) : Decidable (l.Passes e) := inferInstanceAs (Decidable (_ ∧ _))

/-- The loop gets to its end. -/
def returns : Bool := l.allocates ∧ ∀ e < l.numExperts, l.Passes e

/-- Every tensor of an expert that the loop gets to has `expected` elements. -/
def Sized (st : SafeTensorSet) (expected : ℕ) : Prop :=
  l.allocates → ∀ e < l.numExperts, (∀ e' < e, l.Passes e') → ∀ names, l.names e = some names →
    ∀ n ∈ names, (st.bytes n).length = 2 * expected

variable {l} {s : TensorSlice}

/-- **The slices of a loop**: those of the experts it gets to. -/
lemma mem_slicesOf_iff (n k : ℕ) : s ∈ l.slicesOf (List.range' k n) ↔
    ∃ e, k ≤ e ∧ e < k + n ∧ (∀ e', k ≤ e' → e' < e → l.Passes e') ∧
      ∃ names, l.names e = some names ∧ s.name ∈ names ∧ s.elems = l.sliceElems := by
  induction n generalizing k with
  | zero =>
      rw [List.range'_zero, slicesOf]
      constructor
      · intro h
        cases h
      · rintro ⟨e, hk, he, -⟩
        omega
  | succ n ih =>
      rw [List.range'_succ, slicesOf]
      cases hnames : l.names k with
      | none =>
          constructor
          · intro h
            cases h
          · rintro ⟨e, hk, -, hpass, names, he, -⟩
            rcases Nat.eq_or_lt_of_le hk with rfl | hlt
            · rw [hnames] at he
              cases he
            · have hsome := (hpass k (Nat.le_refl k) hlt).1
              rw [hnames] at hsome
              cases hsome
      | some names =>
          simp only [List.mem_append, List.mem_map]
          constructor
          · rintro (⟨n, hn, rfl⟩ | hrest)
            · exact ⟨k, Nat.le_refl k, by omega, fun e' h h' => by omega, names, hnames, hn, rfl⟩
            · split at hrest
              · rename_i hcopies
                obtain ⟨e, hk, he, hpass, hfound⟩ := (ih (k + 1)).mp hrest
                refine ⟨e, by omega, by omega, fun e' h h' => ?_, hfound⟩
                rcases Nat.eq_or_lt_of_le h with rfl | hlt
                · exact ⟨by rw [hnames]; rfl, hcopies⟩
                · exact hpass e' hlt h'
              · cases hrest
          · rintro ⟨e, hk, he, hpass, names', hnames', hname, helems⟩
            rcases Nat.eq_or_lt_of_le hk with rfl | hlt
            · obtain rfl := Option.some.inj (hnames.symm.trans hnames')
              exact .inl ⟨s.name, hname, by rw [← helems]⟩
            · rw [if_pos (hpass k (Nat.le_refl k) hlt).2]
              exact .inr ((ih (k + 1)).mpr ⟨e, hlt, by omega,
                fun e' h h' => hpass e' (by omega) h', names', hnames', hname, helems⟩)

lemma mem_slices_iff : s ∈ l.slices ↔ l.allocates ∧ ∃ e < l.numExperts,
    (∀ e' < e, l.Passes e') ∧
      ∃ names, l.names e = some names ∧ s.name ∈ names ∧ s.elems = l.sliceElems := by
  rw [slices]
  split
  · rename_i halloc
    rw [List.range_eq_range', mem_slicesOf_iff]
    simp only [Nat.zero_le, forall_const, Nat.zero_add, true_and, halloc]
  · rename_i halloc
    simp [halloc]

end FuseLoop

/-! ### The loops of the source -/

section

variable (st : SafeTensorSet) (bqnt : Option MmapBqnt) (pfx : String) (ne eis hs : ℕ)

/-- The gate and up projection of an expert. -/
def gateUpNames (e : ℕ) : Option (List String) :=
  ([(s!"{pfx}mlp.experts.{e}.gate_proj.weight", s!"{pfx}mlp.experts.{e}.up_proj.weight"),
      (s!"{pfx}block_sparse_moe.experts.{e}.w1.weight",
        s!"{pfx}block_sparse_moe.experts.{e}.w3.weight")].find?
      fun p => (st.tensorData p.1).isSome).bind fun (gp, up) =>
    if (st.tensorData up).isSome then some [gp, up] else none

/-- A projection of an expert, under the first of its names that is there. -/
def projName (names : List String) : Option (List String) :=
  (names.find? fun n => (st.tensorData n).isSome).map fun n => [n]

/-- "SwiGLU: fuse gate_proj + up_proj per expert" -/
def gateUpLoop : FuseLoop where
  numExperts := ne
  expertElems := usize (2 * eis * hs)
  sliceElems := usize (eis * hs)
  cuts := [0, usize (eis * hs), usize (2 * eis * hs)]
  names := gateUpNames st pfx

/-- "load only up_proj per expert" -/
def upLoop : FuseLoop where
  numExperts := ne
  expertElems := usize (eis * hs)
  sliceElems := usize (eis * hs)
  cuts := [0, usize (eis * hs)]
  names := fun e => projName st
    [s!"{pfx}experts.{e}.up_proj.weight", s!"{pfx}mlp.experts.{e}.up_proj.weight"]

/-- The loop over `down_proj`. -/
def downLoop : FuseLoop where
  numExperts := ne
  expertElems := usize (hs * eis)
  sliceElems := usize (hs * eis)
  cuts := [0, usize (hs * eis)]
  names := fun e => projName st
    [s!"{pfx}mlp.experts.{e}.down_proj.weight", s!"{pfx}experts.{e}.down_proj.weight",
      s!"{pfx}block_sparse_moe.experts.{e}.w2.weight"]

/-- The loop of `expert_gate_up`, unless the file or a fused tensor has it. -/
def gateUpFuse : Option FuseLoop :=
  match bqnt.map fun b => loadLinearWeightBqnt b (fusedName pfx) with
  | some (.ok _) => none
  | _ =>
      if (st.tensorData (fusedName pfx)).isSome then none
      else if hasGateProj st bqnt pfx then some (gateUpLoop st pfx ne eis hs)
      else
        match concatFirst bqnt
            [s!"{pfx}experts.0.up_proj.weight", s!"{pfx}mlp.experts.0.up_proj.weight"] ne with
        | .ok none => some (upLoop st pfx ne eis hs)
        | _ => none

/-- The loop of `expert_down`, unless the file or a fused tensor has it. -/
def downFuse : Option FuseLoop :=
  match bqnt.map fun b => loadLinearWeightBqnt b (downName pfx) with
  | some (.ok _) => none
  | _ =>
      if (st.tensorData (downName pfx)).isSome then none
      else
        match concatFirst bqnt
            [s!"{pfx}mlp.experts.0.down_proj.weight", s!"{pfx}experts.0.down_proj.weight"] ne with
        | .ok none => some (downLoop st pfx ne eis hs)
        | _ => none

/-- The router gate loads: one of its names is there and has the data, and the device takes it. -/
def gateLoads (gateUploads : Bool) : Bool := (loadGate st bqnt pfx ne hs).isOk && gateUploads

/-- The slices of expert tensors that `load_moe_weights_inner` takes.  `gateUploads` says whether
the device takes the router gate, `gateUpLoads` whether what `expert_gate_up` does apart from its
loop returns. -/
def expertSlices (skipExperts gateUploads gateUpLoads : Bool) : List TensorSlice :=
  if skipExperts ∨ ¬ gateLoads st bqnt pfx ne hs gateUploads then []
  else
    let gateUp := gateUpFuse st bqnt pfx ne eis hs
    (gateUp.map (·.slices)).getD [] ++
      if gateUp.all (·.returns) ∧ gateUpLoads then
        ((downFuse st bqnt pfx ne eis hs).map (·.slices)).getD []
      else []

/-- Every slice is inside its tensor, and the tensor has exactly `expected` elements. -/
def SlicesFit (expected : ℕ) (slices : List TensorSlice) : Prop :=
  ∀ s ∈ slices, 2 * s.elems ≤ (st.bytes s.name).length ∧ (st.bytes s.name).length = 2 * expected

/-- The tensors that the loops get to have `eis * hs` elements. -/
def ExpertsSized (skipExperts gateUploads gateUpLoads : Bool) : Prop :=
  skipExperts = false → gateLoads st bqnt pfx ne hs gateUploads = true →
    (∀ l ∈ gateUpFuse st bqnt pfx ne eis hs, l.Sized st (eis * hs)) ∧
      ((∀ l ∈ gateUpFuse st bqnt pfx ne eis hs, l.returns) → gateUpLoads = true →
        ∀ l ∈ downFuse st bqnt pfx ne eis hs, l.Sized st (eis * hs))

end

/-! ### The slices -/

section Slices

variable {st : SafeTensorSet} {bqnt : Option MmapBqnt} {pfx : String} {ne eis hs : ℕ}

lemma usize_le (n : ℕ) : usize n ≤ n := Nat.mod_le n _

/-- The slices of a loop fit if and only if its tensors have their size. -/
lemma slicesFit_iff {l : FuseLoop} {expected : ℕ} (helems : l.sliceElems ≤ expected) :
    SlicesFit st expected l.slices ↔ l.Sized st expected := by
  constructor
  · intro h halloc e he hpass names hnames n hn
    exact (h ⟨n, l.sliceElems⟩
      (FuseLoop.mem_slices_iff.mpr ⟨halloc, e, he, hpass, names, hnames, hn, rfl⟩)).2
  · intro h s hs
    obtain ⟨halloc, e, he, hpass, names, hnames, hn, hslice⟩ := FuseLoop.mem_slices_iff.mp hs
    have hlen := h halloc e he hpass names hnames s.name hn
    exact ⟨by omega, hlen⟩

lemma slicesFit_append {expected : ℕ} {a b : List TensorSlice} :
    SlicesFit st expected (a ++ b) ↔ SlicesFit st expected a ∧ SlicesFit st expected b :=
  List.forall_mem_append

/-- The loop of the gate and up projections is one of two. -/
lemma gateUpFuse_eq {l : FuseLoop} (h : l ∈ gateUpFuse st bqnt pfx ne eis hs) :
    l.sliceElems = usize (eis * hs) := by
  rw [gateUpFuse] at h
  split at h
  · cases h
  split_ifs at h
  · cases h
  · cases h
    rfl
  · split at h
    · cases h
      rfl
    · cases h

lemma downFuse_eq {l : FuseLoop} (h : l ∈ downFuse st bqnt pfx ne eis hs) :
    l.sliceElems = usize (hs * eis) := by
  rw [downFuse] at h
  split at h
  · cases h
  split_ifs at h
  · cases h
  · split at h
    · cases h
      rfl
    · cases h

/-- The slices of an optional loop. -/
lemma slicesFit_getD {fuse : Option FuseLoop} {expected : ℕ}
    (helems : ∀ l ∈ fuse, l.sliceElems ≤ expected) :
    SlicesFit st expected ((fuse.map (·.slices)).getD []) ↔ ∀ l ∈ fuse, l.Sized st expected := by
  cases fuse with
  | none => exact ⟨fun _ _ h => (by cases h), fun _ _ h => (by cases h)⟩
  | some l =>
      refine (slicesFit_iff (helems l rfl)).trans ⟨?_, fun h => h l rfl⟩
      intro h _ hl
      obtain rfl := Option.some.inj hl
      exact h

lemma slicesFit_nil (expected : ℕ) : SlicesFit st expected [] := fun _ h => by cases h

/-- **The slices of a load fit** if and only if the tensors have their size. -/
lemma slicesFit_expertSlices (skip gateUploads gateUpLoads : Bool) :
    SlicesFit st (eis * hs)
        (expertSlices st bqnt pfx ne eis hs skip gateUploads gateUpLoads) ↔
      ExpertsSized st bqnt pfx ne eis hs skip gateUploads gateUpLoads := by
  have hgateUp : ∀ l ∈ gateUpFuse st bqnt pfx ne eis hs, l.sliceElems ≤ eis * hs :=
    fun l hl => gateUpFuse_eq hl ▸ usize_le _
  have hdown : ∀ l ∈ downFuse st bqnt pfx ne eis hs, l.sliceElems ≤ eis * hs :=
    fun l hl => downFuse_eq hl ▸ Nat.mul_comm hs eis ▸ usize_le _
  have hall : (gateUpFuse st bqnt pfx ne eis hs).all (·.returns) = true ↔
      ∀ l ∈ gateUpFuse st bqnt pfx ne eis hs, l.returns = true := by
    cases gateUpFuse st bqnt pfx ne eis hs <;> simp
  rw [expertSlices, ExpertsSized]
  cases skip with
  | true => simpa using slicesFit_nil _
  | false =>
      cases gateLoads st bqnt pfx ne hs gateUploads with
      | false => simpa using slicesFit_nil _
      | true =>
          simp only [Bool.false_eq_true, not_true, or_self, if_false, forall_const,
            slicesFit_append, slicesFit_getD hgateUp]
          refine and_congr_right fun _ => ?_
          by_cases hreach : (gateUpFuse st bqnt pfx ne eis hs).all (·.returns) = true ∧
              gateUpLoads = true
          · rw [if_pos hreach, slicesFit_getD hdown]
            exact ⟨fun h _ _ => h, fun h => h (hall.mp hreach.1) hreach.2⟩
          · rw [if_neg hreach]
            exact ⟨fun _ h h' => absurd ⟨hall.mpr h, h'⟩ hreach, fun _ => slicesFit_nil _⟩

end Slices

/-! ### What is copied -/

section Copied

variable {st : SafeTensorSet} {pfx : String} {ne eis hs e : ℕ} {names : List String}

lemma bytes_of_tensorData {name : String} {raw : List UInt8} (h : st.tensorData name = some raw) :
    st.bytes name = raw := by
  rw [SafeTensorSet.bytes, h, Option.getD_some]

lemma rawParts_of_length {name : String} {raw : List UInt8} {n : ℕ} (h : raw.length = n) :
    st.rawParts name raw n = raw := by
  rw [SafeTensorSet.rawParts, h, Nat.sub_self, List.range_zero, List.map_nil, List.append_nil,
    ← h, List.take_length]

/-- **A gate and an up projection of their size are copied as they are.** -/
lemma hostGateUp_eq (hnames : gateUpNames st pfx e = some names)
    (hsized : ∀ n ∈ names, (st.bytes n).length = 2 * (eis * hs)) :
    hostGateUp st pfx eis hs e = .ok (names.flatMap st.bytes) := by
  rw [gateUpNames] at hnames
  obtain ⟨⟨gp, up⟩, hfind, hup⟩ := Option.bind_eq_some_iff.mp hnames
  have hgate : (st.tensorData gp).isSome = true := by simpa using List.find?_some hfind
  simp only at hup
  split_ifs at hup with hsome
  obtain rfl := Option.some.inj hup
  obtain ⟨g, hg⟩ := Option.isSome_iff_exists.mp hgate
  obtain ⟨u, hu⟩ := Option.isSome_iff_exists.mp hsome
  have hglen : g.length = eis * hs * 2 := by
    rw [← bytes_of_tensorData hg, hsized gp (by simp), Nat.mul_comm]
  have hulen : u.length = eis * hs * 2 := by
    rw [← bytes_of_tensorData hu, hsized up (by simp), Nat.mul_comm]
  rw [hostGateUp, hfind]
  simp only [requireData, hg, hu, bind, Except.bind, rawParts_of_length hglen,
    rawParts_of_length hulen]
  simp [bytes_of_tensorData hg, bytes_of_tensorData hu, pure, Except.pure]

/-- A projection of its size is copied as it is. -/
lemma hostProj_eq {candidates : List String} {missingName : String} {elems : ℕ}
    (hnames : projName st candidates = some names)
    (hsized : ∀ n ∈ names, (st.bytes n).length = 2 * elems) :
    hostProj st elems candidates missingName = .ok (names.flatMap st.bytes) := by
  rw [projName] at hnames
  obtain ⟨name, hfind, rfl⟩ := Option.map_eq_some_iff.mp hnames
  have hsome : (st.tensorData name).isSome = true := by simpa using List.find?_some hfind
  obtain ⟨raw, hraw⟩ := Option.isSome_iff_exists.mp hsome
  have hlen : raw.length = elems * 2 := by
    rw [← bytes_of_tensorData hraw, hsized name (by simp), Nat.mul_comm]
  rw [hostProj, hfind]
  simp only [requireData, hraw, bind, Except.bind, rawParts_of_length hlen]
  simp [bytes_of_tensorData hraw, pure, Except.pure]

/-- **The buffer of a loop whose tensors have their size** holds these tensors, one behind the
other, and nothing that lies behind them. -/
lemma hostFuse_eq {l : FuseLoop} {expected : ℕ} {expert : ℕ → Except ModelError (List UInt8)}
    (hexpert : ∀ e names, l.names e = some names →
      (∀ n ∈ names, (st.bytes n).length = 2 * expected) →
        expert e = .ok (names.flatMap st.bytes))
    (hsized : l.Sized st expected) (hreturns : l.returns) :
    hostFuse l.numExperts expert =
      .ok ((List.range l.numExperts).flatMap fun e => ((l.names e).getD []).flatMap st.bytes) := by
  obtain ⟨halloc, hpasses⟩ := of_decide_eq_true hreturns
  have hall : ∀ es : List ℕ, (∀ e ∈ es, e < l.numExperts) →
      es.mapM expert = .ok (es.map fun e => ((l.names e).getD []).flatMap st.bytes) := by
    intro es hes
    induction es with
    | nil => rfl
    | cons e es ih =>
        have he := hes e List.mem_cons_self
        obtain ⟨names, hnames⟩ := Option.isSome_iff_exists.mp (hpasses e he).1
        have hone := hexpert e names hnames
          (hsized halloc e he (fun e' he' => hpasses e' (he'.trans he)) names hnames)
        rw [List.mapM_cons, hone, ih fun e' he' => hes e' (List.mem_cons_of_mem _ he'),
          List.map_cons, hnames]
        rfl
  rw [hostFuse, hall _ fun e he => List.mem_range.mp he, List.flatMap_def]
  rfl

lemma hostFuse_gateUp (hsized : (gateUpLoop st pfx ne eis hs).Sized st (eis * hs))
    (hreturns : (gateUpLoop st pfx ne eis hs).returns) :
    hostFuse ne (hostGateUp st pfx eis hs) =
      .ok ((List.range ne).flatMap fun e => ((gateUpNames st pfx e).getD []).flatMap st.bytes) :=
  hostFuse_eq (l := gateUpLoop st pfx ne eis hs) (fun _ _ => hostGateUp_eq) hsized hreturns

lemma hostFuse_up (hsized : (upLoop st pfx ne eis hs).Sized st (eis * hs))
    (hreturns : (upLoop st pfx ne eis hs).returns) :
    hostFuse ne (hostUp st pfx eis hs) =
      .ok ((List.range ne).flatMap fun e =>
        (((upLoop st pfx ne eis hs).names e).getD []).flatMap st.bytes) :=
  hostFuse_eq (l := upLoop st pfx ne eis hs) (fun _ _ => hostProj_eq) hsized hreturns

lemma hostFuse_down (hsized : (downLoop st pfx ne eis hs).Sized st (hs * eis))
    (hreturns : (downLoop st pfx ne eis hs).returns) :
    hostFuse ne (hostDown st pfx eis hs) =
      .ok ((List.range ne).flatMap fun e =>
        (((downLoop st pfx ne eis hs).names e).getD []).flatMap st.bytes) :=
  hostFuse_eq (l := downLoop st pfx ne eis hs) (fun _ _ => hostProj_eq) hsized hreturns

end Copied

/-! ### Without overflow -/

section Fits

variable {st : SafeTensorSet} {pfx : String} {ne eis hs e : ℕ}

/-- The copies of an expert stay in a buffer whose size does not overflow. -/
lemma copies_of_cuts {l : FuseLoop}
    (hcuts : ∀ p ∈ l.cuts.zip l.cuts.tail, p.2 = p.1 + l.sliceElems ∧ p.2 ≤ l.expertElems)
    (hfits : l.numExperts * l.expertElems < 2 ^ 64) (he : e < l.numExperts) :
    l.copies e = true := by
  rw [FuseLoop.copies, List.all_eq_true]
  rintro ⟨a, b⟩ hp
  obtain ⟨rfl, hle⟩ : b = a + l.sliceElems ∧ b ≤ l.expertElems := hcuts _ hp
  have hend : e * l.expertElems + l.expertElems ≤ l.numExperts * l.expertElems := by
    rw [← Nat.succ_mul]
    exact Nat.mul_le_mul_right _ he
  have hlen : l.len = l.numExperts * l.expertElems := Nat.mod_eq_of_lt hfits
  have hdst : usize (e * l.expertElems) = e * l.expertElems := Nat.mod_eq_of_lt (by omega)
  have hstart : usize (e * l.expertElems + a) = e * l.expertElems + a :=
    Nat.mod_eq_of_lt (by omega)
  have hstop : usize (e * l.expertElems + (a + l.sliceElems)) =
      e * l.expertElems + (a + l.sliceElems) := Nat.mod_eq_of_lt (by omega)
  simp only [FuseLoop.copiesTo, hdst, hstart, hstop, hlen, decide_eq_true_eq]
  omega

/-- **Without overflow** the loop over gate and up projections gets past every expert whose
tensors are there. -/
lemma gateUpLoop_passes (hfits : 2 * (ne * (2 * eis * hs)) < 2 ^ 63) (he : e < ne) :
    (gateUpLoop st pfx ne eis hs).allocates = true ∧
      ((gateUpLoop st pfx ne eis hs).Passes e ↔ (gateUpNames st pfx e).isSome) := by
  have hone : 2 * eis * hs ≤ ne * (2 * eis * hs) :=
    Nat.le_mul_of_pos_left _ (Nat.zero_lt_of_lt he)
  have helems : usize (2 * eis * hs) = 2 * eis * hs := Nat.mod_eq_of_lt (by omega)
  have htwo : 2 * eis * hs = eis * hs + eis * hs := by ring
  have hslice : usize (eis * hs) = eis * hs := Nat.mod_eq_of_lt (by omega)
  refine ⟨?_, fun h => h.1, fun h => ⟨h, copies_of_cuts ?_ ?_ he⟩⟩
  · have hlen : usize (ne * usize (2 * eis * hs)) = ne * (2 * eis * hs) := by
      rw [helems]
      exact Nat.mod_eq_of_lt (by omega)
    simpa [FuseLoop.allocates, FuseLoop.len, gateUpLoop, hlen] using hfits
  · simp only [gateUpLoop, List.tail_cons, List.zip_cons_cons, List.zip_nil_right, List.mem_cons,
      List.not_mem_nil, or_false, forall_eq_or_imp, forall_eq, helems, hslice]
    omega
  · change ne * usize (2 * eis * hs) < 2 ^ 64
    rw [helems]
    omega

/-- Without overflow a loop over single projections gets past every expert whose tensor is
there. -/
lemma projLoop_passes {l : FuseLoop} {elems : ℕ} (hexpert : l.expertElems = usize elems)
    (hslice : l.sliceElems = usize elems) (hcuts : l.cuts = [0, usize elems])
    (hfits : 2 * (l.numExperts * elems) < 2 ^ 63) (he : e < l.numExperts) :
    l.allocates = true ∧ (l.Passes e ↔ (l.names e).isSome) := by
  have hone : elems ≤ l.numExperts * elems := Nat.le_mul_of_pos_left _ (Nat.zero_lt_of_lt he)
  have helems : usize elems = elems := Nat.mod_eq_of_lt (by omega)
  rw [helems] at hexpert hslice hcuts
  refine ⟨?_, fun h => h.1, fun h => ⟨h, copies_of_cuts ?_ ?_ he⟩⟩
  · have hlen : usize (l.numExperts * elems) = l.numExperts * elems :=
      Nat.mod_eq_of_lt (by omega)
    simpa [FuseLoop.allocates, FuseLoop.len, hexpert, hlen] using hfits
  · simp [hcuts, hexpert, hslice]
  · rw [hexpert]
    omega

end Fits

/-- **The reads of expert tensors.**  For every configuration, safetensors set and file: every
slice is inside its tensor, and of a tensor of the expected size, if and only if the tensors that
the loops get to have that size. -/
theorem expertSlices_iff (config : ModelConfig) (m : MoeConfig) (st : SafeTensorSet)
    (bqnt : Option MmapBqnt) (pfx : String) (skipExperts gateUploads gateUpLoads : Bool) :
    let ne := m.numExperts
    let eis := m.expertIntermediateSize
    let hs := config.hiddenSize
    SlicesFit st (eis * hs) (expertSlices st bqnt pfx ne eis hs skipExperts gateUploads gateUpLoads) ↔
      ExpertsSized st bqnt pfx ne eis hs skipExperts gateUploads gateUpLoads :=
  slicesFit_expertSlices skipExperts gateUploads gateUpLoads

/-- A layer of experts in a latent dimension. -/
def latentConfig : Json ConfigParse.Number :=
  .object [("hidden_size", .number (.posInt 2)), ("num_hidden_layers", .number (.posInt 1)),
    ("vocab_size", .number (.posInt 1)), ("num_attention_heads", .number (.posInt 1)),
    ("head_dim", .number (.posInt 1)), ("intermediate_size", .number (.posInt 1)),
    ("n_routed_experts", .number (.posInt 1)), ("num_experts_per_tok", .number (.posInt 1)),
    ("moe_intermediate_size", .number (.posInt 1)), ("moe_latent_size", .number (.posInt 1)),
    ("hybrid_override_pattern", .string "E")]

/-- The names of its layer. -/
def latentPrefix : String := "backbone.layers.0.mixer."

/-- The name of the up projection of its expert. -/
def latentUp : String := "backbone.layers.0.mixer.experts.0.up_proj.weight"

/-- Its tensors, the router gate and an expert of one by one. -/
def latentSt : SafeTensorSet where
  shards := [[⟨"backbone.layers.0.mixer.gate.weight", ⟨.bf16, [1, 2], [0, 0, 0, 0], rfl⟩⟩,
    ⟨latentUp, ⟨.bf16, [1, 1], [0, 0], rfl⟩⟩].toAList]
  index := [⟨"backbone.layers.0.mixer.gate.weight", 0⟩, ⟨latentUp, 0⟩].toAList
  past := fun _ _ => 0

/-- Whether a feed-forward part is a single expert of one row. -/
def singleExpert : Engine.MixedPrefill.FfnType → Bool
  | .moe m => m.numExperts = 1 && m.expertIntermediateSize = 1
  | _ => false

/-- The slice of an expert in a latent dimension reaches behind its tensor. -/
theorem expertSlices_latent : ¬ ∀ (v : Json ConfigParse.Number) (maxLayers : ℕ)
    (config : ModelConfig), fromConfigValue v maxLayers = .ok config →
    ∀ l ∈ config.layers, ∀ m, l.ffnType = .moe m → ∀ (st : SafeTensorSet) (bqnt : Option MmapBqnt)
      (pfx : String) (skipExperts gateUploads gateUpLoads : Bool),
      SlicesFit st (m.expertIntermediateSize * config.hiddenSize)
        (expertSlices st bqnt pfx m.numExperts m.expertIntermediateSize config.hiddenSize
          skipExperts gateUploads gateUpLoads) := by
  intro h
  have hparse : ((fromConfigValue latentConfig 1).toOption.any fun config =>
      config.hiddenSize = 2 && config.layers.any fun l => singleExpert l.ffnType) = true := by
    decide +kernel
  cases hconfig : fromConfigValue latentConfig 1 with
  | error e =>
      rw [hconfig] at hparse
      cases hparse
  | ok config =>
      rw [hconfig] at hparse
      simp only [Except.toOption, Option.any_some, Bool.and_eq_true, decide_eq_true_eq,
        List.any_eq_true] at hparse
      obtain ⟨hhidden, l, hl, hmoe⟩ := hparse
      cases hffn : l.ffnType with
      | none => simp [hffn, singleExpert] at hmoe
      | dense => simp [hffn, singleExpert] at hmoe
      | moe m =>
          simp only [hffn, singleExpert, Bool.and_eq_true, decide_eq_true_eq] at hmoe
          have hslices :=
            h latentConfig 1 config hconfig l hl m hffn latentSt none latentPrefix false true true
          rw [hhidden, hmoe.1, hmoe.2] at hslices
          have hfit := hslices ⟨latentUp, 2⟩ (by decide +kernel)
          exact absurd hfit.1 (by decide +kernel)

end Braidinfer.Loader
