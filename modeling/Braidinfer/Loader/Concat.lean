/-
Concatenating the experts of a BQNT file (`concat_per_expert_bqnt` in `moe_weights.rs`).

The experts of a layer are looked up under the name of expert 0 with every `.0.` replaced, also
those in the prefix of the layer.

* `expertName`, `lookupName`: the name of an expert, and the name it is looked up under;
* `concatExperts_ok_iff`, `concatExperts_eq_some`: when the loop returns, and what;
* `takesOwnExperts_iff`: **exactly when the experts are those of the layer** and nothing panics;
* `takesOwnExperts_of_prefix`: for a prefix without `.0.`, their sizes decide.
-/
import Braidinfer.Lib.Slots
import Braidinfer.Loader.Cache

namespace Braidinfer.Loader

open Braidinfer.Lib
open Braidinfer.Bqnt
open Moe (WeightFormat LinearWeight ModelError toWeightFormat)
open Engine (ConfigParse.Number)

/-! ### Names -/

/-- The tensors that are concatenated. -/
inductive ExpertTensor
  | up | mlpUp | down | mlpDown
deriving DecidableEq, Repr

namespace ExpertTensor

/-- What stands between the prefix of the layer and the number of the expert. -/
def front : ExpertTensor → String
  | up | down => "experts."
  | mlpUp | mlpDown => "mlp.experts."

/-- What stands behind the number of the expert. -/
def back : ExpertTensor → String
  | up | mlpUp => ".up_proj.weight"
  | down | mlpDown => ".down_proj.weight"

end ExpertTensor

/-- The name of the tensor of expert `e`. -/
def expertName (pfx : String) (x : ExpertTensor) (e : ℕ) : String :=
  pfx ++ (x.front ++ (toString e ++ x.back))

/-- The name under which expert `e` is looked up. -/
def lookupName (pfx : String) (x : ExpertTensor) (e : ℕ) : String :=
  expertName (Text.replace pfx ".0." s!".{e}.") x e

section

variable {pfx : String} {x : ExpertTensor}

/-- Behind the prefix, only the number of the expert is replaced. -/
lemma replace_behind (x : ExpertTensor) (e : ℕ) :
    Text.replace (x.front ++ (toString 0 ++ x.back)) ".0." s!".{e}." =
      x.front ++ (toString e ++ x.back) := by
  cases x
  all_goals
    rw [← String.toList_inj]
    simp [Text.replace, Text.replaceList, ExpertTensor.front, ExpertTensor.back]
    rfl

/-- **The name that is looked up**: the replacement also reaches the prefix. -/
lemma replace_expertName (pfx : String) (x : ExpertTensor) (e : ℕ) :
    Text.replace (expertName pfx x 0) ".0." s!".{e}." = lookupName pfx x e := by
  have hfirst : ∃ c cs, (x.front ++ (toString 0 ++ x.back)).toList = c :: cs ∧
      c ∉ ".0.".toList := by
    cases x
    · exact ⟨'e', _, rfl, by decide⟩
    · exact ⟨'m', _, rfl, by decide⟩
    · exact ⟨'e', _, rfl, by decide⟩
    · exact ⟨'m', _, rfl, by decide⟩
  obtain ⟨c, cs, htext, hc⟩ := hfirst
  rw [expertName, Text.replace_append htext hc, replace_behind]
  rfl

/-- A prefix without `.0.` stays as it is. -/
lemma lookupName_of_prefix (h : Text.contains pfx ".0." = false) (e : ℕ) :
    lookupName pfx x e = expertName pfx x e := by
  rw [lookupName, Text.replace_of_not_contains h]

/-- Expert 0 is looked up under its own name. -/
lemma lookupName_zero : lookupName pfx x 0 = expertName pfx x 0 := by
  have hself : Text.replace pfx ".0." s!".{0}." = pfx := Text.replace_self pfx (by decide)
  rw [lookupName, hself]

end

/-! ### The loop -/

section

variable {b : MmapBqnt} {name : String} {size len : ℕ}

/-- The tensor of expert `e`, as the loop looks it up. -/
def looked (b : MmapBqnt) (name : String) (e : ℕ) : Option (List UInt8) :=
  b.tensorData (Text.replace name ".0." s!".{e}.")

/-- An expert that the loop copies: it fits its place in the buffer. -/
def Copied (size len e : ℕ) (data : List UInt8) : Prop :=
  (e + 1) * size ≤ len ∧ data.length = size

lemma concatExperts_missing {e : ℕ} {es : List ℕ} (h : looked b name e = none) :
    concatExperts b name size len (e :: es) = .ok none := by
  rw [looked] at h
  simp only [concatExperts, h]

lemma concatExperts_copied {e : ℕ} {es : List ℕ} {data : List UInt8}
    (h : looked b name e = some data) (hcopied : Copied size len e data) :
    concatExperts b name size len (e :: es) =
      (concatExperts b name size len es).map (Option.map (data ++ ·)) := by
  have hnot : ¬ (len < (e + 1) * size ∨ data.length ≠ size) := by
    rw [not_or, not_lt, not_not]
    exact hcopied
  rw [looked] at h
  simp only [concatExperts, h, if_neg hnot]
  cases concatExperts b name size len es with
  | error e => rfl
  | ok r => rfl

lemma concatExperts_panics {e : ℕ} {es : List ℕ} {data : List UInt8}
    (h : looked b name e = some data) (hnot : ¬ Copied size len e data) :
    concatExperts b name size len (e :: es) = .error .panicked := by
  have hpanic : len < (e + 1) * size ∨ data.length ≠ size := by
    rw [Copied, not_and_or, not_le] at hnot
    exact hnot
  rw [looked] at h
  simp only [concatExperts, h, if_pos hpanic]

/-- **When the loop returns**: every expert in front of the first missing one fits. -/
lemma concatExperts_ok_iff (b : MmapBqnt) (name : String) (size len n : ℕ) : ∀ s,
    (∃ r, concatExperts b name size len (List.range' s n) = .ok r) ↔
      ∀ e, s ≤ e → e < s + n → (∀ e', s ≤ e' → e' < e → (looked b name e').isSome) →
        ∀ data, looked b name e = some data → Copied size len e data := by
  induction n with
  | zero => exact fun s => ⟨fun _ e hs he => by omega, fun _ => ⟨_, rfl⟩⟩
  | succ n ih =>
      intro s
      rw [List.range'_succ]
      cases hfirst : looked b name s with
      | none =>
          refine ⟨fun _ e hs he hall data hdata => ?_,
            fun _ => ⟨_, concatExperts_missing hfirst⟩⟩
          rcases hs.lt_or_eq with hlt | rfl
          · have hsome := hall s le_rfl hlt
            rw [hfirst] at hsome
            cases hsome
          · rw [hfirst] at hdata
            cases hdata
      | some data =>
          by_cases hcopied : Copied size len s data
          · have hmap :
                (∃ r, concatExperts b name size len (s :: List.range' (s + 1) n) = .ok r) ↔
                  ∃ r, concatExperts b name size len (List.range' (s + 1) n) = .ok r := by
              rw [concatExperts_copied hfirst hcopied]
              cases concatExperts b name size len (List.range' (s + 1) n) with
              | error e => exact ⟨fun ⟨_, hr⟩ => (nomatch hr), fun ⟨_, hr⟩ => (nomatch hr)⟩
              | ok r => exact ⟨fun _ => ⟨r, rfl⟩, fun _ => ⟨_, rfl⟩⟩
            rw [hmap, ih (s + 1)]
            constructor
            · intro h e hs he hall data' hdata'
              rcases hs.lt_or_eq with hlt | rfl
              · exact h e hlt (by omega) (fun e' hs' => hall e' (by omega)) data' hdata'
              · rw [hfirst] at hdata'
                obtain rfl := Option.some.inj hdata'
                exact hcopied
            · intro h e hs he hall data' hdata'
              refine h e (by omega) (by omega) (fun e' hs' he' => ?_) data' hdata'
              rcases hs'.lt_or_eq with hlt | rfl
              · exact hall e' hlt he'
              · rw [hfirst]
                rfl
          · rw [concatExperts_panics hfirst hcopied]
            refine ⟨fun ⟨_, hr⟩ => (nomatch hr), fun h => ?_⟩
            exact absurd (h s le_rfl (by omega) (fun e' hs' he' => by omega) data hfirst) hcopied

/-- **What the loop returns**: the tensors that were looked up, one behind the other. -/
lemma concatExperts_some {packed : List UInt8} : ∀ {es : List ℕ},
    concatExperts b name size len es = .ok (some packed) →
      packed = es.flatMap (fun e => (looked b name e).getD []) ∧
        ∀ e ∈ es, ∃ data, looked b name e = some data ∧ Copied size len e data
  | [], h => by
      cases h
      exact ⟨rfl, fun e he => by cases he⟩
  | e :: es, h => by
      cases hfirst : looked b name e with
      | none =>
          rw [concatExperts_missing hfirst] at h
          cases h
      | some data =>
          by_cases hcopied : Copied size len e data
          · rw [concatExperts_copied hfirst hcopied] at h
            cases hrest : concatExperts b name size len es with
            | error err =>
                rw [hrest] at h
                cases h
            | ok r =>
                cases r with
                | none =>
                    rw [hrest] at h
                    cases h
                | some rest =>
                    rw [hrest] at h
                    cases h
                    obtain ⟨hpacked, hall⟩ := concatExperts_some hrest
                    refine ⟨by rw [List.flatMap_cons, hfirst, hpacked]; rfl, ?_⟩
                    rw [List.forall_mem_cons]
                    exact ⟨⟨data, hfirst, hcopied⟩, hall⟩
          · rw [concatExperts_panics hfirst hcopied] at h
            cases h

/-- If every expert is there and fits, the loop returns them. -/
lemma concatExperts_of_copied : ∀ {es : List ℕ},
    (∀ e ∈ es, ∃ data, looked b name e = some data ∧ Copied size len e data) →
      ∃ packed, concatExperts b name size len es = .ok (some packed)
  | [], _ => ⟨_, rfl⟩
  | e :: es, h => by
      obtain ⟨data, hfirst, hcopied⟩ := h e (by simp)
      obtain ⟨rest, hrest⟩ := concatExperts_of_copied fun e' he' =>
        h e' (List.mem_cons_of_mem e he')
      exact ⟨data ++ rest, by rw [concatExperts_copied hfirst hcopied, hrest]; rfl⟩

/-- A missing expert, with every expert in front of the first missing one fitting: nothing. -/
lemma concatExperts_of_missing {es : List ℕ} {r : Option (List UInt8)}
    (h : concatExperts b name size len es = .ok r) {e : ℕ} (he : e ∈ es)
    (hmissing : looked b name e = none) : r = none := by
  cases r with
  | none => rfl
  | some packed =>
      obtain ⟨data, hdata, -⟩ := (concatExperts_some h).2 e he
      rw [hmissing] at hdata
      cases hdata

end

/-! ### The experts of a layer -/

section

variable (b : MmapBqnt) (pfx : String) (x : ExpertTensor) (ne : ℕ)

/-- What the concatenation is for: the blocks of the weight are the experts of the layer, in
order, and without one of them, or if one has another size, there is no weight. -/
structure TakesOwnExperts : Prop where
  returns : ∃ r, concatPerExpertBqnt b (expertName pfx x 0) ne = .ok r
  own : ∀ w, concatPerExpertBqnt b (expertName pfx x 0) ne = .ok (some w) →
    ∃ entry, b.entry (expertName pfx x 0) = some entry ∧ ∀ e < ne,
      b.tensorData (expertName pfx x e) =
        some (slice w.rawData (e * entry.dataBytes.toNat) entry.dataBytes.toNat)
  refuses : ∀ entry, b.entry (expertName pfx x 0) = some entry → ∀ e < ne,
    (∀ data, b.tensorData (expertName pfx x e) = some data →
      data.length ≠ entry.dataBytes.toNat) →
      concatPerExpertBqnt b (expertName pfx x 0) ne = .ok none

/-- The file has the experts of the layer where they are looked up.  Only a prefix with `.0.`
makes the last condition one on the file. -/
structure HasOwnExperts (entry : TensorEntry) : Prop where
  capacity : ne * entry.dataBytes.toNat % 2 ^ 64 < 2 ^ 63
  fits : ∀ e < ne, (∀ e' < e, (b.tensorData (lookupName pfx x e')).isSome) →
    ∀ data, b.tensorData (lookupName pfx x e) = some data →
      Copied entry.dataBytes.toNat (ne * entry.dataBytes.toNat % 2 ^ 64) e data
  same : (∀ e < ne, (b.tensorData (lookupName pfx x e)).isSome) →
    ((codeToFormat entry.format).bind toWeightFormat).isSome → ∀ e < ne,
      b.tensorData (expertName pfx x e) = b.tensorData (lookupName pfx x e)

end

section

variable {b : MmapBqnt} {pfx : String} {x : ExpertTensor} {ne : ℕ} {entry : TensorEntry}

lemma looked_eq (e : ℕ) :
    looked b (expertName pfx x 0) e = b.tensorData (lookupName pfx x e) := by
  rw [looked, replace_expertName]

/-- The buffer of the concatenation. -/
def bufferLen (ne : ℕ) (entry : TensorEntry) : ℕ := ne * entry.dataBytes.toNat % 2 ^ 64

/-- The concatenation of a file that has expert 0. -/
lemma concatPerExpertBqnt_of_entry {name : String} (hentry : b.entry name = some entry)
    (hcap : bufferLen ne entry < 2 ^ 63) : concatPerExpertBqnt b name ne =
      (concatExperts b name entry.dataBytes.toNat (bufferLen ne entry) (List.range ne)).map
        fun packed => packed.bind fun data =>
          ((codeToFormat entry.format).bind toWeightFormat).map fun fmt =>
            .packed data fmt (ne * entry.outFeatures.toNat) entry.inFeatures.toNat := by
  rw [bufferLen] at hcap
  simp only [concatPerExpertBqnt, hentry, if_neg (not_le.mpr hcap)]
  rw [bufferLen]
  cases concatExperts b name entry.dataBytes.toNat (ne * entry.dataBytes.toNat % 2 ^ 64)
    (List.range ne) with
  | error e => rfl
  | ok r =>
      cases r with
      | none => rfl
      | some data =>
          cases (codeToFormat entry.format).bind toWeightFormat with
          | none => rfl
          | some fmt => rfl

/-- When a concatenation returns. -/
lemma concatPerExpertBqnt_ok_iff (hentry : b.entry (expertName pfx x 0) = some entry) :
    (∃ r, concatPerExpertBqnt b (expertName pfx x 0) ne = .ok r) ↔
      bufferLen ne entry < 2 ^ 63 ∧
        ∀ e < ne, (∀ e' < e, (b.tensorData (lookupName pfx x e')).isSome) →
          ∀ data, b.tensorData (lookupName pfx x e) = some data →
            Copied entry.dataBytes.toNat (bufferLen ne entry) e data := by
  by_cases hcap : bufferLen ne entry < 2 ^ 63
  · have hloop := concatExperts_ok_iff b (expertName pfx x 0) entry.dataBytes.toNat
      (bufferLen ne entry) ne 0
    rw [← List.range_eq_range'] at hloop
    simp only [looked_eq, Nat.zero_le, true_implies, Nat.zero_add] at hloop
    rw [and_iff_right hcap, ← hloop, concatPerExpertBqnt_of_entry hentry hcap]
    cases concatExperts b (expertName pfx x 0) entry.dataBytes.toNat (bufferLen ne entry)
      (List.range ne) with
    | error e => exact ⟨fun ⟨_, hr⟩ => (nomatch hr), fun ⟨_, hr⟩ => (nomatch hr)⟩
    | ok r => exact ⟨fun _ => ⟨r, rfl⟩, fun _ => ⟨_, rfl⟩⟩
  · refine ⟨fun ⟨r, hr⟩ => ?_, fun h => absurd h.1 hcap⟩
    rw [bufferLen, not_lt] at hcap
    simp only [concatPerExpertBqnt, hentry, if_pos hcap] at hr
    cases hr

/-- **The blocks of a concatenation** are the tensors that were looked up. -/
lemma blocks_of_some {w : LinearWeight} (hentry : b.entry (expertName pfx x 0) = some entry)
    (hw : concatPerExpertBqnt b (expertName pfx x 0) ne = .ok (some w)) :
    ((codeToFormat entry.format).bind toWeightFormat).isSome ∧ ∀ e < ne,
      b.tensorData (lookupName pfx x e) =
        some (slice w.rawData (e * entry.dataBytes.toNat) entry.dataBytes.toNat) ∧
      (slice w.rawData (e * entry.dataBytes.toNat) entry.dataBytes.toNat).length =
        entry.dataBytes.toNat := by
  obtain ⟨hcap, -⟩ := (concatPerExpertBqnt_ok_iff hentry).mp ⟨_, hw⟩
  rw [concatPerExpertBqnt_of_entry hentry hcap] at hw
  cases hloop : concatExperts b (expertName pfx x 0) entry.dataBytes.toNat (bufferLen ne entry)
      (List.range ne) with
  | error e =>
      rw [hloop] at hw
      cases hw
  | ok r =>
      rw [hloop] at hw
      cases r with
      | none => cases hw
      | some packed =>
          cases hfmt : (codeToFormat entry.format).bind toWeightFormat with
          | none =>
              rw [hfmt] at hw
              cases hw
          | some fmt =>
              rw [hfmt] at hw
              cases hw
              obtain ⟨hpacked, hall⟩ := concatExperts_some hloop
              refine ⟨rfl, fun e he => ?_⟩
              have hlen : ∀ e < ne, ((looked b (expertName pfx x 0) e).getD []).length =
                  entry.dataBytes.toNat := by
                intro e he
                obtain ⟨data, hdata, hcopied⟩ := hall e (List.mem_range.mpr he)
                rw [hdata]
                exact hcopied.2
              obtain ⟨data, hdata, hcopied⟩ := hall e (List.mem_range.mpr he)
              have hblock : slice packed (e * entry.dataBytes.toNat) entry.dataBytes.toNat =
                  data := by
                rw [hpacked, slice_flatMap_range hlen he, hdata, Option.getD_some]
              rw [LinearWeight.rawData, hblock, ← looked_eq]
              exact ⟨hdata, hcopied.2⟩

/-- If every expert is there and fits, and the format is linear, there is a weight. -/
lemma some_of_fits (hentry : b.entry (expertName pfx x 0) = some entry)
    (hcap : bufferLen ne entry < 2 ^ 63)
    (hfmt : ((codeToFormat entry.format).bind toWeightFormat).isSome)
    (h : ∀ e < ne, ∃ data, b.tensorData (lookupName pfx x e) = some data ∧
      Copied entry.dataBytes.toNat (bufferLen ne entry) e data) :
    ∃ w, concatPerExpertBqnt b (expertName pfx x 0) ne = .ok (some w) := by
  obtain ⟨fmt, hfmt⟩ := Option.isSome_iff_exists.mp hfmt
  obtain ⟨packed, hpacked⟩ : ∃ packed, concatExperts b (expertName pfx x 0)
      entry.dataBytes.toNat (bufferLen ne entry) (List.range ne) = .ok (some packed) :=
    concatExperts_of_copied fun e he => by
      rw [looked_eq]
      exact h e (List.mem_range.mp he)
  rw [concatPerExpertBqnt_of_entry hentry hcap, hpacked, hfmt]
  exact ⟨_, rfl⟩

/-- **The experts of a concatenation.**  Of any file, prefix, tensor and number of experts, the
experts that are taken are those of the layer, and nothing panics, if and only if the file has
them where they are looked up. -/
theorem takesOwnExperts_iff (b : MmapBqnt) (pfx : String) (x : ExpertTensor) (ne : ℕ) :
    TakesOwnExperts b pfx x ne ↔
      ∀ entry, b.entry (expertName pfx x 0) = some entry → HasOwnExperts b pfx x ne entry := by
  constructor
  · intro h entry hentry
    obtain ⟨hcap, hfits⟩ := (concatPerExpertBqnt_ok_iff hentry).mp h.returns
    refine ⟨hcap, hfits, fun hall hfmt e he => ?_⟩
    obtain ⟨w, hw⟩ := some_of_fits hentry hcap hfmt fun e he => by
      obtain ⟨data, hdata⟩ := Option.isSome_iff_exists.mp (hall e he)
      exact ⟨data, hdata, hfits e he (fun e' he' => hall e' (by omega)) data hdata⟩
    obtain ⟨entry', hentry', hown⟩ := h.own w hw
    obtain rfl := Option.some.inj (hentry.symm.trans hentry')
    rw [hown e he, ((blocks_of_some hentry hw).2 e he).1]
  · intro h
    have hreturns : ∃ r, concatPerExpertBqnt b (expertName pfx x 0) ne = .ok r := by
      cases hentry : b.entry (expertName pfx x 0) with
      | none => exact ⟨none, by simp only [concatPerExpertBqnt, hentry]⟩
      | some entry =>
          exact (concatPerExpertBqnt_ok_iff hentry).mpr ⟨(h entry hentry).capacity,
            (h entry hentry).fits⟩
    have hown : ∀ w, concatPerExpertBqnt b (expertName pfx x 0) ne = .ok (some w) →
        ∃ entry, b.entry (expertName pfx x 0) = some entry ∧ ∀ e < ne,
          b.tensorData (expertName pfx x e) =
            some (slice w.rawData (e * entry.dataBytes.toNat) entry.dataBytes.toNat) ∧
          (slice w.rawData (e * entry.dataBytes.toNat) entry.dataBytes.toNat).length =
            entry.dataBytes.toNat := by
      intro w hw
      cases hentry : b.entry (expertName pfx x 0) with
      | none =>
          simp only [concatPerExpertBqnt, hentry] at hw
          cases hw
      | some entry =>
          obtain ⟨hfmt, hblocks⟩ := blocks_of_some hentry hw
          refine ⟨entry, rfl, fun e he => ?_⟩
          have hsame := (h entry hentry).same
            (fun e he => by rw [(hblocks e he).1]; rfl) hfmt e he
          rw [hsame]
          exact hblocks e he
    refine ⟨hreturns, fun w hw => ?_, fun entry hentry e he hmissing => ?_⟩
    · obtain ⟨entry, hentry, hblocks⟩ := hown w hw
      exact ⟨entry, hentry, fun e he => (hblocks e he).1⟩
    · obtain ⟨r, hr⟩ := hreturns
      cases r with
      | none => exact hr
      | some w =>
          obtain ⟨entry', hentry', hblocks⟩ := hown w hr
          obtain rfl := Option.some.inj (hentry.symm.trans hentry')
          exact absurd (hblocks e he).2 (hmissing _ (hblocks e he).1)

/-- **A prefix without `.0.`**, or fewer than two experts: only the sizes matter. -/
lemma hasOwnExperts_of_prefix (hpfx : Text.contains pfx ".0." = false ∨ ne ≤ 1)
    (hcap : bufferLen ne entry < 2 ^ 63)
    (hfits : ∀ e < ne, (∀ e' < e, (b.tensorData (expertName pfx x e')).isSome) →
      ∀ data, b.tensorData (expertName pfx x e) = some data →
        Copied entry.dataBytes.toNat (bufferLen ne entry) e data) :
    HasOwnExperts b pfx x ne entry := by
  have hname : ∀ e < ne, lookupName pfx x e = expertName pfx x e := by
    intro e he
    rcases hpfx with hpfx | hne
    · exact lookupName_of_prefix hpfx e
    · obtain rfl : e = 0 := by omega
      exact lookupName_zero
  refine ⟨hcap, fun e he hall data hdata => hfits e he (fun e' he' => ?_) data ?_, ?_⟩
  · rw [← hname e' (by omega)]
    exact hall e' he'
  · rw [← hname e he]
    exact hdata
  · intro _ _ e he
    rw [hname e he]

end

/-! ### A file of two layers -/

/-- The up projection of an expert, with two equal bytes. -/
def upProj (layer expert : ℕ) (byte : UInt8) : Tensor :=
  { oneTensor with
    name := s!"model.layers.{layer}.experts.{expert}.up_proj.weight"
    data := [byte, byte] }

/-- The up projections of two experts in each of two layers. -/
def twoLayers : List Tensor := [upProj 0 0 1, upProj 0 1 2, upProj 1 0 3, upProj 1 1 4]

/-- The metadata of the file. -/
def twoLayersMeta : Json ConfigParse.Number := fileMetadata (·.entries) twoLayers []

/-- `serde_json` on the two texts that are read. -/
def twoLayersJson : SerdeJson ConfigParse.Number where
  fromStr s := [.object [], twoLayersMeta].find? fun v => compact 3 v = s
  toString := compact 3

lemma twoLayersJson_fromStr (s : String) : twoLayersJson.fromStr s =
    [.object [], twoLayersMeta].find? fun v => compact 3 v = s := rfl

/-- A file of the tensors opens. -/
lemma twoLayers_opens : ∃ bytes f, MmapBqnt.openMmap twoLayersJson bytes = .ok f ∧
    Opened (placed (dataStart 4) twoLayers) f := by
  have hwritable : Writable 4 twoLayers := by
    refine ⟨by simp [twoLayers], by decide +kernel, ?_, ?_, by decide, by decide⟩
    · decide +kernel
    · decide +kernel
  have htext : compact 3 (.object []) = "{}" := by decide +kernel
  have hother : compact 3 (.object []) ≠ compact 3 twoLayersMeta := by decide +kernel
  have hobject : twoLayersJson.fromStr "{}" = some (.object []) := by
    rw [twoLayersJson_fromStr, List.find?_cons_of_pos (by simpa using htext)]
  have hparse : twoLayersJson.fromStr (compact 3 twoLayersMeta) = some twoLayersMeta := by
    rw [twoLayersJson_fromStr, List.find?_cons_of_neg (by simpa using hother),
      List.find?_cons_of_pos (by simp)]
  have hne : compact 3 twoLayersMeta ≠ "" := by decide +kernel
  have hfits : fileEnd 4 twoLayers (utf8 (compact 3 twoLayersMeta)) < 2 ^ 64 := by decide +kernel
  obtain ⟨w, offset, bytes, -, hw⟩ : ∃ w offset bytes, writeFile twoLayersJson (·.entries) 4
      twoLayers "\x7b\x7d" = .ok (w, bytes) ∧ Written 4 twoLayers
        (utf8 (compact 3 twoLayersMeta)) w offset bytes :=
    writeFile_spec hwritable hobject rfl (utf8_ne_nil hne) hfits
  obtain ⟨f, -, hopen, hopened, -⟩ := openMmap_spec (fun _ => .refl _) hwritable hw hfits
    (utf8_ne_nil hne) hparse
  exact ⟨bytes, f, hopen, hopened⟩

/-- The data under a name of the file. -/
lemma twoLayers_data {f : MmapBqnt} (h : Opened (placed (dataStart 4) twoLayers) f) {t : Tensor}
    (ht : t ∈ twoLayers) : f.tensorData t.name = some t.data := by
  rw [← placed_map_snd (dataStart 4) twoLayers] at ht
  obtain ⟨p, hp, rfl⟩ := List.mem_map.mp ht
  exact h.tensorData hp

/-- In layer 0, expert 1 is taken from layer 1. -/
theorem not_takesOwnExperts : ∃ bytes f, MmapBqnt.openMmap twoLayersJson bytes = .ok f ∧
    ¬ TakesOwnExperts f "model.layers.0." .up 2 := by
  obtain ⟨bytes, f, hopen, hopened⟩ := twoLayers_opens
  refine ⟨bytes, f, hopen, fun h => ?_⟩
  have hentry : f.entry (expertName "model.layers.0." .up 0) =
      some (entryOf (ceilTo alignment.toNat (dataStart 4), upProj 0 0 1)) := by
    have hname : expertName "model.layers.0." .up 0 = (upProj 0 0 1).name := by decide +kernel
    rw [hname]
    exact hopened.get (p := (ceilTo alignment.toNat (dataStart 4), upProj 0 0 1)) (by
      simp [twoLayers, placed])
  have hlooked : f.tensorData (lookupName "model.layers.0." .up 0) = some [1, 1] ∧
      f.tensorData (lookupName "model.layers.0." .up 1) = some [4, 4] := by
    have hname : lookupName "model.layers.0." .up 0 = (upProj 0 0 1).name ∧
        lookupName "model.layers.0." .up 1 = (upProj 1 1 4).name := by decide +kernel
    rw [hname.1, hname.2]
    exact ⟨twoLayers_data hopened (by simp [twoLayers]),
      twoLayers_data hopened (by simp [twoLayers])⟩
  have hown : f.tensorData (expertName "model.layers.0." .up 1) = some [2, 2] := by
    have hname : expertName "model.layers.0." .up 1 = (upProj 0 1 2).name := by decide +kernel
    rw [hname]
    exact twoLayers_data hopened (by simp [twoLayers])
  obtain ⟨w, hw⟩ : ∃ w, concatPerExpertBqnt f (expertName "model.layers.0." .up 0) 2 =
      .ok (some w) := some_of_fits hentry (by decide) rfl fun e he => by
    interval_cases e
    · exact ⟨_, hlooked.1, by decide, rfl⟩
    · exact ⟨_, hlooked.2, by decide, rfl⟩
  obtain ⟨entry, hentry', hblocks⟩ := h.own w hw
  obtain rfl := Option.some.inj (hentry.symm.trans hentry')
  have hsame := ((blocks_of_some hentry hw).2 1 (by decide)).1
  rw [hlooked.2, ← hblocks 1 (by decide), hown] at hsame
  cases hsame

end Braidinfer.Loader
