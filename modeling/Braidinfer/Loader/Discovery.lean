/-
Which tensors a load takes for what (`model_load.rs`), and the order in which `tensor_names` lists
them.

Every name is the first that passes a test, and the names of a BQNT file come out of a hash map, in
any order.  Whether a load depends on the order is therefore a matter of how many names each test
has to choose from.

* `prefixTier`, `embedTier`, `normTier`, `lmHeadTier`: the names a choice is made from;
* `OrderFree`: the sets of names for which there is no choice, or for which it always fails alike;
* `loadWeights_listed`: so a load does not depend on the order either;
* `discovery_iff`: **the same names, or the same error, for every order, exactly then**.
-/
import Braidinfer.Lib.FirstMatch
import Braidinfer.Lib.Program
import Braidinfer.Loader.Load

namespace Braidinfer.Loader

open Braidinfer.Lib
open Braidinfer.Bqnt
open Moe (ModelError)
open Engine.ConfigParse (ModelConfig)

/-! ### Choices -/

/-- What is in front of `layers.0.` in the names that have it. -/
def prefixCandidates (names : List String) : List String :=
  (names.filter fun n => Text.contains n "layers.0.").map fun n => Text.before n "layers.0."

/-- The prefixes `prefix` is chosen from. -/
def prefixTier (names : List String) : List String :=
  bestClass [fun p => Text.contains p "model", fun p => !Text.contains p "mtp", fun _ => true]
    (prefixCandidates names)

/-- The names `embed_name` is chosen from. -/
def embedTier (pfx : String) (names : List String) : List String :=
  bestClass [fun n => Text.startsWith n pfx && isEmbedding n, isEmbedding] names

/-- The names `norm_name` is chosen from. -/
def normTier (pfx : String) (names : List String) : List String :=
  bestClass [
    fun n => Text.startsWith n pfx &&
      (Text.endsWith n "norm.weight" || Text.endsWith n "ln_f.weight" ||
        Text.endsWith n "norm_f.weight") && !Text.contains n "layers.",
    fun n =>
      (Text.contains n "norm.weight" || Text.contains n "ln_f.weight" ||
        Text.contains n "norm_f.weight") && !Text.contains n "layers." &&
        !Text.contains n "visual" && !Text.contains n "mtp"] names

/-- The names `lm_head_name` is chosen from. -/
def lmHeadTier (names : List String) : List String :=
  bestClass [fun n => Text.contains n "lm_head.weight"] names

/-- The value chosen, or the error. -/
def chosen (msg : String) : Option String → Except ModelError String
  | some n => .ok n
  | none => missing msg

lemma chosen_ok {msg n : String} {o : Option String} : chosen msg o = .ok n ↔ o = some n := by
  cases o with
  | none => exact ⟨fun h => (by cases h), fun h => (by cases h)⟩
  | some m => exact ⟨fun h => (by cases h; rfl), fun h => (by cases h; rfl)⟩

section Choices

variable {names names' : List String} {pfx n : String}

lemma discoverPrefix_eq (names : List String) :
    discoverPrefix names = chosen "no layers.0. tensor found" (prefixTier names).head? := by
  have hhead : ∀ l : List String, (l.find? fun _ => true) = l.head? := fun l => by
    cases l <;> rfl
  rw [prefixTier, ← firstMatch_eq_head?, discoverPrefix]
  simp only [firstMatch, Option.or_none, hhead]
  rfl

lemma embedName_eq (pfx : String) (names : List String) :
    embedName pfx names = chosen "embedding tensor not found" (embedTier pfx names).head? := by
  rw [embedTier, ← firstMatch_eq_head?, embedName]
  simp only [firstMatch, Option.or_none]
  rfl

lemma normName_eq (pfx : String) (names : List String) :
    normName pfx names = chosen "final norm tensor not found" (normTier pfx names).head? := by
  rw [normTier, ← firstMatch_eq_head?, normName]
  simp only [firstMatch, Option.or_none]
  rfl

lemma lmHeadName_eq (names : List String) :
    lmHeadName names = chosen "lm_head.weight not found" (lmHeadTier names).head? := by
  rw [lmHeadTier, ← firstMatch_eq_head?, lmHeadName]
  simp only [firstMatch, Option.or_none]
  rfl

/-- There is an embedding for one prefix as for another. -/
lemma embedTier_eq_nil : embedTier pfx names = [] ↔ ∀ n ∈ names, isEmbedding n = false := by
  rw [embedTier, bestClass, bestClass, bestClass]
  constructor
  · intro h n hn
    by_contra hembed
    have hmem : ∀ p : String → Bool, names.any p = true → names.filter p ≠ [] := by
      intro p hany hnil
      obtain ⟨x, hx, hp⟩ := List.any_eq_true.mp hany
      exact absurd (List.mem_filter.mpr ⟨hx, hp⟩) (hnil ▸ List.not_mem_nil)
    split at h
    · exact hmem _ ‹_› h
    · rw [if_pos (List.any_eq_true.mpr ⟨n, hn, by simpa using hembed⟩)] at h
      exact hmem _ (List.any_eq_true.mpr ⟨n, hn, by simpa using hembed⟩) h
  · intro h
    have hsecond : ¬ names.any isEmbedding = true := by
      rw [List.any_eq_true]
      rintro ⟨n, hn, hembed⟩
      exact Bool.false_ne_true ((h n hn).symm.trans hembed)
    have hfirst : ¬ names.any (fun n => Text.startsWith n pfx && isEmbedding n) = true := by
      rw [List.any_eq_true]
      rintro ⟨n, hn, hboth⟩
      rw [h n hn, Bool.and_false] at hboth
      cases hboth
    rw [if_neg hfirst, if_neg hsecond]

section Perm

variable (h : names'.Perm names)

include h

lemma prefixTier_perm : (prefixTier names').Perm (prefixTier names) :=
  bestClass_perm ((h.filter _).map _) _

lemma embedTier_perm (pfx : String) : (embedTier pfx names').Perm (embedTier pfx names) :=
  bestClass_perm h _

lemma normTier_perm (pfx : String) : (normTier pfx names').Perm (normTier pfx names) :=
  bestClass_perm h _

lemma lmHeadTier_perm : (lmHeadTier names').Perm (lmHeadTier names) := bestClass_perm h _

end Perm

/-- **Every prefix of the tier is found in some order.** -/
lemma exists_prefix_first (hp : pfx ∈ prefixTier names) :
    ∃ names', names'.Perm names ∧ (prefixTier names').head? = some pfx := by
  have hcandidate : pfx ∈ prefixCandidates names := bestClass_subset _ _ hp
  obtain ⟨n, hn, rfl⟩ := List.mem_map.mp hcandidate
  obtain ⟨hn, hlayers⟩ := List.mem_filter.mp hn
  have hperm : (n :: names.erase n).Perm names := (List.perm_cons_erase hn).symm
  refine ⟨n :: names.erase n, hperm, ?_⟩
  have hmem := (prefixTier_perm hperm).mem_iff.mpr hp
  have hcons : prefixCandidates (n :: names.erase n) =
      Text.before n "layers.0." :: prefixCandidates (names.erase n) := by
    rw [prefixCandidates, List.filter_cons, if_pos hlayers, List.map_cons, prefixCandidates]
  rw [prefixTier, hcons] at hmem ⊢
  exact head?_bestClass_cons hmem

/-- Every name of a class is first in some order. -/
lemma exists_name_first {ps : List (String → Bool)} (hn : n ∈ bestClass ps names) :
    ∃ names', names'.Perm names ∧ (bestClass ps names').head? = some n := by
  have hperm : (n :: names.erase n).Perm names :=
    (List.perm_cons_erase (bestClass_subset _ _ hn)).symm
  exact ⟨_, hperm, head?_bestClass_cons ((bestClass_perm hperm ps).mem_iff.mpr hn)⟩

end Choices

/-! ### Discovery -/

/-- What is found among the names. -/
structure TensorNames where
  pfx : String
  embedName : String
  normName : String
  lmHeadName : Option String
deriving DecidableEq

/-- The discoveries of a load, in their order; a tied head is not looked for. -/
def discoverNames (tie : Bool) (names : List String) : Except ModelError TensorNames := do
  let pfx ← discoverPrefix names
  let embedName ← embedName pfx names
  let normName ← normName pfx names
  let lmHeadName ← if tie then .ok none else some <$> lmHeadName names
  return { pfx, embedName, normName, lmHeadName }

/-- The names for which the discoveries fail, with the same error in every order. -/
def FailsAlike (tie : Bool) (names : List String) : Prop :=
  prefixTier names = [] ∨ (∀ n ∈ names, isEmbedding n = false) ∨
    (∀ p ∈ prefixTier names, normTier p names = []) ∨
    ((∀ p ∈ prefixTier names, normTier p names ≠ []) ∧ tie = false ∧ lmHeadTier names = [])

/-- The names among which no discovery has a choice. -/
structure Settled (tie : Bool) (names : List String) : Prop where
  pfx : {p | p ∈ prefixTier names}.Subsingleton
  embed : ∀ p ∈ prefixTier names, {n | n ∈ embedTier p names}.Subsingleton
  norm : ∀ p ∈ prefixTier names, {n | n ∈ normTier p names}.Subsingleton
  lmHead : tie = false → {n | n ∈ lmHeadTier names}.Subsingleton

/-- Names whose order does not matter. -/
def OrderFree (tie : Bool) (names : List String) : Prop := FailsAlike tie names ∨ Settled tie names

section Discover

variable {tie : Bool} {names names' : List String} {pfx embed norm : String} {d : TensorNames}

lemma discover_noPrefix (hp : prefixTier names = []) :
    discoverNames tie names = missing "no layers.0. tensor found" := by
  rw [discoverNames, discoverPrefix_eq, hp]
  rfl

lemma discover_noEmbed (hp : (prefixTier names).head? = some pfx) (he : embedTier pfx names = []) :
    discoverNames tie names = missing "embedding tensor not found" := by
  have hpfx : discoverPrefix names = .ok pfx := by rw [discoverPrefix_eq, hp]; rfl
  have hembed : embedName pfx names = missing "embedding tensor not found" := by
    rw [embedName_eq, he]
    rfl
  simp only [discoverNames, bind, Except.bind, hpfx, hembed, missing]

lemma discover_noNorm (hp : (prefixTier names).head? = some pfx)
    (he : (embedTier pfx names).head? = some embed) (hn : normTier pfx names = []) :
    discoverNames tie names = missing "final norm tensor not found" := by
  have hpfx : discoverPrefix names = .ok pfx := by rw [discoverPrefix_eq, hp]; rfl
  have hembed : embedName pfx names = .ok embed := by rw [embedName_eq, he]; rfl
  have hnorm : normName pfx names = missing "final norm tensor not found" := by
    rw [normName_eq, hn]
    rfl
  simp only [discoverNames, bind, Except.bind, hpfx, hembed, hnorm, missing]

/-- With a prefix, an embedding and a norm only the head is left. -/
lemma discover_head (hp : (prefixTier names).head? = some pfx)
    (he : (embedTier pfx names).head? = some embed) (hn : (normTier pfx names).head? = some norm) :
    discoverNames tie names =
      if tie then .ok ⟨pfx, embed, norm, none⟩
      else match (lmHeadTier names).head? with
        | some n => .ok ⟨pfx, embed, norm, some n⟩
        | none => missing "lm_head.weight not found" := by
  have hpfx : discoverPrefix names = .ok pfx := by rw [discoverPrefix_eq, hp]; rfl
  have hembed : embedName pfx names = .ok embed := by rw [embedName_eq, he]; rfl
  have hnorm : normName pfx names = .ok norm := by rw [normName_eq, hn]; rfl
  simp only [discoverNames, bind, Except.bind, hpfx, hembed, hnorm, lmHeadName_eq]
  cases tie with
  | true => rfl
  | false => cases (lmHeadTier names).head? <;> rfl

/-- **A discovery that succeeds** has found the first of every tier. -/
lemma discover_ok (h : discoverNames tie names = .ok d) :
    (prefixTier names).head? = some d.pfx ∧ (embedTier d.pfx names).head? = some d.embedName ∧
      (normTier d.pfx names).head? = some d.normName ∧
      (tie = false → (lmHeadTier names).head? = d.lmHeadName) := by
  cases hp : (prefixTier names).head? with
  | none =>
      rw [discover_noPrefix (List.head?_eq_none_iff.mp hp)] at h
      cases h
  | some pfx =>
      cases he : (embedTier pfx names).head? with
      | none =>
          rw [discover_noEmbed hp (List.head?_eq_none_iff.mp he)] at h
          cases h
      | some embed =>
          cases hn : (normTier pfx names).head? with
          | none =>
              rw [discover_noNorm hp he (List.head?_eq_none_iff.mp hn)] at h
              cases h
          | some norm =>
              rw [discover_head hp he hn] at h
              cases tie with
              | true =>
                  cases h
                  exact ⟨rfl, he, hn, fun h => by cases h⟩
              | false =>
                  cases hl : (lmHeadTier names).head? with
                  | none =>
                      rw [hl] at h
                      cases h
                  | some l =>
                      rw [hl] at h
                      cases h
                      exact ⟨rfl, he, hn, fun _ => rfl⟩

end Discover

/-! ### The order -/

section Order

variable {tie : Bool} {names names' : List String} {p : String}

lemma Settled.discover_eq (h : Settled tie names) (hperm : names'.Perm names) :
    discoverNames tie names' = discoverNames tie names := by
  have hp : (prefixTier names).head? = (prefixTier names').head? :=
    head?_perm (prefixTier_perm hperm).symm h.pfx
  cases hfirst : (prefixTier names).head? with
  | none =>
      rw [discover_noPrefix (List.head?_eq_none_iff.mp hfirst),
        discover_noPrefix (List.head?_eq_none_iff.mp (hp ▸ hfirst))]
  | some pfx =>
      have hmem : pfx ∈ prefixTier names := List.mem_of_head? hfirst
      have he : (embedTier pfx names).head? = (embedTier pfx names').head? :=
        head?_perm (embedTier_perm hperm pfx).symm (h.embed pfx hmem)
      have hn : (normTier pfx names).head? = (normTier pfx names').head? :=
        head?_perm (normTier_perm hperm pfx).symm (h.norm pfx hmem)
      rw [discoverNames, discoverNames, discoverPrefix_eq, discoverPrefix_eq, ← hp, hfirst]
      simp only [chosen, bind, Except.bind, embedName_eq, normName_eq, ← he, ← hn]
      cases tie with
      | true => rfl
      | false =>
          have hl : (lmHeadTier names).head? = (lmHeadTier names').head? :=
            head?_perm (lmHeadTier_perm hperm).symm (h.lmHead rfl)
          rw [lmHeadName_eq, lmHeadName_eq, hl]

/-- The first prefix of another order is one of the tier. -/
lemma mem_prefixTier (hperm : names'.Perm names) (hp : (prefixTier names').head? = some p) :
    p ∈ prefixTier names :=
  (prefixTier_perm hperm).mem_iff.mp (List.mem_of_head? hp)

lemma exists_head? {α : Type} {l : List α} (h : l ≠ []) : ∃ a, l.head? = some a :=
  Option.isSome_iff_exists.mp (List.isSome_head?.mpr h)

lemma FailsAlike.discover_eq (h : FailsAlike tie names) :
    ∃ e, ∀ names', names'.Perm names → discoverNames tie names' = .error e := by
  -- the first of the discoveries that fails
  by_cases hpnil : prefixTier names = []
  · exact ⟨_, fun names' hperm =>
      discover_noPrefix (List.perm_nil.mp (hpnil ▸ prefixTier_perm hperm))⟩
  have hpfx : ∀ names', names'.Perm names → ∃ p ∈ prefixTier names,
      (prefixTier names').head? = some p := by
    intro names' hperm
    obtain ⟨p, hp⟩ := exists_head? fun hnil => hpnil
      (List.perm_nil.mp (hnil ▸ (prefixTier_perm hperm).symm))
    exact ⟨p, mem_prefixTier hperm hp, hp⟩
  by_cases hembed : ∀ n ∈ names, isEmbedding n = false
  · refine ⟨.missingWeight "embedding tensor not found", fun names' hperm => ?_⟩
    obtain ⟨p, -, hp⟩ := hpfx names' hperm
    exact discover_noEmbed hp
      (embedTier_eq_nil.mpr fun n hn => hembed n (hperm.mem_iff.mp hn))
  have hemb : ∀ p names', names'.Perm names → ∃ n, (embedTier p names').head? = some n :=
    fun p names' hperm => exists_head? fun hnil =>
      hembed fun n hn => embedTier_eq_nil.mp hnil n (hperm.mem_iff.mpr hn)
  rcases h with h | h | h | ⟨hnorm, rfl, hl⟩
  · exact absurd h hpnil
  · exact absurd h hembed
  · refine ⟨.missingWeight "final norm tensor not found", fun names' hperm => ?_⟩
    obtain ⟨p, hmem, hp⟩ := hpfx names' hperm
    obtain ⟨e, he⟩ := hemb p names' hperm
    exact discover_noNorm hp he (List.perm_nil.mp (h p hmem ▸ normTier_perm hperm p))
  · refine ⟨.missingWeight "lm_head.weight not found", fun names' hperm => ?_⟩
    obtain ⟨p, hmem, hp⟩ := hpfx names' hperm
    obtain ⟨e, he⟩ := hemb p names' hperm
    obtain ⟨n, hn⟩ := exists_head? fun hnil => hnorm p hmem
      (List.perm_nil.mp (hnil ▸ (normTier_perm hperm p).symm))
    have hlnil : lmHeadTier names' = [] := List.perm_nil.mp (hl ▸ lmHeadTier_perm hperm)
    rw [discover_head hp he hn, hlnil]
    rfl

/-- A discovery that fails in every order fails alike. -/
lemma failsAlike_of_error {e : ModelError}
    (h : ∀ names', names'.Perm names → discoverNames tie names' = .error e) :
    FailsAlike tie names := by
  by_cases hpnil : prefixTier names = []
  · exact .inl hpnil
  by_cases hembed : ∀ n ∈ names, isEmbedding n = false
  · exact .inr (.inl hembed)
  have hemb : ∀ p names', names'.Perm names → ∃ n, (embedTier p names').head? = some n :=
    fun p names' hperm => exists_head? fun hnil =>
      hembed fun n hn => embedTier_eq_nil.mp hnil n (hperm.mem_iff.mpr hn)
  -- what an order says that starts with the prefix `p`
  have hnone : ∀ p ∈ prefixTier names, normTier p names = [] →
      e = .missingWeight "final norm tensor not found" := by
    intro p hp hnil
    obtain ⟨names', hperm, hhead⟩ := exists_prefix_first hp
    obtain ⟨n, he⟩ := hemb p names' hperm
    have hfails : discoverNames tie names' = _ := discover_noNorm hhead he
      (List.perm_nil.mp (hnil ▸ normTier_perm hperm p))
    exact Except.error.inj ((h names' hperm).symm.trans hfails)
  have hsome : ∀ p ∈ prefixTier names, normTier p names ≠ [] →
      tie = false ∧ lmHeadTier names = [] ∧ e = .missingWeight "lm_head.weight not found" := by
    intro p hp hne
    obtain ⟨names', hperm, hhead⟩ := exists_prefix_first hp
    obtain ⟨n, he⟩ := hemb p names' hperm
    obtain ⟨m, hn⟩ := exists_head? fun hnil => hne
      (List.perm_nil.mp (hnil ▸ (normTier_perm hperm p).symm))
    have hall := (h names' hperm).symm.trans (discover_head hhead he hn)
    cases tie with
    | true => cases hall
    | false =>
        cases hl : (lmHeadTier names').head? with
        | some l =>
            rw [hl] at hall
            cases hall
        | none =>
            rw [hl] at hall
            refine ⟨rfl, ?_, Except.error.inj hall⟩
            have hperm' := (lmHeadTier_perm hperm).symm
            rw [List.head?_eq_none_iff.mp hl] at hperm'
            exact List.perm_nil.mp hperm'
  by_cases hnorm : ∃ p ∈ prefixTier names, normTier p names = []
  · obtain ⟨p, hp, hnil⟩ := hnorm
    refine .inr (.inr (.inl fun q hq => by_contra fun hne => ?_))
    have htwo := (hnone p hp hnil).symm.trans (hsome q hq hne).2.2
    exact absurd (ModelError.missingWeight.inj htwo) (by decide)
  · have hne : ∀ p ∈ prefixTier names, normTier p names ≠ [] := fun p hp hnil =>
      hnorm ⟨p, hp, hnil⟩
    obtain ⟨p, hhead⟩ := exists_head? hpnil
    obtain ⟨htie, hl, -⟩ := hsome p (List.mem_of_head? hhead) (hne p (List.mem_of_head? hhead))
    exact .inr (.inr (.inr ⟨hne, htie, hl⟩))

/-- A discovery that finds the same in every order has no choice. -/
lemma settled_of_ok {d : TensorNames}
    (h : ∀ names', names'.Perm names → discoverNames tie names' = .ok d) : Settled tie names := by
  -- the first of a tier is the same in every order, and each of the tier is first in one
  have hfirst := fun names' (hperm : names'.Perm names) => discover_ok (h names' hperm)
  have hpfx : ∀ p ∈ prefixTier names, p = d.pfx := by
    intro p hp
    obtain ⟨names', hperm, hhead⟩ := exists_prefix_first hp
    exact Option.some.inj (hhead.symm.trans (hfirst names' hperm).1)
  have hembed : ∀ n ∈ embedTier d.pfx names, n = d.embedName := by
    intro n hn
    obtain ⟨names', hperm, hhead⟩ := exists_name_first hn
    exact Option.some.inj (hhead.symm.trans (hfirst names' hperm).2.1)
  have hnorm : ∀ n ∈ normTier d.pfx names, n = d.normName := by
    intro n hn
    obtain ⟨names', hperm, hhead⟩ := exists_name_first hn
    exact Option.some.inj (hhead.symm.trans (hfirst names' hperm).2.2.1)
  have hhead : tie = false → ∀ n ∈ lmHeadTier names, some n = d.lmHeadName := by
    intro htie n hn
    obtain ⟨names', hperm, hhead⟩ := exists_name_first hn
    exact hhead.symm.trans ((hfirst names' hperm).2.2.2 htie)
  refine ⟨fun p hp q hq => (hpfx p hp).trans (hpfx q hq).symm, fun p hp n hn m hm => ?_,
    fun p hp n hn m hm => ?_, fun htie n hn m hm => ?_⟩
  · obtain rfl := hpfx p hp
    exact (hembed n hn).trans (hembed m hm).symm
  · obtain rfl := hpfx p hp
    exact (hnorm n hn).trans (hnorm m hm).symm
  · exact Option.some.inj ((hhead htie n hn).trans (hhead htie m hm).symm)

/-- **The order does not matter for exactly these names.** -/
lemma orderFree_iff : (∀ a b, a.Perm names → b.Perm names →
    discoverNames tie a = discoverNames tie b) ↔ OrderFree tie names := by
  constructor
  · intro h
    have hsame := fun names' (hperm : names'.Perm names) => h names' names hperm (.refl _)
    cases hdiscover : discoverNames tie names with
    | error e => exact .inl (failsAlike_of_error fun a ha => (hsame a ha).trans hdiscover)
    | ok d => exact .inr (settled_of_ok fun a ha => (hsame a ha).trans hdiscover)
  · rintro (hfails | hsettled) a b ha hb
    · obtain ⟨e, he⟩ := hfails.discover_eq
      rw [he a ha, he b hb]
    · rw [hsettled.discover_eq ha, hsettled.discover_eq hb]

end Order

/-! ### Loading -/

section Loading

variable {env : Env} {listed : MmapBqnt → List String} {st : SafeTensorSet}
  {bqnt : Option MmapBqnt} {config : ModelConfig} {cache : Option CacheWriter}

lemma discoverQkNorm_perm {names names' : List String} (h : names'.Perm names) :
    discoverQkNorm names' = discoverQkNorm names := h.any_eq

/-- **A load that succeeds** has discovered its names. -/
lemma discover_of_loadWeights {r : LoadedModel × Option CacheWriter}
    (h : env.loadWeights st bqnt config cache = .ok r) :
    ∃ d, discoverNames config.tieWordEmbeddings (env.names st bqnt) = .ok d := by
  rw [Env.loadWeights] at h
  obtain ⟨pfx, _, hpfx, h⟩ := Program.bind_ok.mp h
  obtain ⟨embed, _, hembed, h⟩ := Program.bind_ok.mp h
  obtain ⟨norm, _, hnorm, h⟩ := Program.bind_ok.mp h
  obtain ⟨_, _, -, h⟩ := Program.bind_ok.mp h
  obtain ⟨_, _, hhead, -⟩ := Program.bind_ok.mp h
  have hhead := (Program.liftM_ok.mp hhead).1
  simp only [discoverNames, bind, Except.bind, (Program.liftM_ok.mp hpfx).1,
    (Program.liftM_ok.mp hembed).1, (Program.liftM_ok.mp hnorm).1]
  rw [Env.loadLmHead] at hhead
  cases htie : config.tieWordEmbeddings with
  | true => exact ⟨_, rfl⟩
  | false =>
      cases hl : lmHeadName (env.names st bqnt) with
      | ok l => exact ⟨_, rfl⟩
      | error e =>
          simp only [Env.discover, htie, Bool.false_eq_true, if_false, hl] at hhead
          cases hhead

lemma liftM_ok_bind {α β : Type} (a : α) (f : α → LoadM β) :
    (liftM (.ok a : Except ModelError α) : LoadM α) >>= f = f a := rfl

/-- A discovery that succeeds, step by step. -/
lemma discover_steps {tie : Bool} {names : List String} {d : TensorNames}
    (h : discoverNames tie names = .ok d) :
    discoverPrefix names = .ok d.pfx ∧ embedName d.pfx names = .ok d.embedName ∧
      normName d.pfx names = .ok d.normName := by
  obtain ⟨hp, he, hn, -⟩ := discover_ok h
  rw [discoverPrefix_eq, embedName_eq, normName_eq, hp, he, hn]
  exact ⟨rfl, rfl, rfl⟩

/-- The head that is loaded depends on the order as far as its name does. -/
lemma loadLmHead_eq {env env' : Env} {d : TensorNames}
    (h : discoverNames config.tieWordEmbeddings (env.names st bqnt) = .ok d)
    (h' : discoverNames config.tieWordEmbeddings (env'.names st bqnt) = .ok d) :
    env.loadLmHead st bqnt config = env'.loadLmHead st bqnt config := by
  rw [Env.loadLmHead, Env.loadLmHead]
  cases htie : config.tieWordEmbeddings with
  | true => rfl
  | false =>
      have hl := (discover_ok h).2.2.2 htie
      have hl' := (discover_ok h').2.2.2 htie
      rw [lmHeadName_eq, lmHeadName_eq, hl, hl']

/-- **The model does not depend on the order** of the names, where its discovery does not. -/
lemma loadWeights_listed
    (hperm : (({ env with listed } : Env).names st bqnt).Perm (env.names st bqnt))
    (hsame : discoverNames config.tieWordEmbeddings (({ env with listed } : Env).names st bqnt) =
      discoverNames config.tieWordEmbeddings (env.names st bqnt))
    (r : LoadedModel × Option CacheWriter) :
    ({ env with listed } : Env).loadWeights st bqnt config cache = .ok r ↔
      env.loadWeights st bqnt config cache = .ok r := by
  cases hdiscover : discoverNames config.tieWordEmbeddings (env.names st bqnt) with
  | error e =>
      constructor
      · intro h
        obtain ⟨d, hd⟩ := discover_of_loadWeights h
        rw [hsame, hdiscover] at hd
        cases hd
      · intro h
        obtain ⟨d, hd⟩ := discover_of_loadWeights h
        rw [hdiscover] at hd
        cases hd
  | ok d =>
      obtain ⟨hp, he, hn⟩ := discover_steps hdiscover
      obtain ⟨hp', he', hn'⟩ := discover_steps (hsame.trans hdiscover)
      have hconfig : ({ env with listed } : Env).discover st bqnt config d.pfx =
          env.discover st bqnt config d.pfx := by
        rw [Env.discover, Env.discover, discoverQkNorm_perm hperm]
      have hhead : ({ env with listed } : Env).loadLmHead st bqnt
            (env.discover st bqnt config d.pfx) =
          env.loadLmHead st bqnt (env.discover st bqnt config d.pfx) :=
        loadLmHead_eq (hsame.trans hdiscover) hdiscover
      have hload : ({ env with listed } : Env).loadWeights st bqnt config =
          env.loadWeights st bqnt config := by
        simp only [Env.loadWeights, hp, hp', liftM_ok_bind, he, he', hn, hn', hconfig, hhead]
      rw [hload]

end Loading

/-- **Discovery and the order of the names.**  It finds the same prefix and the same names, or
fails with the same error, for every order, exactly if it fails before there is a choice or never
has one; then a load builds the same model for every order. -/
theorem discovery_iff (tie : Bool) (names : List String) :
    ((∀ a b, a.Perm names → b.Perm names → discoverNames tie a = discoverNames tie b) ↔
      OrderFree tie names) ∧
    (OrderFree tie names → ∀ (env : Env) (listed : MmapBqnt → List String) (st : SafeTensorSet)
      (bqnt : Option MmapBqnt) (config : ModelConfig) (cache : Option CacheWriter),
      config.tieWordEmbeddings = tie → (env.names st bqnt).Perm names →
      (({ env with listed } : Env).names st bqnt).Perm names → ∀ r,
        ({ env with listed } : Env).loadWeights st bqnt config cache = .ok r ↔
          env.loadWeights st bqnt config cache = .ok r) := by
  refine ⟨orderFree_iff, ?_⟩
  rintro hfree env listed st bqnt config cache rfl hnames hlisted r
  exact loadWeights_listed (hlisted.trans hnames.symm)
    (orderFree_iff.mpr hfree _ _ hlisted hnames) r

/-- A vision tower whose prefix contains "model" has a first layer, too. -/
theorem discovery_differs : ¬ ∀ (tie : Bool) (names a b : List String), a.Perm names →
    b.Perm names → discoverNames tie a = discoverNames tie b := by
  intro h
  let text := "language_model.model.layers.0.mlp.up_proj.weight"
  let vision := "vision_tower.vision_model.encoder.layers.0.mlp.fc1.weight"
  let others := ["language_model.model.embed_tokens.weight", "language_model.model.norm.weight"]
  have hsame := h true (text :: vision :: others) _ (vision :: text :: others) (.refl _)
    (List.Perm.swap text vision others)
  revert hsame
  decide +kernel

end Braidinfer.Loader
