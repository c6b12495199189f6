/-
Generating tokens (`generate` in `sampling.rs`, `generate_from_ids` in `generate.rs`).

A model is seen from the outside: its logits depend on the tokens, with their positions, that it
was fed.  A run leaves a trace of what was fed and what was chosen.

* `Feeding`, `decodeStep`, `prefill`: feeding a model;
* `generate`, `generateFromIds`: the two loops;
* `FeedsOnce`: every token is fed once, at its position, and chosen after the tokens before it;
* `generateFromIds_feedsOnce`: **`generate_from_ids` does**, as far as positions have 32 bits;
* `generate_not_feedsOnce`: **`generate` does not**, it feeds the last token of the prompt twice;
* `feedsEachOnce_iff`: exactly when both do.
-/
import Braidinfer.Generate.Sampling
import Mathlib.Analysis.SpecialFunctions.Exp

namespace Braidinfer.Generate

open Braidinfer.Lib

/-! ### Feeding a model -/

/-- What happens in a run. -/
inductive Event
  | feed (token position : UInt32)
  | chose (token : UInt32)
deriving DecidableEq, Repr

/-- What a model was fed. -/
def fed (events : List Event) : List (UInt32 × UInt32) :=
  events.filterMap fun e => match e with
    | .feed token position => some (token, position)
    | .chose _ => none

/-- The tokens that were chosen. -/
def choices (events : List Event) : List UInt32 :=
  events.filterMap fun e => match e with
    | .feed _ _ => none
    | .chose token => some token

/-- A run so far, and the `seq_len` of the model. -/
structure Feeding where
  events : List Event
  seqLen : UInt32

namespace Feeding

/-- A fresh model. -/
def fresh : Feeding := ⟨[], 0⟩

variable (s : Feeding)

/-- One token is fed. -/
def feed (token position : UInt32) : Feeding := ⟨s.events ++ [.feed token position], position + 1⟩

/-- One token is chosen. -/
def chose (token : UInt32) : Feeding := { s with events := s.events ++ [.chose token] }

/-- Tokens are fed from a position on. -/
def feedFrom : Feeding → UInt32 → List UInt32 → Feeding
  | s, _, [] => s
  | s, position, token :: tokens => (s.feed token position).feedFrom (position + 1) tokens

end Feeding

section

variable {α : Type} (ops : FloatOps α) (logits : List (UInt32 × UInt32) → List α)

/-- `decode_step` -/
def decodeStep (s : Feeding) (token position : UInt32) : List α × Feeding :=
  (logits (fed (s.feed token position).events), s.feed token position)

/-- `prefill`: the tokens are fed behind those that the model has. -/
def prefill (s : Feeding) (tokens : List UInt32) : List α × Feeding :=
  (logits (fed (s.feedFrom s.seqLen tokens).events), s.feedFrom s.seqLen tokens)

/-- `decode_step_token`: a panic without logits. -/
def decodeStepToken (s : Feeding) (token position : UInt32) : Option UInt32 × Feeding :=
  let (v, s) := decodeStep logits s token position
  ((maxBy (fun a b => (ops.partialCmp a.1 b.1).getD .lt) v.zipIdx).map
    fun p => UInt32.ofNat p.2, s)

/-! ### The two loops -/

section Generate

variable (sort : UnstableSort) {R : Type} (gen : R → α × R) (params : SamplingParams α)
  (stopTokens : List UInt32)

/-- The loop of `generate`: `n` rounds from round `i` on. -/
def generateLoop (nPrompt : ℕ) :
    ℕ → ℕ → List UInt32 → List UInt32 → R → Feeding → Option (List UInt32) × Feeding
  | 0, _, _, generated, _, s => (some generated, s)
  | n + 1, i, tokens, generated, rng, s =>
      match tokens.getLast? with
      | none => (none, s)
      | some lastTok =>
          let (v, s) := decodeStep logits s lastTok (UInt32.ofNat (nPrompt + i))
          match sample ops sort params tokens v gen rng with
          | none => (none, s)
          | some (next, rng) =>
              let s := s.chose next
              if next ∈ stopTokens then (some (generated ++ [next]), s)
              else generateLoop nPrompt n (i + 1) (tokens ++ [next]) (generated ++ [next]) rng s

/-- `generate`, with the state of the random numbers. -/
def generate (promptTokens : List UInt32) (maxNewTokens : ℕ) (rng : R) :
    Option (List UInt32) × Feeding :=
  if promptTokens.length = 0 then (some [], .fresh)
  else generateLoop ops logits sort gen params stopTokens promptTokens.length maxNewTokens 0
    promptTokens [] rng (Feeding.fresh.feedFrom 0 promptTokens)

end Generate

section FromIds

variable (stopTokens : List UInt32) (trace : Bool)

/-- The next token, with or without the trace of the logits. -/
def nextToken (s : Feeding) (token position : UInt32) : Option UInt32 × Feeding :=
  if trace then
    let (v, s) := decodeStep logits s token position
    (some (argmax ops v), s)
  else decodeStepToken ops logits s token position

/-- The loop of `generate_from_ids`. -/
def fromIdsLoop : ℕ → UInt32 → UInt32 → List UInt32 → Feeding → Option (List UInt32) × Feeding
  | 0, _, _, tokens, s => (some tokens, s)
  | n + 1, next, position, tokens, s =>
      if next ∈ stopTokens then (some tokens, s)
      else
        match nextToken ops logits trace s next position with
        | (none, s) => (none, s)
        | (some next', s) => fromIdsLoop n next' (position + 1) (tokens ++ [next]) (s.chose next')

/-- `generate_from_ids`, up to the texts of the tokens. -/
def generateFromIds (promptIds : List UInt32) (maxTokens : ℕ) : Option (List UInt32) × Feeding :=
  match promptIds with
  | [] => (some [], .fresh)
  | token :: rest =>
      let (lastLogits, s) := if rest.length = 0 then decodeStep logits .fresh token 0
        else prefill logits .fresh (token :: rest)
      let next := argmax ops lastLogits
      fromIdsLoop ops logits stopTokens trace maxTokens next (UInt32.ofNat (rest.length + 1)) []
        (s.chose next)

end FromIds

end

/-! ### Every token once -/

/-- What was fed, with the positions as numbers. -/
def feeds (events : List Event) : List (UInt32 × ℕ) :=
  (fed events).map fun p => (p.1, p.2.toNat)

/-- Every token was chosen after exactly the tokens in front of it were fed. -/
def ChosenInTurn (prompt : List UInt32) (events : List Event) : Prop :=
  ∀ before token after, events = before ++ .chose token :: after →
    feeds before = (prompt ++ choices before).zipIdx

/-- The tokens of the prompt and those that were generated are fed in order, each once and at its
position, and each was chosen in its turn. -/
structure FeedsOnce (prompt : List UInt32) (events : List Event) : Prop where
  inOrder : feeds events <+: (prompt ++ choices events).zipIdx
  inTurn : ChosenInTurn prompt events

section Traces

variable {prompt : List UInt32} {events more : List Event}

lemma feeds_append (events more : List Event) :
    feeds (events ++ more) = feeds events ++ feeds more := by
  rw [feeds, fed, List.filterMap_append, List.map_append]
  rfl

lemma choices_append (events more : List Event) :
    choices (events ++ more) = choices events ++ choices more := List.filterMap_append

lemma feeds_feed (token position : UInt32) :
    feeds [.feed token position] = [(token, position.toNat)] := rfl

lemma choices_feed (token position : UInt32) : choices [.feed token position] = [] := rfl

lemma feeds_chose (token : UInt32) : feeds [.chose token] = [] := rfl

lemma choices_chose (token : UInt32) : choices [.chose token] = [token] := rfl

/-- One more event, if a token is chosen in its turn. -/
lemma ChosenInTurn.snoc (h : ChosenInTurn prompt events) (e : Event)
    (he : ∀ token, e = .chose token → feeds events = (prompt ++ choices events).zipIdx) :
    ChosenInTurn prompt (events ++ [e]) := by
  intro before token after heq
  rcases List.eq_nil_or_concat after with rfl | ⟨after, last, rfl⟩
  · obtain ⟨rfl, hlast⟩ := List.append_inj' heq rfl
    exact he token (List.cons.inj hlast).1
  · have hcons : before ++ .chose token :: after.concat last =
        (before ++ .chose token :: after) ++ [last] := by simp
    rw [hcons] at heq
    exact h before token after (List.append_inj' heq rfl).1

/-- Positions have 32 bits, so no more tokens are fed in order. -/
lemma FeedsOnce.length_le (h : FeedsOnce prompt events) : (feeds events).length ≤ 2 ^ 32 := by
  by_contra hnot
  rw [not_le] at hnot
  have hget := h.inOrder.getElem hnot
  rw [List.getElem_zipIdx] at hget
  obtain ⟨p, -, hp⟩ := List.mem_map.mp (List.getElem_mem hnot)
  rw [← hp] at hget
  have hposition := congrArg Prod.snd hget
  have hlt := p.2.toNat_lt
  simp only [Nat.zero_add] at hposition
  omega

/-- A token that is chosen late spoils the trace. -/
lemma not_chosenInTurn {before after : List Event} {token : UInt32}
    (hlen : (prompt ++ choices before).length < (feeds before).length) :
    ¬ ChosenInTurn prompt (before ++ .chose token :: after) := by
  intro h
  have heq := congrArg List.length (h before token after rfl)
  rw [List.length_zipIdx] at heq
  omega

end Traces

/-! ### Feeding a list -/

section

variable {s : Feeding} {position : UInt32} {tokens : List UInt32}

lemma choices_feedFrom (tokens : List UInt32) : ∀ (s : Feeding) (position : UInt32),
    choices (s.feedFrom position tokens).events = choices s.events := by
  induction tokens with
  | nil => exact fun s position => rfl
  | cons token tokens ih =>
      intro s position
      rw [Feeding.feedFrom, ih, Feeding.feed, choices_append, choices_feed, List.append_nil]

lemma length_feeds_feedFrom (tokens : List UInt32) : ∀ (s : Feeding) (position : UInt32),
    (feeds (s.feedFrom position tokens).events).length =
      (feeds s.events).length + tokens.length := by
  induction tokens with
  | nil => exact fun s position => rfl
  | cons token tokens ih =>
      intro s position
      rw [Feeding.feedFrom, ih, Feeding.feed, feeds_append, feeds_feed, List.length_append,
        List.length_singleton, List.length_cons]
      omega

/-- As long as positions have 32 bits, tokens are fed at consecutive positions. -/
lemma feeds_feedFrom (tokens : List UInt32) : ∀ (s : Feeding) (position : UInt32),
    position.toNat + tokens.length ≤ 2 ^ 32 →
      feeds (s.feedFrom position tokens).events =
        feeds s.events ++ tokens.zipIdx position.toNat := by
  induction tokens with
  | nil => exact fun s position _ => (List.append_nil _).symm
  | cons token tokens ih =>
      intro s position hfits
      rw [List.length_cons] at hfits
      rw [Feeding.feedFrom]
      cases tokens with
      | nil => rw [Feeding.feedFrom, Feeding.feed, feeds_append]; rfl
      | cons next rest =>
          rw [List.length_cons] at hfits ih
          have hnext : (position + 1).toNat = position.toNat + 1 := by
            rw [UInt32.toNat_add, UInt32.toNat_one, Nat.mod_eq_of_lt (by omega)]
          rw [ih _ _ (by omega), hnext, Feeding.feed, feeds_append, List.append_assoc]
          rfl

/-- Feeding chooses nothing. -/
lemma chosenInTurn_feedFrom {prompt : List UInt32} (tokens : List UInt32) :
    ∀ (s : Feeding) (position : UInt32), ChosenInTurn prompt s.events →
      ChosenInTurn prompt (s.feedFrom position tokens).events := by
  induction tokens with
  | nil => exact fun s position h => h
  | cons token tokens ih => exact fun s position h => ih _ _ (h.snoc _ fun t ht => by cases ht)

end

/-! ### `generate_from_ids` -/

section

variable {α : Type} (ops : FloatOps α) (logits : List (UInt32 × UInt32) → List α)
  (stopTokens : List UInt32) (trace : Bool) {prompt : List UInt32}

lemma nextToken_snd (s : Feeding) (token position : UInt32) :
    (nextToken ops logits trace s token position).2 = s.feed token position := by
  cases trace with
  | true => rfl
  | false => rfl

lemma zipIdx_snoc (l : List UInt32) (token : UInt32) :
    (l ++ [token]).zipIdx = l.zipIdx ++ [(token, l.length)] := by
  rw [List.zipIdx_append, Nat.zero_add]
  rfl

lemma zipIdx_prefix (l m : List UInt32) : l.zipIdx <+: (l ++ m).zipIdx := by
  rw [List.zipIdx_append]
  exact List.prefix_append _ _

/-- **The loop of `generate_from_ids`** feeds what it chose, in turn. -/
lemma fromIdsLoop_feedsOnce (n : ℕ) : ∀ (next : UInt32) (tokens : List UInt32) (s : Feeding),
    feeds s.events = (prompt ++ tokens).zipIdx → choices s.events = tokens ++ [next] →
    ChosenInTurn prompt s.events → (prompt ++ tokens).length + n ≤ 2 ^ 32 →
      FeedsOnce prompt (fromIdsLoop ops logits stopTokens trace n next
        (UInt32.ofNat (prompt ++ tokens).length) tokens s).2.events := by
  induction n with
  | zero =>
      intro next tokens s hfeeds hchoices hturn _
      refine ⟨?_, hturn⟩
      rw [fromIdsLoop, hfeeds, hchoices, ← List.append_assoc]
      exact zipIdx_prefix _ _
  | succ n ih =>
      intro next tokens s hfeeds hchoices hturn hfits
      rw [fromIdsLoop]
      split
      · refine ⟨?_, hturn⟩
        rw [hfeeds, hchoices, ← List.append_assoc]
        exact zipIdx_prefix _ _
      · have hsnd := nextToken_snd ops logits trace s next (UInt32.ofNat (prompt ++ tokens).length)
        have hposition : (UInt32.ofNat (prompt ++ tokens).length).toNat =
            (prompt ++ tokens).length := by
          rw [UInt32.toNat_ofNat', Nat.mod_eq_of_lt (by omega)]
        have hfeeds' : feeds (s.feed next (UInt32.ofNat (prompt ++ tokens).length)).events =
            (prompt ++ (tokens ++ [next])).zipIdx := by
          rw [Feeding.feed, feeds_append, feeds_feed, hfeeds, hposition, ← List.append_assoc,
            zipIdx_snoc]
        have hturn' : ChosenInTurn prompt
            (s.feed next (UInt32.ofNat (prompt ++ tokens).length)).events :=
          hturn.snoc _ fun t ht => by cases ht
        have hchoices' : choices (s.feed next (UInt32.ofNat (prompt ++ tokens).length)).events =
            tokens ++ [next] := by
          rw [Feeding.feed, choices_append, choices_feed, List.append_nil, hchoices]
        split
        · rename_i s' heq
          obtain rfl : s' = s.feed next (UInt32.ofNat (prompt ++ tokens).length) := by
            rw [← hsnd, heq]
          have hall : feeds (s.feed next (UInt32.ofNat (prompt ++ tokens).length)).events =
              (prompt ++ choices
                (s.feed next (UInt32.ofNat (prompt ++ tokens).length)).events).zipIdx := by
            rw [hfeeds', hchoices']
          exact ⟨hall ▸ List.prefix_rfl, hturn'⟩
        · rename_i next' s' heq
          obtain rfl : s' = s.feed next (UInt32.ofNat (prompt ++ tokens).length) := by
            rw [← hsnd, heq]
          have hlen : UInt32.ofNat (prompt ++ tokens).length + 1 =
              UInt32.ofNat (prompt ++ (tokens ++ [next])).length := by
            have hsnoc : (prompt ++ (tokens ++ [next])).length = (prompt ++ tokens).length + 1 := by
              rw [← List.append_assoc, List.length_append, List.length_singleton]
            rw [hsnoc, UInt32.ofNat_add]
            rfl
          rw [hlen]
          refine ih next' (tokens ++ [next]) _ ?_ ?_ ?_ ?_
          · rw [Feeding.chose, feeds_append, feeds_chose, List.append_nil, hfeeds']
          · rw [Feeding.chose, choices_append, choices_chose, hchoices']
          · refine hturn'.snoc _ fun t _ => ?_
            rw [hfeeds', hchoices']
          · rw [← List.append_assoc, List.length_append, List.length_singleton]
            omega

/-- **`generate_from_ids` feeds every token once**, as far as positions have 32 bits. -/
lemma generateFromIds_feedsOnce {maxTokens : ℕ} (hfits : prompt.length + maxTokens ≤ 2 ^ 32) :
    FeedsOnce prompt (generateFromIds ops logits stopTokens trace prompt maxTokens).2.events := by
  cases prompt with
  | nil => exact ⟨List.nil_prefix, fun before token after h => by cases before <;> cases h⟩
  | cons token rest =>
      have hstate : (if rest.length = 0 then decodeStep logits .fresh token 0
          else prefill logits .fresh (token :: rest)).2 =
            Feeding.fresh.feedFrom 0 (token :: rest) := by
        split
        · rename_i hrest
          rw [List.length_eq_zero_iff] at hrest
          rw [hrest]
          rfl
        · rfl
      have hfeeds : feeds (Feeding.fresh.feedFrom 0 (token :: rest)).events =
          (token :: rest).zipIdx := feeds_feedFrom _ .fresh 0 (by
        rw [UInt32.toNat_zero]
        omega)
      have hchoices : choices (Feeding.fresh.feedFrom 0 (token :: rest)).events = [] :=
        choices_feedFrom _ .fresh 0
      have hturn : ChosenInTurn (token :: rest)
          (Feeding.fresh.feedFrom 0 (token :: rest)).events :=
        chosenInTurn_feedFrom _ .fresh 0 fun before token after h => by cases before <;> cases h
      have hloop := fun next => fromIdsLoop_feedsOnce ops logits stopTokens trace maxTokens next []
        ((Feeding.fresh.feedFrom 0 (token :: rest)).chose next)
        (by rw [Feeding.chose, feeds_append, feeds_chose, List.append_nil, List.append_nil, hfeeds])
        (by rw [Feeding.chose, choices_append, hchoices]; rfl)
        (hturn.snoc _ fun t _ => by rw [hfeeds, hchoices, List.append_nil])
        (by rw [List.append_nil]; exact hfits)
      rw [List.append_nil] at hloop
      rw [generateFromIds]
      simp only [hstate]
      exact hloop _

end

/-! ### `generate` -/

section

variable {α : Type} (ops : FloatOps α) (logits : List (UInt32 × UInt32) → List α)
  (sort : UnstableSort) {R : Type} (gen : R → α × R) (params : SamplingParams α)
  (stopTokens : List UInt32)

/-- The loop only adds to the trace. -/
lemma generateLoop_events (nPrompt n : ℕ) :
    ∀ (i : ℕ) (tokens generated : List UInt32) (rng : R) (s : Feeding), ∃ more,
      (generateLoop ops logits sort gen params stopTokens nPrompt n i tokens generated rng s).2.events =
        s.events ++ more := by
  induction n with
  | zero => exact fun i tokens generated rng s => ⟨[], (List.append_nil _).symm⟩
  | succ n ih =>
      intro i tokens generated rng s
      rw [generateLoop]
      split
      · exact ⟨[], (List.append_nil _).symm⟩
      · rename_i lastTok _
        simp only [decodeStep]
        split
        · exact ⟨_, rfl⟩
        · rename_i next rng' _
          split
          · exact ⟨_, List.append_assoc _ _ _⟩
          · obtain ⟨more, hmore⟩ := ih (i + 1) (tokens ++ [next]) (generated ++ [next]) rng'
              ((s.feed lastTok (UInt32.ofNat (nPrompt + i))).chose next)
            refine ⟨[.feed lastTok (UInt32.ofNat (nPrompt + i))] ++ ([.chose next] ++ more),
              hmore.trans ?_⟩
            rw [Feeding.chose, Feeding.feed, List.append_assoc, List.append_assoc]

/-- **The first round feeds the last token again**, before anything is chosen. -/
lemma generateLoop_first (nPrompt n i : ℕ) (tokens generated : List UInt32) (rng : R) (s : Feeding)
    {lastTok : UInt32} (hlast : tokens.getLast? = some lastTok) :
    (generateLoop ops logits sort gen params stopTokens nPrompt (n + 1) i tokens generated rng
        s).2.events = s.events ++ [.feed lastTok (UInt32.ofNat (nPrompt + i))] ∨
      ∃ next more, (generateLoop ops logits sort gen params stopTokens nPrompt (n + 1) i tokens
        generated rng s).2.events =
          s.events ++ [.feed lastTok (UInt32.ofNat (nPrompt + i))] ++ .chose next :: more := by
  rw [generateLoop]
  simp only [hlast, decodeStep]
  split
  · exact .inl rfl
  · rename_i next rng' _
    split
    · exact .inr ⟨next, [], rfl⟩
    · obtain ⟨more, hmore⟩ := generateLoop_events ops logits sort gen params stopTokens nPrompt n
        (i + 1) (tokens ++ [next]) (generated ++ [next]) rng'
        ((s.feed lastTok (UInt32.ofNat (nPrompt + i))).chose next)
      refine .inr ⟨next, more, hmore.trans ?_⟩
      rw [Feeding.chose, Feeding.feed, List.append_assoc _ [Event.chose next]]
      rfl

/-- **`generate` does not feed every token once**, unless it generates nothing. -/
lemma generate_not_feedsOnce {prompt : List UInt32} {maxNewTokens : ℕ} (rng : R)
    (hprompt : prompt ≠ []) (hmax : maxNewTokens ≠ 0) : ¬ FeedsOnce prompt
      (generate ops logits sort gen params stopTokens prompt maxNewTokens rng).2.events := by
  obtain ⟨n, rfl⟩ := Nat.exists_eq_succ_of_ne_zero hmax
  obtain ⟨lastTok, hlast⟩ := Option.isSome_iff_exists.mp (List.getLast?_isSome.mpr hprompt)
  have hlen : (prompt ++ choices ((Feeding.fresh.feedFrom 0 prompt).events ++
      [.feed lastTok (UInt32.ofNat (prompt.length + 0))])).length <
        (feeds ((Feeding.fresh.feedFrom 0 prompt).events ++
          [.feed lastTok (UInt32.ofNat (prompt.length + 0))])).length := by
    have hchoices : choices (Feeding.fresh.feedFrom 0 prompt).events = [] :=
      choices_feedFrom prompt .fresh 0
    have hfeeds : (feeds (Feeding.fresh.feedFrom 0 prompt).events).length = 0 + prompt.length :=
      length_feeds_feedFrom prompt .fresh 0
    rw [choices_append, choices_feed, hchoices, feeds_append, feeds_feed]
    simp only [List.length_append, hfeeds, List.length_nil, List.length_singleton]
    omega
  rw [generate, if_neg (by simpa using hprompt)]
  rcases generateLoop_first ops logits sort gen params stopTokens prompt.length n 0 prompt [] rng
    (Feeding.fresh.feedFrom 0 prompt) hlast with hfirst | ⟨next, more, hfirst⟩
  · intro h
    rw [hfirst] at h
    have hle := h.inOrder.length_le
    rw [List.length_zipIdx] at hle
    omega
  · intro h
    rw [hfirst] at h
    exact not_chosenInTurn hlen h.inTurn

end

/-! ### Both -/

section

variable {α : Type} (ops : FloatOps α) (logits : List (UInt32 × UInt32) → List α)
  (sort : UnstableSort) {R : Type} (gen : R → α × R) (rng : R) (params : SamplingParams α)
  (stopTokens : List UInt32) (trace : Bool) (prompt : List UInt32) (maxNewTokens : ℕ)

/-- Both functions feed every token once, so that with greedy parameters they return the same
tokens up to the first stop token. -/
structure FeedsEachOnce : Prop where
  generate : FeedsOnce prompt
    (generate ops logits sort gen params stopTokens prompt maxNewTokens rng).2.events
  fromIds : FeedsOnce prompt
    (generateFromIds ops logits stopTokens trace prompt maxNewTokens).2.events
  greedy : params = .greedy ops →
    (Generate.generate ops logits sort gen params stopTokens prompt maxNewTokens rng).1.map
        (List.takeWhile (· ∉ stopTokens)) =
      (generateFromIds ops logits stopTokens trace prompt maxNewTokens).1.map
        (List.takeWhile (· ∉ stopTokens))

/-- **Both feed every token once** if and only if nothing is to be generated, and the positions of
the prompt have 32 bits. -/
theorem feedsEachOnce_iff :
    FeedsEachOnce ops logits sort gen rng params stopTokens trace prompt maxNewTokens ↔
      prompt = [] ∨ maxNewTokens = 0 ∧ prompt.length ≤ 2 ^ 32 := by
  constructor
  · intro h
    by_cases hprompt : prompt = []
    · exact .inl hprompt
    · by_cases hmax : maxNewTokens = 0
      · subst hmax
        refine .inr ⟨rfl, ?_⟩
        have hlen := h.generate.length_le
        rw [Generate.generate, if_neg (by simpa using hprompt), generateLoop,
          length_feeds_feedFrom] at hlen
        exact (Nat.zero_add _).symm.le.trans hlen
      · exact absurd h.generate (generate_not_feedsOnce ops logits sort gen params stopTokens rng
          hprompt hmax)
  · intro h
    have hnil : ChosenInTurn prompt [] := fun before token after h => by cases before <;> cases h
    rcases h with rfl | ⟨rfl, hlen⟩
    · exact ⟨⟨List.nil_prefix, hnil⟩, ⟨List.nil_prefix, hnil⟩, fun _ => rfl⟩
    · refine ⟨?_, generateFromIds_feedsOnce ops logits stopTokens trace hlen, fun _ => ?_⟩
      · by_cases hprompt : prompt.length = 0
        · rw [Generate.generate, if_pos hprompt]
          exact ⟨List.nil_prefix, hnil⟩
        · rw [Generate.generate, if_neg hprompt, generateLoop]
          refine ⟨?_, chosenInTurn_feedFrom prompt .fresh 0 hnil⟩
          have hfeeds : feeds (Feeding.fresh.feedFrom 0 prompt).events = prompt.zipIdx :=
            feeds_feedFrom prompt .fresh 0 (by rw [UInt32.toNat_zero, Nat.zero_add]; exact hlen)
          rw [hfeeds]
          exact zipIdx_prefix _ _
      · have hgenerate : (Generate.generate ops logits sort gen params stopTokens prompt 0 rng).1 =
            some [] := by
          rw [Generate.generate]
          split
          · rfl
          · rfl
        have hfromIds : (generateFromIds ops logits stopTokens trace prompt 0).1 = some [] := by
          cases prompt with
          | nil => rfl
          | cons token rest => rfl
        rw [hgenerate, hfromIds]

end

/-- With a prompt of one token and one token to generate, `generate` feeds the prompt twice. -/
theorem not_feedsEachOnce_one : ¬ FeedsEachOnce (Exact.ops Real.exp) (fun _ => [.fin 0, .fin 1])
    .merge (fun u : ℝ => (.fin u, u)) 0 (.greedy (Exact.ops Real.exp)) [] false [7] 1 := by
  intro h
  exact generate_not_feedsOnce _ _ _ _ _ _ 0 (List.cons_ne_nil 7 []) one_ne_zero h.generate

end Braidinfer.Generate
