/-
Choosing a token from logits (`sampling.rs`), over any type of floats.

A panic is `none`: the top-p filter indexes the first of the tokens that are left, and a sort may
refuse an order.

* `addBias`, `penalize`, `scale`: the logits are adjusted;
* `topK`, `minP`, `topP`: and filtered, a filtered token having the logit −∞;
* `sample`: the token that a random number picks;
* `argmax`: the token with the largest logit.
-/
import Braidinfer.Lib.ExactFloat

namespace Braidinfer.Generate

open Braidinfer.Lib

/-- `SamplingParams`; the seed is the state of the random numbers. -/
structure SamplingParams (α : Type) where
  temperature : α
  topK : ℕ
  topP : α
  repetitionPenalty : α
  minP : α
  logitBias : Option (List (UInt32 × α))

section

variable {α : Type} (ops : FloatOps α)

/-- `SamplingParams::greedy` -/
def SamplingParams.greedy : SamplingParams α where
  temperature := ops.zero
  topK := 0
  topP := ops.one
  repetitionPenalty := ops.one
  minP := ops.zero
  logitBias := none

/-- `max_by`: the last of the largest. -/
def maxBy {β : Type} (cmp : β → β → Ordering) : List β → Option β
  | [] => none
  | b :: bs => some (bs.foldl (fun best b => if cmp best b = .gt then best else b) b)

/-- `argmax` -/
def argmax (v : List α) : UInt32 :=
  ((maxBy (fun a b => (ops.partialCmp a.1 b.1).getD .eq) v.zipIdx).map
    fun p => UInt32.ofNat p.2).getD 0

/-! ### Adjusting -/

/-- Additive bias; ids that are no tokens are skipped. -/
def addBias (biases : Option (List (UInt32 × α))) (logits : List α) : List α :=
  (biases.getD []).foldl
    (fun logits bias => logits.modify bias.1.toNat fun v => ops.add v bias.2) logits

/-- The penalty of one occurrence. -/
def penalty (r v : α) : α := if ops.lt ops.zero v then ops.div v r else ops.mul v r

/-- Repetition penalty, once for each occurrence in the history. -/
def penalize (r : α) (history : List UInt32) (logits : List α) : List α :=
  if ops.eq r ops.one then logits
  else history.foldl (fun logits tok => logits.modify tok.toNat (penalty ops r)) logits

/-- Temperature scaling. -/
def scale (temperature : α) (logits : List α) : List α :=
  logits.map fun v => ops.div v temperature

/-! ### Filtering -/

/-- The order by falling logits. -/
def falling (a b : α) : Ordering := (ops.partialCmp b a).getD .eq

/-- The tokens `out` are filtered out. -/
def filterOut (out : List ℕ) (logits : List α) : List α :=
  out.foldl (fun logits i => logits.set i ops.negInf) logits

variable (sort : UnstableSort)

/-- Top-k filtering. -/
def topK (k : ℕ) (logits : List α) : Option (List α) :=
  if 0 < k ∧ k < logits.length then do
    let indices ← sort.run
      (fun a b => falling ops (logits.getD a ops.negInf) (logits.getD b ops.negInf))
      (List.range logits.length)
    return filterOut ops (indices.drop k) logits
  else some logits

/-- Min-p filtering. -/
def minP (p : α) (logits : List α) : List α :=
  if ops.lt ops.zero p then
    let maxLogit := ops.maximum logits
    let threshold := ops.mul p (ops.exp (ops.sub maxLogit maxLogit))
    logits.map fun v =>
      if ops.lt ops.negInf v && ops.lt (ops.exp (ops.sub v maxLogit)) threshold then ops.negInf
      else v
  else logits

/-- The weights relative to the largest logit, divided by their sum. -/
def normalize (maxV : α) (logits : List α) : List α :=
  let probs := logits.map fun v => ops.exp (ops.sub v maxV)
  probs.map fun p => ops.div p (ops.sum probs)

/-- `cutoff_idx`, from index `i` with the sum `cumsum` on. -/
def cutoff (p : α) : α → ℕ → List α → ℕ
  | _, i, [] => i
  | cumsum, i, prob :: probs =>
      if ops.le p (ops.add cumsum prob) then i + 1
      else cutoff p (ops.add cumsum prob) (i + 1) probs

/-- Top-p filtering. -/
def topP (p : α) (logits : List α) : Option (List α) :=
  if ops.lt p ops.one then do
    let indexed ← sort.run (fun a b => falling ops a.1 b.1)
      (logits.zipIdx.filter fun v => ops.lt ops.negInf v.1)
    let first ← indexed.head?
    let probs := normalize ops first.1 (indexed.map Prod.fst)
    return filterOut ops ((indexed.drop (cutoff ops p ops.zero 0 probs)).map Prod.snd) logits
  else some logits

/-! ### Choosing -/

variable (params : SamplingParams α) (history : List UInt32) (logits : List α)

/-- The logits before they are filtered. -/
def adjust : List α :=
  scale ops params.temperature
    (penalize ops params.repetitionPenalty history (addBias ops params.logitBias logits))

/-- The logits after the three filters. -/
def filters (adjusted : List α) : Option (List α) := do
  let logits ← topK ops sort params.topK adjusted
  topP ops sort params.topP (minP ops params.minP logits)

/-- The first token at which the sum of the probabilities reaches `u`, from token `i` with the sum
`cumsum` on. -/
def walk (u : α) : α → ℕ → List α → Option ℕ
  | _, _, [] => none
  | cumsum, i, prob :: probs =>
      if ops.le u (ops.add cumsum prob) then some i
      else walk u (ops.add cumsum prob) (i + 1) probs

/-- The categorical sample of filtered logits. -/
def categorical (u : α) (filtered : List α) : UInt32 :=
  let probs := normalize ops (ops.maximum filtered) filtered
  ((walk ops u ops.zero 0 probs).map UInt32.ofNat).getD (argmax ops probs)

/-- `sample`; `gen` draws a random number. -/
def sample {R : Type} (gen : R → α × R) (rng : R) : Option (UInt32 × R) :=
  let biased := addBias ops params.logitBias logits
  let penalized := penalize ops params.repetitionPenalty history biased
  if ops.eq params.temperature ops.zero then some (argmax ops penalized, rng)
  else do
    let filtered ← filters ops sort params (scale ops params.temperature penalized)
    let (u, rng) := gen rng
    return (categorical ops u filtered, rng)

end

end Braidinfer.Generate
