/-
The online softmax of the paged attention kernels (`kernels/megakernel_ops.hip`,
`op_attn_paged` and `op_attn_paged_quant`).

Both kernels walk their tokens chunk by chunk from a rotated start.  The quantized one writes
the state it ends in to a scratch buffer, from which the f32 one goes on.  The scores and the
values of the tokens are arbitrary, by chunk and place.

* `visits_perm`: **a kernel visits each of its tokens exactly once**;
* `attnLoop_summarizes`: what the loop adds to the sums it starts from;
* `opAttnPaged_eq_softmax`: **the two kernels together compute softmax attention**, whatever
  the rotations and wherever the tokens are split between them.
-/
import Mathlib.Analysis.SpecialFunctions.Exp
import Braidinfer.Lib.ChunkWalk
import Braidinfer.Lib.OnlineSoftmax

namespace Braidinfer.Megakernel

open Braidinfer.Lib

variable {K : Type*} [Field K] [LinearOrder K] {hd : ℕ}

/-! ### The kernels -/

/-- The chunks that block `blockIdx` walks: `(iter + rotation_offset) % num_chunks`. -/
def rotatedChunks (numChunks blockIdx : ℕ) : List ℕ :=
  let rotationOffset := if 0 < numChunks then blockIdx % numChunks else 0
  (List.range numChunks).map fun iter => (iter + rotationOffset) % numChunks

/-- `tokens_in_chunk`. -/
def tokensInChunk (seqLen chunkTokens c : ℕ) : ℕ :=
  let numChunks := (seqLen + chunkTokens - 1) / chunkTokens
  if c = numChunks - 1 then seqLen - c * chunkTokens else chunkTokens

/-- The token indices in the order in which a kernel visits them. -/
def visits (seqLen chunkTokens blockIdx : ℕ) : List ℕ :=
  (rotatedChunks ((seqLen + chunkTokens - 1) / chunkTokens) blockIdx).flatMap fun c =>
    (List.range (tokensInChunk seqLen chunkTokens c)).map fun t => c * chunkTokens + t

/-- The loop of both kernels, over chunks and in each over its tokens; `score` and `value`
give what the kernel computes from the token at place `t` of chunk `c`. -/
def attnLoop (exp : K → K) (seqLen chunkTokens blockIdx : ℕ) (score : ℕ → ℕ → K)
    (value : ℕ → ℕ → Fin hd → K) (st : SoftmaxState K (Fin hd)) : SoftmaxState K (Fin hd) :=
  (rotatedChunks ((seqLen + chunkTokens - 1) / chunkTokens) blockIdx).foldl
    (fun st c =>
      (List.range (tokensInChunk seqLen chunkTokens c)).foldl
        (fun st t => st.absorb exp (score c t) (value c t)) st) st

/-- The state of a kernel that starts from nothing: `m = -1e30`. -/
def freshState : SoftmaxState K (Fin hd) := .init (-(10 ^ 30))

/-- `stride_per_head` floats of scratch for each head. -/
def scratchAt (hd qHeadLocal : ℕ) : ℕ := qHeadLocal * (2 + hd)

/-- `head_scratch[0] = m`, `head_scratch[1] = d_softmax`, `head_scratch[2 + tid] = v_acc`. -/
def writeState (scratch : ℕ → K) (qHeadLocal : ℕ) (st : SoftmaxState K (Fin hd)) : ℕ → K :=
  fun a =>
    if a = scratchAt hd qHeadLocal then st.m
    else if a = scratchAt hd qHeadLocal + 1 then st.d
    else if h : scratchAt hd qHeadLocal + 2 ≤ a ∧ a - (scratchAt hd qHeadLocal + 2) < hd then
      st.acc ⟨a - (scratchAt hd qHeadLocal + 2), h.2⟩
    else scratch a

/-- `m = ps[0]`, `d = ps[1]`, `v_acc = ps[2 + tid]`. -/
def readState (hd : ℕ) (partialState : ℕ → K) (qHeadLocal : ℕ) : SoftmaxState K (Fin hd) where
  m := partialState (scratchAt hd qHeadLocal)
  d := partialState (scratchAt hd qHeadLocal + 1)
  acc := fun tid => partialState (scratchAt hd qHeadLocal + 2 + tid)

/-- `op_attn_paged_quant` for one head: the scratch buffer that it leaves. -/
def opAttnPagedQuant (exp : K → K) (seqLen chunkTokens blockIdx qHeadLocal : ℕ)
    (score : ℕ → ℕ → K) (value : ℕ → ℕ → Fin hd → K) (scratch : ℕ → K) : ℕ → K :=
  writeState scratch qHeadLocal
    (attnLoop exp seqLen chunkTokens blockIdx score value freshState)

/-- The state that `op_attn_paged` ends in for one head; `partialState` is the scratch buffer,
unless its pointer is null. -/
def opAttnPagedState (exp : K → K) (seqLen chunkTokens blockIdx qHeadLocal : ℕ)
    (score : ℕ → ℕ → K) (value : ℕ → ℕ → Fin hd → K) (partialState : Option (ℕ → K)) :
    SoftmaxState K (Fin hd) :=
  attnLoop exp seqLen chunkTokens blockIdx score value
    (match partialState with
      | none => freshState
      | some ps => readState hd ps qHeadLocal)

/-- `op_attn_paged` for one head: `v_acc / d` in each channel. -/
def opAttnPaged (exp : K → K) (seqLen chunkTokens blockIdx qHeadLocal : ℕ)
    (score : ℕ → ℕ → K) (value : ℕ → ℕ → Fin hd → K) (partialState : Option (ℕ → K)) :
    Fin hd → K :=
  let st := opAttnPagedState exp seqLen chunkTokens blockIdx qHeadLocal score value partialState
  fun tid => st.acc tid / st.d

/-- What a kernel reads of a sequence `x` when its first token is token `first` of it. -/
def tokensFrom {α : Type*} (x : ℕ → α) (chunkTokens first : ℕ) : ℕ → ℕ → α :=
  fun c t => x (first + (c * chunkTokens + t))

/-! ### The walk -/

variable {seqLen chunkTokens blockIdx qHeadLocal : ℕ}

lemma rotatedChunks_eq (numChunks blockIdx : ℕ) :
    rotatedChunks numChunks blockIdx = rotated numChunks blockIdx := by
  rcases Nat.eq_zero_or_pos numChunks with rfl | hpos
  · rfl
  · simp [rotatedChunks, rotated, hpos]

lemma visits_eq (seqLen chunkTokens blockIdx : ℕ) :
    visits seqLen chunkTokens blockIdx =
      (chunkWalk seqLen chunkTokens blockIdx).map fun (c, t) => c * chunkTokens + t := by
  rw [visits, rotatedChunks_eq, chunkWalk, List.map_flatMap]
  refine List.flatMap_congr fun c _ => ?_
  rw [List.map_map]
  rfl

/-- **A kernel visits each of its tokens exactly once.** -/
theorem visits_perm (hct : 0 < chunkTokens) :
    (visits seqLen chunkTokens blockIdx).Perm (List.range seqLen) := by
  rw [visits_eq]
  refine ((chunkWalk_perm hct).map _).trans (List.Perm.of_eq ?_)
  rw [List.map_map]
  refine (List.map_congr_left fun i _ => ?_).trans (List.map_id _)
  exact Nat.div_add_mod' i chunkTokens

variable {exp : K → K} {s : ℕ → K} {v : ℕ → Fin hd → K}

/-- The loop absorbs the tokens in the order of the visits. -/
lemma attnLoop_eq (st : SoftmaxState K (Fin hd)) (first : ℕ) :
    attnLoop exp seqLen chunkTokens blockIdx (tokensFrom s chunkTokens first)
        (tokensFrom v chunkTokens first) st =
      ((visits seqLen chunkTokens blockIdx).map (first + ·)).foldl
        (fun st i => st.absorb exp (s i) (v i)) st := by
  rw [attnLoop, visits, List.map_flatMap, List.foldl_flatMap]
  refine List.foldl_ext _ _ _ fun st c _ => ?_
  rw [List.map_map, List.foldl_map]
  rfl

/-- What the loop adds to the sums it starts from. -/
lemma attnLoop_summarizes (hexp : ExpLaws exp) (hct : 0 < chunkTokens) {l : List ℕ}
    {st : SoftmaxState K (Fin hd)} (hst : Summarizes exp s v l st) (seqLen blockIdx first : ℕ) :
    Summarizes exp s v (l ++ (List.range seqLen).map (first + ·))
      (attnLoop exp seqLen chunkTokens blockIdx (tokensFrom s chunkTokens first)
        (tokensFrom v chunkTokens first) st) := by
  rw [attnLoop_eq]
  exact (hst.foldl hexp _).perm (((visits_perm hct).map _).append_left l)

/-! ### The hand-over -/

omit [Field K] [LinearOrder K] in
/-- What the quantized kernel writes is what the f32 kernel reads. -/
lemma readState_writeState (scratch : ℕ → K) (qHeadLocal : ℕ) (st : SoftmaxState K (Fin hd)) :
    readState hd (writeState scratch qHeadLocal st) qHeadLocal = st := by
  obtain ⟨m, d, acc⟩ := st
  simp only [readState, writeState, SoftmaxState.mk.injEq]
  refine ⟨by simp, by simp, funext fun tid => ?_⟩
  have hlt := tid.isLt
  rw [if_neg (by omega), if_neg (by omega), dif_pos ⟨by omega, by omega⟩]
  exact congrArg acc (Fin.ext (by simp))

/-- A loop that starts from nothing holds its tokens. -/
lemma fresh_summarizes (hexp : ExpLaws exp) (hct : 0 < chunkTokens) (s : ℕ → K)
    (v : ℕ → Fin hd → K) (seqLen blockIdx : ℕ) :
    Summarizes exp s v (List.range seqLen)
      (attnLoop exp seqLen chunkTokens blockIdx (tokensFrom s chunkTokens 0)
        (tokensFrom v chunkTokens 0) freshState) := by
  have hinit : Summarizes exp s v [] freshState := Summarizes.init (-(10 ^ 30))
  have hloop := attnLoop_summarizes hexp hct hinit seqLen blockIdx 0
  simp only [Nat.zero_add, List.nil_append, List.map_id'] at hloop
  exact hloop

/-- The f32 kernel, starting from the scratch of the quantized one, ends with all tokens. -/
lemma split_summarizes (hexp : ExpLaws exp) (hct : 0 < chunkTokens) {n p : ℕ} (hp : p ≤ n)
    (s : ℕ → K) (v : ℕ → Fin hd → K) (blockQ blockIdx qHeadLocal : ℕ) (scratch : ℕ → K) :
    Summarizes exp s v (List.range n)
      (opAttnPagedState exp (n - p) chunkTokens blockIdx qHeadLocal (tokensFrom s chunkTokens p)
        (tokensFrom v chunkTokens p)
        (some (opAttnPagedQuant exp p chunkTokens blockQ qHeadLocal (tokensFrom s chunkTokens 0)
          (tokensFrom v chunkTokens 0) scratch))) := by
  rw [opAttnPagedState, opAttnPagedQuant, readState_writeState]
  have hquant := fresh_summarizes hexp hct s v p blockQ
  have hloop := attnLoop_summarizes hexp hct hquant (n - p) blockIdx p
  rwa [← List.range_add, Nat.add_sub_cancel' hp] at hloop

/-- The real exponential. -/
lemma expLaws_real : ExpLaws Real.exp := ⟨Real.exp_pos, Real.exp_add⟩

/-- Softmax attention over `n` tokens. -/
noncomputable def softmaxAttention (n : ℕ) (s : ℕ → ℝ) (v : ℕ → Fin hd → ℝ) : Fin hd → ℝ :=
  fun tid => (∑ i ∈ Finset.range n, Real.exp (s i) * v i tid) /
    ∑ i ∈ Finset.range n, Real.exp (s i)

/-- The quotient of a state that holds the tokens `0, …, n - 1`. -/
lemma softmax_of_summarizes {s : ℕ → ℝ} {v : ℕ → Fin hd → ℝ} {n : ℕ}
    {st : SoftmaxState ℝ (Fin hd)} (h : Summarizes Real.exp s v (List.range n) st) :
    (fun tid => st.acc tid / st.d) = softmaxAttention n s v :=
  funext fun tid => h.ratio expLaws_real tid

/-- **The two kernels together compute softmax attention.**  Of `n` tokens the quantized
kernel takes the first `p` and the f32 kernel, starting from its scratch, the others; or the
f32 kernel takes all of them.  Whatever the rotations, each kernel visits each token of its
range exactly once, the sum it divides by is positive, and the result is the softmax-weighted
mean of the values. -/
theorem opAttnPaged_eq_softmax (s : ℕ → ℝ) (v : ℕ → Fin hd → ℝ) {n p chunkTokens : ℕ}
    (hn : 0 < n) (hp : p ≤ n) (hct : 0 < chunkTokens) (blockQ block qHeadLocal : ℕ)
    (scratch : ℕ → ℝ) :
    let quant := opAttnPagedQuant Real.exp p chunkTokens blockQ qHeadLocal
      (tokensFrom s chunkTokens 0) (tokensFrom v chunkTokens 0) scratch
    ((visits p chunkTokens blockQ).Perm (List.range p) ∧
      (visits (n - p) chunkTokens block).Perm (List.range (n - p)) ∧
      0 < (opAttnPagedState Real.exp (n - p) chunkTokens block qHeadLocal
        (tokensFrom s chunkTokens p) (tokensFrom v chunkTokens p) (some quant)).d ∧
      opAttnPaged Real.exp (n - p) chunkTokens block qHeadLocal (tokensFrom s chunkTokens p)
        (tokensFrom v chunkTokens p) (some quant) = softmaxAttention n s v) ∧
    ((visits n chunkTokens block).Perm (List.range n) ∧
      0 < (opAttnPagedState Real.exp n chunkTokens block qHeadLocal
        (tokensFrom s chunkTokens 0) (tokensFrom v chunkTokens 0) none).d ∧
      opAttnPaged Real.exp n chunkTokens block qHeadLocal (tokensFrom s chunkTokens 0)
        (tokensFrom v chunkTokens 0) none = softmaxAttention n s v) := by
  have hne : List.range n ≠ [] := by simpa using hn.ne'
  have hsplit := split_summarizes expLaws_real hct hp s v blockQ block qHeadLocal scratch
  have hwhole := fresh_summarizes expLaws_real hct s v n block
  exact ⟨⟨visits_perm hct, visits_perm hct, hsplit.d_pos expLaws_real hne,
      softmax_of_summarizes hsplit⟩,
    visits_perm hct, hwhole.d_pos expLaws_real hne, softmax_of_summarizes hwhole⟩

/-- Five tokens in chunks of two, two of them quantized, and a last chunk that is short and
comes first. -/
theorem opAttnPaged_five_tokens :
    opAttnPaged Real.exp 3 2 1 0 (tokensFrom (fun i => (i : ℝ)) 2 2)
        (tokensFrom (fun i (_ : Fin 1) => (i : ℝ)) 2 2)
        (some (opAttnPagedQuant Real.exp 2 2 1 0 (tokensFrom (fun i => (i : ℝ)) 2 0)
          (tokensFrom (fun i (_ : Fin 1) => (i : ℝ)) 2 0) fun _ => 0)) =
      softmaxAttention 5 (fun i => (i : ℝ)) fun i _ => (i : ℝ) :=
  (opAttnPaged_eq_softmax (fun i => (i : ℝ)) (fun i (_ : Fin 1) => (i : ℝ)) (n := 5) (p := 2)
    (by decide) (by decide) (by decide) 1 1 0 fun _ => 0).1.2.2.2

end Braidinfer.Megakernel
