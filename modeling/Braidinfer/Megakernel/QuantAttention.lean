/-
What the two attention kernels of a layer read, over runs of decode steps.

`op_attn_paged_quant` and `op_attn_paged` (`kernels/megakernel_ops.hip`) walk their tokens
chunk by chunk from a rotated start.  A `Visit` is what they address for one token: the page
table entry, the place in the chunk and the position table entry.  A step of a quantized
program either leaves everything to the f32 instruction or splits the sequence at its last
chunk.

* `AttnPagedInst.visits_perm`, `AttnPagedQInst.visits_perm`: what an instruction covers;
* `PairOk`: the two instructions of a layer cover the sequence exactly once, and the f32 one
  merges the partial state of its partner;
* `pairsOk_iff`: **the instructions are right after a run of decode steps exactly if no step
  of the run was the first to split the sequence**.
-/
import Braidinfer.Lib.ChunkWalk
import Braidinfer.Lib.Run
import Braidinfer.Megakernel.AttnView

namespace Braidinfer.Megakernel

open Braidinfer.Lib Braidinfer.PagedKv

/-! ### The kernels -/

/-- What an attention kernel addresses for one token. -/
structure Visit where
  pageEntry : ℕ
  token : ℕ
  posEntry : ℕ

/-- The walk of a kernel over `seqLen` tokens behind a page table and a position table, in
thread block `blockIdx`. -/
def kernelVisits (pageTable posTable seqLen size blockIdx : ℕ) : List Visit :=
  (chunkWalk seqLen size blockIdx).map fun (c, t) =>
    ⟨pageTable + c * 8, t, posTable + (c * size + t) * 3 * 4⟩

/-- The tokens that `op_attn_paged` visits for virtual block `head`. -/
def AttnPagedInst.visits (i : AttnPagedInst) (blockIdx head : ℕ) : List Visit :=
  if head < i.gridX ∧ head < i.localNqh then
    kernelVisits i.pageTable i.posTable i.seqLen i.chunkTokens blockIdx
  else []

/-- The tokens that `op_attn_paged_quant` visits for virtual block `head`. -/
def AttnPagedQInst.visits (i : AttnPagedQInst) (blockIdx head : ℕ) : List Visit :=
  if head < i.gridX ∧ head < i.localNqh then
    kernelVisits i.quantPageTable i.posTable i.quantSeqLen i.chunkTokens blockIdx
  else []

/-- Token `i` of a sequence behind the given tables. -/
def tokenVisit (pageTable posTable i : ℕ) : Visit :=
  ⟨pageTable + i / chunkTokens * 8, i % chunkTokens, posTable + i * 3 * 4⟩

/-- The visits are the tokens from `a` up to `b`, each exactly once. -/
def Covers (visits : List Visit) (pageTable posTable a b : ℕ) : Prop :=
  visits.Perm ((List.range' a (b - a)).map (tokenVisit pageTable posTable))

/-- A kernel behind tables shifted by `n` chunks covers what follows the first `n` chunks. -/
lemma kernelVisits_covers (pageTable posTable n seqLen blockIdx : ℕ) :
    Covers (kernelVisits (pageTable + n * 8) (posTable + n * chunkTokens * 3 * 4)
      (seqLen - n * chunkTokens) chunkTokens blockIdx) pageTable posTable (n * chunkTokens)
      seqLen := by
  have hpos : 0 < chunkTokens := by decide
  refine ((chunkWalk_perm hpos).map _).trans ?_
  rw [List.range'_eq_map_range, List.map_map, List.map_map]
  refine List.Perm.of_eq (List.map_congr_left fun i _ => ?_)
  simp only [Function.comp_apply, tokenVisit, Visit.mk.injEq]
  have hdiv : (n * chunkTokens + i) / chunkTokens = n + i / chunkTokens := by
    rw [Nat.mul_comm, Nat.mul_add_div hpos]
  have hmod : (n * chunkTokens + i) % chunkTokens = i % chunkTokens := by
    rw [Nat.mul_comm, Nat.mul_add_mod]
  refine ⟨?_, hmod.symm, ?_⟩
  · rw [hdiv]
    omega
  · rw [Nat.div_add_mod']
    omega

/-! ### Pairs of instructions -/

/-- The quantized instruction is disabled and the f32 one does all the work. -/
structure WholeAt (p : MegakernelProgram) (seqLen : ℕ) (q : AttnPagedQInst)
    (f : AttnPagedInst) : Prop where
  disabled : q.gridX = 0
  covers : ∀ blockIdx head, head < f.nqh →
    Covers (f.visits blockIdx head) p.pagedKv.pageTablePtr p.pagedKv.positionTablePtr 0 seqLen
  partialState : f.partialState = 0

/-- The quantized instruction covers the first `n` chunks and the f32 one the rest, starting
from the partial state its partner wrote. -/
structure SplitAt (p : MegakernelProgram) (quantPageTable n seqLen : ℕ) (q : AttnPagedQInst)
    (f : AttnPagedInst) : Prop where
  quant : ∀ blockIdx head, head < f.nqh →
    Covers (q.visits blockIdx head) quantPageTable p.pagedKv.positionTablePtr 0 (n * chunkTokens)
  active : ∀ blockIdx head, head < f.nqh →
    Covers (f.visits blockIdx head) p.pagedKv.pageTablePtr p.pagedKv.positionTablePtr
      (n * chunkTokens) seqLen
  pageTable : f.pageTable = p.pagedKv.pageTablePtr + n * 8
  posTable : f.posTable = p.pagedKv.positionTablePtr + n * chunkTokens * 3 * 4
  partialState : f.partialState = q.scratch
  nonNull : f.partialState ≠ 0

/-- The two attention instructions of a layer cover the sequence exactly once. -/
def PairOk (p : MegakernelProgram) (quantPageTable seqLen : ℕ) (q : AttnPagedQInst)
    (f : AttnPagedInst) : Prop :=
  WholeAt p seqLen q f ∨
    ∃ n, n * chunkTokens ≤ seqLen ∧ SplitAt p quantPageTable n seqLen q f

/-- The instructions of every attention layer cover the sequence exactly once. -/
def PairsOk (p : MegakernelProgram) (quantPageTable seqLen : ℕ) : Prop :=
  ∀ (k : ℕ) q f, (attnQs p.instructions)[k]? = some q → (attns p.instructions)[k]? = some f →
    PairOk p quantPageTable seqLen q f

/-! ### Decode steps -/

/-- What a decode step works on. -/
structure DecodeState where
  prog : MegakernelProgram
  mem : KvMem
  seq : SequenceState
  quant : Option PageAllocator
  filled : QuantMemory

/-- A decode step, with its token and its position: append, update, dispatch, and seal a
finished chunk unless there is no quantized slot left for it. -/
def DecodeStep (s : DecodeState) (a : ℕ × ℕ) (s' : DecodeState) : Prop :=
  ∃ mem seq heap prog, s.seq.appendToken s.mem (toI32 a.2) = .ok (mem, seq) ∧
    updateStepPagedNoUpload s.prog a.1 a.2 mem.heap seq mem.vram = .ok (heap, prog) ∧
    ((∃ r, postStepPaged ⟨prog, seq, s.quant, s.filled⟩ a.2 heap mem.vram = .ok r ∧
        s' = ⟨r.prog, { mem with heap }, r.seq, r.quant, r.filled⟩) ∨
      s' = ⟨prog, { mem with heap }, seq, s.quant, s.filled⟩)

/-! ### The invariant -/

/-- The attention instructions of a program with quantized KV: who they belong to, and
whether the pointers to the partial states were cleared. -/
structure LayerView (cfg : AttnConfig) (scratchBase quantPageTable : ℕ) (cleared : Prop)
    (p : MegakernelProgram) : Prop where
  indexed : p.AttnIndexed
  length : (attnQs p.instructions).length = (attns p.instructions).length
  quant : ∀ (k : ℕ) q, (attnQs p.instructions)[k]? = some q →
    q.scratch = scratchPtr cfg scratchBase k ∧ q.localNqh = cfg.numQHeads ∧
      q.chunkTokens = chunkTokens
  paged : ∀ (k : ℕ) f, (attns p.instructions)[k]? = some f →
    f.gridX = cfg.numQHeads ∧ f.localNqh = cfg.numQHeads ∧ f.nqh = cfg.numQHeads ∧
      f.chunkTokens = chunkTokens
  partialState : ∀ (k : ℕ) f, (attns p.instructions)[k]? = some f →
    (cleared → f.partialState = 0) ∧
      (¬ cleared → f.partialState = scratchPtr cfg scratchBase k)
  quantizedKv : p.quantizedKv = true
  quantKv : ∃ q, p.quantKv = some q ∧ q.quantPageTablePtr = quantPageTable

variable {cfg : AttnConfig} {scratchBase quantPageTable : ℕ} {cleared : Prop}
  {p p' : MegakernelProgram} {seq : SequenceState}

/-- The program right after `enable_quantized_kv`. -/
lemma LayerView.enabled (cfg : AttnConfig) (maxSeqLen : ℕ) (layers : List LayerCode)
    (tail : List ℕ) (pageTablePtr positionTablePtr scratchBase quantPageTable : ℕ) :
    LayerView cfg scratchBase quantPageTable False
      (enableQuantizedKv (initPagedBuffers (compilePaged cfg maxSeqLen layers tail) pageTablePtr
        positionTablePtr) cfg scratchBase quantPageTable) := by
  obtain ⟨count, hi, hqs, hfs⟩ := compilePaged_attn cfg maxSeqLen layers tail
  obtain ⟨hi', hqs', hfs'⟩ := enableQuantizedKv_attn
    (p := initPagedBuffers (compilePaged cfg maxSeqLen layers tail) pageTablePtr
      positionTablePtr) hi cfg scratchBase quantPageTable
  have hqs₁ := hqs'.trans (congrArg (List.mapIdx _) hqs)
  have hfs₁ := hfs'.trans (congrArg (List.mapIdx _) hfs)
  refine ⟨hi', by simp [hqs₁, hfs₁], fun k q hq => ?_, fun k f hf => ?_, fun k f hf => ?_, rfl,
    _, rfl, rfl⟩
  · rw [hqs₁, List.getElem?_mapIdx, List.getElem?_map, Option.map_map, Option.map_eq_some_iff] at hq
    obtain ⟨j, -, rfl⟩ := hq
    exact ⟨rfl, rfl, rfl⟩
  · rw [hfs₁, List.getElem?_mapIdx, List.getElem?_map, Option.map_map, Option.map_eq_some_iff] at hf
    obtain ⟨j, -, rfl⟩ := hf
    exact ⟨rfl, rfl, rfl, rfl⟩
  · rw [hfs₁, List.getElem?_mapIdx, List.getElem?_map, Option.map_map, Option.map_eq_some_iff] at hf
    obtain ⟨j, -, rfl⟩ := hf
    exact ⟨False.elim, fun _ => rfl⟩

/-- An update that changes neither the owners of the instructions nor, but for those that it
clears, the pointers to the partial states. -/
lemma LayerView.map (h : LayerView cfg scratchBase quantPageTable cleared p)
    (hi : p'.AttnIndexed) (hquantKv : p'.quantKv = p.quantKv)
    (hquantized : p'.quantizedKv = p.quantizedKv) {u : AttnPagedQInst → AttnPagedQInst}
    {v : AttnPagedInst → AttnPagedInst}
    (hqs : attnQs p'.instructions = (attnQs p.instructions).map u)
    (hfs : attns p'.instructions = (attns p.instructions).map v)
    (hu : ∀ q, (u q).scratch = q.scratch ∧ (u q).localNqh = q.localNqh ∧
      (u q).chunkTokens = q.chunkTokens)
    (hv : ∀ f, (v f).gridX = f.gridX ∧ (v f).localNqh = f.localNqh ∧ (v f).nqh = f.nqh ∧
      (v f).chunkTokens = f.chunkTokens) {cleared' : Prop}
    (hstate : ∀ (k : ℕ) f, (attns p.instructions)[k]? = some f →
      (cleared' → (v f).partialState = 0) ∧
        (¬ cleared' → (v f).partialState = scratchPtr cfg scratchBase k)) :
    LayerView cfg scratchBase quantPageTable cleared' p' := by
  refine ⟨hi, by simp [hqs, hfs, h.length], fun k q hq => ?_, fun k f hf => ?_, fun k f hf => ?_,
    hquantized.trans h.quantizedKv, by rw [hquantKv]; exact h.quantKv⟩
  · rw [hqs, List.getElem?_map, Option.map_eq_some_iff] at hq
    obtain ⟨q₀, hq₀, rfl⟩ := hq
    obtain ⟨hscratch, hlocal, hsize⟩ := hu q₀
    rw [hscratch, hlocal, hsize]
    exact h.quant k q₀ hq₀
  · rw [hfs, List.getElem?_map, Option.map_eq_some_iff] at hf
    obtain ⟨f₀, hf₀, rfl⟩ := hf
    obtain ⟨hgrid, hlocal, hnqh, hsize⟩ := hv f₀
    rw [hgrid, hlocal, hnqh, hsize]
    exact h.paged k f₀ hf₀
  · rw [hfs, List.getElem?_map, Option.map_eq_some_iff] at hf
    obtain ⟨f₀, hf₀, rfl⟩ := hf
    exact hstate k f₀ hf₀

/-- An update that does not split the sequence: every pair is right, and the pointers to the
partial states are gone. -/
lemma LayerView.whole (h : LayerView cfg scratchBase quantPageTable cleared p)
    (hi : p'.AttnIndexed) (hquantKv : p'.quantKv = p.quantKv)
    (hquantized : p'.quantizedKv = p.quantizedKv)
    (hpage : p'.pagedKv.pageTablePtr = p.pagedKv.pageTablePtr)
    (hpos : p'.pagedKv.positionTablePtr = p.pagedKv.positionTablePtr)
    (hqs : attnQs p'.instructions = (attnQs p.instructions).map fun i => { i with gridX := 0 })
    (hfs : attns p'.instructions = (attns p.instructions).map (wholeF p seq.seqLen)) :
    LayerView cfg scratchBase quantPageTable True p' ∧ PairsOk p' quantPageTable seq.seqLen := by
  refine ⟨h.map hi hquantKv hquantized hqs hfs (fun _ => ⟨rfl, rfl, rfl⟩)
    (fun _ => ⟨rfl, rfl, rfl, rfl⟩) fun k f _ => ⟨fun _ => rfl, fun hn => absurd trivial hn⟩,
    fun k q f hq hf => .inl ?_⟩
  · rw [hqs, List.getElem?_map, Option.map_eq_some_iff] at hq
    rw [hfs, List.getElem?_map, Option.map_eq_some_iff] at hf
    obtain ⟨q₀, -, rfl⟩ := hq
    obtain ⟨f₀, hf₀, rfl⟩ := hf
    obtain ⟨hgrid, hlocal, hnqh, hsize⟩ := h.paged k f₀ hf₀
    refine ⟨rfl, fun blockIdx head hhead => ?_, rfl⟩
    have hhead' : head < cfg.numQHeads := hnqh ▸ hhead
    have hcov := kernelVisits_covers p.pagedKv.pageTablePtr p.pagedKv.positionTablePtr 0
      seq.seqLen blockIdx
    simp only [Nat.zero_mul, Nat.add_zero, Nat.sub_zero] at hcov
    rw [AttnPagedInst.visits, if_pos ⟨by rwa [← hgrid] at hhead', by rwa [← hlocal] at hhead'⟩,
      hpage, hpos]
    simp only [wholeF, hsize]
    exact hcov

/-- An update that splits the sequence: the pairs are right unless the pointers to the
partial states are gone. -/
lemma LayerView.split (h : LayerView cfg scratchBase quantPageTable cleared p)
    (hscratch : 0 < scratchBase) {q₁ : QuantizedKvState} {f₁ : AttnPagedInst} {n : ℕ}
    (hn : n * chunkTokens ≤ seq.seqLen) (hkv : p.quantKv = some q₁)
    (hf₁ : f₁ ∈ attns p.instructions)
    (hi : p'.AttnIndexed) (hquantKv : p'.quantKv = p.quantKv)
    (hquantized : p'.quantizedKv = p.quantizedKv)
    (hpage : p'.pagedKv.pageTablePtr = p.pagedKv.pageTablePtr)
    (hpos : p'.pagedKv.positionTablePtr = p.pagedKv.positionTablePtr)
    (hqs : attnQs p'.instructions = (attnQs p.instructions).map (splitQ p q₁ f₁.nqh n))
    (hfs : attns p'.instructions = (attns p.instructions).map (splitF p n seq.seqLen)) :
    LayerView cfg scratchBase quantPageTable cleared p' ∧
      (PairsOk p' quantPageTable seq.seqLen ↔ ¬ cleared ∨ cfg.numQHeads = 0) := by
  obtain ⟨q₂, hq₂, hptr⟩ := h.quantKv
  obtain rfl : q₁ = q₂ := Option.some.inj (hkv.symm.trans hq₂)
  obtain ⟨k₁, hk₁⟩ := List.mem_iff_getElem?.mp hf₁
  have hnqh₁ : f₁.nqh = cfg.numQHeads := (h.paged k₁ f₁ hk₁).2.2.1
  have hview : LayerView cfg scratchBase quantPageTable cleared p' :=
    h.map hi hquantKv hquantized hqs hfs (fun _ => ⟨rfl, rfl, rfl⟩)
      (fun _ => ⟨rfl, rfl, rfl, rfl⟩) fun k f hf => h.partialState k f hf
  refine ⟨hview, ?_⟩
  have hcovQ := fun blockIdx => kernelVisits_covers quantPageTable p.pagedKv.positionTablePtr 0
    (n * chunkTokens) blockIdx
  have hcovF := fun blockIdx => kernelVisits_covers p.pagedKv.pageTablePtr
    p.pagedKv.positionTablePtr n seq.seqLen blockIdx
  simp only [Nat.zero_mul, Nat.add_zero, Nat.sub_zero] at hcovQ
  have hsplit : ∀ (k : ℕ) q₀ f₀, (attnQs p.instructions)[k]? = some q₀ →
      (attns p.instructions)[k]? = some f₀ → f₀.partialState = q₀.scratch →
      SplitAt p' quantPageTable n seq.seqLen (splitQ p q₁ f₁.nqh n q₀)
        (splitF p n seq.seqLen f₀) := by
    intro k q₀ f₀ hq₀ hf₀ hps
    obtain ⟨hscr, hlocalQ, hsizeQ⟩ := h.quant k q₀ hq₀
    obtain ⟨hgrid, hlocal, hnqh, hsize⟩ := h.paged k f₀ hf₀
    have hpos₀ : q₀.scratch ≠ 0 := by
      rw [hscr, scratchPtr]
      omega
    refine ⟨fun blockIdx head hhead => ?_, fun blockIdx head hhead => ?_, by rw [hpage]; rfl,
      by rw [hpos]; rfl, hps, ?_⟩
    · have hhead' : head < cfg.numQHeads := hnqh ▸ hhead
      rw [AttnPagedQInst.visits,
        if_pos ⟨by rwa [← hnqh₁] at hhead', by rwa [← hlocalQ] at hhead'⟩, hpos]
      simp only [splitQ, hsizeQ, hptr]
      exact hcovQ blockIdx
    · have hhead' : head < cfg.numQHeads := hnqh ▸ hhead
      rw [AttnPagedInst.visits, if_pos ⟨by rwa [← hgrid] at hhead', by rwa [← hlocal] at hhead'⟩,
        hpage, hpos]
      simp only [splitF, hsize]
      exact hcovF blockIdx
    · change f₀.partialState ≠ 0
      rwa [hps]
  constructor
  · intro hok
    by_contra hcon
    obtain ⟨hcleared, hheads⟩ := not_or.mp hcon
    rw [not_not] at hcleared
    obtain ⟨q₀, hq₀⟩ : ∃ q₀, (attnQs p.instructions)[k₁]? = some q₀ :=
      ⟨_, List.getElem?_eq_getElem (h.length ▸ (List.getElem?_eq_some_iff.mp hk₁).1)⟩
    have hq := congrArg (Option.map (splitQ p q₁ f₁.nqh n)) hq₀
    have hf := congrArg (Option.map (splitF p n seq.seqLen)) hk₁
    rw [← List.getElem?_map, ← hqs] at hq
    rw [← List.getElem?_map, ← hfs] at hf
    rcases hok k₁ _ _ hq hf with hwhole | ⟨_, -, hsplit'⟩
    · exact hheads (hnqh₁.symm.trans hwhole.disabled)
    · exact hsplit'.nonNull ((h.partialState k₁ f₁ hk₁).1 hcleared)
  · intro hcond k q f hq hf
    rw [hqs, List.getElem?_map, Option.map_eq_some_iff] at hq
    rw [hfs, List.getElem?_map, Option.map_eq_some_iff] at hf
    obtain ⟨q₀, hq₀, rfl⟩ := hq
    obtain ⟨f₀, hf₀, rfl⟩ := hf
    by_cases hcleared : cleared
    · -- without heads nothing is read at all
      have hheads := hcond.resolve_left (not_not.mpr hcleared)
      refine .inl ⟨hnqh₁.trans hheads, fun blockIdx head hhead => ?_,
        (h.partialState k f₀ hf₀).1 hcleared⟩
      have hlt : head < cfg.numQHeads := (h.paged k f₀ hf₀).2.2.1 ▸ hhead
      rw [hheads] at hlt
      exact absurd hlt (Nat.not_lt_zero head)
    · refine .inr ⟨n, hn, hsplit k q₀ f₀ hq₀ hf₀ ?_⟩
      rw [(h.partialState k f₀ hf₀).2 hcleared, (h.quant k q₀ hq₀).1]

/-- Sealing a chunk leaves the instructions as they are. -/
lemma LayerView.sealed (h : LayerView cfg scratchBase quantPageTable cleared p)
    (hinst : p'.instructions = p.instructions) (hkv : p'.pagedKv = p.pagedKv)
    (hquantized : p'.quantizedKv = p.quantizedKv)
    (hquantKv : ∃ q, p'.quantKv = some q ∧ q.quantPageTablePtr = quantPageTable) :
    LayerView cfg scratchBase quantPageTable cleared p' := by
  refine ⟨?_, ?_, ?_, ?_, ?_, hquantized.trans h.quantizedKv, hquantKv⟩
  · rw [MegakernelProgram.AttnIndexed, hinst, hkv]
    exact h.indexed
  all_goals rw [hinst]
  · exact h.length
  · exact h.quant
  · exact h.paged
  · exact h.partialState

lemma pairsOk_congr {seqLen : ℕ} (hinst : p'.instructions = p.instructions)
    (hkv : p'.pagedKv = p.pagedKv) :
    PairsOk p' quantPageTable seqLen ↔ PairsOk p quantPageTable seqLen := by
  have hpair : ∀ q f, PairOk p' quantPageTable seqLen q f ↔ PairOk p quantPageTable seqLen q f := by
    intro q f
    constructor
    · rintro (⟨h₁, h₂, h₃⟩ | ⟨n, hn, h₁, h₂, h₃, h₄, h₅, h₆⟩)
      · exact .inl ⟨h₁, hkv ▸ h₂, h₃⟩
      · exact .inr ⟨n, hn, hkv ▸ h₁, hkv ▸ h₂, hkv ▸ h₃, hkv ▸ h₄, h₅, h₆⟩
    · rintro (⟨h₁, h₂, h₃⟩ | ⟨n, hn, h₁, h₂, h₃, h₄, h₅, h₆⟩)
      · exact .inl ⟨h₁, hkv ▸ h₂, h₃⟩
      · exact .inr ⟨n, hn, hkv ▸ h₁, hkv ▸ h₂, hkv ▸ h₃, hkv ▸ h₄, h₅, h₆⟩
  simp only [PairsOk, hinst, hpair]

/-! ### Runs -/

/-- A sequence as the decode steps find it. -/
structure SeqReady (s : DecodeState) : Prop where
  exclusive : SequenceState.Exclusive s.mem.heap s.mem.vram s.seq
  shape : SequenceState.Shape s.mem.heap s.seq
  chunkTokens : s.seq.chunkTokens = chunkTokens

lemma LayerView.cleared_iff {cleared' : Prop}
    (h : LayerView cfg scratchBase quantPageTable cleared p) (hiff : cleared' ↔ cleared) :
    LayerView cfg scratchBase quantPageTable cleared' p := by
  rwa [propext hiff]

/-- **One decode step**: the sequence is one token longer; up to one chunk every pair is
right and the pointers to the partial states are cleared, and beyond one chunk the pairs are
right unless the pointers were cleared before. -/
theorem DecodeStep.spec {s s' : DecodeState} {a : ℕ × ℕ} (hstep : DecodeStep s a s')
    (hscratch : 0 < scratchBase) (hs : SeqReady s)
    (hview : LayerView cfg scratchBase quantPageTable cleared s.prog) :
    SeqReady s' ∧ s'.seq.seqLen = s.seq.seqLen + 1 ∧
      LayerView cfg scratchBase quantPageTable (cleared ∨ s'.seq.seqLen ≤ chunkTokens) s'.prog ∧
      (PairsOk s'.prog quantPageTable s'.seq.seqLen ↔
        s'.seq.seqLen ≤ chunkTokens ∨ ¬ cleared ∨ cfg.numQHeads = 0) := by
  obtain ⟨mem, seq, heap, prog, happ, hupdate, hpost⟩ := hstep
  obtain ⟨hx, -⟩ := SequenceState.appendToken_order hs.exclusive happ
  obtain ⟨hshape, hlen, -, htok, -⟩ := SequenceState.appendToken_shape hs.exclusive hs.shape happ
  have hup := updateStepPagedNoUpload_spec hupdate
  have hsame := hup.sameView seq.chunks
  obtain ⟨hi, hattn, hpage, hpos⟩ := updateStepPagedNoUpload_attn hview.indexed hupdate
  have hchunks : seq.chunks.length = s.seq.seqLen / chunkTokens + 1 := by
    rw [hshape.length_chunks hlen, htok, hs.chunkTokens]
  have hct : chunkTokens = 64 := rfl
  -- the program after the update
  have hprog : LayerView cfg scratchBase quantPageTable (cleared ∨ seq.seqLen ≤ chunkTokens) prog ∧
      (PairsOk prog quantPageTable seq.seqLen ↔
        seq.seqLen ≤ chunkTokens ∨ ¬ cleared ∨ cfg.numQHeads = 0) := by
    cases hattn with
    | split q f hquant hone hkv hf hqs hfs =>
        have hlong : ¬ seq.seqLen ≤ chunkTokens := by
          rw [hchunks, hct] at hone
          rw [hlen, hct]
          omega
        obtain ⟨hview', hiff⟩ := hview.split hscratch
          (n := seq.chunks.length - 1) (by rw [hchunks, hlen, hct]; omega) hkv hf hi hup.quantKv
          hup.quantizedKv hpage hpos hqs hfs
        exact ⟨hview'.cleared_iff (by simp [hlong]), by rw [hiff]; simp [hlong]⟩
    | whole hone hqs hfs =>
        have hshort : seq.seqLen ≤ chunkTokens := by
          have hle : ¬ 1 < seq.chunks.length := fun hlt => hone ⟨hview.quantizedKv, hlt⟩
          rw [hchunks, hct] at hle
          rw [hlen, hct]
          omega
        obtain ⟨hview', hok⟩ := hview.whole hi hup.quantKv hup.quantizedKv hpage hpos
          hqs hfs
        exact ⟨hview'.cleared_iff (by simp [hshort]), iff_of_true hok (.inl hshort)⟩
  rcases hpost with ⟨r, hpost, rfl⟩ | rfl
  · -- sealing a chunk changes nothing of this
    obtain ⟨hrseq, hrprog, hrkv⟩ := postStepPaged_frame hpost
    obtain ⟨q, hq, hptr⟩ := hprog.1.quantKv
    obtain ⟨q', hq', hptr'⟩ := hrkv q hq
    have hview' := hprog.1.sealed (by rw [hrprog]) (by rw [hrprog])
      (by rw [hrprog]) ⟨q', hq', hptr'.trans hptr⟩
    have hpairs : PairsOk r.prog quantPageTable seq.seqLen ↔
        PairsOk prog quantPageTable seq.seqLen :=
      pairsOk_congr (by rw [hrprog]) (by rw [hrprog])
    have hseqLen : r.seq.seqLen = seq.seqLen := by rw [hrseq]
    refine ⟨⟨hx.congr hsame (by rw [hrseq]), ?_, ?_⟩, hseqLen.trans hlen, ?_, ?_⟩
    · exact hshape.congr hsame (by rw [hrseq]) hseqLen (by rw [hrseq]) (by rw [hrseq])
    · exact Eq.trans (by rw [hrseq]) (htok.trans hs.chunkTokens)
    · rw [hseqLen]
      exact hview'
    · rw [hseqLen, hpairs]
      exact hprog.2
  · exact ⟨⟨hx.congr hsame rfl, hshape.congr hsame rfl rfl rfl rfl,
      htok.trans hs.chunkTokens⟩, hlen,
      hprog.1, hprog.2⟩

/-- What a run of decode steps from a sequence of `start` tokens leaves. -/
lemma run_spec {s s' : DecodeState} {as : List (ℕ × ℕ)} (hrun : Run DecodeStep s as s')
    (hscratch : 0 < scratchBase) (hs : SeqReady s)
    (hview : LayerView cfg scratchBase quantPageTable False s.prog) :
    SeqReady s' ∧ s'.seq.seqLen = s.seq.seqLen + as.length ∧
      LayerView cfg scratchBase quantPageTable (as ≠ [] ∧ s.seq.seqLen < chunkTokens) s'.prog ∧
      (as ≠ [] → (PairsOk s'.prog quantPageTable s'.seq.seqLen ↔
        chunkTokens ≤ s.seq.seqLen ∨ s.seq.seqLen + as.length ≤ chunkTokens ∨
          cfg.numQHeads = 0)) := by
  induction hrun with
  | nil => exact ⟨hs, rfl, hview.cleared_iff (by simp), fun h => absurd rfl h⟩
  | @snoc as t u a hprefix hstep ih =>
      obtain ⟨hready, hlen, hview', -⟩ := ih
      obtain ⟨hready', hlen', hview'', hiff⟩ := hstep.spec hscratch hready hview'
      have hne : as ++ [a] ≠ [] := by simp
      have hlast : (as ++ [a]).length = as.length + 1 := by simp
      have hnil : as ≠ [] ↔ 0 < as.length := List.length_pos_iff.symm
      refine ⟨hready', by rw [hlen', hlen, hlast]; omega, hview''.cleared_iff ?_, fun _ => ?_⟩
      · rw [hlen', hlen, hnil]
        constructor
        · rintro ⟨-, hlt⟩
          by_cases hpos : 0 < as.length
          · exact .inl ⟨hpos, hlt⟩
          · exact .inr (by omega)
        · rintro (⟨-, hlt⟩ | hle)
          · exact ⟨hne, hlt⟩
          · exact ⟨hne, by omega⟩
      · rw [hiff, hlen', hlen, hlast, hnil]
        by_cases hheads : cfg.numQHeads = 0
        · simp [hheads]
        · simp only [hheads, or_false]
          omega

/-- **Quantized split attention covers the sequence exactly once** after a run of decode
steps if and only if every step of the run split the sequence or none did, that is, if it
started from a full chunk or did not fill one: the first step that does not split it clears
the pointers to the partial states, and no later step restores them.  (A model without query
heads reads nothing.) -/
theorem pairsOk_iff (cfg : AttnConfig) (maxSeqLen : ℕ) (layers : List LayerCode)
    (tail : List ℕ) (pageTablePtr positionTablePtr scratchBase quantPageTablePtr : ℕ)
    (s s' : DecodeState) (steps : List (ℕ × ℕ)) (hscratch : 0 < scratchBase)
    (hprog : s.prog = enableQuantizedKv (initPagedBuffers (compilePaged cfg maxSeqLen layers tail)
      pageTablePtr positionTablePtr) cfg scratchBase quantPageTablePtr)
    (hseq : SeqReady s) (hsteps : steps ≠ []) (hrun : Run DecodeStep s steps s') :
    PairsOk s'.prog quantPageTablePtr s'.seq.seqLen ↔
      chunkTokens ≤ s.seq.seqLen ∨ s.seq.seqLen + steps.length ≤ chunkTokens ∨
        cfg.numQHeads = 0 := by
  have hview : LayerView cfg scratchBase quantPageTablePtr False s.prog := by
    rw [hprog]
    exact .enabled cfg maxSeqLen layers tail pageTablePtr positionTablePtr scratchBase
      quantPageTablePtr
  exact (run_spec hrun hscratch hseq hview).2.2.2 hsteps

/-! ### Two runs -/

/-- A model with one attention layer of one head. -/
def oneHead : AttnConfig :=
  { hiddenSize := 1, numQHeads := 1, numKvHeads := 1, headDim := 2, ropeDim := 2,
    hasOutputGate := false, hasQkNorm := true, mropeSections := (1, 0, 0),
    rmsNormEps := 0x358637bd }

/-- A sequence of `n` tokens in one chunk, on a pool of two. -/
def oneChunk (n : ℕ) : DecodeState :=
  { prog := enableQuantizedKv (initPagedBuffers (compilePaged oneHead 256 [.attention] [])
      4096 8192) oneHead 16384 32768
    mem := ⟨⟨[⟨{ ChunkRef.ofVram 0 with len := n }, 1⟩]⟩, ⟨⟨⟨2, [1]⟩, 65536, 1024⟩⟩, none⟩
    seq := { SequenceState.new chunkTokens with
      chunks := [0], seqLen := n, positions := List.replicate n 0 }
    quant := some (.new 1048576 512 4)
    filled := fun _ => none }

lemma oneChunk_ready {n : ℕ} (hpos : 1 ≤ n) (hle : n ≤ chunkTokens) : SeqReady (oneChunk n) := by
  have hcap : (2 : ℕ) < 2 ^ 32 := by decide
  have htokens : 0 < chunkTokens := by decide
  refine ⟨⟨List.nodup_singleton _, ?_, ?_, hcap, List.Perm.refl _, 0, rfl, by simp⟩,
    ⟨htokens, List.length_replicate, .inr ⟨0, rfl, hpos, hle, ?_⟩⟩, rfl⟩
  · intro h hh
    rw [List.mem_singleton.mp hh]
    rfl
  · intro h hh
    rw [List.mem_singleton.mp hh]
    exact iff_of_false (by simp [oneChunk, chunk, ArcHeap.get?, ChunkRef.ofVram])
      (by simp [oneChunk, chunk, ArcHeap.get?, ChunkRef.ofVram, u32Max])
  · exact (Nat.zero_add n).symm

/-- From a full chunk on: the first step splits the sequence, and its pairs are right. -/
theorem pairsOk_iff_from_full_chunk :
    ∃ s', Run DecodeStep (oneChunk 64) [(7, 64)] s' ∧ (PairsOk s'.prog 32768 s'.seq.seqLen ↔
      chunkTokens ≤ 64 ∨ 64 + 1 ≤ chunkTokens ∨ oneHead.numQHeads = 0) := by
  have hrun : ∃ s', Run DecodeStep (oneChunk 64) [(7, 64)] s' :=
    ⟨_, Run.nil.snoc ⟨_, _, _, _, rfl, rfl, .inr rfl⟩⟩
  obtain ⟨s', hrun⟩ := hrun
  exact ⟨s', hrun, pairsOk_iff oneHead 256 [.attention] [] 4096 8192 16384 32768 (oneChunk 64) s'
    [(7, 64)] (by decide) rfl (oneChunk_ready (by decide) (by decide)) (by simp) hrun⟩

/-- From 63 tokens on: the first step fills the chunk and clears the pointers to the partial
states, and the second one splits the sequence without them. -/
theorem pairs_lose_partial_state :
    ¬ ∀ (cfg : AttnConfig) (maxSeqLen : ℕ) (layers : List LayerCode) (tail : List ℕ)
      (pageTablePtr positionTablePtr scratchBase quantPageTablePtr : ℕ) (s s' : DecodeState)
      (steps : List (ℕ × ℕ)), 0 < scratchBase →
      s.prog = enableQuantizedKv (initPagedBuffers (compilePaged cfg maxSeqLen layers tail)
        pageTablePtr positionTablePtr) cfg scratchBase quantPageTablePtr →
      SeqReady s → steps ≠ [] → Run DecodeStep s steps s' →
      PairsOk s'.prog quantPageTablePtr s'.seq.seqLen := by
  intro hall
  have hrun : ∃ s', Run DecodeStep (oneChunk 63) [(7, 63), (7, 64)] s' :=
    ⟨_, (Run.nil.snoc ⟨_, _, _, _, rfl, rfl, .inl ⟨_, rfl, rfl⟩⟩).snoc
      ⟨_, _, _, _, rfl, rfl, .inl ⟨_, rfl, rfl⟩⟩⟩
  obtain ⟨s', hrun⟩ := hrun
  have hready : SeqReady (oneChunk 63) := oneChunk_ready (by decide) (by decide)
  have hok := hall oneHead 256 [.attention] [] 4096 8192 16384 32768 (oneChunk 63) s'
    [(7, 63), (7, 64)] (by decide) rfl hready (by simp) hrun
  have hiff := (run_spec hrun (by decide : 0 < 16384) hready
    (.enabled oneHead 256 [.attention] [] 4096 8192 16384 32768)).2.2.2 (by simp)
  exact absurd (hiff.mp hok) (by decide)

end Braidinfer.Megakernel
