/-
The slots of the engine over its calls.

* `Accounted`: every quantized slot is free or held by the sequence, over every call that loses no
  sequence with quantized slots;
* `Accounted.reset`: **a reset gives every slot back**;
* `lost_slots_stay_taken`: the quantized slots of a lost sequence are taken for good.
-/
import Braidinfer.Engine.QuantPages

namespace Braidinfer.Engine

open Braidinfer.Lib Braidinfer.PagedKv Braidinfer.Megakernel

/-! ### Quantized slots -/

namespace Model

variable {cfg : EngineConfig} {env : Env} {m m' : Model}

/-- Every quantized slot is free or held by the sequence. -/
structure Accounted (cfg : EngineConfig) (m : Model) : Prop where
  sound : Sound cfg m
  pool : ∀ q, m.quantAllocator = some q → q.slots.Holds m.quantHeld
  noPool : m.quantAllocator = none → m.quantHeld = []

lemma Accounted.init : Accounted cfg Model.init :=
  ⟨.init, fun _ h => by simp [Model.init] at h, fun _ => rfl⟩

lemma Accounted.extends (h : Accounted cfg m) (hext : Extends cfg env m m') :
    Accounted cfg m' := by
  have hheld := hext.quantHeld h.sound
  refine ⟨hext.sound, ?_, ?_⟩
  · intro q hq
    rw [hheld]
    rcases hext.quant with hsame | ⟨hnone, -, base, -, hnew⟩
    · exact h.pool q (hsame ▸ hq)
    · rw [h.noPool hnone]
      obtain rfl := Option.some.inj (hnew.symm.trans hq)
      exact FreePool.full_holds _
  · intro hnone
    rw [hheld]
    rcases hext.quant with hsame | ⟨-, -, base, -, hnew⟩
    · exact h.noPool (hsame ▸ hnone)
    · rw [hnew] at hnone
      cases hnone

/-- A sequence without quantized slots may be lost. -/
lemma Accounted.loses (h : Accounted cfg m) (hl : Loses cfg env m m') (hheld : m.quantHeld = []) :
    Accounted cfg m' := by
  obtain ⟨hsound, hseq, -, m₁, hext, -, hpool, -⟩ := hl.spec h.sound
  have h₁ := h.extends hext
  have hheld₁ : m₁.quantHeld = [] := (hext.quantHeld h.sound).trans hheld
  have hheld' : m'.quantHeld = [] := by rw [quantHeld, hseq]; rfl
  refine ⟨hsound, ?_, fun _ => hheld'⟩
  intro q hq
  rw [hheld', ← hheld₁]
  exact h₁.pool q (hpool ▸ hq)

/-- **The slots of a lost sequence are taken for good**: no reset gives them back. -/
lemma lost_slots_stay_taken (h : Accounted cfg m) (hl : Loses cfg env m m')
    (hheld : m.quantHeld ≠ []) {q : PageAllocator} (hq : m'.quantAllocator = some q) :
    q.slots.free.length < q.slots.capacity ∧
      ∀ reset r m'', resetState reset m' = (r, m'') → m''.quantAllocator = some q := by
  obtain ⟨hsound, hseq, -, m₁, hext, -, hpool, -⟩ := hl.spec h.sound
  constructor
  · have hlen := ((h.extends hext).pool q (hpool ▸ hq)).length_eq
    rw [hext.quantHeld h.sound, List.length_append, List.length_range] at hlen
    have hpos := List.length_pos_of_ne_nil hheld
    omega
  · intro reset r m'' hreset
    rw [resetState] at hreset
    cases hclear : reset.clear with
    | error code =>
      simp only [hclear] at hreset
      obtain ⟨-, rfl⟩ := Prod.ext_iff.mp hreset
      exact hq
    | ok u =>
      simp only [hclear, hseq] at hreset
      obtain ⟨-, rfl⟩ := Prod.ext_iff.mp hreset
      exact hq

/-- A chunk is sealed into a slot of the pool. -/
lemma Accounted.sealed {s : SealState} {position n : ℕ} {prog : MegakernelProgram}
    {seq : SequenceState} {allocator : PageAllocator} (h : Accounted cfg m)
    (hseq : m.pagedSeq = some seq) (halloc : m.pageAllocator = some allocator)
    (hpost : postStepPaged ⟨prog, seq, m.quantAllocator, m.filled⟩ position m.heap allocator =
      .ok s) : Accounted cfg (m.sealed s n) := by
  have hsound := h.sound.sealed (n := n) hseq halloc hpost
  have hheld := quantHeld_eq hseq
  rcases postStepPaged_cases hpost with
    ⟨rfl, -⟩ | ⟨-, -, q, last, slot, ptr, q', kv, hq, -, ha, -, rfl⟩
  · refine ⟨hsound, ?_, ?_⟩
    · intro q hq
      have := h.pool q hq
      rwa [hheld] at this
    · intro hnone
      have := h.noPool hnone
      rwa [hheld] at this
  · have hq' : m.quantAllocator = some q := hq
    have hholds := h.pool q hq'
    rw [hheld] at hholds
    refine ⟨hsound, ?_, (fun hnone => by cases hnone)⟩
    intro q₁ hq₁
    obtain rfl := Option.some.inj hq₁
    have hnext := (SlotPool.alloc_holds hholds (PageAllocator.alloc_eq_some_iff.mp ha)).1
    exact hnext.perm (List.perm_append_singleton slot seq.quantSlots).symm

lemma Accounted.decode {tokenId position : ℕ} {r : Except ModelFault Unit} (h : Accounted cfg m)
    (hcall : decodeStep cfg env tokenId position m = (r, m'))
    (hno : ¬ ∃ e, r = .error e ∧ e.IsPanic) : Accounted cfg m' := by
  rw [decodeStep] at hcall
  rcases hpatch : decodePatch cfg env tokenId position m with ⟨e | u, m₁⟩ <;>
    simp only [hpatch] at hcall
  · obtain ⟨rfl, rfl⟩ := Prod.ext_iff.mp hcall
    rcases decodePatch_spec hpatch with ⟨hr, -⟩ | ⟨-, hsetup⟩ | hpanic
    · cases hr
    · exact h.extends (hsetup.grows.extends h.sound)
    · exact absurd hpanic hno
  obtain ⟨P⟩ : Nonempty (Patched cfg env tokenId position m m₁) := by
    rcases decodePatch_spec hpatch with ⟨-, hP⟩ | ⟨hr, -⟩ | ⟨e, hr, -⟩
    · exact hP
    · exact absurd rfl hr
    · cases hr
  have h₁ : Accounted cfg m₁ := by
    have hinit := h.extends (P.setups.grows.extends h.sound)
    have hspec := P.spec h.sound
    have hseq : m₁.pagedSeq = some P.seq' := congrArg Model.pagedSeq P.after
    have hheld : m₁.quantHeld = P.init.quantHeld := by
      rw [quantHeld_eq P.hseq, quantHeld_eq hseq]
      exact hspec.extended.quantSlots
    have hquant : m₁.quantAllocator = P.init.quantAllocator := by
      have hafter := congrArg Model.quantAllocator P.after
      exact hafter
    refine ⟨hspec.sound, ?_, ?_⟩
    · rw [hheld, hquant]
      exact hinit.pool
    · rw [hheld, hquant]
      exact hinit.noPool
  rcases decodeFinish_spec hcall with
    ⟨seq, allocator, prog, s, n, hseq, halloc, -, hpost, rfl⟩ | ⟨-, -, -, -, -, -, -, -, rfl⟩ |
      hpanic
  · exact h₁.sealed hseq halloc hpost
  · exact h₁
  · exact absurd hpanic hno

/-- The prefill keeps the sequence, or there is nothing of it to lose. -/
def KeepsSlots (m m' : Model) : Prop := m.quantHeld = [] ∨ m'.pagedSeq.isSome

lemma Accounted.prefillBody {total : ℕ} {r : Except ModelFault Unit} (h : Accounted cfg m)
    (hcall : Model.prefillBody cfg env total m = (r, m')) (hkeeps : KeepsSlots m m') :
    Accounted cfg m' := by
  rcases prefillBody_spec hcall with hgrow | hlose
  · exact h.extends (hgrow.extends h.sound)
  · refine h.loses hlose (hkeeps.resolve_right ?_)
    intro hsome
    rw [(hlose.spec h.sound).2.1] at hsome
    cases hsome

/-! ### Reset -/

/-- The KV state as loaded: the sequence is empty and every slot is free. -/
structure KvInitial (m : Model) : Prop where
  seqLen : m.seqLen = 0
  sequence : ∀ seq, m.pagedSeq = some seq →
    seq.chunks = [] ∧ seq.seqLen = 0 ∧ seq.positions = [] ∧ seq.quantSlots = []
  pool : ∀ a, m.pageAllocator = some a → a.slots.Holds []
  quant : ∀ q, m.quantAllocator = some q → q.slots.Holds []
  host : m.hostPageAllocator = none

/-- The quantized slots can be given back. -/
lemma Accounted.releaseQuant (h : Accounted cfg m) {seq : SequenceState}
    (hseq : m.pagedSeq = some seq) :
    ∃ quant seq₁, m.releaseQuant seq = .ok (quant, seq₁) ∧ seq₁.quantSlots = [] ∧
      ∀ q, quant = some q → q.slots.Holds [] := by
  rw [Model.releaseQuant]
  cases hq : m.quantAllocator with
  | none =>
    refine ⟨none, seq, rfl, ?_, fun q h => by cases h⟩
    rw [← quantHeld_eq hseq]
    exact h.noPool hq
  | some q =>
    have hholds := h.pool q hq
    rw [quantHeld_eq hseq] at hholds
    obtain ⟨q', hfree, hnil, -⟩ := SequenceState.freeQuantSlots_holds hholds
    refine ⟨some q', _, by simp only [hfree]; rfl, rfl, ?_⟩
    intro q₁ hq₁
    obtain rfl := Option.some.inj hq₁
    exact hnil

/-- **A reset gives every slot back.** -/
lemma Accounted.reset (h : Accounted cfg m) (hclear : env.clear = .ok ()) :
    ∃ m', resetState env m = (.ok (), m') ∧ KvInitial m' ∧ Accounted cfg m' ∧
      m'.persistentWorkers = false := by
  rw [resetState]
  simp only [hclear]
  cases hseq : m.pagedSeq with
  | none =>
    have hpool : m.pageAllocator = none := by
      have htogether := h.sound.together
      rwa [hseq, Option.isSome_none, eq_comm, Option.isSome_eq_false_iff,
        Option.isNone_iff_eq_none] at htogether
    have hheld : m.quantHeld = [] := by rw [quantHeld, hseq]; rfl
    have hfree : ∀ q, m.quantAllocator = some q → q.slots.Holds [] := by
      rw [← hheld]
      exact h.pool
    refine ⟨_, rfl, ⟨rfl, ?_, ?_, hfree, rfl⟩, ⟨?_, hfree, fun _ => rfl⟩, rfl⟩
    · intro seq hs
      cases hs
    · intro a ha
      rw [show m.pageAllocator = some a from ha] at hpool
      cases hpool
    · exact h.sound.of_same rfl hseq.symm rfl (fun _ => rfl) fun hw => by cases hw
  | some seq =>
    obtain ⟨allocator, halloc⟩ : ∃ a, m.pageAllocator = some a :=
      Option.isSome_iff_exists.mp (by rw [← h.sound.together, hseq]; rfl)
    obtain ⟨quant, seq₁, hrel, hnil, hquant⟩ := h.releaseQuant hseq
    have hsound := h.sound.releaseQuant hseq halloc hrel
    obtain ⟨heap', vram', seq₂, hok, -⟩ := SequenceState.reset_order hsound.exclusive
    have hspec := hsound.reset hok
    have hrel' : ∀ m₁ : Model, m₁.quantAllocator = m.quantAllocator →
        m₁.releaseQuant seq = .ok (quant, seq₁) := fun m₁ hq => by
      rw [← hrel, Model.releaseQuant, hq]
      rfl
    have hheld : seq₂.quantSlots = [] := hspec.quantSlots.trans hnil
    simp only [hrel', halloc, hok]
    refine ⟨_, rfl, ⟨rfl, ?_, ?_, ?_, rfl⟩, ⟨.cleared hspec.sound, ?_, fun _ => hheld⟩, rfl⟩
    · intro s hs
      obtain rfl := Option.some.inj hs
      exact ⟨hspec.empty.1, hspec.empty.2.1, hspec.empty.2.2, hheld⟩
    · intro a ha
      obtain rfl := Option.some.inj ha
      have hperm := hspec.sound.exclusive.order_perm
      rw [SequenceState.order, hspec.empty.1] at hperm
      rw [FreePool.Holds, List.append_nil]
      exact hperm
    · exact hquant
    · intro q hq
      change q.slots.Holds seq₂.quantSlots
      rw [hheld]
      exact hquant q hq

end Model

end Braidinfer.Engine
