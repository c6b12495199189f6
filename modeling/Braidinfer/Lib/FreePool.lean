/-
Pools of numbered slots with a free stack.

A pool of capacity `n` hands out the slots `0, …, n - 1` from a stack and takes them back.
`FreePool.Holds p held` says that the free slots together with the slots in the list `held`
are the whole pool, each slot once; every operation is specified by what it does to `held`.

* `FreePool.full_holds`: a full pool holds nothing;
* `FreePool.Holds.take`: taking moves one slot from the stack to the held ones;
* `FreePool.Holds.put`: a held slot can be put back, neither check failing;
* `FreePool.Holds.nodup`, `Holds.lt`, `Holds.disjoint`, `Holds.mem_or`: what the partition
  says slot by slot.
-/
import Mathlib.Data.List.Range
import Mathlib.Data.List.Perm.Basic

namespace Braidinfer.Lib

/-- A pool of the slots below `capacity`.  The head of `free` is the top of the stack. -/
structure FreePool where
  capacity : ℕ
  free : List ℕ
deriving DecidableEq, Repr

/-- Why a slot cannot be put back. -/
inductive PutError
  | outOfRange
  | doubleFree
deriving DecidableEq, Repr

namespace FreePool

/-- The pool with every slot free, slot `0` on top. -/
def full (n : ℕ) : FreePool := ⟨n, List.range n⟩

/-- Pop the top slot, if there is one. -/
def take? (p : FreePool) : Option (ℕ × FreePool) :=
  match p.free with
  | [] => none
  | i :: rest => some (i, { p with free := rest })

/-- Push a slot back.  A slot past the capacity and a slot that is already free are
refused. -/
def put (p : FreePool) (i : ℕ) : Except PutError FreePool :=
  if p.capacity ≤ i then .error .outOfRange
  else if i ∈ p.free then .error .doubleFree
  else .ok { p with free := i :: p.free }

/-- The free slots and the slots in `held` are the whole pool, each slot once. -/
def Holds (p : FreePool) (held : List ℕ) : Prop :=
  (p.free ++ held).Perm (List.range p.capacity)

variable {p p' : FreePool} {held held' : List ℕ} {i : ℕ}

lemma take?_eq_none_iff : p.take? = none ↔ p.free = [] := by
  rw [take?]
  cases p.free <;> simp

lemma take?_eq_some_iff :
    p.take? = some (i, p') ↔ p.free = i :: p'.free ∧ p'.capacity = p.capacity := by
  obtain ⟨n, fr⟩ := p
  obtain ⟨n', fr'⟩ := p'
  cases fr with
  | nil => simp [take?]
  | cons j rest =>
      simp only [take?, Option.some.injEq, Prod.mk.injEq, FreePool.mk.injEq, List.cons.injEq]
      constructor
      · rintro ⟨rfl, rfl, rfl⟩
        exact ⟨⟨rfl, rfl⟩, rfl⟩
      · rintro ⟨⟨rfl, rfl⟩, rfl⟩
        exact ⟨rfl, rfl, rfl⟩

lemma full_holds (n : ℕ) : (full n).Holds [] := by
  simp [Holds, full]

namespace Holds

/-- Only the multiset of held slots matters. -/
lemma perm (h : p.Holds held) (hp : held.Perm held') : p.Holds held' :=
  (hp.symm.append_left p.free).trans h

lemma nodup (h : p.Holds held) : (p.free ++ held).Nodup :=
  h.nodup_iff.mpr List.nodup_range

lemma free_nodup (h : p.Holds held) : p.free.Nodup :=
  (List.nodup_append.mp h.nodup).1

lemma held_nodup (h : p.Holds held) : held.Nodup :=
  (List.nodup_append.mp h.nodup).2.1

lemma disjoint (h : p.Holds held) (hi : i ∈ held) : i ∉ p.free := by
  intro hfree
  exact (List.nodup_append.mp h.nodup).2.2 i hfree i hi rfl

lemma mem_or (h : p.Holds held) : i < p.capacity ↔ i ∈ p.free ∨ i ∈ held := by
  rw [← List.mem_append, h.mem_iff, List.mem_range]

lemma held_lt (h : p.Holds held) (hi : i ∈ held) : i < p.capacity :=
  h.mem_or.mpr (Or.inr hi)

lemma free_lt (h : p.Holds held) (hi : i ∈ p.free) : i < p.capacity :=
  h.mem_or.mpr (Or.inl hi)

/-- Taking a slot moves it from the stack to the held slots. -/
lemma take (h : p.Holds held) (ht : p.take? = some (i, p')) : p'.Holds (i :: held) := by
  obtain ⟨hfree, hcap⟩ := take?_eq_some_iff.mp ht
  rw [Holds, hcap]
  refine List.Perm.trans ?_ h
  rw [hfree]
  exact List.perm_middle

/-- A held slot can be put back: neither check fails, and the slot is free again. -/
lemma put (h : p.Holds (i :: held)) :
    ∃ p', p.put i = .ok p' ∧ p'.Holds held ∧ p'.capacity = p.capacity := by
  have hlt : ¬ p.capacity ≤ i := Nat.not_le.mpr (h.held_lt List.mem_cons_self)
  have hfree : i ∉ p.free := h.disjoint List.mem_cons_self
  refine ⟨{ p with free := i :: p.free }, by simp [FreePool.put, hlt, hfree], ?_, rfl⟩
  exact List.perm_middle.symm.trans h

end Holds

end FreePool

end Braidinfer.Lib
