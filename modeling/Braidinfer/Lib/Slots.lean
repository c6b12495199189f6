/-
A buffer that is cut into slots of one size, and the round-robin numbering of its contents.

Somebody distributes numbered items over several owners.  Every owner numbers its items in order
(`Nat.count`) and stores item `e` in the slot of that number.

* `overwriteAt`: storing a range (`slice_overwriteAt`, `slice_overwriteAt_of_disjoint`);
* `slice_flatMap_range`, `slice_flatMap_range_rows`, `getD_flatMap_range`: an item, items one after
  the other, and an element of an item, in the concatenation of all items;
* `slotOf`, `ownedCount`: the slot of an item and the number of slots of an owner (`slotOf_lt`,
  `slotOf_inj`);
* `slice_overwriteAt_slot`, `slice_overwriteAt_slot_of_ne`: **storing an item into its slot**.
-/
import Mathlib.Data.Nat.Count
import Mathlib.Logic.Function.Basic
import Braidinfer.Lib.ByteFile
import Braidinfer.Lib.RowMajor

namespace Braidinfer.Lib

variable {α : Type*} {l a b : List α} {off off' n : ℕ}

/-! ### Ranges -/

/-- Store `a` from `off` on. -/
def overwriteAt (l : List α) (off : ℕ) (a : List α) : List α :=
  l.take off ++ a ++ l.drop (off + a.length)

lemma length_overwriteAt (h : off + a.length ≤ l.length) :
    (overwriteAt l off a).length = l.length := by
  simp only [overwriteAt, List.length_append, List.length_take, List.length_drop]
  omega

/-- What was stored. -/
lemma slice_overwriteAt (h : off ≤ l.length) : slice (overwriteAt l off a) off a.length = a := by
  have hlen : (l.take off).length = off := List.length_take_of_le h
  have hmid := slice_middle (l.take off) a (l.drop (off + a.length))
  rwa [hlen] at hmid

lemma slice_take (h : off + n ≤ off') : slice (l.take off') off n = slice l off n := by
  rw [slice, slice, List.drop_take, List.take_take, Nat.min_eq_left (by omega)]

/-- What lies outside the stored range stays. -/
lemma slice_overwriteAt_of_disjoint (hin : off + a.length ≤ l.length)
    (h : off' + n ≤ off ∨ off + a.length ≤ off') :
    slice (overwriteAt l off a) off' n = slice l off' n := by
  have hlen : (l.take off).length = off := List.length_take_of_le (by omega)
  rcases h with h | h
  · rw [overwriteAt, List.append_assoc, slice_append_left (by rw [hlen]; exact h), slice_take h]
  · rw [overwriteAt, slice, slice, List.drop_append, List.drop_of_length_le (by simp; omega),
      List.nil_append, List.drop_drop]
    congr 2
    rw [List.length_append, hlen]
    omega

/-- Two adjacent stores are one. -/
lemma overwriteAt_append (h : off + a.length ≤ l.length) :
    overwriteAt (overwriteAt l off a) (off + a.length) b = overwriteAt l off (a ++ b) := by
  have hlen : (l.take off ++ a).length = off + a.length := by
    rw [List.length_append, List.length_take_of_le (by omega)]
  have htake : (overwriteAt l off a).take (off + a.length) = l.take off ++ a := by
    rw [overwriteAt, List.take_append_of_le_length hlen.ge, ← hlen, List.take_length]
  have hdrop : (overwriteAt l off a).drop (off + a.length + b.length) =
      l.drop (off + (a ++ b).length) := by
    rw [overwriteAt, ← hlen, ← List.drop_drop, List.drop_left, hlen, List.drop_drop,
      List.length_append, Nat.add_assoc]
  rw [overwriteAt, htake, hdrop, overwriteAt, List.append_assoc (l.take off)]

/-! ### Items of one size -/

section Items

variable {stride ne e e' : ℕ} {item : ℕ → List α}

lemma length_flatMap_range (hlen : ∀ e < ne, (item e).length = stride) :
    ((List.range ne).flatMap item).length = ne * stride := by
  induction ne with
  | zero => simp
  | succ ne ih =>
      rw [List.range_succ, List.flatMap_append, List.length_append,
        ih fun e he => hlen e (Nat.lt_succ_of_lt he), List.flatMap_singleton,
        hlen ne (Nat.lt_succ_self ne), Nat.succ_mul]

/-- An item in the concatenation of all items. -/
lemma slice_flatMap_range (hlen : ∀ e < ne, (item e).length = stride) (he : e < ne) :
    slice ((List.range ne).flatMap item) (e * stride) stride = item e := by
  obtain ⟨k, rfl⟩ := Nat.exists_eq_add_of_lt he
  have hsplit : (List.range (e + k + 1)).flatMap item =
      (List.range e).flatMap item ++ item e ++
        ((List.range k).map fun i => e + 1 + i).flatMap item := by
    rw [Nat.add_right_comm, List.range_add, List.range_succ]
    simp
  have hhead : ((List.range e).flatMap item).length = e * stride :=
    length_flatMap_range fun e' h => hlen e' (by omega)
  have hmid := slice_middle ((List.range e).flatMap item) (item e)
    (((List.range k).map fun i => e + 1 + i).flatMap item)
  rw [hhead, hlen e he] at hmid
  rw [hsplit]
  exact hmid

/-- Items one after the other in the concatenation of all items. -/
lemma slice_flatMap_range_rows {a n : ℕ} (hlen : ∀ e < ne, (item e).length = stride)
    (hle : a + n ≤ ne) : slice ((List.range ne).flatMap item) (a * stride) (n * stride) =
      (List.range n).flatMap fun e => item (a + e) := by
  obtain ⟨k, rfl⟩ := Nat.exists_eq_add_of_le hle
  have hsplit : (List.range (a + n + k)).flatMap item = (List.range a).flatMap item ++
      ((List.range n).flatMap fun e => item (a + e)) ++
        (List.range k).flatMap fun e => item (a + n + e) := by
    rw [List.range_add, List.range_add, List.flatMap_append, List.flatMap_append,
      List.flatMap_map, List.flatMap_map]
  have hhead : ((List.range a).flatMap item).length = a * stride :=
    length_flatMap_range fun e he => hlen e (by omega)
  have hmid : ((List.range n).flatMap fun e => item (a + e)).length = n * stride :=
    length_flatMap_range fun e he => hlen (a + e) (by omega)
  rw [hsplit, ← hhead, ← hmid]
  exact slice_middle _ _ _

/-- An element of one of the items. -/
lemma getD_flatMap_range (hlen : ∀ e < ne, (item e).length = stride) (he : e < ne) {k : ℕ}
    (hk : k < stride) (d : α) :
    ((List.range ne).flatMap item).getD (e * stride + k) d = (item e).getD k d := by
  rw [← slice_flatMap_range hlen he, slice, List.getD_eq_getElem?_getD, List.getD_eq_getElem?_getD,
    List.getElem?_take_of_lt hk, List.getElem?_drop]

end Items

/-! ### Tables over a range -/

section Tables

variable {f : ℕ → α} {i : ℕ}

lemma set_map_range (v : α) : ((List.range n).map f).set i v =
    (List.range n).map (Function.update f i v) := by
  refine List.ext_getElem? fun j => ?_
  rw [List.getElem?_set, List.getElem?_map, List.getElem?_map]
  by_cases hij : i = j
  · subst hij
    by_cases hi : i < n <;> simp [hi]
  · rw [if_neg hij]
    by_cases hj : j < n <;> simp [hj, Function.update_of_ne (Ne.symm hij)]

lemma modify_map_range (g : α → α) : ((List.range n).map f).modify i g =
    (List.range n).map (Function.update f i (g (f i))) := by
  refine List.ext_getElem? fun j => ?_
  rw [List.getElem?_modify, List.getElem?_map, List.getElem?_map]
  by_cases hij : i = j
  · subst hij
    by_cases hi : i < n <;> simp [hi]
  · by_cases hj : j < n <;> simp [hj, hij, Function.update_of_ne (Ne.symm hij)]

/-- `f` below `n`, and `a` from there on. -/
def below (f : ℕ → α) (a : α) (n : ℕ) : ℕ → α := fun e => if e < n then f e else a

variable {a : α}

lemma below_zero : below f a 0 = fun _ => a := rfl

lemma below_succ : below f a (n + 1) = Function.update (below f a n) n (f n) := by
  funext e
  by_cases he : e = n
  · simp [he, below]
  · have hiff : e < n + 1 ↔ e < n := by omega
    simp [he, below, hiff]

lemma below_succ_of_eq (h : f n = a) : below f a (n + 1) = below f a n := by
  rw [below_succ, h, Function.update_eq_self_iff]
  simp [below]

lemma map_range_below : (List.range n).map (below f a n) = (List.range n).map f :=
  List.map_congr_left fun _ he => if_pos (List.mem_range.mp he)

lemma replicate_eq_map_range : List.replicate n a = (List.range n).map fun _ => a := by
  rw [List.map_const', List.length_range]

lemma getElem?_map_range (hi : i < n) : ((List.range n).map f)[i]? = some (f i) := by
  simp [hi]

lemma getD_map_range (hi : i < n) (d : α) : ((List.range n).map f).getD i d = f i := by
  rw [List.getD_eq_getElem?_getD, getElem?_map_range hi, Option.getD_some]

/-- An entry of a list that is mapped, whatever stands past the end. -/
lemma getD_map {β : Type*} {l : List β} (hi : i < l.length) (g : β → α) (d : α) (d' : β) :
    (l.map g).getD i d = g (l.getD i d') := by
  rw [List.getD_eq_getElem?_getD, List.getD_eq_getElem?_getD, List.getElem?_map,
    List.getElem?_eq_getElem hi, Option.map_some, Option.getD_some, Option.getD_some]

end Tables

/-! ### Slots -/

section Slots

variable {stride e e' ne : ℕ} {owner : ℕ → ℕ}

/-- The slot of item `e` at its owner. -/
def slotOf (owner : ℕ → ℕ) (e : ℕ) : ℕ := Nat.count (fun e' => owner e' = owner e) e

/-- The number of items of an owner. -/
def ownedCount (owner : ℕ → ℕ) (ne gpu : ℕ) : ℕ := Nat.count (fun e => owner e = gpu) ne

lemma slotOf_lt (owner : ℕ → ℕ) (he : e < ne) : slotOf owner e < ownedCount owner ne (owner e) :=
  Nat.count_strict_mono rfl he

/-- Items of one owner have different slots. -/
lemma slotOf_inj (howner : owner e = owner e') (h : slotOf owner e = slotOf owner e') :
    e = e' := by
  rw [slotOf, slotOf, howner] at h
  exact Nat.count_injective (p := fun x => owner x = owner e') howner rfl h

/-- Slots of different numbers do not overlap. -/
lemma slots_disjoint {s s' : ℕ} (h : s ≠ s') :
    s' * stride + stride ≤ s * stride ∨ s * stride + stride ≤ s' * stride := by
  rw [← Nat.succ_mul, ← Nat.succ_mul]
  rcases Nat.lt_or_gt_of_ne h with h | h
  · exact Or.inr (Nat.mul_le_mul_right stride h)
  · exact Or.inl (Nat.mul_le_mul_right stride h)

lemma slot_in_buffer {s count : ℕ} (h : s < count) (hlen : l.length = count * stride)
    (ha : a.length = stride) : s * stride + a.length ≤ l.length := by
  rw [ha, hlen, ← Nat.succ_mul]
  exact Nat.mul_le_mul_right stride h

/-- Storing an item into its slot. -/
lemma slice_overwriteAt_slot {s count : ℕ} (h : s < count) (hlen : l.length = count * stride)
    (ha : a.length = stride) : slice (overwriteAt l (s * stride) a) (s * stride) stride = a := by
  have hin := slot_in_buffer h hlen ha
  have hslice : slice (overwriteAt l (s * stride) a) (s * stride) a.length = a :=
    slice_overwriteAt (by omega)
  rwa [ha] at hslice

/-- The other slots stay. -/
lemma slice_overwriteAt_slot_of_ne {s s' count : ℕ} (h : s < count)
    (hlen : l.length = count * stride) (ha : a.length = stride) (hne : s ≠ s') :
    slice (overwriteAt l (s * stride) a) (s' * stride) stride =
      slice l (s' * stride) stride := by
  refine slice_overwriteAt_of_disjoint (slot_in_buffer h hlen ha) ?_
  rw [ha]
  exact slots_disjoint hne

end Slots

end Braidinfer.Lib
