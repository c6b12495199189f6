/-
Walking `n` items chunk by chunk from a rotated start.

Item `i` is place `i % size` of chunk `i / size`.  A walk visits the chunks in order, but
starting at chunk `rot` and wrapping around, and in every chunk its items in order; the last
chunk may be short.

* `chunkWalk_perm`: **a walk visits every item exactly once**, whatever the rotation.
-/
import Braidinfer.Lib.RowMajor
import Mathlib.Data.List.Basic
import Mathlib.Data.List.Dedup
import Mathlib.Data.List.Nodup
import Mathlib.Data.List.Perm.Subperm
import Mathlib.Data.Nat.ModEq
import Mathlib.Tactic.Common

namespace Braidinfer.Lib

/-- The number of chunks of `n` items. -/
def chunkCount (n size : ℕ) : ℕ := (n + size - 1) / size

/-- The number of items in chunk `c`. -/
def itemsInChunk (n size c : ℕ) : ℕ :=
  if c = chunkCount n size - 1 then n - c * size else size

/-- The chunks in the order of the walk. -/
def rotated (count rot : ℕ) : List ℕ :=
  (List.range count).map fun iter => (iter + rot % count) % count

/-- The items of a walk: chunk and place in the chunk. -/
def chunkWalk (n size rot : ℕ) : List (ℕ × ℕ) :=
  (rotated (chunkCount n size) rot).flatMap fun c =>
    (List.range (itemsInChunk n size c)).map fun t => (c, t)

variable {n size rot count c t : ℕ}

lemma rotated_perm : (rotated count rot).Perm (List.range count) := by
  have hinj : ∀ a < count, ∀ b < count,
      (a + rot % count) % count = (b + rot % count) % count → a = b := by
    intro a ha b hb h
    have hmod : a % count = b % count := Nat.ModEq.add_right_cancel' (rot % count) h
    rwa [Nat.mod_eq_of_lt ha, Nat.mod_eq_of_lt hb] at hmod
  have hnodup : (rotated count rot).Nodup := by
    refine (List.nodup_map_iff_inj_on List.nodup_range).mpr fun a ha b hb h => ?_
    exact hinj a (List.mem_range.mp ha) b (List.mem_range.mp hb) h
  refine (List.subperm_of_subset hnodup fun c hc => ?_).perm_of_length_le (by simp [rotated])
  obtain ⟨iter, hiter, rfl⟩ := List.mem_map.mp hc
  have hpos : 0 < count := Nat.zero_lt_of_lt (List.mem_range.mp hiter)
  exact List.mem_range.mpr (Nat.mod_lt _ hpos)

/-- A place of a chunk is the place of an item. -/
lemma lt_chunkCount_iff (hsize : 0 < size) :
    (c < chunkCount n size ∧ t < itemsInChunk n size c) ↔ t < size ∧ c * size + t < n := by
  have hcount : c < chunkCount n size ↔ c * size < n := by
    rw [chunkCount, Nat.lt_div_iff_mul_lt hsize]
    omega
  have hlast : chunkCount n size - 1 ≤ c ↔ n ≤ (c + 1) * size := by
    have hle : chunkCount n size ≤ c + 1 ↔ n ≤ (c + 1) * size := by
      rw [chunkCount, Nat.div_le_iff_le_mul_add_pred hsize, Nat.mul_comm]
      omega
    omega
  have hmul : (c + 1) * size = c * size + size := Nat.succ_mul c size
  rw [itemsInChunk, hcount]
  split_ifs with hc
  · have := hlast.mp (by omega)
    omega
  · constructor
    · rintro ⟨hlt, ht⟩
      have hnot : ¬ n ≤ (c + 1) * size := fun h => hc (by have := hlast.mpr h; omega)
      omega
    · rintro ⟨ht, hlt⟩
      omega

/-- **A walk visits every item exactly once.** -/
theorem chunkWalk_perm (hsize : 0 < size) :
    (chunkWalk n size rot).Perm ((List.range n).map fun i => (i / size, i % size)) := by
  have hperm : (chunkWalk n size rot).Perm ((List.range (chunkCount n size)).flatMap fun c =>
      (List.range (itemsInChunk n size c)).map fun t => (c, t)) := rotated_perm.flatMap_right _
  refine hperm.trans ((List.perm_ext_iff_of_nodup ?_ ?_).mpr ?_)
  · refine List.nodup_flatMap.mpr ⟨fun c _ => ?_, ?_⟩
    · exact (List.nodup_map_iff_inj_on List.nodup_range).mpr fun a _ b _ h => (Prod.mk.inj h).2
    · refine List.nodup_range.imp fun hne => ?_
      intro x hx hy
      obtain ⟨t, -, rfl⟩ := List.mem_map.mp hx
      obtain ⟨t', -, h⟩ := List.mem_map.mp hy
      exact hne (Prod.mk.inj h).1.symm
  · refine (List.nodup_map_iff_inj_on List.nodup_range).mpr fun a _ b _ h => ?_
    obtain ⟨hdiv, hmod⟩ := Prod.mk.inj h
    rw [← Nat.div_add_mod a size, ← Nat.div_add_mod b size, hdiv, hmod]
  · rintro ⟨c, t⟩
    simp only [List.mem_flatMap, List.mem_map, List.mem_range, Prod.mk.injEq]
    constructor
    · rintro ⟨c', hc, t', ht, rfl, rfl⟩
      obtain ⟨hts, hlt⟩ := (lt_chunkCount_iff hsize).mp ⟨hc, ht⟩
      exact ⟨c' * size + t', hlt, rowMajor_div hts, rowMajor_mod hts⟩
    · rintro ⟨i, hi, rfl, rfl⟩
      obtain ⟨hc, ht⟩ := (lt_chunkCount_iff (n := n) hsize).mpr
        ⟨Nat.mod_lt i hsize, by rwa [Nat.div_add_mod']⟩
      exact ⟨i / size, hc, i % size, ht, rfl, rfl⟩

end Braidinfer.Lib
