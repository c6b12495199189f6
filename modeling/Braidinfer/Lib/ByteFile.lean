/-
Little-endian integers, and files that are written at a cursor.

* `leBytes`, `ofLeBytes`: `k` little-endian bytes of a number and back
  (`ofLeBytes_leBytes`);
* `slice`: a range of bytes, and where it lies in a concatenation (`slice_append_left`,
  `slice_middle`);
* `ByteFile`: bytes and a cursor that may stand past their end.  Writing there fills the gap
  with zeros; writing nothing leaves the file as it is;
* `ByteFile.image`: the bytes with the gap filled, `ByteFile.writeAll_image` and
  `ByteFile.writeAll_append`: what a write at the end does to it, and that two writes in a
  row are one.
-/
import Mathlib.Data.List.Basic
import Mathlib.Algebra.Order.Group.Nat
import Mathlib.Tactic.Ring

namespace Braidinfer.Lib

/-! ### Integers -/

/-- The `k` little-endian bytes of `n`, modulo `256 ^ k`. -/
def leBytes : ℕ → ℕ → List UInt8
  | 0, _ => []
  | k + 1, n => UInt8.ofNat n :: leBytes k (n / 256)

/-- The number with the given little-endian bytes. -/
def ofLeBytes : List UInt8 → ℕ
  | [] => 0
  | b :: bs => b.toNat + 256 * ofLeBytes bs

@[simp] lemma length_leBytes (k n : ℕ) : (leBytes k n).length = k := by
  induction k generalizing n with
  | zero => rfl
  | succ k ih => rw [leBytes, List.length_cons, ih]

/-- Reading back what was written. -/
lemma ofLeBytes_leBytes (k n : ℕ) : ofLeBytes (leBytes k n) = n % 256 ^ k := by
  induction k generalizing n with
  | zero => simp [leBytes, ofLeBytes, Nat.mod_one]
  | succ k ih =>
      rw [leBytes, ofLeBytes, ih, UInt8.toNat_ofNat', pow_succ' 256, Nat.mod_mul]

lemma ofLeBytes_leBytes_of_lt {k n : ℕ} (h : n < 256 ^ k) : ofLeBytes (leBytes k n) = n := by
  rw [ofLeBytes_leBytes, Nat.mod_eq_of_lt h]

lemma ofLeBytes_lt (bs : List UInt8) : ofLeBytes bs < 256 ^ bs.length := by
  induction bs with
  | nil => exact Nat.one_pos
  | cons b bs ih =>
      have hb : b.toNat < 256 := b.toNat_lt
      rw [ofLeBytes, List.length_cons, pow_succ']
      omega

/-- Writing back what was read. -/
lemma leBytes_ofLeBytes (bs : List UInt8) : leBytes bs.length (ofLeBytes bs) = bs := by
  induction bs with
  | nil => rfl
  | cons b bs ih =>
      have hb : b.toNat < 256 := b.toNat_lt
      have hhead : UInt8.ofNat (b.toNat + 256 * ofLeBytes bs) = b := by
        refine UInt8.toNat_inj.mp ?_
        rw [UInt8.toNat_ofNat']
        omega
      have htail : (b.toNat + 256 * ofLeBytes bs) / 256 = ofLeBytes bs := by omega
      rw [ofLeBytes, List.length_cons, leBytes, hhead, htail, ih]

/-! ### Ranges -/

variable {α : Type*}

/-- The `n` elements from `off` on. -/
def slice (l : List α) (off n : ℕ) : List α := (l.drop off).take n

/-- A range within the first part of a concatenation. -/
lemma slice_append_left {l₁ l₂ : List α} {off n : ℕ} (h : off + n ≤ l₁.length) :
    slice (l₁ ++ l₂) off n = slice l₁ off n := by
  rw [slice, slice, List.drop_append_of_le_length (by omega),
    List.take_append_of_le_length (by rw [List.length_drop]; omega)]

/-- The middle part of a concatenation. -/
lemma slice_middle (l₁ l₂ l₃ : List α) : slice (l₁ ++ l₂ ++ l₃) l₁.length l₂.length = l₂ := by
  rw [slice, List.append_assoc, List.drop_left, List.take_left]

/-- Overwriting the beginning of a list leaves what lies behind it. -/
lemma slice_overwrite {l a : List α} {off : ℕ} (h : a.length ≤ off) (n : ℕ) :
    slice (a ++ l.drop a.length) off n = slice l off n := by
  rw [slice, slice, List.drop_append, List.drop_of_length_le h, List.nil_append, List.drop_drop,
    Nat.add_sub_of_le h]

lemma length_overwrite {l a : List α} (h : a.length ≤ l.length) :
    (a ++ l.drop a.length).length = l.length := by
  rw [List.length_append, List.length_drop]
  omega

/-! ### Files -/

/-- A file open for writing. -/
structure ByteFile where
  bytes : List UInt8
  cursor : ℕ

namespace ByteFile

/-- A new file. -/
def create : ByteFile := ⟨[], 0⟩

/-- Move the cursor; nothing is written. -/
def seek (f : ByteFile) (pos : ℕ) : ByteFile := { f with cursor := pos }

/-- Write at the cursor and move it behind what was written. -/
def writeAll (f : ByteFile) (data : List UInt8) : ByteFile :=
  if data = [] then f
  else
    { bytes := (f.bytes ++ List.replicate (f.cursor - f.bytes.length) 0).take f.cursor ++ data ++
        f.bytes.drop (f.cursor + data.length)
      cursor := f.cursor + data.length }

/-- The bytes, with zeros up to the cursor. -/
def image (f : ByteFile) : List UInt8 :=
  f.bytes ++ List.replicate (f.cursor - f.bytes.length) 0

variable {f : ByteFile} {a b : List UInt8}

/-- The cursor stands at the end of the file or past it. -/
def AtEnd (f : ByteFile) : Prop := f.bytes.length ≤ f.cursor

lemma length_image (h : f.AtEnd) : f.image.length = f.cursor := by
  rw [image, List.length_append, List.length_replicate]
  exact Nat.add_sub_of_le h

lemma atEnd_seek_create (pos : ℕ) : (create.seek pos).AtEnd := Nat.zero_le pos

lemma image_seek_create (pos : ℕ) : (create.seek pos).image = List.replicate pos 0 := rfl

/-- The bytes after something was written at the end. -/
lemma writeAll_bytes (h : f.AtEnd) (ha : a ≠ []) : (f.writeAll a).bytes = f.image ++ a := by
  rw [writeAll, if_neg ha]
  have htake : f.image.take f.cursor = f.image := by
    rw [List.take_of_length_le (length_image h).le]
  have hdrop : f.bytes.drop (f.cursor + a.length) = [] :=
    List.drop_of_length_le (le_trans h (Nat.le_add_right _ _))
  change f.image.take f.cursor ++ a ++ f.bytes.drop (f.cursor + a.length) = f.image ++ a
  rw [htake, hdrop, List.append_nil]

/-- **A write at the end.** -/
lemma writeAll_image (h : f.AtEnd) : (f.writeAll a).AtEnd ∧
    (f.writeAll a).image = f.image ++ a ∧ (f.writeAll a).cursor = f.cursor + a.length := by
  by_cases ha : a = []
  · rw [ha, writeAll, if_pos rfl, List.append_nil]
    exact ⟨h, rfl, rfl⟩
  · have hbytes := writeAll_bytes h ha
    have hcursor : (f.writeAll a).cursor = f.cursor + a.length := by rw [writeAll, if_neg ha]
    have hlen : (f.writeAll a).bytes.length = (f.writeAll a).cursor := by
      rw [hbytes, hcursor, List.length_append, length_image h]
    refine ⟨hlen.le, ?_, hcursor⟩
    rw [image, hlen, Nat.sub_self, List.replicate_zero, List.append_nil, hbytes]

/-- Two writes in a row are one. -/
lemma writeAll_append (f : ByteFile) (a b : List UInt8) :
    (f.writeAll a).writeAll b = f.writeAll (a ++ b) := by
  by_cases ha : a = []
  · rw [ha, List.nil_append]
    rfl
  by_cases hb : b = []
  · rw [hb, List.append_nil, writeAll, if_pos rfl]
  have hab : a ++ b ≠ [] := List.append_ne_nil_of_left_ne_nil ha b
  set start := (f.bytes ++ List.replicate (f.cursor - f.bytes.length) 0).take f.cursor with hstart
  have hlen : start.length = f.cursor := by
    rw [hstart, List.length_take, List.length_append, List.length_replicate]
    omega
  have hfirst : f.writeAll a =
      ⟨start ++ a ++ f.bytes.drop (f.cursor + a.length), f.cursor + a.length⟩ := by
    rw [writeAll, if_neg ha]
  have hboth : f.writeAll (a ++ b) =
      ⟨start ++ (a ++ b) ++ f.bytes.drop (f.cursor + (a ++ b).length),
        f.cursor + (a ++ b).length⟩ := by
    rw [writeAll, if_neg hab]
  have hsum : f.cursor + (a ++ b).length = f.cursor + a.length + b.length := by
    rw [List.length_append, Nat.add_assoc]
  have hhead : (start ++ a).length = f.cursor + a.length := by
    rw [List.length_append, hlen]
  rw [hfirst, hboth, writeAll, if_neg hb, hsum, ByteFile.mk.injEq]
  refine ⟨?_, rfl⟩
  -- the cursor stands within the bytes, behind `a`
  have hle : f.cursor + a.length ≤
      (start ++ a ++ f.bytes.drop (f.cursor + a.length)).length := by
    rw [List.length_append, hhead]
    exact Nat.le_add_right _ _
  have hgap : f.cursor + a.length -
      (start ++ a ++ f.bytes.drop (f.cursor + a.length)).length = 0 :=
    Nat.sub_eq_zero_of_le hle
  have hkeep : (start ++ a ++ f.bytes.drop (f.cursor + a.length)).take (f.cursor + a.length) =
      start ++ a := by
    rw [← hhead, List.take_left]
  have hrest : (start ++ a ++ f.bytes.drop (f.cursor + a.length)).drop
      (f.cursor + a.length + b.length) = f.bytes.drop (f.cursor + a.length + b.length) := by
    rw [List.drop_append, List.drop_of_length_le (by rw [hhead]; omega), hhead, List.nil_append,
      List.drop_drop]
    congr 1
    omega
  rw [hgap, List.replicate_zero, List.append_nil, hkeep, hrest, List.append_assoc start]

/-- Overwriting the beginning of a file. -/
lemma writeAll_seek_zero (f : ByteFile) (a : List UInt8) :
    ((f.seek 0).writeAll a).bytes = a ++ f.bytes.drop a.length := by
  by_cases ha : a = []
  · rw [ha, writeAll, if_pos rfl]
    rfl
  · rw [writeAll, if_neg ha]
    simp [seek]

end ByteFile

end Braidinfer.Lib
