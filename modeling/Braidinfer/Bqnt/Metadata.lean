/-
The JSON metadata of a BQNT file: values of `serde_json`, and the keys of the name table.

* `Json`: a value; an object is the list of its members, in the key order of
  `serde_json::Map`;
* `Json.insert`: `Map::insert` (`lookup_insert_self`, `lookup_insert_of_ne`, `mem_insert`);
* `hexKey`, `parseHexKey`: a hash as a key of the name table, and back
  (`parseHexKey_hexKey`).
-/
import Mathlib.Data.List.Basic
import Mathlib.Algebra.Order.Group.Nat
import Mathlib.Tactic.IntervalCases
import Mathlib.Tactic.Ring

namespace Braidinfer.Bqnt

/-! ### Values -/

/-- `serde_json::Value`, over the numbers `N`. -/
inductive Json (N : Type)
  | null
  | bool (b : Bool)
  | number (n : N)
  | string (s : String)
  | array (values : List (Json N))
  | object (members : List (String × Json N))

namespace Json

variable {N : Type}

/-- `Map::insert`, on a map in key order. -/
def insert (key : String) (value : Json N) : List (String × Json N) → List (String × Json N)
  | [] => [(key, value)]
  | (k, v) :: rest =>
      if key < k then (key, value) :: (k, v) :: rest
      else if key = k then (key, value) :: rest
      else (k, v) :: insert key value rest

/-- `Value::as_object`. -/
def asObject : Json N → Option (List (String × Json N))
  | .object members => some members
  | _ => none

/-- `Value::as_str`. -/
def asStr : Json N → Option String
  | .string s => some s
  | _ => none

/-- `Value::get` with a string key. -/
def get (key : String) (v : Json N) : Option (Json N) := v.asObject.bind (List.lookup key)

variable {key key' : String} {value : Json N} {members : List (String × Json N)}

lemma lookup_insert_self : (insert key value members).lookup key = some value := by
  induction members with
  | nil => simp [insert]
  | cons m rest ih =>
      obtain ⟨k, v⟩ := m
      rw [insert]
      split_ifs with hlt heq
      · simp
      · simp
      · have hne : (key == k) = false := beq_false_of_ne heq
        rw [List.lookup_cons, hne]
        exact ih

lemma lookup_insert_of_ne (h : key' ≠ key) :
    (insert key value members).lookup key' = members.lookup key' := by
  have hne : (key' == key) = false := beq_false_of_ne h
  induction members with
  | nil => simp [insert, List.lookup_cons, hne]
  | cons m rest ih =>
      obtain ⟨k, v⟩ := m
      rw [insert]
      split_ifs with hlt heq
      · simp only [List.lookup_cons, hne]
      · rw [← heq]
        simp only [List.lookup_cons, hne]
      · simp only [List.lookup_cons, ih]

/-- The members of the map after an insertion. -/
lemma mem_insert {m : String × Json N} (h : m ∈ insert key value members) :
    m = (key, value) ∨ m ∈ members := by
  induction members with
  | nil => exact .inl (List.mem_singleton.mp h)
  | cons m' rest ih =>
      obtain ⟨k, v⟩ := m'
      rw [insert] at h
      split_ifs at h with hlt heq
      · exact List.mem_cons.mp h
      · exact (List.mem_cons.mp h).imp_right (List.mem_cons_of_mem _)
      · rcases List.mem_cons.mp h with rfl | h
        · exact .inr List.mem_cons_self
        · exact (ih h).imp_right (List.mem_cons_of_mem _)

/-- What is looked up is a member. -/
lemma mem_of_lookup (h : members.lookup key = some value) : (key, value) ∈ members := by
  induction members with
  | nil => cases h
  | cons m rest ih =>
      obtain ⟨k, v⟩ := m
      rw [List.lookup_cons] at h
      split at h
      · rename_i heq
        rw [eq_of_beq heq, ← Option.some.inj h]
        exact List.mem_cons_self
      · exact List.mem_cons_of_mem _ (ih h)

end Json

/-! ### Keys of the name table -/

/-- The last `k` hexadecimal digits of `n`. -/
def hexDigits : ℕ → ℕ → List Char
  | 0, _ => []
  | k + 1, n => hexDigits k (n / 16) ++ [Nat.digitChar (n % 16)]

/-- `format!("{hash:#018x}")`. -/
def hexKey (hash : UInt64) : String := String.ofList ('0' :: 'x' :: hexDigits 16 hash.toNat)

/-- `char::to_digit(16)`. -/
def digit16 (c : Char) : Option ℕ :=
  if '0' ≤ c ∧ c ≤ '9' then some (c.toNat - '0'.toNat)
  else if 'a' ≤ c ∧ c ≤ 'f' then some (c.toNat - 'a'.toNat + 10)
  else if 'A' ≤ c ∧ c ≤ 'F' then some (c.toNat - 'A'.toNat + 10)
  else none

/-- The digit loop of `u64::from_str_radix`, with its overflow checks. -/
def hexValue (acc : ℕ) : List Char → Option ℕ
  | [] => some acc
  | c :: cs =>
      match digit16 c with
      | none => none
      | some d => if acc * 16 + d < 2 ^ 64 then hexValue (acc * 16 + d) cs else none

/-- `u64::from_str_radix(s, 16)`. -/
def u64FromStrRadix16 : List Char → Option UInt64
  | [] => none
  | ['+'] => none
  | '+' :: cs => (hexValue 0 cs).map UInt64.ofNat
  | cs => (hexValue 0 cs).map UInt64.ofNat

/-- `trim_start_matches("0x")`. -/
def trimStart0x : List Char → List Char
  | '0' :: 'x' :: cs => trimStart0x cs
  | cs => cs

/-- The hash of a key of the name table. -/
def parseHexKey (key : String) : Option UInt64 := u64FromStrRadix16 (trimStart0x key.toList)

lemma digit16_digitChar {d : ℕ} (h : d < 16) : digit16 (Nat.digitChar d) = some d := by
  interval_cases d <;> decide

lemma digit16_of_mem {k n : ℕ} {c : Char} (h : c ∈ hexDigits k n) : (digit16 c).isSome := by
  induction k generalizing n with
  | zero => cases h
  | succ k ih =>
      rw [hexDigits, List.mem_append, List.mem_singleton] at h
      rcases h with h | rfl
      · exact ih h
      · rw [digit16_digitChar (Nat.mod_lt _ (by decide))]
        rfl

lemma hexValue_append (acc : ℕ) (cs : List Char) (c : Char) :
    hexValue acc (cs ++ [c]) = (hexValue acc cs).bind fun n => hexValue n [c] := by
  induction cs generalizing acc with
  | nil => rfl
  | cons c' cs ih =>
      rw [List.cons_append, hexValue, hexValue]
      cases digit16 c' with
      | none => rfl
      | some d =>
          simp only
          split_ifs
          · exact ih _
          · rfl

/-- Reading the digits of a number back. -/
lemma hexValue_hexDigits {k n : ℕ} (h : n < 16 ^ k) (h64 : n < 2 ^ 64) :
    hexValue 0 (hexDigits k n) = some n := by
  induction k generalizing n with
  | zero =>
      rw [pow_zero] at h
      rw [Nat.lt_one_iff.mp h]
      rfl
  | succ k ih =>
      have hdiv : n / 16 < 16 ^ k := Nat.div_lt_of_lt_mul (by rwa [← pow_succ'])
      have hstep : n / 16 * 16 + n % 16 = n := Nat.div_add_mod' n 16
      rw [hexDigits, hexValue_append, ih hdiv (by omega), Option.bind_some, hexValue,
        digit16_digitChar (Nat.mod_lt _ (by decide))]
      simp only [hstep, if_pos h64]
      rfl

lemma trimStart0x_of_not_mem {cs : List Char} (h : 'x' ∉ cs) : trimStart0x cs = cs := by
  unfold trimStart0x
  split
  · simp at h
  · rfl

/-- **The key of a hash gives the hash back.** -/
lemma parseHexKey_hexKey (hash : UInt64) : parseHexKey (hexKey hash) = some hash := by
  have hx : 'x' ∉ hexDigits 16 hash.toNat := fun h => by
    have := digit16_of_mem h
    exact absurd this (by decide)
  have hplus : '+' ∉ hexDigits 16 hash.toNat := fun h => by
    have := digit16_of_mem h
    exact absurd this (by decide)
  have hvalue : hexValue 0 (hexDigits 16 hash.toNat) = some hash.toNat :=
    hexValue_hexDigits (lt_of_lt_of_le hash.toNat_lt (by decide)) hash.toNat_lt
  rw [parseHexKey, hexKey, String.toList_ofList, trimStart0x, trimStart0x_of_not_mem hx]
  have hne : hexDigits 16 hash.toNat ≠ [] := by
    rw [hexDigits]
    exact List.append_ne_nil_of_right_ne_nil _ (List.cons_ne_nil _ _)
  obtain ⟨c, cs, hcs⟩ := List.exists_cons_of_ne_nil hne
  rw [hcs] at hplus hvalue ⊢
  have hc : c ≠ '+' := fun h => hplus (h ▸ List.mem_cons_self)
  have hradix : u64FromStrRadix16 (c :: cs) = (hexValue 0 (c :: cs)).map UInt64.ofNat := by
    unfold u64FromStrRadix16
    split <;> simp_all
  rw [hradix, hvalue, Option.map_some, UInt64.ofNat_toNat]

/-- Different hashes have different keys. -/
lemma hexKey_injective : Function.Injective hexKey := fun a b h => by
  have hab := congrArg parseHexKey h
  rw [parseHexKey_hexKey, parseHexKey_hexKey] at hab
  exact Option.some.inj hab

end Braidinfer.Bqnt
