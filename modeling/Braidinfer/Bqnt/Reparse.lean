/-
A value that `serde_json` has printed and read back.

Integers, texts and the structure come back as they were; a float may come back as another float.

* `Json.mapNumbers`: a value with other numbers in the same places;
* `get_mapNumbers`, `asStr_mapNumbers`: what is looked up in it.
-/
import Braidinfer.Bqnt.Metadata

namespace Braidinfer.Bqnt.Json

variable {N : Type}

mutual

/-- The value with `r n` in place of every number `n`. -/
def mapNumbers (r : N → N) : Json N → Json N
  | .null => .null
  | .bool b => .bool b
  | .number n => .number (r n)
  | .string s => .string s
  | .array values => .array (mapValues r values)
  | .object members => .object (mapMembers r members)

/-- The values of an array. -/
def mapValues (r : N → N) : List (Json N) → List (Json N)
  | [] => []
  | v :: vs => mapNumbers r v :: mapValues r vs

/-- The members of an object. -/
def mapMembers (r : N → N) : List (String × Json N) → List (String × Json N)
  | [] => []
  | (k, v) :: ms => (k, mapNumbers r v) :: mapMembers r ms

end

variable (r : N → N)

lemma mapValues_eq (values : List (Json N)) : mapValues r values = values.map (mapNumbers r) := by
  induction values with
  | nil => rfl
  | cons v vs ih => rw [mapValues, ih, List.map_cons]

lemma lookup_mapMembers (key : String) (members : List (String × Json N)) :
    (mapMembers r members).lookup key = (members.lookup key).map (mapNumbers r) := by
  induction members with
  | nil => rfl
  | cons m ms ih =>
      obtain ⟨k, v⟩ := m
      rw [mapMembers, List.lookup_cons, List.lookup_cons]
      split
      · rfl
      · exact ih

@[simp]
lemma get_mapNumbers (key : String) (v : Json N) :
    (v.mapNumbers r).get key = (v.get key).map (mapNumbers r) := by
  cases v with
  | object members => exact lookup_mapMembers r key members
  | _ => rfl

@[simp]
lemma asStr_mapNumbers (v : Json N) : (v.mapNumbers r).asStr = v.asStr := by
  cases v <;> rfl

end Braidinfer.Bqnt.Json
