import Mathlib

/-!
# JSON values

A JSON document as a typed reader or writer sees it: the fields of an object in their order, a number as an integer or
as the spelling of any other number.
-/

/-- A number of a JSON document. -/
inductive JsonNumber where
  | int (n : ℤ)
  | other (spelling : String)
  deriving DecidableEq

/-- A JSON document. -/
inductive JsonValue where
  | null
  | bool (b : Bool)
  | num (n : JsonNumber)
  | str (s : String)
  | arr (items : List JsonValue)
  | obj (fields : List (String × JsonValue))

namespace JsonValue

variable {v child : JsonValue} {key : String}

def asStr : JsonValue → Option String
  | .str s => some s
  | _ => none

def asArray : JsonValue → Option (List JsonValue)
  | .arr items => some items
  | _ => none

def asObject : JsonValue → Option (List (String × JsonValue))
  | .obj fields => some fields
  | _ => none

def isObject (v : JsonValue) : Bool := v.asObject.isSome

/-- The value of a field, `none` on anything but an object. -/
def get (v : JsonValue) (key : String) : Option JsonValue := v.asObject.bind (·.lookup key)

def getStr (v : JsonValue) (key : String) : Option String := (v.get key).bind asStr

theorem get_eq_some (h : v.get key = some child) : ∃ fields, v = .obj fields ∧ (key, child) ∈ fields := by
  cases v with
  | obj fields =>
    obtain ⟨l₁, l₂, rfl, -⟩ := List.lookup_eq_some_iff.1 h
    exact ⟨_, rfl, by simp⟩
  | _ => cases h

/-- What a field holds is smaller than the object. -/
theorem sizeOf_get (h : v.get key = some child) : sizeOf child < sizeOf v := by
  obtain ⟨fields, rfl, hmem⟩ := get_eq_some h
  have hsize := List.sizeOf_lt_of_mem hmem
  simp only [Prod.mk.sizeOf_spec] at hsize
  simp only [obj.sizeOf_spec]
  omega

/-! ## Sizes of the strings -/

mutual

/-- Bytes of all strings of a document, those of the field names included. -/
def textBytes : JsonValue → ℕ
  | .null | .bool _ | .num _ => 0
  | .str s => s.utf8ByteSize
  | .arr items => textBytesItems items
  | .obj fields => textBytesFields fields

def textBytesItems : List JsonValue → ℕ
  | [] => 0
  | v :: vs => textBytes v + textBytesItems vs

def textBytesFields : List (String × JsonValue) → ℕ
  | [] => 0
  | (key, v) :: fields => key.utf8ByteSize + textBytes v + textBytesFields fields

end

theorem textBytes_le_of_mem : ∀ {fields : List (String × JsonValue)}, (key, child) ∈ fields →
    textBytes child ≤ textBytesFields fields
  | (k, v) :: fields, h => by
    rw [textBytesFields]
    rcases List.mem_cons.1 h with h | h
    · cases h
      omega
    · have := textBytes_le_of_mem h
      omega

theorem textBytes_of_mem_fields {fields : List (String × JsonValue)} (h : v.asObject = some fields)
    (hmem : (key, child) ∈ fields) : textBytes child ≤ textBytes v := by
  cases v with
  | obj fs =>
    cases h
    exact textBytes_le_of_mem hmem
  | _ => cases h

/-- A field holds no more text than its object. -/
theorem textBytes_get (h : v.get key = some child) : textBytes child ≤ textBytes v := by
  obtain ⟨fields, rfl, hmem⟩ := get_eq_some h
  exact textBytes_of_mem_fields rfl hmem

end JsonValue
