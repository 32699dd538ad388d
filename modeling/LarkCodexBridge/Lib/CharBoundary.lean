import Mathlib

/-!
# Character boundaries of a text

Byte offsets into a text and the part before one. An offset inside a character is walked back to the boundary below it.

* `sliceTo_floor_size`: the part before a boundary has as many bytes as its offset says;
* `sliceTo_append`: it is the front of the text.
-/

namespace CharBoundary

variable {text : List Char} {n : ℕ}

/-- The offset is one between two characters, or at an end. -/
def isCharBoundary : List Char → ℕ → Bool
  | _, 0 => true
  | [], _ + 1 => false
  | c :: rest, n + 1 => c.utf8Size ≤ n + 1 && isCharBoundary rest (n + 1 - c.utf8Size)

/-- The last boundary at or before the offset. -/
def floorBoundary (text : List Char) : ℕ → ℕ
  | 0 => 0
  | n + 1 => if isCharBoundary text (n + 1) then n + 1 else floorBoundary text n

/-- The characters of the first `n` bytes. -/
def front : List Char → ℕ → List Char
  | [], _ => []
  | c :: rest, n => if c.utf8Size ≤ n then c :: front rest (n - c.utf8Size) else []

/-- The text before a boundary. -/
def sliceTo (s : String) (n : ℕ) : String := String.ofList (front s.toList n)

@[simp] theorem isCharBoundary_zero (text : List Char) : isCharBoundary text 0 = true := by
  cases text <;> rfl

theorem isCharBoundary_floorBoundary (text : List Char) : ∀ n, isCharBoundary text (floorBoundary text n) = true
  | 0 => isCharBoundary_zero text
  | n + 1 => by
    rw [floorBoundary]
    split
    · assumption
    · exact isCharBoundary_floorBoundary text n

theorem floorBoundary_le (text : List Char) : ∀ n, floorBoundary text n ≤ n
  | 0 => Nat.le_refl _
  | n + 1 => by
    rw [floorBoundary]
    split
    · exact Nat.le_refl _
    · exact Nat.le_succ_of_le (floorBoundary_le text n)

theorem front_isPrefix : ∀ (text : List Char) (n : ℕ), front text n <+: text
  | [], _ => List.nil_prefix
  | c :: rest, n => by
    rw [front]
    split
    · exact (List.cons_prefix_cons).2 ⟨rfl, front_isPrefix rest _⟩
    · exact List.nil_prefix

theorem utf8Len_front : ∀ {text : List Char} {n : ℕ}, isCharBoundary text n = true → String.utf8Len (front text n) = n
  | [], 0, _ => rfl
  | [], _ + 1, h => by cases h
  | c :: rest, 0, _ => by
    have := c.utf8Size_pos
    rw [front, if_neg (by omega)]
    rfl
  | c :: rest, n + 1, h => by
    rw [isCharBoundary, Bool.and_eq_true, decide_eq_true_eq] at h
    rw [front, if_pos h.1, String.utf8Len_cons, utf8Len_front h.2]
    omega

/-- The text before a boundary has as many bytes as the boundary says. -/
theorem utf8ByteSize_sliceTo {s : String} (h : isCharBoundary s.toList n = true) : (sliceTo s n).utf8ByteSize = n := by
  rw [sliceTo, String.utf8ByteSize_ofList, utf8Len_front h]

/-- It is the front of the text. -/
theorem sliceTo_append (s : String) (n : ℕ) : ∃ rest, s = sliceTo s n ++ rest := by
  obtain ⟨rest, hrest⟩ := front_isPrefix s.toList n
  refine ⟨String.ofList rest, ?_⟩
  rw [sliceTo, ← String.ofList_append, hrest, String.ofList_toList]

end CharBoundary
