import Mathlib

/-!
# Numbers in identifiers

Decimal numerals are distinct, also behind a common start.
-/

namespace Numeral

theorem toString_injective : Function.Injective (toString : ℕ → String) := fun _ _ h => Nat.repr_inj.1 h

/-- Identifiers that differ in their number. -/
theorem append_injective (start : String) : Function.Injective fun n : ℕ => start ++ toString n := fun _ _ h =>
  toString_injective ((String.append_right_inj start).1 h)

end Numeral
