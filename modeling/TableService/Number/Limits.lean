/-!
# Limits of numbers of a fixed width

- `limit32`, `limit64`, `limit96`: the first natural number that does not fit in so many bits.
- `limit63`: the first natural number that is too large for a signed number of 64 bits.
-/

namespace TableService

/-- The number `2 ^ 32`. -/
abbrev limit32 : Nat := 4294967296

/-- The number `2 ^ 63`. -/
abbrev limit63 : Nat := 9223372036854775808

/-- The number `2 ^ 64`. -/
abbrev limit64 : Nat := 18446744073709551616

/-- The number `2 ^ 96`. -/
abbrev limit96 : Nat := 79228162514264337593543950336

example : limit64 = limit32 * limit32 ∧ limit96 = limit64 * limit32 ∧ limit64 = 2 * limit63 := by
  decide

end TableService
