/-!
# Hexadecimal digits

Writing a number with lower-case hexadecimal digits, and the value of a digit of either case.
-/

namespace SchemaCompiler.Text

/-- The lower-case hexadecimal digit of a number below 16. -/
def hexDigit (value : Nat) : Char :=
  if value < 10 then Char.ofNat (48 + value) else Char.ofNat (87 + value)

/-- The last `width` hexadecimal digits of a number, the most significant first. -/
def hexDigits : Nat → Nat → List Char
  | 0, _ => []
  | width + 1, number => hexDigits width (number / 16) ++ [hexDigit (number % 16)]

/-- The number of hexadecimal digits of a number, at least one. -/
def hexWidth (number : Nat) : Nat :=
  if number < 16 then 1 else hexWidth (number / 16) + 1

/-- The hexadecimal digits of a number without leading zeros. -/
def hexNumeral (number : Nat) : List Char :=
  hexDigits (hexWidth number) number

/-- The value of a hexadecimal digit of either case. -/
def hexValue? (c : Char) : Option Nat :=
  if '0' ≤ c ∧ c ≤ '9' then some (c.toNat - 48)
  else if 'a' ≤ c ∧ c ≤ 'f' then some (c.toNat - 87)
  else if 'A' ≤ c ∧ c ≤ 'F' then some (c.toNat - 55)
  else none

/-- Every digit that is written can be read. -/
theorem hexValue?_hexDigit {value : Nat} (h : value < 16) :
    hexValue? (hexDigit value) = some value := by
  have hall : ∀ digit : Fin 16, hexValue? (hexDigit digit) = some digit.val := by
    decide
  exact hall ⟨value, h⟩

end SchemaCompiler.Text
