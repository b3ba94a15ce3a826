/-!
# Shortest decimals

The decimal with the fewest digits that rounds to a given binary floating-point number. A number
`mantissa * 2 ^ exponent` is the nearest one to every real in an interval around it, whose ends
belong to it when the mantissa is even. The decimal grids are tried from the coarsest on, and on
each grid the two neighbours of the number.
-/

namespace SchemaCompiler

/-- The number `digits * 10 ^ exponent`, or its negative. -/
structure Decimal where
  negative : Bool
  digits : Nat
  exponent : Int
deriving DecidableEq, Repr

namespace Decimal

/-- The quarter steps of `2 ^ exponent` from zero to the ends of the interval of reals that round to
`mantissa * 2 ^ exponent`. Below a power of two the numbers lie closer together. -/
def roundingInterval (mantissa : Nat) (exponent : Int) : Nat × Nat :=
  let below := if mantissa = Nat.pow 2 52 ∧ -1074 < exponent then 1 else 2
  (4 * mantissa - below, 4 * mantissa + 2)

/-- The multiple of `10 ^ power` in the rounding interval of a number, the nearer one if two
neighbours of the number are in it, and the even one if both are as near. -/
def onGrid? (mantissa : Nat) (exponent power : Int) : Option Nat :=
  let (low, high) := roundingInterval mantissa exponent
  let scale := Nat.pow 2 (exponent - 2).toNat * Nat.pow 10 (-power).toNat
  let unit := Nat.pow 2 (2 - exponent).toNat * Nat.pow 10 power.toNat
  let value := 4 * mantissa * scale
  let inside (candidate : Nat) : Bool :=
    if mantissa % 2 = 0 then
      decide (low * scale ≤ candidate * unit) && decide (candidate * unit ≤ high * scale)
    else decide (low * scale < candidate * unit) && decide (candidate * unit < high * scale)
  let lower := value / unit
  let upper := lower + 1
  let prefersLower : Bool :=
    decide (2 * value < (lower + upper) * unit) ||
      decide (2 * value = (lower + upper) * unit ∧ lower % 2 = 0)
  if inside lower && (!inside upper || prefersLower) then some lower
  else if inside upper then some upper
  else none

/-- The shortest decimal of a positive number `mantissa * 2 ^ exponent` with at most 53 bits in its
mantissa, as digits and a power of ten. -/
def shortest (mantissa : Nat) (exponent : Int) : Nat × Int :=
  let powers := (List.range 650).map fun (step : Nat) => (309 : Int) - step
  (powers.findSome? fun power => (onGrid? mantissa exponent power).map (·, power)).getD (0, 0)

/-- The shortest decimal of a finite floating-point number. -/
def ofFloat (value : Float) : Decimal :=
  let bits := value.toBits.toNat
  let negative := decide (Nat.pow 2 63 ≤ bits)
  let biased : Nat := bits / Nat.pow 2 52 % Nat.pow 2 11
  let fraction := bits % Nat.pow 2 52
  if biased = 0 ∧ fraction = 0 then ⟨negative, 0, 0⟩
  else
    let (digits, exponent) :=
      if biased = 0 then shortest fraction (-1074)
      else shortest (Nat.pow 2 52 + fraction) ((biased : Int) - 1075)
    ⟨negative, digits, exponent⟩

/-- The text of a decimal. It has a point and a digit on either side of it while the point stands at
most 16 places after and less than 5 places before the first digit, and an exponent with its sign
elsewhere. -/
def text (decimal : Decimal) : String :=
  let digits := decimal.digits.repr
  let count : Int := digits.length
  let point := count + decimal.exponent
  let zeros (number : Int) : String := String.ofList (List.replicate number.toNat '0')
  let sign := if decimal.negative then "-" else ""
  sign ++
    if decimal.digits = 0 then "0.0"
    else if 0 ≤ decimal.exponent ∧ point ≤ 16 then digits ++ zeros decimal.exponent ++ ".0"
    else if 0 < point ∧ point ≤ 16 then
      let whole := String.ofList (digits.toList.take point.toNat)
      let part := String.ofList (digits.toList.drop point.toNat)
      whole ++ "." ++ part
    else if -5 < point ∧ point ≤ 0 then "0." ++ zeros (-point) ++ digits
    else
      let first := String.ofList (digits.toList.take 1)
      let others := String.ofList (digits.toList.drop 1)
      let power := point - 1
      first ++ (if others = "" then "" else "." ++ others) ++ "e" ++
        (if 0 ≤ power then "+" else "") ++ power.repr

end Decimal

end SchemaCompiler
