import SchemaCompiler.Json.Fault

/-!
# Reading JSON numbers

A number is an integer part, a fraction or nothing, and an exponent or nothing. Its significand is
kept in 64 bits: integer digits that do not fit count as powers of ten, fraction digits that do not
fit are dropped. A number with neither fraction nor exponent that fits is an integer, any other one
is the floating-point number nearest to the significand, scaled by a power of ten.
-/

namespace SchemaCompiler.Json

/-- The value of a decimal digit. -/
def digitValue? (c : Char) : Option Nat :=
  if '0' ≤ c ∧ c ≤ '9' then some (c.toNat - 48) else none

/-- The digits at the start of a text, and the text after them. -/
def spanDigits : List Char → List Nat × List Char
  | [] => ([], [])
  | c :: rest =>
    match digitValue? c with
    | none => ([], c :: rest)
    | some digit =>
      let (digits, rest) := spanDigits rest
      (digit :: digits, rest)

/-- Appends digits to a significand while it fits in 64 bits, and gives the digits that did not
fit. -/
def absorb (significand : Nat) : List Nat → Nat × List Nat
  | [] => (significand, [])
  | digit :: digits =>
    if significand * 10 + digit < Nat.pow 2 64 then absorb (significand * 10 + digit) digits
    else (significand, digit :: digits)

/-- The floating-point number `10 ^ power`. -/
def powerOfTen (power : Nat) : Float :=
  Float.ofScientific 1 false power

/-- A number times a power of ten, if the product is finite. The powers up to 308 are numbers of
their own, and a smaller one is divided out in steps. -/
def scaled? (value : Float) (exponent : Int) : Option Float :=
  if exponent < -308 then
    if value == 0.0 then some value else scaled? (value / powerOfTen 308) (exponent + 308)
  else if exponent < 0 then some (value / powerOfTen (-exponent).toNat)
  else if exponent ≤ 308 then
    let product := value * powerOfTen exponent.toNat
    if product.isInf then none else some product
  else if value == 0.0 then some value
  else none
termination_by (-exponent).toNat

/-- The floating-point number `significand * 10 ^ exponent` with a sign, read up to `rest`. -/
def readFloat (negative : Bool) (significand : Nat) (exponent : Int) (rest : List Char) :
    Except Fault (Found × List Char) :=
  match scaled? significand.toUInt64.toFloat exponent with
  | none => .error (.before rest .numberOutOfRange)
  | some value => .ok (.decimal (.ofFloat (if negative then -value else value)), rest)

/-- The number of the exponent's digits at the start of a text, or nothing if it does not fit in 31
bits, and the text after the last digit that was taken. -/
def exponentDigits (value : Nat) : List Char → Option Nat × List Char
  | [] => (some value, [])
  | c :: rest =>
    match digitValue? c with
    | none => (some value, c :: rest)
    | some digit =>
      if value * 10 + digit < Nat.pow 2 31 then exponentDigits (value * 10 + digit) rest
      else (none, rest)

/-- Reads the exponent of a number after its letter. An exponent that does not fit makes a number
with a non-zero significand too large, or the number zero. -/
def readExponent (negative : Bool) (significand : Nat) (exponent : Int) (text : List Char) :
    Except Fault (Found × List Char) :=
  let (negativeExponent, text) : Bool × List Char :=
    match text with
    | '+' :: rest => (false, rest)
    | '-' :: rest => (true, rest)
    | _ => (false, text)
  match text with
  | [] => .error (.before [] .endInValue)
  | c :: rest =>
    match digitValue? c with
    | none => .error (.seeing (c :: rest) .invalidNumber)
    | some digit =>
      match exponentDigits digit rest with
      | (some value, rest) =>
        let exponent := if negativeExponent then exponent - value else exponent + value
        readFloat negative significand exponent rest
      | (none, rest) =>
        if significand ≠ 0 ∧ negativeExponent = false then
          .error (.before rest .numberOutOfRange)
        else .ok (.decimal ⟨negative, 0, 0⟩, (spanDigits rest).2)

/-- Reads what follows the integer part of a number: the fraction, the exponent, both or neither.
`dropped` is the number of integer digits that did not fit in the significand. -/
def readAfterInteger (negative : Bool) (significand dropped : Nat) (text : List Char) :
    Except Fault (Found × List Char) :=
  match text with
  | '.' :: rest =>
    match spanDigits rest with
    | ([], []) => .error (.before [] .endInValue)
    | ([], rest) => .error (.seeing rest .invalidNumber)
    | (digits, rest) =>
      let (longer, unused) := absorb significand digits
      let exponent : Int := dropped - (digits.length - unused.length : Nat)
      match rest with
      | 'e' :: rest | 'E' :: rest => readExponent negative longer exponent rest
      | _ => readFloat negative longer exponent rest
  | 'e' :: rest | 'E' :: rest => readExponent negative significand dropped rest
  | _ =>
    if dropped ≠ 0 then readFloat negative significand dropped text
    else if negative = false then .ok (.integer significand, text)
    else if significand = 0 ∨ Nat.pow 2 63 < significand then readFloat true significand 0 text
    else .ok (.integer (-significand), text)

/-- Reads a number after its sign. -/
def readNumber (negative : Bool) (text : List Char) : Except Fault (Found × List Char) :=
  match text with
  | [] => .error (.before [] .endInValue)
  | c :: rest =>
    match digitValue? c with
    | none => .error (.seeing (c :: rest) .invalidNumber)
    | some 0 =>
      match spanDigits rest with
      | ([], _) => readAfterInteger negative 0 0 rest
      | _ => .error (.seeing rest .invalidNumber)
    | some digit =>
      let (digits, rest) := spanDigits rest
      let (significand, dropped) := absorb digit digits
      readAfterInteger negative significand dropped.length rest

end SchemaCompiler.Json
