/-!
# Integer texts

The lenient reading of an integer in a base up to 36. A minus sign is dropped
unless a plus sign follows it, then a plus sign is dropped unless another one
follows it. Underscores may stand anywhere but at the start of the digits.
-/

set_option autoImplicit false

namespace BitcoinSpend.Text

inductive NumeralError where
  | empty
  | invalidDigit
  deriving DecidableEq, Repr

namespace NumeralError

def message : NumeralError → String
  | empty => "cannot parse integer from empty string"
  | invalidDigit => "invalid digit found in string"

end NumeralError

/-- The value of a digit or letter, letters of either case counting from ten. -/
def digitValue? (c : Char) : Option Nat :=
  if '0' ≤ c ∧ c ≤ '9' then some (c.toNat - '0'.toNat)
  else if 'a' ≤ c ∧ c ≤ 'z' then some (c.toNat - 'a'.toNat + 10)
  else if 'A' ≤ c ∧ c ≤ 'Z' then some (c.toNat - 'A'.toNat + 10)
  else none

/-- The value of a run of digits after `accumulated`, underscores skipped. -/
def digitsValue? (base : Nat) (accumulated : Nat) : List Char → Option Nat
  | [] => some accumulated
  | '_' :: rest => digitsValue? base accumulated rest
  | c :: rest =>
      match digitValue? c with
      | some digit =>
          if digit < base then digitsValue? base (accumulated * base + digit) rest else none
      | none => none

/-- An unsigned integer, with an optional plus sign. -/
def parseMagnitude (base : Nat) (text : List Char) : Except NumeralError Nat :=
  let digits :=
    match text with
    | '+' :: '+' :: _ => text
    | '+' :: rest => rest
    | _ => text
  match digits with
  | [] => .error .empty
  | '_' :: _ => .error .invalidDigit
  | _ =>
      match digitsValue? base 0 digits with
      | some value => .ok value
      | none => .error .invalidDigit

def parseInteger (base : Nat) (text : List Char) : Except NumeralError Int :=
  match text with
  | '-' :: '+' :: _ => (parseMagnitude base text).map Int.ofNat
  | '-' :: rest => (parseMagnitude base rest).map fun value => -Int.ofNat value
  | _ => (parseMagnitude base text).map Int.ofNat

/-- An unsigned byte in decimal: an optional plus sign and at least one digit. -/
def parseByte? (text : List Char) : Option UInt8 :=
  let digits :=
    match text with
    | '+' :: rest => rest
    | _ => text
  if digits.isEmpty || !digits.all Char.isDigit then none
  else
    match digitsValue? 10 0 digits with
    | some value => if value < 256 then some (UInt8.ofNat value) else none
    | none => none

end BitcoinSpend.Text
