import BitcoinSpend.Bytes
import BitcoinSpend.Text.Quoted

/-!
# Hexadecimal

Two digits a byte, written in lower case and read in either case. A text whose
UTF-8 form has an odd length is refused before any of its digits is looked at.
-/

set_option autoImplicit false

namespace BitcoinSpend

inductive HexError where
  | oddLength
  /-- The first byte of the UTF-8 form that is no digit, and its position there. -/
  | invalidDigit (byte : UInt8) (position : Nat)
  deriving DecidableEq, Repr

namespace HexError

def message : HexError → String
  | oddLength => "Odd number of digits"
  | invalidDigit byte position =>
      "Invalid character " ++ Text.quoteChar (Char.ofNat byte.toNat) ++ " at position " ++
        toString position

end HexError

namespace Hex

/-- The lower-case digit of a number below sixteen. -/
def digit (value : Nat) : Char :=
  Nat.digitChar value

def encodeByte (byte : UInt8) : List Char :=
  [digit (byte.toNat / 16), digit (byte.toNat % 16)]

def encodeChars (bytes : Bytes) : List Char :=
  bytes.flatMap encodeByte

def encode (bytes : Bytes) : String :=
  String.ofList (encodeChars bytes)

def digitValue? (c : Char) : Option Nat :=
  if '0' ≤ c ∧ c ≤ '9' then some (c.toNat - '0'.toNat)
  else if 'a' ≤ c ∧ c ≤ 'f' then some (c.toNat - 'a'.toNat + 10)
  else if 'A' ≤ c ∧ c ≤ 'F' then some (c.toNat - 'A'.toNat + 10)
  else none

/-- The digit values of a text; characters before a refused one are ASCII, so its number is
its position. -/
def digitValues (position : Nat) : List Char → Except HexError (List Nat)
  | [] => .ok []
  | c :: rest =>
      match digitValue? c with
      | some value => (digitValues (position + 1) rest).map (value :: ·)
      | none => .error (.invalidDigit ((String.utf8EncodeChar c).headD 0) position)

def joinDigits : List Nat → Bytes
  | high :: low :: rest => UInt8.ofNat (16 * high + low) :: joinDigits rest
  | _ => []

def utf8Length (text : List Char) : Nat :=
  text.foldl (fun length letter => length + letter.utf8Size) 0

def decodeChars (text : List Char) : Except HexError Bytes :=
  if utf8Length text % 2 = 1 then .error .oddLength
  else (digitValues 0 text).map joinDigits

/-- The bytes that a text spells. -/
def decode (text : String) : Except HexError Bytes :=
  decodeChars text.toList

end Hex

end BitcoinSpend
