import BitcoinSpend.Digest.Composite
import BitcoinSpend.EncodingError

/-!
# Base58 and Base58Check

A byte string as a number in base 58, with one leading `1` for each leading zero
byte. The checked form appends the first four bytes of the payload's double
SHA-256 digest.
-/

set_option autoImplicit false

namespace BitcoinSpend.Base58

/-- The digits in ascending order: no zero, capital O, capital I or small L. -/
def alphabet : List Char :=
  "123456789ABCDEFGHJKLMNPQRSTUVWXYZabcdefghijkmnopqrstuvwxyz".toList

def digitChar (value : Nat) : Char :=
  alphabet.getD value '1'

def digitValue? (c : Char) : Option Nat :=
  alphabet.findIdx? (· == c)

/-- The `count` low digits of a number, least significant first. -/
def digitsFrom : (count : Nat) → (value : Nat) → List Nat
  | 0, _ => []
  | count + 1, value => if value = 0 then [] else value % 58 :: digitsFrom count (value / 58)

/-- The digits of a number, most significant first; none for zero. -/
def digits (value : Nat) : List Nat :=
  (digitsFrom (2 * Bytes.widthOf value) value).reverse

/-- The number spelled by digits, most significant first. -/
def ofDigits (values : List Nat) : Nat :=
  values.foldl (fun total value => 58 * total + value) 0

def encode (bytes : Bytes) : String :=
  let zeros := bytes.takeWhile (· == 0)
  String.ofList (zeros.map (fun _ => '1') ++ (digits bytes.toNatBE).map digitChar)

/-- The digit values of a text. Characters before a refused one are ASCII, so its number is its
position in the UTF-8 form. -/
def readDigits (position : Nat) : List Char → Except Base58Error (List Nat)
  | [] => .ok []
  | c :: rest =>
      if 127 < c.toNat then .error (.nonAscii position)
      else
        match digitValue? c with
        | some value => (readDigits (position + 1) rest).map (value :: ·)
        | none => .error (.invalidCharacter c position)

/-- The byte string that a text spells. -/
def decode (text : String) : Except Base58Error Bytes :=
  (readDigits 0 text.toList).map fun values =>
    (values.takeWhile (· == 0)).map (fun _ => 0) ++ Bytes.ofNatBEShortest (ofDigits values)

def checksum (payload : Bytes) : Bytes :=
  (Digest.hash256 payload).take 4

/-- The text of a payload followed by its checksum. -/
def encodeChecked (payload : Bytes) : String :=
  encode (payload ++ checksum payload)

/-- The payload of a text whose last four bytes are its checksum. -/
def decodeChecked (text : String) : Except EncodingError Bytes :=
  match decode text with
  | .error cause => .error (.base58 cause)
  | .ok bytes =>
      if bytes.length < 4 then .error (.base58 (.noChecksum bytes.length))
      else
        let payload := bytes.take (bytes.length - 4)
        if bytes.drop (bytes.length - 4) = checksum payload then .ok payload
        else .error .checksumMismatch

end BitcoinSpend.Base58
