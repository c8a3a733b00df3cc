import BitcoinSpend.Text.Printable

/-!
# Quoted characters and texts

How a message quotes what it complains about. Tab, newline, carriage return,
the zero character, the backslash and the quote itself have two-character
escapes; any other character without a glyph is written by its code point.
-/

set_option autoImplicit false

namespace BitcoinSpend.Text

/-- The digits of a number in lower-case hexadecimal, without leading zeros. -/
def hexDigits (value : Nat) : String :=
  String.ofList (Nat.toDigits 16 value)

/-- One character between a pair of `quote` characters. -/
def escapeChar (quote c : Char) : String :=
  if c = '\x00' then "\\0"
  else if c = '\t' then "\\t"
  else if c = '\n' then "\\n"
  else if c = '\r' then "\\r"
  else if c = '\\' || c = quote then "\\" ++ c.toString
  else if isPrintable c then c.toString
  else "\\u\x7b" ++ hexDigits c.toNat ++ "\x7d"

def quoteChar (c : Char) : String :=
  "'" ++ escapeChar '\'' c ++ "'"

def quoteText (text : String) : String :=
  "\"" ++ String.join (text.toList.map (escapeChar '"')) ++ "\""

/-- A byte as `0x` and at least `width` hexadecimal digits. -/
def hexByte (width : Nat) (byte : UInt8) : String :=
  let digits := Nat.toDigits 16 byte.toNat
  "0x" ++ String.ofList (List.replicate (width - digits.length) '0' ++ digits)

end BitcoinSpend.Text
