import BitcoinSpend.Curve.Point
import BitcoinSpend.Spend.Guard

/-!
# The strict signature layout

The layout that flags may ask of signatures: `30 length 02 length r 02 length s`
with nothing after it, both numbers in shortest form and not negative.
-/

set_option autoImplicit false

namespace BitcoinSpend.Spend

/-- Half the order of the group, in as many bytes as the order has. -/
def halfOrderBytes : Bytes :=
  [0x7f, 0xff, 0xff, 0xff, 0xff, 0xff, 0xff, 0xff, 0xff, 0xff, 0xff, 0xff, 0xff, 0xff, 0xff, 0xff,
    0x5d, 0x57, 0x6e, 0x73, 0x57, 0xa4, 0x50, 0x1d, 0xdf, 0xe9, 0x2f, 0x46, 0x68, 0x1b, 0x20, 0xa0]

/-- Whether a big-endian number is more than half the order of the group: without its leading
zeros it has more bytes, or as many and comes after it in the order of byte strings. -/
def isHighS (bytes : Bytes) : Bool :=
  let digits := bytes.dropWhile (· == 0)
  if halfOrderBytes.length < digits.length then true
  else if digits.length < halfOrderBytes.length then false
  else halfOrderBytes.lex digits (· < ·)

/-- Requires a shortest non-negative number of `length` bytes at `offset`, after the tag at
`marker`. -/
def checkNumber (part : SignaturePart) (bytes : Bytes) (marker offset length : Nat) :
    Except Fault Unit := do
  let tag ← itemAt bytes marker
  refuse (tag != 0x02) (.layout (.wrongMarker part tag))
  refuse (length = 0) (.layout (.zeroLength part))
  let first ← itemAt bytes offset
  refuse (first &&& 0x80 != 0) (.layout (.negative part))
  if 1 < length ∧ first = 0 then
    let second ← itemAt bytes (offset + 1)
    refuse (second &&& 0x80 = 0) (.layout (.padded part))

/-- Requires the strict layout of a signature without its hash type, and a low `s` if asked. -/
def checkLayout (requireLowS : Bool) (bytes : Bytes) : Except Fault Unit := do
  let total := bytes.length
  refuse (total < 8) (.layout (.tooShort total))
  refuse (72 < total) (.layout (.tooLong total))
  let tag ← itemAt bytes 0
  refuse (tag != 0x30) (.layout (.wrongType tag))
  let announced ← itemAt bytes 1
  let actual ← difference total 2
  refuse (announced.toNat != actual) (.layout (.wrongLength announced actual))
  let lengthR ← itemAt bytes 3
  let markerS := 4 + lengthR.toNat
  refuse (total ≤ markerS) (.layout .noTypeS)
  refuse (total ≤ markerS + 1) (.layout .noLengthS)
  let lengthS ← itemAt bytes (markerS + 1)
  refuse (markerS + 2 + lengthS.toNat != total) (.layout .invalidLengthS)
  checkNumber .r bytes 2 4 lengthR.toNat
  checkNumber .s bytes markerS (markerS + 2) lengthS.toNat
  if requireLowS then
    let s ← suffixFrom bytes (markerS + 2)
    refuse (isHighS s) .highS

end BitcoinSpend.Spend
