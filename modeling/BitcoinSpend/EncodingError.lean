import BitcoinSpend.Hex
import BitcoinSpend.Text.Numeral

/-!
# Failures of the basic encodings

Every way in which a text or a byte string fails to encode a hash, a number, a
key, a signature or a field of the wire format, and the wording of each.
-/

set_option autoImplicit false

namespace BitcoinSpend

/-- Why a text is not Base58, or too short to carry a checksum. -/
inductive Base58Error where
  | invalidCharacter (c : Char) (position : Nat)
  | nonAscii (position : Nat)
  | noChecksum (length : Nat)
  deriving DecidableEq, Repr

def Base58Error.message : Base58Error → String
  | invalidCharacter c position =>
      "provided string contained invalid character " ++ Text.quoteChar c ++ " at byte " ++
        toString position
  | nonAscii position =>
      "provided string contained non-ascii character starting at byte " ++ toString position
  | noChecksum length => toString length ++ " bytes is too short to carry a checksum"

inductive PrivateKeyError where
  | wrongLength (length : Nat)
  | outOfRange
  deriving DecidableEq, Repr

def PrivateKeyError.message : PrivateKeyError → String
  | wrongLength length => "expected 32 bytes, got " ++ toString length
  | outOfRange => "signature error"

inductive PublicKeyError where
  | unsupportedEncoding (length : Nat)
  | notOnCurve
  deriving DecidableEq, Repr

def PublicKeyError.message : PublicKeyError → String
  | unsupportedEncoding length => "unsupported encoding of " ++ toString length ++ " bytes"
  | notOnCurve => "signature error"

/-- Why a signature could not be read or made. -/
inductive SignatureError where
  | noSequence
  | sequenceLength
  | integerR
  | integerS
  | integerTooWide
  | rangeR
  | rangeS
  | zeroNonce
  | zeroR
  | zeroS
  | noNonce
  deriving DecidableEq, Repr

def SignatureError.message : SignatureError → String
  | noSequence => "malformed DER: missing sequence header"
  | sequenceLength => "malformed DER: sequence length"
  | integerR => "malformed DER: R integer"
  | integerS => "malformed DER: S integer"
  | integerTooWide => "integer wider than 32 bytes"
  | rangeR => "R is zero or not below the curve order"
  | rangeS => "S is zero or not below the curve order"
  | zeroNonce => "nonce is zero"
  | zeroR => "nonce produced r = 0"
  | zeroS => "nonce produced s = 0"
  | noNonce => "signature error"

inductive WifError where
  | base58 (cause : Base58Error)
  | unknownFlag (flag : UInt8)
  | payloadLength (length : Nat)
  | unknownVersion (version : UInt8)
  deriving DecidableEq, Repr

def WifError.message : WifError → String
  | base58 cause => "invalid base58: " ++ cause.message
  | unknownFlag flag => "unknown compression flag " ++ Text.hexByte 2 flag
  | payloadLength length => "payload of " ++ toString length ++ " bytes"
  | unknownVersion version => "unknown version byte " ++ Text.hexByte 2 version

/-- Why a text or a byte string does not encode the value asked for. -/
inductive EncodingError where
  | privateKey (cause : PrivateKeyError)
  | publicKey (cause : PublicKeyError)
  | signature (cause : SignatureError)
  | wif (cause : WifError)
  | checksumMismatch
  | hex (cause : HexError)
  | hashLength (length : Nat)
  | hashTextLength (length : Nat)
  | base58 (cause : Base58Error)
  | numeral (cause : Text.NumeralError)
  | notHexNumber (text : String)
  | scriptNumberTooLong (length limit : Nat)
  | scriptNumberNotMinimal
  | endOfData (wanted remaining : Nat)
  deriving DecidableEq, Repr

def EncodingError.message : EncodingError → String
  | privateKey cause => "invalid private key: " ++ cause.message
  | publicKey cause => "invalid public key: " ++ cause.message
  | signature cause => "invalid signature: " ++ cause.message
  | wif cause => "invalid WIF: " ++ cause.message
  | checksumMismatch => "checksum mismatch"
  | hex cause => "invalid hex: " ++ cause.message
  | hashLength length => "invalid hash: expected 32 bytes, got " ++ toString length
  | hashTextLength length => "invalid hash: expected 64 hex characters, got " ++ toString length
  | base58 cause => "invalid base58: " ++ cause.message
  | numeral cause => "invalid number: " ++ cause.message
  | notHexNumber text => "invalid number: not hex: " ++ Text.quoteText text
  | scriptNumberTooLong length limit =>
      "script number of " ++ toString length ++ " bytes exceeds the " ++ toString limit ++
        " byte limit"
  | scriptNumberNotMinimal => "script number is not minimally encoded"
  | endOfData wanted remaining =>
      "unexpected end of data: wanted " ++ toString wanted ++ " bytes, " ++ toString remaining ++
        " remaining"

end BitcoinSpend
