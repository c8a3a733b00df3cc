import BitcoinSpend.EncodingError
import BitcoinSpend.Opcode

/-!
# Failures of scripts as data

Every way in which a script, its assembly text or an address is refused before
anything runs.
-/

set_option autoImplicit false

namespace BitcoinSpend

/-- Why a script, an assembly text or an address is refused. -/
inductive ScriptError where
  /-- A word of assembly text is neither a mnemonic nor hexadecimal data. -/
  | invalidToken (token : String)
  /-- A push opcode was to be appended without its data. -/
  | pushWithoutData (op : Opcode)
  /-- A push at `offset` asks for more bytes than follow it. -/
  | truncatedPush (offset wanted remaining : Nat)
  | dataTooBig (length : Nat)
  | hex (cause : HexError)
  /-- The script does not pay to the hash of a public key. -/
  | notPayToKeyHash
  | addressLength (text : String) (length : Nat)
  | addressVersion (version : UInt8)
  | encoding (cause : EncodingError)
  deriving DecidableEq, Repr

def ScriptError.message : ScriptError → String
  | invalidToken token => "invalid asm token: " ++ token
  | pushWithoutData op => "use append_push_data for push opcodes: " ++ op.mnemonic
  | truncatedPush offset wanted remaining =>
      "truncated push at offset " ++ toString offset ++ ": wanted " ++ toString wanted ++
        " bytes, " ++ toString remaining ++ " remaining"
  | dataTooBig length => "push data too big: " ++ toString length ++ " bytes"
  | hex cause => "invalid hex: " ++ cause.message
  | notPayToKeyHash => "unexpected script form: expected P2PKH locking script"
  | addressLength text length =>
      "invalid address: " ++ text ++ " decodes to " ++ toString length ++ " bytes"
  | addressVersion version => "unsupported address version " ++ Text.hexByte 2 version
  | encoding cause => cause.message

end BitcoinSpend
