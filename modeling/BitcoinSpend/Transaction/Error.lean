import BitcoinSpend.Merkle.Error
import BitcoinSpend.Spend.Machine

/-!
# Failures of transactions

Every way in which a transaction is refused when it is read, funded, signed or
verified, and the wording of each.
-/

set_option autoImplicit false

namespace BitcoinSpend

/-- Why a transaction or a locking script cannot be worked with. -/
inductive Invalidity where
  | inputTotal
  | notPushDrop
  | emptyPuzzle
  deriving DecidableEq, Repr

def Invalidity.message : Invalidity → String
  | inputTotal => "input total overflows"
  | notPushDrop => "not a push-drop script"
  | emptyPuzzle => "r-puzzle value must not be empty"

/-- A field of an encoded transaction. -/
inductive WireField where
  | version
  | marker
  | inputCount
  | sourceTxid
  | outputIndex
  | unlockingScript
  | sequence
  | sourceValue
  | sourceScript
  | outputCount
  | value
  | lockingScript
  | lockTime
  deriving DecidableEq, Repr

def WireField.label : WireField → String
  | version => "version"
  | marker => "marker"
  | inputCount => "input count"
  | sourceTxid => "source txid"
  | outputIndex => "output index"
  | unlockingScript => "unlocking script"
  | sequence => "sequence number"
  | sourceValue => "source satoshis"
  | sourceScript => "source locking script"
  | outputCount => "output count"
  | value => "satoshis"
  | lockingScript => "locking script"
  | lockTime => "lock time"

/-- Why bytes or a text do not encode one transaction. -/
inductive WireFault where
  | hex (cause : HexError)
  | field (name : WireField) (cause : EncodingError)
  | trailing (length : Nat)
  | noMarker
  deriving DecidableEq, Repr

def WireFault.message : WireFault → String
  | hex cause => "invalid hex: " ++ cause.message
  | field name cause => "reading " ++ name.label ++ ": " ++ cause.message
  | trailing length => "trailing " ++ toString length ++ " bytes after transaction"
  | noMarker => "missing extended format marker"

/-- Why an operation on a transaction fails. -/
inductive TransactionError where
  | invalid (cause : Invalidity)
  | wire (cause : WireFault)
  | inputRange (index count : Nat)
  /-- Nothing tells which output an input spends. -/
  | noSource (index : Nat)
  /-- What is known about the output that an input spends does not agree. -/
  | sourceMismatch (index : Nat)
  /-- An input has no unlocking script and nothing that makes one. -/
  | notUnlocked (index : Nat)
  | outputsExceedInputs (inputs outputs : UInt64)
  | insufficientFee (paid required : UInt64)
  | untraceable (txid : Hash32) (index : Nat)
  | spend (failure : Spend.Failure)
  | merkle (cause : Merkle.Error)
  | script (cause : ScriptError)
  | encoding (cause : EncodingError)
  deriving DecidableEq, Repr

def TransactionError.message : TransactionError → String
  | invalid cause => "invalid transaction: " ++ cause.message
  | wire cause => "serialization error: " ++ cause.message
  | inputRange index count =>
      "input index " ++ toString index ++ " out of range (tx has " ++ toString count ++ " inputs)"
  | noSource index => "input " ++ toString index ++ " has no source output"
  | sourceMismatch index =>
      "input " ++ toString index ++ " source output does not match its outpoint"
  | notUnlocked index =>
      "input " ++ toString index ++ " has neither an unlocking script nor a template"
  | outputsExceedInputs inputs outputs =>
      "outputs total " ++ toString outputs.toNat ++ " satoshis but inputs only " ++
        toString inputs.toNat
  | insufficientFee paid required =>
      "fee of " ++ toString paid.toNat ++ " satoshis is below the required " ++
        toString required.toNat
  | untraceable txid index =>
      "input " ++ toString index ++ " of " ++ txid.display ++
        " cannot be traced to a source transaction"
  | spend failure => failure.message
  | merkle cause => "spv error: " ++ cause.message
  | script cause => "script error: " ++ cause.message
  | encoding cause => "primitives error: " ++ cause.message

end BitcoinSpend
