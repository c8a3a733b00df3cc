import BitcoinSpend.SignatureHash.Digest
import BitcoinSpend.Spend.Validate

/-!
# Transactions as seen by scripts

A transaction answers the questions of the scripts that spend through it, and an
input with its spent output makes a pair of scripts to run.
-/

set_option autoImplicit false

namespace BitcoinSpend

namespace Transaction

/-- Whether a signature is valid for a key and a sub-script. Without the fork identifier enabled,
the older digest is used whatever the hash type says. -/
def verifySignature (tx : Transaction) (forkIdEnabled : Bool) (query : Spend.SignatureQuery) :
    Except Spend.Fault Bool :=
  if query.signature.isEmpty then .ok false
  else
    match Signature.ofDer query.signature.dropLast, PublicKey.ofBytes query.publicKey with
    | .ok signature, .ok key =>
        match tx.inputs[query.inputIndex]? with
        | none => .error (.noInput query.inputIndex)
        | some input =>
            match input.sourceOutput query.inputIndex with
            | .error cause => .error (.unknownSource cause.message)
            | .ok spent =>
                let type : HashType := ⟨query.hashType⟩
                let digest :=
                  if forkIdEnabled && type.isForkId then
                    tx.digest query.inputIndex query.subScript.bytes type spent.value
                  else tx.legacyDigest query.inputIndex query.subScript.bytes type
                match digest with
                | .error cause => .error (.noDigest cause.message)
                | .ok digest => .ok (signature.verifies digest key)
    | _, _ => .ok false

def context (tx : Transaction) (forkIdEnabled : Bool) : Spend.TxContext where
  verifySignature := fun _ query => tx.verifySignature forkIdEnabled query
  lockTime := tx.lockTime
  version := tx.version
  sequence := fun index =>
    match tx.inputs[index]? with
    | some input => input.sequence
    | none => 0

def spendRequest (tx : Transaction) (index : Nat) (input : Input) (spent : SpentOutput)
    (unlocking : Script) (flags : Spend.Flags) (memoryLimit : Nat) : Spend.Request where
  sourceTxid := input.outpoint.txid
  sourceIndex := input.outpoint.index
  unlocking := unlocking
  locking := spent.script
  context := some (tx.context (flags.has Spend.Flags.enableForkId))
  inputIndex := index
  flags := flags
  memoryLimit := memoryLimit

def evaluateInput (tx : Transaction) (flags : Spend.Flags) (memoryLimit : Nat) (input : Input)
    (index : Nat) : Except TransactionError Unit := do
  let spent ← input.sourceOutput index
  match input.unlocking with
  | none => throw (.notUnlocked index)
  | some unlocking =>
      let request := tx.spendRequest index input spent unlocking flags memoryLimit
      request.validate.mapError .spend

end Transaction

end BitcoinSpend
