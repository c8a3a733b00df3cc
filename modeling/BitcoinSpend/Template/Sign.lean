import BitcoinSpend.Script.Build
import BitcoinSpend.SignatureHash.Digest
import BitcoinSpend.Template.Unlocker

/-!
# Signing

An unlocker signs the digest of its input. Digests do not depend on unlocking
scripts, so the inputs of a transaction are signed against it as it was, and their
unlocking scripts are put in place afterwards.
-/

set_option autoImplicit false

namespace BitcoinSpend

/-- The encoded signature of an input with its hash type after it. -/
def Transaction.signInput (tx : Transaction) (index : Nat) (type : HashType)
    (sign : Hash32 → Except EncodingError Signature) : Except TransactionError Bytes := do
  let digest ← tx.inputDigest index type
  let signature ← (sign digest).mapError .encoding
  pure (signature.toDer ++ [type.byte])

def Script.ofPushes (items : List Bytes) : Except TransactionError Script :=
  (items.foldlM Script.appendPush Script.empty).mapError .script

/-- The unlocking script that an unlocker makes for an input. -/
def Unlocker.unlock (unlocker : Unlocker) (tx : Transaction) (index : Nat) :
    Except TransactionError Script :=
  match unlocker with
  | .payToKeyHash key type => do
      let signature ← tx.signInput index type key.sign
      Script.ofPushes [signature, key.publicKey.compressed]
  | .pushDrop key type => do
      let signature ← tx.signInput index type key.sign
      Script.ofPushes [signature]
  | .rPuzzle nonce key type => do
      let signature ← tx.signInput index type fun digest => key.signWithK digest nonce
      Script.ofPushes [signature, key.publicKey.compressed]

def Input.withUnlocking (input : Input) (script : Script) : Input :=
  { input with unlocking := some script }

namespace Transaction

/-- The transaction with an unlocking script at one of its inputs. -/
def withUnlocking (tx : Transaction) (index : Nat) (script : Script) : Transaction :=
  { tx with inputs := tx.inputs.modify index fun input => input.withUnlocking script }

/-- The unlockers of a transaction, each with the index of its input. -/
def unlockers (tx : Transaction) : List (Nat × Unlocker) :=
  tx.inputs.zipIdx.filterMap fun (input, index) =>
    input.unlocker.map fun unlocker => (index, unlocker)

/-- The scripts that the unlockers of a transaction make, each with the index of its input. -/
def unlockingScripts (tx : Transaction) : Except TransactionError (List (Nat × Script)) :=
  tx.unlockers.mapM fun (index, unlocker) => do
    let script ← unlocker.unlock tx index
    pure (index, script)

/-- Puts an unlocking script at every input that has an unlocker. No script is put in place before
all of them are made. -/
def signInPlace : EStateM TransactionError Transaction Unit := do
  let tx ← get
  let scripts ← MonadExcept.ofExcept tx.unlockingScripts
  scripts.forM fun (index, script) => modify fun tx => tx.withUnlocking index script

/-- The signed transaction. -/
def sign (tx : Transaction) : Except TransactionError Transaction :=
  match signInPlace tx with
  | .ok () signed => .ok signed
  | .error cause _ => .error cause

end Transaction

end BitcoinSpend
