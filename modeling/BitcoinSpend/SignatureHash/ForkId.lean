import BitcoinSpend.SignatureHash.HashType
import BitcoinSpend.Transaction.Source

/-!
# The replay-protected digest

The message commits to the value of the spent output, and to the outpoints, the
sequence numbers and the outputs by a digest each. What the hash type leaves out
has zeros in its place.
-/

set_option autoImplicit false

namespace BitcoinSpend

def Transaction.outpointsDigest (tx : Transaction) : Hash32 :=
  Hash32.hash256 (tx.inputs.flatMap fun input => input.outpoint.encode)

def Transaction.sequencesDigest (tx : Transaction) : Hash32 :=
  Hash32.hash256 (tx.inputs.flatMap fun input => Bytes.ofNatLE 4 input.sequence.toNat)

def outputsDigest (outputs : List Output) : Hash32 :=
  Hash32.hash256 (outputs.flatMap Output.encode)

namespace HashType

def outpointsField (type : HashType) (tx : Transaction) : Hash32 :=
  if type.isAnyoneCanPay then Hash32.zero else tx.outpointsDigest

def sequencesField (type : HashType) (tx : Transaction) : Hash32 :=
  if type.isAnyoneCanPay || type.cover != .all then Hash32.zero else tx.sequencesDigest

def outputsField (type : HashType) (tx : Transaction) (index : Nat) : Hash32 :=
  match type.cover with
  | .all => outputsDigest tx.outputs
  | .none => Hash32.zero
  | .single =>
      match tx.outputs[index]? with
      | some output => outputsDigest [output]
      | none => Hash32.zero

end HashType

def Transaction.forkIdMessage (tx : Transaction) (index : Nat) (code : Bytes) (type : HashType)
    (value : UInt64) : Except TransactionError Bytes := do
  let input ← tx.inputAt index
  pure (Wire.encodeFields [
    .uint32 tx.version,
    .bytes (type.outpointsField tx).bytes,
    .bytes (type.sequencesField tx).bytes,
    .bytes input.outpoint.txid.bytes,
    .uint32 input.outpoint.index,
    .varBytes code,
    .uint64 value,
    .uint32 input.sequence,
    .bytes (type.outputsField tx index).bytes,
    .uint32 tx.lockTime,
    .uint32 type.bits])

end BitcoinSpend
