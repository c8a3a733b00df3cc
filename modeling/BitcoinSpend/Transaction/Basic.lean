import BitcoinSpend.Merkle.Path.Basic
import BitcoinSpend.Template.Unlocker

/-!
# Transactions

A transaction spends outputs of earlier ones and makes new ones. Besides what is
encoded, an input may carry what is known about the output that it spends, and an
output may be marked to receive change.
-/

set_option autoImplicit false

namespace BitcoinSpend

/-- The name of an output: a transaction and an index in it. -/
structure Outpoint where
  txid : Hash32
  index : UInt32
  deriving DecidableEq, Repr

structure Output where
  /-- The value in satoshis. -/
  value : UInt64
  script : Script
  /-- Whether the output receives what is left over when the fee is paid. -/
  change : Bool
  deriving DecidableEq, Repr

mutual

structure Input where
  /-- The output that the input spends. -/
  outpoint : Outpoint
  sequence : UInt32
  /-- The unlocking script, once the input is signed. -/
  unlocking : Option Script
  /-- What makes the unlocking script when the transaction is signed. -/
  unlocker : Option Unlocker
  /-- The transaction that made the output, where it is known. -/
  source : Option Transaction
  /-- The value of the output, where it is stated. -/
  sourceValue : Option UInt64
  /-- The locking script of the output, where it is stated. -/
  sourceScript : Option Script

structure Transaction where
  version : UInt32
  inputs : List Input
  outputs : List Output
  /-- The block height or time before which the transaction is not final. -/
  lockTime : UInt32
  /-- The proof that the transaction is in a block, where it is known. -/
  path : Option Merkle.Path

end

/-- The sequence number of an input that is final. -/
def Input.finalSequence : UInt32 := 0xffffffff

namespace Input

/-- An input that spends an output of which nothing else is known. -/
def ofOutpoint (outpoint : Outpoint) : Input :=
  ⟨outpoint, Input.finalSequence, none, none, none, none, none⟩

/-- The bytes of the unlocking script, none before signing. -/
def unlockingBytes (input : Input) : Bytes :=
  match input.unlocking with
  | some script => script.bytes
  | none => []

end Input

namespace Transaction

def empty : Transaction :=
  ⟨1, [], [], 0, none⟩

instance : Inhabited Transaction := ⟨empty⟩

def addInput (tx : Transaction) (input : Input) : Transaction :=
  { tx with inputs := tx.inputs ++ [input] }

def addOutput (tx : Transaction) (output : Output) : Transaction :=
  { tx with outputs := tx.outputs ++ [output] }

/-- Whether the transaction makes new coins: its only input names no transaction, and its output
index or its sequence number is the largest. -/
def isCoinbase (tx : Transaction) : Bool :=
  match tx.inputs with
  | [input] =>
      input.outpoint.txid == Hash32.zero &&
        (input.outpoint.index == 0xffffffff || input.sequence == Input.finalSequence)
  | _ => false

/-- The known transactions that made the outputs that the inputs spend. -/
def sources (tx : Transaction) : List Transaction :=
  tx.inputs.filterMap Input.source

end Transaction

end BitcoinSpend
