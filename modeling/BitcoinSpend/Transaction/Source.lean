import BitcoinSpend.Transaction.Encode
import BitcoinSpend.Transaction.Error

/-!
# Spent outputs

What an input knows about the output that it spends: the transaction that made
it, or its value and script stated on their own. Both must agree with the
outpoint and with each other.
-/

set_option autoImplicit false

namespace BitcoinSpend

/-- The value and the script of an output that is spent. -/
structure SpentOutput where
  value : UInt64
  script : Script
  deriving DecidableEq, Repr

def Output.spent (output : Output) : SpentOutput :=
  ⟨output.value, output.script⟩

namespace Input

/-- The spent output as stated, where both its value and its script are. -/
def statedSource? (input : Input) : Option SpentOutput :=
  match input.sourceValue, input.sourceScript with
  | some value, some script => some ⟨value, script⟩
  | _, _ => none

/-- The output that an input spends. The index is the one that failures name. -/
def sourceOutput (input : Input) (index : Nat) : Except TransactionError SpentOutput :=
  match input.source with
  | none =>
      match input.statedSource? with
      | some stated => .ok stated
      | none => .error (.noSource index)
  | some source =>
      if source.txid ≠ input.outpoint.txid then .error (.sourceMismatch index)
      else
        match source.outputs[input.outpoint.index.toNat]? with
        | none => .error (.noSource index)
        | some output =>
            match input.statedSource? with
            | none => .ok output.spent
            | some stated =>
                if stated = output.spent then .ok stated else .error (.sourceMismatch index)

/-- The input with the value and the script of the spent output stated. -/
def withSource (input : Input) (source : SpentOutput) : Input :=
  { input with sourceValue := some source.value, sourceScript := some source.script }

/-- An input that spends an output of a known transaction. -/
def ofSource (source : Transaction) (index : UInt32) : Input :=
  { Input.ofOutpoint ⟨source.txid, index⟩ with source := some source }

end Input

namespace Transaction

def inputAt (tx : Transaction) (index : Nat) : Except TransactionError Input :=
  match tx.inputs[index]? with
  | some input => .ok input
  | none => .error (.inputRange index tx.inputs.length)

/-- The transaction with one more input, given by the displayed identifier and the index of the
output that it spends and by the hexadecimal text of the script and the value of that output. -/
def addInputFrom (tx : Transaction) (txid : String) (index : UInt32) (script : String)
    (value : UInt64) : Except TransactionError Transaction := do
  let txid ← (Hash32.ofDisplay txid).mapError .encoding
  let script ← (Script.ofHex script).mapError .script
  pure (tx.addInput ((Input.ofOutpoint ⟨txid, index⟩).withSource ⟨value, script⟩))

end Transaction

end BitcoinSpend
