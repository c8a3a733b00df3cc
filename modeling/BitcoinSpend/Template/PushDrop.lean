import BitcoinSpend.PublicKey
import BitcoinSpend.Transaction.Error

/-!
# Push-drop scripts

A locking script that carries data: a key and a signature check, and fields that
are pushed and dropped, before or after the check.
-/

set_option autoImplicit false

namespace BitcoinSpend

/-- A key with data fields. -/
structure PushDrop where
  key : PublicKey
  fields : List Bytes
  deriving DecidableEq

namespace PushDrop

/-- Where the signature check stands. -/
inductive LockPosition where
  | beforeFields
  | afterFields
  deriving DecidableEq, Repr

/-- The chunks that drop a number of items, two at a time. -/
def drops : (count : Nat) → List Chunk
  | 0 => []
  | 1 => [Chunk.ofOpcode Opcode.drop]
  | count + 2 => Chunk.ofOpcode Opcode.drop2 :: drops count

def lockingScript (content : PushDrop) (position : LockPosition) : Script :=
  let lock := [Chunk.push content.key.compressed, Chunk.ofOpcode Opcode.checkSig]
  let data := content.fields.map Chunk.push ++ drops content.fields.length
  match position with
  | .beforeFields => Script.ofChunks (lock ++ data)
  | .afterFields => Script.ofChunks (data ++ lock)

/-- The chunk of the key and the chunks of the data. The check stands second, or else last. -/
def layout? (chunks : List Chunk) : Option (Chunk × List Chunk) :=
  match chunks with
  | key :: second :: rest =>
      if second.op = Opcode.checkSig then some (key, rest)
      else
        match chunks.reverse with
        | last :: key :: data =>
            if last.op = Opcode.checkSig then some (key, data.reverse) else none
        | _ => none
  | _ => none

/-- The fields: the values pushed before the first drop. -/
def fields? (data : List Chunk) : Option (List Bytes) :=
  (data.takeWhile fun chunk => chunk.op != Opcode.drop && chunk.op != Opcode.drop2).mapM
    Chunk.pushValue?

/-- The key and the fields of a locking script with the check in either place. -/
def ofScript (script : Script) : Except TransactionError PushDrop := do
  let chunks ← script.chunks.mapError .script
  match layout? chunks with
  | none => throw (.invalid .notPushDrop)
  | some (key, data) =>
      match key.data with
      | none => throw (.invalid .notPushDrop)
      | some keyBytes =>
          let key ← (PublicKey.ofBytes keyBytes).mapError .encoding
          match fields? data with
          | none => throw (.invalid .notPushDrop)
          | some fields => pure ⟨key, fields⟩

end PushDrop

end BitcoinSpend
