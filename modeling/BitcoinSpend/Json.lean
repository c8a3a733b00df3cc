import BitcoinSpend.Hash32
import BitcoinSpend.Script.Basic

/-!
# JSON values

The document form of hashes, scripts and Merkle paths. Hashes and scripts are
texts. A record is an object, in which unknown fields are ignored, or an array
of exactly its fields in order.
-/

set_option autoImplicit false

namespace BitcoinSpend

inductive Json where
  | null
  | bool (value : Bool)
  /-- The number `mantissa / 10 ^ scale`; a whole number has scale zero. -/
  | number (mantissa : Int) (scale : Nat)
  | text (value : String)
  | array (items : List Json)
  | object (fields : List (String × Json))
  deriving Inhabited

namespace Json

def ofNat (value : Nat) : Json :=
  .number value 0

def natBelow? (bound : Nat) : Json → Option Nat
  | .number (.ofNat value) 0 => if value < bound then some value else none
  | _ => none

def uint32? (json : Json) : Option UInt32 :=
  (json.natBelow? UInt32.size).map UInt32.ofNat

def uint64? (json : Json) : Option UInt64 :=
  (json.natBelow? UInt64.size).map UInt64.ofNat

def bool? : Json → Option Bool
  | .bool value => some value
  | _ => none

def items? : Json → Option (List Json)
  | .array items => some items
  | _ => none

/-- A list of values, all of which must be readable. -/
def list? {α : Type} (read : Json → Option α) (json : Json) : Option (List α) := do
  let items ← json.items?
  items.mapM read

/-- A value that may be absent or null. The outer option tells whether it is readable. -/
def optional? {α : Type} (read : Json → Option α) : Option Json → Option (Option α)
  | none | some .null => some none
  | some json => (read json).map some

/-- The fields of a record, in the order of their names. -/
def record? (names : List String) : Json → Option (List (Option Json))
  | .object fields => some (names.map fun name => List.lookup name fields)
  | .array items => if items.length = names.length then some (items.map some) else none
  | _ => none

end Json

/-- The document form of a hash: its displayed text. -/
def Hash32.toJson (hash : Hash32) : Json :=
  .text hash.display

def Hash32.ofJson? : Json → Option Hash32
  | .text text => (Hash32.ofDisplay text).toOption
  | _ => none

/-- The document form of a script: its hexadecimal text. -/
def Script.toJson (script : Script) : Json :=
  .text script.toHex

def Script.ofJson? : Json → Option Script
  | .text text => (Script.ofHex text).toOption
  | _ => none

end BitcoinSpend
