import BitcoinSpend.Base58
import BitcoinSpend.KeyHash
import BitcoinSpend.Script.Basic

/-!
# Addresses

The checked Base58 text of a network's version byte and a key hash.
-/

set_option autoImplicit false

namespace BitcoinSpend

inductive Network where
  | main
  | test
  deriving DecidableEq, Repr

def Network.version : Network → UInt8
  | main => 0x00
  | test => 0x6f

def Network.ofVersion? (version : UInt8) : Option Network :=
  if version = Network.main.version then some main
  else if version = Network.test.version then some test
  else none

/-- A key hash on a network. -/
structure Address where
  keyHash : KeyHash
  network : Network
  deriving DecidableEq, Repr

namespace Address

def ofKey (key : PublicKey) (network : Network) : Address :=
  ⟨KeyHash.ofKey key, network⟩

def display (address : Address) : String :=
  Base58.encodeChecked (address.network.version :: address.keyHash.bytes)

/-- Reads the text of an address. The length is checked before the version. -/
def ofText (text : String) : Except ScriptError Address :=
  match Base58.decodeChecked text with
  | .error cause => .error (.encoding cause)
  | .ok payload =>
      match payload with
      | [] => .error (.addressLength text 0)
      | version :: body =>
          match KeyHash.ofBytes? body with
          | none => .error (.addressLength text payload.length)
          | some keyHash =>
              match Network.ofVersion? version with
              | some network => .ok ⟨keyHash, network⟩
              | none => .error (.addressVersion version)

def lockingScript (address : Address) : Script :=
  Script.payToKeyHash address.keyHash.bytes

end Address

end BitcoinSpend
