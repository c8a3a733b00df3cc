import BitcoinSpend.Chunk.Assembly
import BitcoinSpend.ScriptNumber

/-!
# Scripts

A script is its bytes, whether or not they split into chunks. The chunk view is
computed when it is asked for.
-/

set_option autoImplicit false

namespace BitcoinSpend

/-- A script as it stands in a transaction. -/
structure Script where
  bytes : Bytes
  deriving DecidableEq, Repr

namespace Script

def empty : Script :=
  ⟨[]⟩

instance : Inhabited Script := ⟨empty⟩

def size (script : Script) : Nat :=
  script.bytes.length

def isEmpty (script : Script) : Bool :=
  script.bytes.isEmpty

def ofChunks (chunks : List Chunk) : Script :=
  ⟨Chunk.encodeAll chunks⟩

def chunks (script : Script) : Except ScriptError (List Chunk) :=
  Chunk.decode script.bytes

def ofHex (text : String) : Except ScriptError Script :=
  match Hex.decode text with
  | .ok bytes => .ok ⟨bytes⟩
  | .error cause => .error (.hex cause)

def toHex (script : Script) : String :=
  Hex.encode script.bytes

/-- What a script is for. -/
inductive Role where
  | locking
  | unlocking
  deriving DecidableEq, Repr

/-- A description for diagnostics, naming the role where one is known. -/
def describe (script : Script) (role : Option Role) : String :=
  let label :=
    match role with
    | none => "Script"
    | some .locking => "LockingScript"
    | some .unlocking => "UnlockingScript"
  label ++ "(" ++ script.toHex ++ ")"

/-- Whether the script splits into chunks that are all pushes. -/
def isPushOnly (script : Script) : Bool :=
  match script.chunks with
  | .ok chunks => chunks.all Chunk.isPush
  | .error _ => false

/-- Whether the script pays to the hash of a public key: duplicate, hash, push of twenty bytes,
compare, check signature. -/
def isPayToKeyHash (script : Script) : Bool :=
  script.size = 25 && script.bytes.take 3 = [Opcode.dup, Opcode.hash160, 20] &&
    script.bytes.drop 23 = [Opcode.equalVerify, Opcode.checkSig]

/-- Whether the script only carries data: it starts with a return, or with an empty push and a
return. -/
def isData (script : Script) : Bool :=
  match script.bytes with
  | first :: rest =>
      first = Opcode.returnEarly ||
        (first = Opcode.pushEmpty && rest.head? = some Opcode.returnEarly)
  | [] => false

def keyHashBytes (script : Script) : Except ScriptError Bytes :=
  if script.isPayToKeyHash then .ok ((script.bytes.drop 3).take 20) else .error .notPayToKeyHash

def payToKeyHash (hash : Bytes) : Script :=
  ⟨[Opcode.dup, Opcode.hash160, 20] ++ hash ++ [Opcode.equalVerify, Opcode.checkSig]⟩

end Script

end BitcoinSpend
