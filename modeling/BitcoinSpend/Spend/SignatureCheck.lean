import BitcoinSpend.Spend.Conditional
import BitcoinSpend.Spend.Instruction
import BitcoinSpend.Spend.LockTime
import BitcoinSpend.Spend.SignatureLayout

/-!
# Digest and signature instructions

A signature commits to the running script after its last separator. Encodings
are checked before the transaction context is asked.
-/

set_option autoImplicit false

namespace BitcoinSpend.Spend

open MonadExcept (ofExcept)

/-- The bit of a hash type that selects the replay-protected digest. -/
def hashTypeForkId : UInt8 := 0x40

/-- The bit of a hash type under which only one input is signed. -/
def hashTypeAnyoneCanPay : UInt8 := 0x80

/-- Drops the separators and the shortest pushes of the given signatures. -/
def stripSignatures (signatures : List Bytes) (chunks : List Chunk) : List Chunk :=
  chunks.filter fun chunk =>
    chunk.op != Opcode.codeSeparator &&
      (Opcode.pushData4 < chunk.op || !chunk.isMinimal ||
        match chunk.data with
        | none => true
        | some data => !signatures.any fun signature => !signature.isEmpty && data == signature)

/-- Requires a known hash type whose replay protection agrees with the flags. -/
def checkHashType (flags : Flags) (hashType : UInt8) : Except Fault Unit :=
  if !flags.has Flags.strictEncoding then .ok ()
  else
    let base := hashType &&& ~~~(hashTypeForkId ||| hashTypeAnyoneCanPay)
    if base < 1 ∨ 3 < base then .error (.hashType hashType)
    else
      let isForkId := hashType &&& hashTypeForkId != 0
      let enabled := flags.has Flags.enableForkId
      if isForkId && !enabled then .error .forkIdNotEnabled
      else if !isForkId && enabled then .error .forkIdMissing
      else .ok ()

/-- Requires the strict layout of a signature that is not empty, if a flag asks for it. -/
def checkSignatureEncoding (flags : Flags) (bytes : Bytes) : Except Fault Unit :=
  if flags.hasAny [Flags.derSignatures, Flags.lowS, Flags.strictEncoding] && !bytes.isEmpty then
    checkLayout (flags.has Flags.lowS) bytes
  else .ok ()

/-- Requires one of the two encodings of public keys, if a flag asks for it. -/
def checkKeyEncoding (flags : Flags) (bytes : Bytes) : Except Fault Unit :=
  if !flags.has Flags.strictEncoding then .ok ()
  else
    match bytes with
    | first :: rest =>
        if (first = 0x02 ∨ first = 0x03) ∧ rest.length = 32 then .ok ()
        else if first = 0x04 ∧ rest.length = 64 then .ok ()
        else .error .keyType
    | [] => .error .keyType

/-- Whether a hash type selects the replay-protected digest under the flags. -/
def usesForkId (flags : Flags) (hashType : UInt8) : Bool :=
  flags.has Flags.enableForkId && hashType &&& hashTypeForkId != 0

/-- The script that signatures commit to, as it is or with signatures and separators dropped. -/
def signedScript (chunks : List Chunk) (separator : Option Nat) (signatures : List Bytes)
    (isForkId : Bool) : Except Fault Script := do
  let start :=
    match separator with
    | some index => index + 1
    | none => 0
  let signed ← suffixFrom chunks start
  pure (Script.ofChunks (if isForkId then signed else stripSignatures signatures signed))

namespace Exec

def digest (algorithm : Digest.Algorithm) : Exec Unit := do
  let item ← onStack Stack.pop
  onStack (Stack.push (algorithm.digest item))

/-- Marks the current instruction as the last separator. -/
def codeSeparator : Exec Unit := do
  let frame ← read
  modify fun state => { state with separator := some frame.position }

def signingScript (signatures : List Bytes) (isForkId : Bool) : Exec Script := do
  let frame ← read
  let state ← get
  ofExcept (signedScript frame.script state.separator signatures isForkId)

/-- Asks the transaction context about a signature and records the question. -/
def ask (context : TxContext) (query : SignatureQuery) : Exec Bool := fun _ state =>
  let valid :=
    match context.verifySignature state.queries query with
    | .ok valid => valid
    | .error _ => false
  .ok valid { state with queries := state.queries ++ [query] }

/-- Whether a signature with its hash type is valid for a key; an empty one never is. -/
def checkOne (context : TxContext) (signature key : Bytes) (script : Script) : Exec Bool := do
  match signature.getLast? with
  | none => pure false
  | some hashType =>
      let setup ← setup
      ofExcept (checkHashType setup.flags hashType)
      ofExcept (checkSignatureEncoding setup.flags signature.dropLast)
      ofExcept (checkKeyEncoding setup.flags key)
      ask context ⟨signature, key, script, setup.inputIndex, hashType.toUInt32⟩

/-- Takes a key and a signature and puts whether the signature is valid. -/
def checkSig : Exec Unit := do
  let key ← onStack Stack.pop
  let signature ← onStack Stack.pop
  if signature.isEmpty then onStack (Stack.pushBool false)
  else
    let context ← requireContext "OP_CHECKSIG"
    let setup ← setup
    let last ← ofExcept (difference signature.length 1)
    let hashType ← ofExcept (itemAt signature last)
    let script ← signingScript [signature] (usesForkId setup.flags hashType)
    let valid ← checkOne context signature key script
    refuse (!valid && setup.flags.has Flags.nullFail) .nullFailCheckSig
    onStack (Stack.pushBool valid)

/-- Whether each signature from one index on is valid for a key of its own from another index on, in
the order of the keys. Each key is tried once, and the search ends when fewer keys than signatures
are left. -/
def matchFrom (context : TxContext) (script : Script) (keys signatures : List Bytes)
    (keyIndex signatureIndex : Nat) : Exec Bool :=
  if signatures.length ≤ signatureIndex then pure true
  else do
    let unmatched ← ofExcept (difference signatures.length signatureIndex)
    let untried ← ofExcept (difference keys.length keyIndex)
    if untried < unmatched then pure false
    else
      let signature ← ofExcept (itemAt signatures signatureIndex)
      match found : itemAt keys keyIndex with
      | .error fault => throw fault
      | .ok key =>
          if signature.isEmpty then
            matchFrom context script keys signatures (keyIndex + 1) signatureIndex
          else
            let valid ← checkOne context signature key script
            let nextIndex := if valid then signatureIndex + 1 else signatureIndex
            matchFrom context script keys signatures (keyIndex + 1) nextIndex
termination_by keys.length - keyIndex
decreasing_by
  all_goals
    have inside := lt_of_itemAt found
    omega

/-- Whether each signature is valid for a key of its own, in the order of the keys. -/
def matchSignatures (context : TxContext) (script : Script) (keys signatures : List Bytes) :
    Exec Bool :=
  matchFrom context script keys signatures 0 0

/-- Counts keys as operations. -/
def countOps (count : Nat) : Exec Unit := do
  let setup ← setup
  modify fun state => { state with opCount := state.opCount + count }
  let state ← get
  refuse (setup.limits.maxOps < state.opCount) (.tooManyOperations setup.limits.maxOps)

def popKeys : Exec (List Bytes) := do
  let setup ← setup
  let count ← onStack Stack.popNumber
  refuse (count < 0 || setup.limits.maxKeys < count) (.keyCount count setup.limits.maxKeys)
  let state ← get
  refuse (state.stack.depth < count.toNat) (.tooFewKeys count.toNat state.stack.depth)
  countOps count.toNat
  onStack (Stack.popMany count.toNat)

/-- Takes the number of signatures, at most the number of keys, and the signatures. -/
def popSignatures (keyCount : Nat) : Exec (List Bytes) := do
  let count ← onStack Stack.popNumber
  refuse (count < 0 || keyCount < count) (.signatureCount count keyCount)
  onStack (Stack.popMany count.toNat)

/-- Takes keys, signatures and one extra operand, and puts whether the signatures are valid. -/
def checkMultiSig : Exec Unit := do
  let setup ← setup
  let keys ← popKeys
  let signatures ← popSignatures keys.length
  let dummy ← onStack Stack.pop
  refuse (setup.flags.has Flags.strictMultiSig && !dummy.isEmpty) (.dummyNotEmpty dummy.length)
  if signatures.isEmpty then onStack (Stack.pushBool true)
  else
    let context ← requireContext "OP_CHECKMULTISIG"
    let isForkId := (signatures.filterMap List.getLast?).all (usesForkId setup.flags)
    let script ← signingScript signatures isForkId
    let valid ← matchSignatures context script keys signatures
    refuse (!valid && setup.flags.has Flags.nullFail && signatures.any (!·.isEmpty))
      .nullFailCheckMultiSig
    onStack (Stack.pushBool valid)

end Exec

end BitcoinSpend.Spend
