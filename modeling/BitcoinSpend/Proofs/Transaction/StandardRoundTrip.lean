import BitcoinSpend.Proofs.Wire.ReadBack
import BitcoinSpend.Transaction.Decode

/-!
# The standard encoding read back

Reading the standard encoding gives the transaction without what is not encoded,
and leaves what follows it. One shape of transaction is an exception, since its
first bytes after the version are those that mark the extended encoding.
-/

set_option autoImplicit false

namespace BitcoinSpend

open Wire (Undoes)

/-! ## What is encoded -/

/-- The input with nothing but what is encoded; one that is not signed has the empty script. -/
def Input.bare (input : Input) : Input :=
  { Input.ofOutpoint input.outpoint with
    sequence := input.sequence
    unlocking := some ⟨input.unlockingBytes⟩ }

def Output.bare (output : Output) : Output :=
  { output with change := false }

/-- The transaction with nothing but what is encoded. -/
def Transaction.bare (tx : Transaction) : Transaction where
  version := tx.version
  inputs := tx.inputs.map Input.bare
  outputs := tx.outputs.map Output.bare
  lockTime := tx.lockTime
  path := none

/-- What is counted in the encoding can be counted in 64 bits, as whatever fits in memory can. -/
structure Transaction.Encodable (tx : Transaction) : Prop where
  inputs : tx.inputs.length < UInt64.size
  outputs : tx.outputs.length < UInt64.size
  unlocking : ∀ input ∈ tx.inputs, input.unlockingBytes.length < UInt64.size
  locking : ∀ output ∈ tx.outputs, output.script.size < UInt64.size

/-- Whether the marker of the extended encoding stands after the version. -/
def HasMarker (bytes : Bytes) : Prop :=
  (bytes.drop 4).take extendedMarker.length = extendedMarker

instance (bytes : Bytes) : Decidable (HasMarker bytes) :=
  inferInstanceAs (Decidable ((bytes.drop 4).take extendedMarker.length = extendedMarker))

/-- Two counts of zero and this lock time are the bytes of the marker. -/
def Transaction.LooksExtended (tx : Transaction) : Prop :=
  tx.inputs = [] ∧ tx.outputs = [] ∧ tx.lockTime = 0xef000000

theorem Transaction.encodeTail_bare (tx : Transaction) : tx.bare.encodeTail = tx.encodeTail := by
  have outputs :
      (tx.outputs.map Output.bare).flatMap Output.encode = tx.outputs.flatMap Output.encode :=
    List.flatMap_map ..
  simp only [encodeTail, encodeCounted, bare, outputs, List.length_map]

private theorem Transaction.encode_bare (tx : Transaction) : tx.bare.encode = tx.encode := by
  have inputs : (tx.inputs.map Input.bare).flatMap Input.encode = tx.inputs.flatMap Input.encode :=
    List.flatMap_map ..
  rw [encode, encode, encodeTail_bare]
  simp only [encodeCounted, bare, inputs, List.length_map]

/-! ## Parts -/

theorem undoes_readWireField {α : Type} {read : Wire.Read EncodingError α} {bytes : Bytes}
    {value : α} (undoes : Undoes read bytes value) (name : WireField) :
    Undoes (readWireField name read) bytes value :=
  undoes.mapError _

theorem Output.undoes_read {output : Output} (fits : output.script.size < UInt64.size) :
    Undoes Output.read output.encode output.bare := by
  have encoded : output.encode =
      Bytes.ofNatLE 8 output.value.toNat ++ Wire.varBytes output.script.bytes := by
    simp [Output.encode, Wire.encodeFields, Wire.Field.encode]
  rw [encoded]
  apply (undoes_readWireField (Wire.undoes_readUInt64 output.value) .value).bind
  exact (undoes_readWireField (Wire.undoes_readVarBytes fits) .lockingScript).map _

theorem Input.undoes_read {input : Input} (fits : input.unlockingBytes.length < UInt64.size) :
    Undoes Input.read input.encode input.bare := by
  have encoded : input.encode =
      input.outpoint.txid.bytes ++ (Bytes.ofNatLE 4 input.outpoint.index.toNat ++
        (Wire.varBytes input.unlockingBytes ++ Bytes.ofNatLE 4 input.sequence.toNat)) := by
    simp [Input.encode, Outpoint.encodeInput, Outpoint.encode, Wire.encodeFields,
      Wire.Field.encode]
  rw [encoded]
  apply (undoes_readWireField (Wire.undoes_readHash32 input.outpoint.txid) .sourceTxid).bind
  apply (undoes_readWireField (Wire.undoes_readUInt32 input.outpoint.index) .outputIndex).bind
  apply (undoes_readWireField (Wire.undoes_readVarBytes fits) .unlockingScript).bind
  exact (undoes_readWireField (Wire.undoes_readUInt32 input.sequence) .sequence).map _

/-! ## The marker -/

theorem peek?_eq_marker_iff (cursor : Wire.Cursor) :
    cursor.peek? extendedMarker.length = some extendedMarker ↔
      cursor.rest.take extendedMarker.length = extendedMarker := by
  unfold Wire.Cursor.peek?
  by_cases enough : extendedMarker.length ≤ cursor.remaining
  · rw [if_pos enough, Option.some.injEq]
  · rw [if_neg enough]
    constructor
    · nofun
    · intro present
      have short := congrArg List.length present
      rw [List.length_take] at short
      exact absurd (show extendedMarker.length ≤ cursor.rest.length by omega) enough

theorem readMarker_of_absent {cursor : Wire.Cursor}
    (absent : cursor.rest.take extendedMarker.length ≠ extendedMarker) :
    readMarker cursor = .ok false cursor := by
  have looked : ¬(cursor.peek? extendedMarker.length == some extendedMarker) = true := by
    rw [beq_iff_eq, peek?_eq_marker_iff]
    exact absent
  have opened : readMarker cursor =
      (if cursor.peek? extendedMarker.length == some extendedMarker then
        (do
          let _ ← readWireField .marker (Wire.takeBytes extendedMarker.length)
          pure true)
      else pure false : TransactionRead Bool) cursor := rfl
  rw [opened, if_neg looked]
  rfl

theorem undoes_readMarker : Undoes readMarker extendedMarker true := by
  intro position rest
  have looked : (Wire.Cursor.peek? ⟨position, extendedMarker ++ rest⟩ extendedMarker.length ==
      some extendedMarker) = true := by
    rw [beq_iff_eq, peek?_eq_marker_iff]
    exact List.take_left
  have opened : readMarker ⟨position, extendedMarker ++ rest⟩ =
      (if Wire.Cursor.peek? ⟨position, extendedMarker ++ rest⟩ extendedMarker.length ==
          some extendedMarker then
        (do
          let _ ← readWireField .marker (Wire.takeBytes extendedMarker.length)
          pure true)
      else pure false : TransactionRead Bool) ⟨position, extendedMarker ++ rest⟩ := rfl
  rw [opened, if_pos looked]
  exact (undoes_readWireField (Wire.undoes_takeBytes extendedMarker) .marker).map
    (fun _ => true) position rest

theorem hasMarker_append_iff (version : UInt32) (later : Bytes) :
    HasMarker (Bytes.ofNatLE 4 version.toNat ++ later) ↔
      later.take extendedMarker.length = extendedMarker := by
  have dropped : (Bytes.ofNatLE 4 version.toNat ++ later).drop 4 = later :=
    List.drop_left' (Bytes.length_ofNatLE 4 version.toNat)
  rw [HasMarker, dropped]

private theorem Wire.varInt_head (value : UInt64) :
    ∃ first rest, varInt value = first :: rest ∧ (first = 0 → value = 0) := by
  unfold varInt
  split
  · next tiny =>
      refine ⟨_, [], rfl, ?_⟩
      intro zero
      have bound : value.toNat < 253 := tiny
      have low := congrArg UInt8.toNat zero
      apply UInt64.toNat_inj.mp
      simp at low ⊢
      omega
  · split
    · exact ⟨0xfd, _, rfl, nofun⟩
    · split
      · exact ⟨0xfe, _, rfl, nofun⟩
      · exact ⟨0xff, _, rfl, nofun⟩

private theorem encodeCounted_head {α : Type} (encode : α → Bytes) {items : List α}
    (counted : items.length < UInt64.size) :
    ∃ first rest, encodeCounted encode items = first :: rest ∧ (first = 0 → items = []) := by
  obtain ⟨first, rest, started, zero⟩ := Wire.varInt_head (UInt64.ofNat items.length)
  refine ⟨first, rest ++ items.flatMap encode, ?_, ?_⟩
  · rw [encodeCounted, started]
    rfl
  · intro isZero
    have none := congrArg UInt64.toNat (zero isZero)
    rw [UInt64.toNat_ofNat_of_lt' counted] at none
    exact List.length_eq_zero_iff.mp none

namespace Transaction

variable {tx : Transaction}

theorem hasMarker_append_encode_iff (encodable : tx.Encodable) (rest : Bytes) :
    HasMarker (tx.encode ++ rest) ↔ tx.LooksExtended := by
  have split : tx.encode ++ rest = Bytes.ofNatLE 4 tx.version.toNat ++
      (encodeCounted Input.encode tx.inputs ++ (encodeCounted Output.encode tx.outputs ++
        (Bytes.ofNatLE 4 tx.lockTime.toNat ++ rest))) := by
    simp [encode, encodeTail]
  rw [split, hasMarker_append_iff, LooksExtended]
  obtain ⟨first, later, started, noInputs⟩ := encodeCounted_head Input.encode encodable.inputs
  obtain ⟨second, last, continued, noOutputs⟩ := encodeCounted_head Output.encode encodable.outputs
  constructor
  · intro present
    have inputs : tx.inputs = [] := by
      rw [started] at present
      exact noInputs (List.cons.inj present).1
    rw [inputs, continued] at present
    have outputs : tx.outputs = [] := noOutputs (List.cons.inj (List.cons.inj present).2).1
    rw [← continued, outputs] at present
    have bytes : Bytes.ofNatLE 4 tx.lockTime.toNat = Bytes.ofNatLE 4 0xef000000 :=
      (List.cons.inj (List.cons.inj present).2).2
    have fits : tx.lockTime.toNat < Bytes.capacity 4 := tx.lockTime.toNat_lt
    have values := congrArg Bytes.toNatLE bytes
    rw [Bytes.toNatLE_ofNatLE, Bytes.toNatLE_ofNatLE, Nat.mod_eq_of_lt fits] at values
    exact ⟨inputs, outputs, UInt32.toNat_inj.mp values⟩
  · rintro ⟨inputs, outputs, lockTime⟩
    rw [inputs, outputs, lockTime]
    rfl

/-- What follows the version and the marker, if there is one. -/
def readParts (version : UInt32) (isExtended : Bool) : TransactionRead Transaction := do
  let inputCount ← readWireField .inputCount Wire.readVarInt
  let inputs ← (if isExtended then Input.readExtended else Input.read).replicate inputCount.toNat
  let outputCount ← readWireField .outputCount Wire.readVarInt
  let outputs ← Output.read.replicate outputCount.toNat
  let lockTime ← readWireField .lockTime Wire.readUInt32
  pure ⟨version, inputs, outputs, lockTime, none⟩

theorem read_eq :
    read = (do
      let version ← readWireField .version Wire.readUInt32
      let isExtended ← readMarker
      readParts version isExtended) := rfl

/-- The parts are read from counted inputs, whichever way these are written, and the tail. -/
theorem undoes_readParts (encodable : tx.Encodable) (version : UInt32) (isExtended : Bool)
    {inputBytes : Bytes} {inputs : List Input} (counted : inputs.length < UInt64.size)
    (inputsRead : Undoes ((if isExtended then Input.readExtended else Input.read).replicate
      inputs.length) inputBytes inputs) :
    Undoes (readParts version isExtended)
      (Wire.varInt (UInt64.ofNat inputs.length) ++ (inputBytes ++ tx.encodeTail))
      ⟨version, inputs, tx.outputs.map Output.bare, tx.lockTime, none⟩ := by
  apply (undoes_readWireField (Wire.undoes_readVarInt _) .inputCount).bind
  rw [UInt64.toNat_ofNat_of_lt' counted]
  apply inputsRead.bind
  rw [encodeTail, encodeCounted, List.append_assoc]
  apply (undoes_readWireField (Wire.undoes_readVarInt _) .outputCount).bind
  rw [UInt64.toNat_ofNat_of_lt' encodable.outputs]
  have outputsRead : Undoes (Output.read.replicate tx.outputs.length)
      (tx.outputs.flatMap Output.encode) (tx.outputs.map Output.bare) :=
    .replicate fun output member => Output.undoes_read (encodable.locking output member)
  apply outputsRead.bind
  exact (undoes_readWireField (Wire.undoes_readUInt32 tx.lockTime) .lockTime).map _

/-- Without the marker the version is followed by the parts. -/
theorem undoes_read (encodable : tx.Encodable) (plain : ¬tx.LooksExtended) :
    Undoes read tx.encode tx.bare := by
  have inputsRead : Undoes (Input.read.replicate (tx.inputs.map Input.bare).length)
      (tx.inputs.flatMap Input.encode) (tx.inputs.map Input.bare) := by
    rw [List.length_map]
    exact .replicate fun input member => Input.undoes_read (encodable.unlocking input member)
  have partsRead := undoes_readParts encodable tx.version false
    (by rw [List.length_map]; exact encodable.inputs) inputsRead
  have encoded : tx.encode = Bytes.ofNatLE 4 tx.version.toNat ++
      (Wire.varInt (UInt64.ofNat (tx.inputs.map Input.bare).length) ++
        (tx.inputs.flatMap Input.encode ++ tx.encodeTail)) := by
    simp [encode, encodeCounted]
  intro position rest
  have absent : ¬HasMarker (tx.encode ++ rest) := fun marked =>
    plain ((hasMarker_append_encode_iff encodable rest).mp marked)
  rw [encoded, List.append_assoc] at absent ⊢
  rw [hasMarker_append_iff] at absent
  rw [read_eq, Wire.bind_of_ok
    (undoes_readWireField (Wire.undoes_readUInt32 tx.version) .version position _),
    Wire.bind_of_ok (readMarker_of_absent absent), partsRead]
  simp only [List.length_append, Nat.add_assoc]
  rfl

theorem ofBytes_of_undoes {bytes : Bytes} (undoes : Undoes read bytes tx) :
    ofBytes bytes = .ok tx := by
  have whole := undoes 0 []
  rw [List.append_nil] at whole
  simp only [ofBytes, Wire.Cursor.start, whole]
  rfl

private theorem ofBytes_of_looksExtended (ambiguous : tx.LooksExtended) :
    ofBytes tx.encode = .error (.wire (.field .inputCount (.endOfData 1 0))) := by
  obtain ⟨inputs, outputs, lockTime⟩ := ambiguous
  have encoded : tx.encode = Bytes.ofNatLE 4 tx.version.toNat ++ (extendedMarker ++ []) := by
    rw [encode, encodeTail, inputs, outputs, lockTime]
    rfl
  have start : read ⟨0, tx.encode⟩ = readParts tx.version true ⟨10, []⟩ := by
    rw [encoded, read_eq, Wire.bind_of_ok
      (undoes_readWireField (Wire.undoes_readUInt32 tx.version) .version 0 _),
      Wire.bind_of_ok (undoes_readMarker _ [])]
    simp only [Bytes.length_ofNatLE]
    rfl
  simp only [ofBytes, Wire.Cursor.start, start]
  rfl

theorem read_encode (encodable : tx.Encodable) :
    (¬tx.LooksExtended →
      (∀ (position : Nat) (rest : Bytes), read ⟨position, tx.encode ++ rest⟩ =
        .ok tx.bare ⟨position + tx.encode.length, rest⟩) ∧
      ofBytes tx.encode = .ok tx.bare ∧ tx.bare.txid = tx.txid) ∧
    (tx.LooksExtended →
      ofBytes tx.encode = .error (.wire (.field .inputCount (.endOfData 1 0)))) ∧
    ∀ rest : Bytes, HasMarker (tx.encode ++ rest) ↔ tx.LooksExtended := by
  refine ⟨?_, ofBytes_of_looksExtended, hasMarker_append_encode_iff encodable⟩
  intro plain
  have undoes := undoes_read encodable plain
  exact ⟨undoes, ofBytes_of_undoes undoes, congrArg Hash32.hash256 tx.encode_bare⟩

/-- An input that is not signed, an output for change, and the lock time of the exception. -/
def unsignedPayment : Transaction :=
  ⟨2, [(Input.ofOutpoint ⟨Hash32.zero, 7⟩).withSource ⟨1200, ⟨[0x51]⟩⟩],
    [⟨1000, ⟨[0x51]⟩, true⟩], 0xef000000, none⟩

/-- The exception: no inputs, no outputs, and that lock time. -/
def countlessPayment : Transaction :=
  { unsignedPayment with inputs := [], outputs := [] }

theorem unsignedPayment_read_encode :
    (unsignedPayment.Encodable ∧ ¬unsignedPayment.LooksExtended ∧
      (∀ (position : Nat) (rest : Bytes), read ⟨position, unsignedPayment.encode ++ rest⟩ =
        .ok unsignedPayment.bare ⟨position + 61, rest⟩) ∧
      ofBytes unsignedPayment.encode = .ok unsignedPayment.bare ∧
      unsignedPayment.bare.txid = unsignedPayment.txid ∧
      ∀ rest : Bytes, ¬HasMarker (unsignedPayment.encode ++ rest)) ∧
    (countlessPayment.Encodable ∧ countlessPayment.LooksExtended ∧
      ofBytes countlessPayment.encode =
        .error (.wire (.field .inputCount (.endOfData 1 0)))) := by
  have encodable : unsignedPayment.Encodable :=
    ⟨by decide, by decide, by decide, by decide⟩
  have plain : ¬unsignedPayment.LooksExtended := nofun
  have encodable' : countlessPayment.Encodable :=
    ⟨by decide, by decide, by decide, by decide⟩
  have ambiguous : countlessPayment.LooksExtended := ⟨rfl, rfl, rfl⟩
  obtain ⟨reads, -, marked⟩ := read_encode encodable
  obtain ⟨streams, whole, named⟩ := reads plain
  obtain ⟨-, fails, -⟩ := read_encode encodable'
  exact ⟨⟨encodable, plain, streams, whole, named, fun rest has => plain ((marked rest).mp has)⟩,
    encodable', ambiguous, fails ambiguous⟩

end Transaction

end BitcoinSpend
