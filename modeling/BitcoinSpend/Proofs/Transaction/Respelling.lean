import BitcoinSpend.Proofs.Transaction.ExtendedRoundTrip
import BitcoinSpend.Proofs.Wire.Spelling

/-!
# Reading and writing again

A string that is read as a transaction spells the fields of that transaction, and
writing them again gives the shortest spelling. So bytes are lost only where a
number of variable length was longer than necessary, and nothing else changes.
-/

set_option autoImplicit false

namespace BitcoinSpend

open Wire (Field Spelling ShorterOrSame Takes)

/-! ## Fields -/

def Output.fields (output : Output) : List Field :=
  [.uint64 output.value, .varBytes output.script.bytes]

def SpentOutput.fields (spent : SpentOutput) : List Field :=
  [.uint64 spent.value, .varBytes spent.script.bytes]

namespace Input

def fields (input : Input) : List Field :=
  [.bytes input.outpoint.txid.bytes, .uint32 input.outpoint.index,
    .varBytes input.unlockingBytes, .uint32 input.sequence]

/-- The fields of an input and of the spent output that it states. -/
def statedFields (input : Input) : List Field :=
  match input.statedSource? with
  | some spent => input.fields ++ spent.fields
  | none => input.fields

def fieldsIn (isExtended : Bool) : Input → List Field :=
  if isExtended then statedFields else fields

/-- The input knows the output that it spends by its value and its script alone. -/
structure States (input : Input) (spent : SpentOutput) : Prop where
  source : input.source = none
  stated : input.statedSource? = some spent

end Input

namespace Transaction

/-- The fields after the version and the marker, if there is one. -/
def partFields (tx : Transaction) (isExtended : Bool) : List Field :=
  .varInt (UInt64.ofNat tx.inputs.length) :: (tx.inputs.flatMap (Input.fieldsIn isExtended) ++
    .varInt (UInt64.ofNat tx.outputs.length) :: (tx.outputs.flatMap Output.fields ++
      [.uint32 tx.lockTime]))

def fields (tx : Transaction) : List Field :=
  .uint32 tx.version :: tx.partFields false

def extendedFields (tx : Transaction) : List Field :=
  .uint32 tx.version :: .bytes extendedMarker :: tx.partFields true

end Transaction

/-! ## The encodings are the shortest spellings -/

private theorem Input.encodeFields_fields (input : Input) :
    Wire.encodeFields input.fields = input.encode := by
  simp [fields, encode, Outpoint.encodeInput, Outpoint.encode, Wire.encodeFields]

private theorem Input.States.encodeFields_statedFields {input : Input} {spent : SpentOutput}
    (states : input.States spent) :
    Wire.encodeFields input.statedFields = encodeResolved (input, spent) := by
  rw [statedFields, states.stated, encodeResolved, ← input.encodeFields_fields]
  exact List.flatMap_append

theorem Input.States.sourceOutput {input : Input} {spent : SpentOutput}
    (states : input.States spent) (index : Nat) : input.sourceOutput index = .ok spent := by
  simp only [Input.sourceOutput, states.source, states.stated]

private theorem Input.exists_stating (inputs : List Input)
    (states : ∀ input ∈ inputs, ∃ spent, input.States spent) :
    ∃ pairs : List (Input × SpentOutput), inputs = pairs.map Prod.fst ∧
      ∀ pair ∈ pairs, pair.1.States pair.2 := by
  induction inputs with
  | nil => exact ⟨[], rfl, nofun⟩
  | cons input rest ih =>
      obtain ⟨⟨spent, first⟩, later⟩ := List.forall_mem_cons.mp states
      obtain ⟨pairs, same, stating⟩ := ih later
      exact ⟨(input, spent) :: pairs, congrArg (input :: ·) same,
        List.forall_mem_cons.mpr ⟨first, stating⟩⟩

namespace Transaction

variable {tx : Transaction}

private theorem encodeFields_partFields (tx : Transaction) (isExtended : Bool) :
    Wire.encodeFields (tx.partFields isExtended) =
      Wire.varInt (UInt64.ofNat tx.inputs.length) ++
        (Wire.encodeFields (tx.inputs.flatMap (Input.fieldsIn isExtended)) ++ tx.encodeTail) := by
  have outputs : Wire.encodeFields (tx.outputs.flatMap Output.fields) =
      tx.outputs.flatMap Output.encode := List.flatMap_assoc
  simp only [Wire.encodeFields] at outputs
  simp [partFields, encodeTail, encodeCounted, Wire.encodeFields, Field.encode, outputs]

private theorem encodeFields_fields (tx : Transaction) :
    Wire.encodeFields tx.fields = tx.encode := by
  have inputs : Wire.encodeFields (tx.inputs.flatMap (Input.fieldsIn false)) =
      tx.inputs.flatMap Input.encode := by
    rw [Wire.encodeFields, List.flatMap_assoc]
    exact congrArg (tx.inputs.flatMap ·) (funext Input.encodeFields_fields)
  have parts := encodeFields_partFields tx false
  rw [inputs] at parts
  have headed : Wire.encodeFields tx.fields =
      Bytes.ofNatLE 4 tx.version.toNat ++ Wire.encodeFields (tx.partFields false) := rfl
  rw [headed, parts, encode, encodeCounted]
  simp only [List.append_assoc]

private theorem resolved_of_states (states : ∀ input ∈ tx.inputs, ∃ spent, input.States spent) :
    ∃ pairs, tx.Resolved pairs ∧ pairs.flatMap encodeResolved =
      Wire.encodeFields (tx.inputs.flatMap (Input.fieldsIn true)) := by
  obtain ⟨pairs, inputs, stating⟩ := Input.exists_stating tx.inputs states
  refine ⟨pairs, ⟨inputs, ?_⟩, ?_⟩
  · intro index pair found
    exact (stating pair (List.mem_of_getElem? found)).sourceOutput index
  · rw [Wire.encodeFields, List.flatMap_assoc, inputs, List.flatMap_map, List.flatMap_def,
      List.flatMap_def]
    apply congrArg List.flatten
    apply List.map_congr_left
    intro pair member
    exact (stating pair member).encodeFields_statedFields.symm

private theorem encodeExtended_of_states
    (states : ∀ input ∈ tx.inputs, ∃ spent, input.States spent) :
    tx.encodeExtended = .ok (Wire.encodeFields tx.extendedFields) := by
  obtain ⟨pairs, resolved, written⟩ := resolved_of_states states
  refine encodeExtended_eq_ok_iff.mpr ⟨pairs, resolved, ?_⟩
  have headed : Wire.encodeFields tx.extendedFields =
      Bytes.ofNatLE 4 tx.version.toNat ++ (extendedMarker ++
        Wire.encodeFields (tx.partFields true)) := rfl
  have counted : tx.inputs.length = pairs.length := by rw [resolved.inputs, List.length_map]
  rw [headed, encodeFields_partFields, ← written, counted, encodeStating, encodeCounted]
  simp only [List.append_assoc]

end Transaction

/-! ## What the readers take -/

private theorem takes_readWireField {α : Type} {read : Wire.Read EncodingError α}
    {stands : α → Bytes → Prop} (takes : Takes read stands) (name : WireField) :
    Takes (readWireField name read) stands :=
  takes.mapError _

private theorem Output.takes_read : Takes Output.read fun output => Spelling output.fields := by
  refine (takes_readWireField Wire.takes_readUInt64 .value).bind ?_
  rintro value _ rfl
  refine ((takes_readWireField Wire.takes_readVarBytes .lockingScript).imp ?_).map
  intro script taken spelled
  exact .cons rfl (.one spelled)

private theorem Input.takes_read : Takes Input.read fun input taken =>
    input.source = none ∧ Spelling input.fields taken := by
  refine (takes_readWireField Wire.takes_readHash32 .sourceTxid).bind ?_
  rintro txid _ rfl
  refine (takes_readWireField Wire.takes_readUInt32 .outputIndex).bind ?_
  rintro index _ rfl
  refine (takes_readWireField Wire.takes_readVarBytes .unlockingScript).bind ?_
  intro script taken spelled
  refine ((takes_readWireField Wire.takes_readUInt32 .sequence).imp ?_).map
  rintro sequence _ rfl
  exact ⟨rfl, .cons rfl (.cons rfl (.cons spelled (.one rfl)))⟩

private theorem Input.takes_readExtended : Takes Input.readExtended fun input taken =>
    (∃ spent, input.States spent) ∧ Spelling input.statedFields taken := by
  refine Input.takes_read.bind ?_
  rintro input taken ⟨unknown, spelled⟩
  refine (takes_readWireField Wire.takes_readUInt64 .sourceValue).bind ?_
  rintro value _ rfl
  refine ((takes_readWireField Wire.takes_readVarBytes .sourceScript).imp ?_).map
  intro script last ended
  have spent : Spelling (SpentOutput.fields ⟨value, ⟨script⟩⟩) (_ ++ last) := .cons rfl (.one ended)
  exact ⟨⟨⟨value, ⟨script⟩⟩, unknown, rfl⟩, spelled.append spent⟩

/-- What is read of an input, in either encoding. -/
private theorem Input.takes_readIn (isExtended : Bool) :
    Takes (if isExtended then Input.readExtended else Input.read) fun input taken =>
      (isExtended = true → ∃ spent, input.States spent) ∧
        Spelling (Input.fieldsIn isExtended input) taken := by
  cases isExtended with
  | true => exact Input.takes_readExtended.imp fun _ _ stood => ⟨fun _ => stood.1, stood.2⟩
  | false => exact Input.takes_read.imp fun _ _ stood => ⟨nofun, stood.2⟩

namespace Transaction

private theorem takes_readParts (version : UInt32) (isExtended : Bool) :
    Takes (readParts version isExtended) fun tx taken => tx.version = version ∧
      (isExtended = true → ∀ input ∈ tx.inputs, ∃ spent, input.States spent) ∧
      Spelling (tx.partFields isExtended) taken := by
  refine (takes_readWireField Wire.takes_readVarInt .inputCount).bind ?_
  intro inputCount first inputsCounted
  refine ((Input.takes_readIn isExtended).replicate inputCount.toNat).bind ?_
  rintro inputs second ⟨inputCounted, states, inputsSpelled⟩
  refine (takes_readWireField Wire.takes_readVarInt .outputCount).bind ?_
  intro outputCount third outputsCounted
  have takesOutput : Takes Output.read fun output taken => True ∧ Spelling output.fields taken :=
    Output.takes_read.imp fun _ _ spelled => ⟨trivial, spelled⟩
  refine (takesOutput.replicate outputCount.toNat).bind ?_
  rintro outputs fourth ⟨outputCounted, -, outputsSpelled⟩
  refine ((takes_readWireField Wire.takes_readUInt32 .lockTime).imp ?_).map
  rintro lockTime _ rfl
  refine ⟨rfl, fun extended input member => states input member extended, ?_⟩
  rw [partFields]
  refine .cons ?_ (inputsSpelled.append (.cons ?_ (outputsSpelled.append (.one rfl))))
  · rw [inputCounted, UInt64.ofNat_toNat]
    exact inputsCounted
  · rw [outputCounted, UInt64.ofNat_toNat]
    exact outputsCounted

private theorem read_of_ofBytes {bytes : Bytes} {tx : Transaction}
    (found : ofBytes bytes = .ok tx) :
    ∃ last : Wire.Cursor, read ⟨0, bytes⟩ = .ok tx last ∧ last.rest = [] := by
  unfold ofBytes at found
  split at found
  · cases found
  · next whole last ran =>
      split at found
      · next ended =>
          cases found
          exact ⟨last, ran, List.isEmpty_iff.mp ended⟩
      · cases found

private theorem readMarker_cases {cursor next : Wire.Cursor} {isExtended : Bool}
    (ran : readMarker cursor = .ok isExtended next) :
    (isExtended = true ∧ cursor.rest = extendedMarker ++ next.rest) ∨
      (isExtended = false ∧ next = cursor ∧
        cursor.rest.take extendedMarker.length ≠ extendedMarker) := by
  obtain ⟨position, rest⟩ := cursor
  by_cases present : rest.take extendedMarker.length = extendedMarker
  · left
    have split : rest = extendedMarker ++ rest.drop extendedMarker.length := by
      have whole := List.take_append_drop extendedMarker.length rest
      rw [present] at whole
      exact whole.symm
    rw [split, undoes_readMarker position] at ran
    cases ran
    exact ⟨rfl, split⟩
  · right
    rw [readMarker_of_absent present] at ran
    cases ran
    exact ⟨rfl, rfl, present⟩

variable {tx : Transaction} {bytes : Bytes}

/-- A string that is read spells the fields of its encoding. -/
private theorem spelling_of_ofBytes (found : ofBytes bytes = .ok tx) :
    (¬HasMarker bytes ∧ Spelling tx.fields bytes) ∨
    (HasMarker bytes ∧ (∀ input ∈ tx.inputs, ∃ spent, input.States spent) ∧
      Spelling tx.extendedFields bytes) := by
  obtain ⟨last, ran, ended⟩ := read_of_ofBytes found
  rw [read_eq] at ran
  obtain ⟨version, afterVersion, versionRead, ran⟩ := Wire.bind_eq_ok ran
  obtain ⟨isExtended, afterMarker, markerRead, ran⟩ := Wire.bind_eq_ok ran
  obtain ⟨_, versionTaken, rfl⟩ := takes_readWireField Wire.takes_readUInt32 .version versionRead
  obtain ⟨parts, partsTaken, rfl, states, spelled⟩ := takes_readParts version isExtended ran
  rw [ended, List.append_nil] at partsTaken
  obtain ⟨rfl, marked⟩ | ⟨rfl, rfl, absent⟩ := readMarker_cases markerRead
  · right
    have whole : bytes = Bytes.ofNatLE 4 tx.version.toNat ++ (extendedMarker ++ parts) := by
      rw [← partsTaken, ← marked]
      exact versionTaken
    rw [whole, hasMarker_append_iff]
    exact ⟨List.take_left, states rfl, .cons rfl (.cons rfl spelled)⟩
  · left
    have whole : bytes = Bytes.ofNatLE 4 tx.version.toNat ++ parts := by
      rw [← partsTaken]
      exact versionTaken
    rw [partsTaken] at absent
    rw [whole, hasMarker_append_iff]
    exact ⟨absent, .cons rfl spelled⟩

/-- The encoding again of a string that is read is the shortest spelling of the same fields. -/
theorem encode_of_ofBytes (found : ofBytes bytes = .ok tx) :
    (¬HasMarker bytes → Spelling tx.fields bytes ∧
      tx.encode.length ≤ bytes.length ∧ (tx.encode.length = bytes.length → tx.encode = bytes)) ∧
    (HasMarker bytes → ∃ again : Bytes, tx.encodeExtended = .ok again ∧
      Spelling tx.extendedFields bytes ∧
      again.length ≤ bytes.length ∧ (again.length = bytes.length → again = bytes)) := by
  obtain ⟨absent, spelled⟩ | ⟨present, states, spelled⟩ := spelling_of_ofBytes found
  · refine ⟨fun _ => ⟨spelled, ?_⟩, fun present => absurd present absent⟩
    have shorter := spelled.shorterOrSame
    rwa [encodeFields_fields] at shorter
  · refine ⟨fun absent => absurd present absent, fun _ => ?_⟩
    exact ⟨_, encodeExtended_of_states states, spelled, spelled.shorterOrSame⟩

/-- A payment without inputs, whose counts and whose script's length are longer than necessary. -/
def wordyPayment : Bytes :=
  [2, 0, 0, 0] ++ [0xfd, 0, 0] ++ [0xfe, 1, 0, 0, 0] ++
    [232, 3, 0, 0, 0, 0, 0, 0, 0xff, 1, 0, 0, 0, 0, 0, 0, 0, 0x51] ++ [0, 0, 0, 0]

/-- An extended encoding whose first count is longer than necessary. -/
def wordyExtended : Bytes :=
  [2, 0, 0, 0] ++ extendedMarker ++ [0xfd, 1, 0] ++ Hash32.zero.bytes ++
    [7, 0, 0, 0, 0, 255, 255, 255, 255, 144, 1, 0, 0, 0, 0, 0, 0, 1, 0x52] ++
    [0] ++ [0, 0, 0, 0]

theorem wordyPayment_encode :
    (ofBytes wordyPayment = .ok ⟨2, [], [⟨1000, ⟨[0x51]⟩, false⟩], 0, none⟩ ∧
      Spelling (fields ⟨2, [], [⟨1000, ⟨[0x51]⟩, false⟩], 0, none⟩) wordyPayment ∧
      (encode ⟨2, [], [⟨1000, ⟨[0x51]⟩, false⟩], 0, none⟩).length + 14 = wordyPayment.length) ∧
    ∃ tx, ofBytes wordyExtended = .ok tx ∧ HasMarker wordyExtended ∧
      ∃ again : Bytes, tx.encodeExtended = .ok again ∧ again.length ≤ wordyExtended.length := by
  have found : ofBytes wordyPayment = .ok ⟨2, [], [⟨1000, ⟨[0x51]⟩, false⟩], 0, none⟩ := by rfl
  have absent : ¬HasMarker wordyPayment := by decide
  obtain ⟨plain, -⟩ := encode_of_ofBytes found
  have present : HasMarker wordyExtended := by decide
  have foundExtended : ofBytes wordyExtended = .ok ⟨2, [{ Input.ofOutpoint ⟨Hash32.zero, 7⟩ with
    unlocking := some ⟨[]⟩ }.withSource ⟨400, ⟨[0x52]⟩⟩], [], 0, none⟩ := by rfl
  obtain ⟨-, extended⟩ := encode_of_ofBytes foundExtended
  obtain ⟨again, written, -, shorter, -⟩ := extended present
  exact ⟨⟨found, (plain absent).1, by rfl⟩, _, foundExtended, present, again, written, shorter⟩

end Transaction

end BitcoinSpend
