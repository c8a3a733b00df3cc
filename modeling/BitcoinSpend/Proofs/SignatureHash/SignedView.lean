import BitcoinSpend.Proofs.Wire.ReadBack
import BitcoinSpend.SignatureHash.ForkId
import BitcoinSpend.Transaction.Extended

/-!
# What the replay-protected message commits to

The message is a function of a part of the transaction, its view, and the view can
be recovered from the message up to collisions of the three digests in it. The
strings that are digested hold encodings without a count; each encoding tells by
itself where it ends. An absent string has zeros for its digest, which is why a
string whose digest is zero is an exception too.
-/

set_option autoImplicit false

namespace BitcoinSpend

/-- An input to sign, with the script code and the value that it is signed for. -/
structure SigningSubject where
  tx : Transaction
  index : Nat
  input : Input
  found : tx.inputs[index]? = some input
  code : Bytes
  value : UInt64
  type : HashType

/-- What a signature of an input commits to. -/
@[ext] structure SignedView where
  type : HashType
  version : UInt32
  lockTime : UInt32
  outpoint : Outpoint
  sequence : UInt32
  code : Bytes
  value : UInt64
  /-- The outpoints of all inputs, where they are signed. -/
  outpoints : Option (List Outpoint)
  /-- The sequence numbers of all inputs, where they are signed. -/
  sequences : Option (List UInt32)
  /-- The values and scripts of the outputs that are signed. -/
  outputs : Option (List SpentOutput)

namespace SigningSubject

def message (subject : SigningSubject) : Except TransactionError Bytes :=
  subject.tx.forkIdMessage subject.index subject.code subject.type subject.value

def view (subject : SigningSubject) : SignedView where
  type := subject.type
  version := subject.tx.version
  lockTime := subject.tx.lockTime
  outpoint := subject.input.outpoint
  sequence := subject.input.sequence
  code := subject.code
  value := subject.value
  outpoints :=
    if subject.type.isAnyoneCanPay then none else some (subject.tx.inputs.map Input.outpoint)
  sequences :=
    if subject.type.isAnyoneCanPay ∨ subject.type.cover ≠ .all then none
    else some (subject.tx.inputs.map Input.sequence)
  outputs :=
    match subject.type.cover with
    | .all => some (subject.tx.outputs.map Output.spent)
    | .none => none
    | .single => subject.tx.outputs[subject.index]?.map fun output => [output.spent]

/-- The lengths of the output scripts are numbers of 64 bits, as their encoding needs. -/
def Encodable (subject : SigningSubject) : Prop :=
  ∀ output ∈ subject.tx.outputs, output.script.size < UInt64.size

end SigningSubject

namespace SignedView

/-- The string that is digested for the outpoints. -/
def outpointsString? (view : SignedView) : Option Bytes :=
  view.outpoints.map fun outpoints => outpoints.flatMap Outpoint.encode

/-- The string that is digested for the sequence numbers. -/
def sequencesString? (view : SignedView) : Option Bytes :=
  view.sequences.map fun sequences =>
    sequences.flatMap fun sequence => Wire.encodeFields [.uint32 sequence]

/-- The string that is digested for the outputs. -/
def outputsString? (view : SignedView) : Option Bytes :=
  view.outputs.map fun outputs => outputs.flatMap SpentOutput.encode

end SignedView

/-- The digest of a string, or zeros where there is none. -/
def digestOrZero : Option Bytes → Hash32
  | some string => Hash32.hash256 string
  | none => Hash32.zero

/-- The digests of the strings do not tell them apart: they collide, or one of them has the digest
that stands for an absent string. -/
def Confusable (string string' : Option Bytes) : Prop :=
  (∃ left ∈ string, ∃ right ∈ string', left ≠ right ∧
    Hash32.hash256 left = Hash32.hash256 right) ∨
  (∃ left ∈ string, Hash32.hash256 left = Hash32.zero) ∨
  ∃ right ∈ string', Hash32.hash256 right = Hash32.zero

instance (string string' : Option Bytes) : Decidable (Confusable string string') :=
  inferInstanceAs (Decidable (_ ∨ _ ∨ _))

private theorem eq_or_confusable {string string' : Option Bytes}
    (same : digestOrZero string = digestOrZero string') :
    string = string' ∨ Confusable string string' := by
  rcases string with _ | left
  · rcases string' with _ | right
    · exact Or.inl rfl
    · exact Or.inr (Or.inr (Or.inr ⟨right, rfl, same.symm⟩))
  · rcases string' with _ | right
    · exact Or.inr (Or.inr (Or.inl ⟨left, rfl, same⟩))
    · by_cases equal : left = right
      · exact Or.inl (congrArg some equal)
      · exact Or.inr (Or.inl ⟨left, rfl, right, rfl, equal, same⟩)

namespace SignedView

/-- The fields before the script code, with its length, and those after it. -/
def headFields (view : SignedView) : List Wire.Field :=
  [.uint32 view.version, .bytes (digestOrZero view.outpointsString?).bytes,
    .bytes (digestOrZero view.sequencesString?).bytes, .bytes view.outpoint.txid.bytes,
    .uint32 view.outpoint.index, .varInt (UInt64.ofNat view.code.length)]

def tailFields (view : SignedView) : List Wire.Field :=
  [.uint64 view.value, .uint32 view.sequence, .bytes (digestOrZero view.outputsString?).bytes,
    .uint32 view.lockTime, .uint32 view.type.bits]

def encode (view : SignedView) : Bytes :=
  Wire.encodeFields view.headFields ++ (view.code ++ Wire.encodeFields view.tailFields)

theorem length_tail (view : SignedView) : (Wire.encodeFields view.tailFields).length = 52 := by
  simp [tailFields, Wire.encodeFields, Wire.Field.encode, Hash32.length_bytes]

end SignedView

/-! ## The message is the encoded view -/

namespace SigningSubject

theorem outpointsField_eq (subject : SigningSubject) :
    subject.type.outpointsField subject.tx = digestOrZero subject.view.outpointsString? := by
  simp only [HashType.outpointsField, SignedView.outpointsString?, view]
  split
  · rfl
  · simp only [Option.map_some, List.flatMap_map, digestOrZero, Transaction.outpointsDigest]

theorem sequencesField_eq (subject : SigningSubject) :
    subject.type.sequencesField subject.tx = digestOrZero subject.view.sequencesString? := by
  simp only [HashType.sequencesField, SignedView.sequencesString?, view, Bool.or_eq_true,
    bne_iff_ne]
  split
  · rfl
  · simp [List.flatMap_map, digestOrZero, Transaction.sequencesDigest, Wire.encodeFields,
      Wire.Field.encode]

theorem outputsField_eq (subject : SigningSubject) :
    subject.type.outputsField subject.tx subject.index =
      digestOrZero subject.view.outputsString? := by
  simp only [HashType.outputsField, SignedView.outputsString?, view]
  cases subject.type.cover with
  | all => simp only [Option.map_some, List.flatMap_map, digestOrZero, outputsDigest]; rfl
  | none => rfl
  | single =>
      cases subject.tx.outputs[subject.index]? with
      | none => rfl
      | some output => rfl

private theorem message_eq_encode (subject : SigningSubject) :
    subject.message = .ok subject.view.encode := by
  have found : subject.tx.inputAt subject.index = .ok subject.input := by
    simp only [Transaction.inputAt, subject.found]
  simp only [message, Transaction.forkIdMessage, found, outpointsField_eq, sequencesField_eq,
    outputsField_eq]
  simp [SignedView.encode, SignedView.headFields, SignedView.tailFields, Wire.encodeFields,
    Wire.Field.encode, Wire.varBytes, bind, Except.bind, pure, Except.pure, view]

end SigningSubject

/-! ## The view is fixed by the message -/

namespace SignedView

variable {view view' : SignedView}

theorem fields_of_encode_eq (same : view.encode = view'.encode) :
    view.headFields = view'.headFields ∧ view.code = view'.code ∧
      view.tailFields = view'.tailFields := by
  have headShapes :
      view.headFields.map Wire.Field.shape = view'.headFields.map Wire.Field.shape := by
    simp [headFields, Wire.Field.shape, Hash32.length_bytes]
  have tailShapes :
      view.tailFields.map Wire.Field.shape = view'.tailFields.map Wire.Field.shape := by
    simp [tailFields, Wire.Field.shape, Hash32.length_bytes]
  have headFit : ∀ view : SignedView, ∀ field ∈ view.headFields, field.Fits := by
    simp [headFields, Wire.Field.Fits]
  have tailFit : ∀ view : SignedView, ∀ field ∈ view.tailFields, field.Fits := by
    simp [tailFields, Wire.Field.Fits]
  obtain ⟨heads, rests⟩ :=
    Wire.encodeFields_append_inj headShapes (headFit view) (headFit view') same
  -- The length before the code is cut to 64 bits, so it is the fields after the code that say where
  -- the code ends: together they always have the same length.
  obtain ⟨codes, tails⟩ := List.append_inj' rests (by rw [length_tail, length_tail])
  have tails' : Wire.encodeFields view.tailFields ++ [] =
      Wire.encodeFields view'.tailFields ++ [] := by rw [tails]
  exact ⟨heads, codes,
    (Wire.encodeFields_append_inj tailShapes (tailFit view) (tailFit view') tails').1⟩

private theorem outpoint_ext {outpoint outpoint' : Outpoint}
    (txids : outpoint.txid = outpoint'.txid)
    (indexes : outpoint.index = outpoint'.index) : outpoint = outpoint' := by
  obtain ⟨txid, index⟩ := outpoint
  obtain ⟨txid', index'⟩ := outpoint'
  cases txids
  cases indexes
  rfl

/-! ### One entry of a string is told apart from what follows it -/

private theorem outpoint_apart {outpoint outpoint' : Outpoint} {rest rest' : Bytes}
    (same : outpoint.encode ++ rest = outpoint'.encode ++ rest') :
    outpoint = outpoint' ∧ rest = rest' := by
  have shapes :
      [Wire.Field.bytes outpoint.txid.bytes, .uint32 outpoint.index].map Wire.Field.shape =
        [Wire.Field.bytes outpoint'.txid.bytes, .uint32 outpoint'.index].map Wire.Field.shape := by
    simp [Wire.Field.shape, Hash32.length_bytes]
  obtain ⟨fields, rests⟩ := Wire.encodeFields_append_inj shapes (by simp [Wire.Field.Fits])
    (by simp [Wire.Field.Fits]) same
  simp only [List.cons.injEq, Wire.Field.bytes.injEq, Wire.Field.uint32.injEq, and_true] at fields
  exact ⟨outpoint_ext (Hash32.ext fields.1) fields.2, rests⟩

private theorem sequence_apart {sequence sequence' : UInt32} {rest rest' : Bytes}
    (same : Wire.encodeFields [.uint32 sequence] ++ rest =
      Wire.encodeFields [.uint32 sequence'] ++ rest') : sequence = sequence' ∧ rest = rest' := by
  have shapes : [Wire.Field.uint32 sequence].map Wire.Field.shape =
      [Wire.Field.uint32 sequence'].map Wire.Field.shape := rfl
  obtain ⟨fields, rests⟩ := Wire.encodeFields_append_inj shapes (by simp [Wire.Field.Fits])
    (by simp [Wire.Field.Fits]) same
  exact ⟨by simpa using fields, rests⟩

private theorem spentOutput_apart {spent spent' : SpentOutput} {rest rest' : Bytes}
    (short : spent.script.size < UInt64.size) (short' : spent'.script.size < UInt64.size)
    (same : spent.encode ++ rest = spent'.encode ++ rest') : spent = spent' ∧ rest = rest' := by
  obtain ⟨value, ⟨bytes⟩⟩ := spent
  obtain ⟨value', ⟨bytes'⟩⟩ := spent'
  have shapes : [Wire.Field.uint64 value, .varBytes bytes].map Wire.Field.shape =
      [Wire.Field.uint64 value', .varBytes bytes'].map Wire.Field.shape := rfl
  have fit : ∀ field ∈ [Wire.Field.uint64 value, .varBytes bytes], field.Fits := by
    simpa [Wire.Field.Fits, Script.size] using short
  have fit' : ∀ field ∈ [Wire.Field.uint64 value', .varBytes bytes'], field.Fits := by
    simpa [Wire.Field.Fits, Script.size] using short'
  obtain ⟨fields, rests⟩ := Wire.encodeFields_append_inj shapes fit fit' same
  exact ⟨by simpa using fields, rests⟩

/-! ### Strings fix the lists that they are made of -/

theorem lists_eq {α : Type} {encode : α → Bytes} (valid : α → Prop)
    (nonempty : ∀ item, encode item ≠ [])
    (apart : ∀ item item' rest rest', valid item → valid item' →
      encode item ++ rest = encode item' ++ rest' → item = item' ∧ rest = rest')
    {list list' : Option (List α)} (all : ∀ items ∈ list, ∀ item ∈ items, valid item)
    (all' : ∀ items ∈ list', ∀ item ∈ items, valid item)
    (same : list.map (fun items => items.flatMap encode) =
      list'.map fun items => items.flatMap encode) : list = list' := by
  rcases list with _ | items
  · rcases list' with _ | items'
    · rfl
    · cases same
  · rcases list' with _ | items'
    · cases same
    · rw [Wire.flatMap_inj nonempty apart (all items rfl) (all' items' rfl)
        (Option.some.inj same)]

theorem outpoints_eq (same : view.outpointsString? = view'.outpointsString?) :
    view.outpoints = view'.outpoints := by
  refine lists_eq (fun _ => True) ?_ (fun _ _ _ _ _ _ => outpoint_apart)
    (fun _ _ _ _ => trivial) (fun _ _ _ _ => trivial) same
  intro outpoint
  apply List.ne_nil_of_length_pos
  simp [Outpoint.encode, Wire.encodeFields, Wire.Field.encode, Hash32.length_bytes]

theorem sequences_eq (same : view.sequencesString? = view'.sequencesString?) :
    view.sequences = view'.sequences := by
  refine lists_eq (fun _ => True) ?_ (fun _ _ _ _ _ _ => sequence_apart)
    (fun _ _ _ _ => trivial) (fun _ _ _ _ => trivial) same
  intro sequence
  apply List.ne_nil_of_length_pos
  simp [Wire.encodeFields, Wire.Field.encode]

theorem outputs_eq
    (short : ∀ spents ∈ view.outputs, ∀ spent ∈ spents, spent.script.size < UInt64.size)
    (short' : ∀ spents ∈ view'.outputs, ∀ spent ∈ spents, spent.script.size < UInt64.size)
    (same : view.outputsString? = view'.outputsString?) : view.outputs = view'.outputs := by
  refine lists_eq _ ?_ (fun _ _ _ _ => spentOutput_apart) short short' same
  intro spent
  apply List.ne_nil_of_length_pos
  simp only [SpentOutput.encode, Wire.encodeFields, Wire.Field.encode, List.flatMap_cons,
    List.length_append, Bytes.length_ofNatLE]
  omega

end SignedView

private theorem SigningSubject.short_of_mem_view {subject : SigningSubject}
    (encodable : subject.Encodable)
    {spents : List SpentOutput} (shown : spents ∈ subject.view.outputs) {spent : SpentOutput}
    (member : spent ∈ spents) : spent.script.size < UInt64.size := by
  simp only [view] at shown
  cases cover : subject.type.cover with
  | all =>
      rw [cover] at shown
      cases shown
      obtain ⟨output, inside, rfl⟩ := List.mem_map.mp member
      exact encodable output inside
  | none =>
      rw [cover] at shown
      cases shown
  | single =>
      rw [cover] at shown
      obtain ⟨output, found, rfl⟩ := Option.map_eq_some_iff.mp shown
      cases List.mem_singleton.mp member
      exact encodable output (List.mem_of_getElem? found)

theorem SigningSubject.view_commitment {subject other : SigningSubject}
    (encodable : subject.Encodable) (encodable' : other.Encodable) :
    (∃ bytes, subject.message = .ok bytes) ∧
    (subject.view = other.view → subject.message = other.message) ∧
    (subject.message = other.message →
      subject.view = other.view ∨
      Confusable subject.view.outpointsString? other.view.outpointsString? ∨
      Confusable subject.view.sequencesString? other.view.sequencesString? ∨
      Confusable subject.view.outputsString? other.view.outputsString?) := by
  rw [message_eq_encode, message_eq_encode]
  refine ⟨⟨_, rfl⟩, fun same => by rw [same], fun same => ?_⟩
  obtain ⟨heads, codes, tails⟩ := SignedView.fields_of_encode_eq (Except.ok.inj same)
  simp only [SignedView.headFields, SignedView.tailFields, List.cons.injEq, and_true,
    Wire.Field.uint32.injEq, Wire.Field.uint64.injEq, Wire.Field.bytes.injEq] at heads tails
  obtain ⟨versions, outpoints, sequences, txids, indexes, -⟩ := heads
  obtain ⟨values, ownSequences, outputs, lockTimes, types⟩ := tails
  rcases eq_or_confusable (Hash32.ext outpoints) with outpoints | confusable
  · rcases eq_or_confusable (Hash32.ext sequences) with sequences | confusable
    · rcases eq_or_confusable (Hash32.ext outputs) with outputs | confusable
      · refine Or.inl (SignedView.ext ?_ versions lockTimes ?_ ownSequences codes values
          (SignedView.outpoints_eq outpoints) (SignedView.sequences_eq sequences) ?_)
        · exact congrArg HashType.mk types
        · exact SignedView.outpoint_ext (Hash32.ext txids) indexes
        · exact SignedView.outputs_eq (fun _ shown _ => short_of_mem_view encodable shown)
            (fun _ shown _ => short_of_mem_view encodable' shown) outputs
      · exact Or.inr (Or.inr (Or.inr confusable))
    · exact Or.inr (Or.inr (Or.inl confusable))
  · exact Or.inr (Or.inl confusable)

/-- An input signed by itself, without the outputs. -/
def loneSubject (unlocking : Option Script) (change : Bool) (value : UInt64) : SigningSubject where
  tx := ⟨1, [{ Input.ofOutpoint ⟨Hash32.zero, 0⟩ with unlocking := unlocking }],
    [⟨5, ⟨[0x51]⟩, change⟩], 0, none⟩
  index := 0
  input := { Input.ofOutpoint ⟨Hash32.zero, 0⟩ with unlocking := unlocking }
  found := rfl
  code := [0xac]
  value := value
  type := ⟨0xc2⟩

private theorem encodable_loneSubject (unlocking : Option Script) (change : Bool) (value : UInt64) :
    (loneSubject unlocking change value).Encodable := by
  intro output member
  cases List.mem_singleton.mp member
  exact show 1 < UInt64.size by decide

/-- The second of two inputs, signed with both inputs and with both outputs. -/
def pairSubject (unlocking : Option Script) (change : Bool) (last : UInt64) : SigningSubject where
  tx := ⟨1, [Input.ofOutpoint ⟨Hash32.zero, 0⟩,
      { Input.ofOutpoint ⟨Hash32.zero, 1⟩ with unlocking := unlocking, sequence := 9 }],
    [⟨5, ⟨[0x51]⟩, change⟩, ⟨last, ⟨[0x52, 0x75]⟩, false⟩], 0, none⟩
  index := 1
  input := { Input.ofOutpoint ⟨Hash32.zero, 1⟩ with unlocking := unlocking, sequence := 9 }
  found := rfl
  code := [0xac]
  value := 20
  type := ⟨0x41⟩

private theorem encodable_pairSubject (unlocking : Option Script) (change : Bool) (last : UInt64) :
    (pairSubject unlocking change last).Encodable := by
  intro output member
  rcases List.mem_cons.mp member with rfl | member
  · exact show 1 < UInt64.size by decide
  · cases List.mem_singleton.mp member
    exact show 2 < UInt64.size by decide

/-- An unlocking script and a mark for change do not show in the message. The value does, and the
value of the last output where all outputs are signed. -/
theorem loneSubject_view_commitment :
    (loneSubject none false 7).message = (loneSubject (some ⟨[0x51]⟩) true 7).message ∧
    (loneSubject none false 7).message ≠ (loneSubject none false 8).message ∧
    (pairSubject none false 6).message = (pairSubject (some ⟨[0x51]⟩) true 6).message ∧
    (pairSubject none false 6).message ≠ (pairSubject none false 7).message := by
  refine ⟨?_, ?_, ?_, ?_⟩
  · exact (SigningSubject.view_commitment (encodable_loneSubject none false 7)
      (encodable_loneSubject (some ⟨[0x51]⟩) true 7)).2.1 rfl
  · intro same
    obtain views | confusable := (SigningSubject.view_commitment
      (encodable_loneSubject none false 7) (encodable_loneSubject none false 8)).2.2 same
    · have values : (7 : UInt64) = 8 := congrArg SignedView.value views
      exact absurd values (by decide)
    · exact absurd confusable (by decide +kernel)
  · exact (SigningSubject.view_commitment (encodable_pairSubject none false 6)
      (encodable_pairSubject (some ⟨[0x51]⟩) true 6)).2.1 rfl
  · intro same
    obtain views | confusable := (SigningSubject.view_commitment
      (encodable_pairSubject none false 6) (encodable_pairSubject none false 7)).2.2 same
    · have outputs : some [⟨5, ⟨[0x51]⟩⟩, ⟨6, ⟨[0x52, 0x75]⟩⟩] =
          some [⟨5, ⟨[0x51]⟩⟩, (⟨7, ⟨[0x52, 0x75]⟩⟩ : SpentOutput)] :=
        congrArg SignedView.outputs views
      exact absurd outputs (by decide)
    · exact absurd confusable (by decide +kernel)

end BitcoinSpend
