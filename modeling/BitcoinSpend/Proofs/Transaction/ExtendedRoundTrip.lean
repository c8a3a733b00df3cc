import BitcoinSpend.Proofs.ExceptProperties
import BitcoinSpend.Proofs.Transaction.StandardRoundTrip
import BitcoinSpend.Transaction.Totals

/-!
# The extended encoding read back

The extended encoding states the output that each input spends, wherever this was
known from. What is read back resolves its inputs to the same outputs and has the
same two encodings. There is an extended encoding exactly if every input resolves.
-/

set_option autoImplicit false

namespace BitcoinSpend

open Wire (Undoes)

/-- An input and the output that it spends, as they are encoded. -/
def encodeResolved (pair : Input × SpentOutput) : Bytes :=
  pair.1.encode ++ pair.2.encode

/-- The input with nothing but what the extended encoding holds. -/
def stateResolved (pair : Input × SpentOutput) : Input :=
  pair.1.bare.withSource pair.2

namespace Transaction

/-- The inputs of a transaction, each with the output that it resolves to. -/
structure Resolved (tx : Transaction) (pairs : List (Input × SpentOutput)) : Prop where
  inputs : tx.inputs = pairs.map Prod.fst
  sources : ∀ (index : Nat) (pair : Input × SpentOutput), pairs[index]? = some pair →
    pair.1.sourceOutput index = .ok pair.2

/-- The lengths of the scripts that are spent are numbers of 64 bits. -/
def SourcesEncodable (tx : Transaction) : Prop :=
  ∀ (index : Nat) (input : Input) (spent : SpentOutput), tx.inputs[index]? = some input →
    input.sourceOutput index = .ok spent → spent.script.size < UInt64.size

/-- The extended encoding with the outputs that the inputs resolve to. -/
def encodeStating (tx : Transaction) (pairs : List (Input × SpentOutput)) : Bytes :=
  Bytes.ofNatLE 4 tx.version.toNat ++ extendedMarker ++ encodeCounted encodeResolved pairs ++
    tx.encodeTail

/-- The transaction with nothing but what its extended encoding holds. -/
def stated (tx : Transaction) (pairs : List (Input × SpentOutput)) : Transaction :=
  { tx.bare with inputs := pairs.map stateResolved }

/-- What is read from an extended encoding, by the transaction that was encoded. -/
structure RestatedBy (tx : Transaction) (bytes : Bytes) (again : Transaction) : Prop where
  version : again.version = tx.version
  lockTime : again.lockTime = tx.lockTime
  outputs : again.outputs = tx.outputs.map Output.bare
  inputCount : again.inputs.length = tx.inputs.length
  inputs : ∀ (index : Nat) (input : Input), tx.inputs[index]? = some input →
    ∃ spent : SpentOutput, input.sourceOutput index = .ok spent ∧
      again.inputs[index]? = some (input.bare.withSource spent) ∧
      (input.bare.withSource spent).sourceOutput index = .ok spent
  extended : again.encodeExtended = .ok bytes
  standard : again.encode = tx.encode
  txid : again.txid = tx.txid
  totalInput : again.totalInput = tx.totalInput

variable {tx : Transaction} {pairs : List (Input × SpentOutput)}

theorem encodeExtended_eq_ok_iff {bytes : Bytes} :
    tx.encodeExtended = .ok bytes ↔
      ∃ pairs, tx.Resolved pairs ∧ bytes = tx.encodeStating pairs := by
  have opened : tx.encodeExtended = (do
      let inputs ← tx.inputs.zipIdx.mapM fun item => do
        let spent ← item.1.sourceOutput item.2
        pure (encodeResolved (item.1, spent))
      pure (Bytes.ofNatLE 4 tx.version.toNat ++ extendedMarker ++ encodeCounted id inputs ++
        tx.encodeTail)) := rfl
  have counted : ∀ pairs : List (Input × SpentOutput),
      encodeCounted id (pairs.map encodeResolved) = encodeCounted encodeResolved pairs := by
    intro pairs
    simp only [encodeCounted, List.length_map, List.flatMap_map, id]
  rw [opened, bind_eq_ok_iff]
  simp only [mapM_zipIdx_eq_ok_iff Input.sourceOutput encodeResolved]
  constructor
  · rintro ⟨_, ⟨pairs, inputs, rfl, sources⟩, written⟩
    cases written
    refine ⟨pairs, ⟨inputs, sources⟩, ?_⟩
    rw [encodeStating, ← counted]
  · rintro ⟨pairs, resolved, rfl⟩
    refine ⟨_, ⟨pairs, resolved.inputs, rfl, resolved.sources⟩, ?_⟩
    rw [encodeStating, ← counted]
    rfl

/-- The error is that of the first input that does not resolve. -/
theorem encodeExtended_eq_error_iff {cause : TransactionError} :
    tx.encodeExtended = .error cause ↔
      ∃ (index : Nat) (input : Input), tx.inputs[index]? = some input ∧
        input.sourceOutput index = .error cause ∧
        ∀ earlier < index, ∀ before, tx.inputs[earlier]? = some before →
          ∃ spent, before.sourceOutput earlier = .ok spent := by
  have opened : tx.encodeExtended = .error cause ↔ (tx.inputs.zipIdx.mapM fun item => do
      let spent ← item.1.sourceOutput item.2
      pure (encodeResolved (item.1, spent))) = .error cause := bind_pure_eq_error_iff
  rw [opened, mapM_zipIdx_eq_error_iff Input.sourceOutput encodeResolved]

/-- Adds the value of a spent output. -/
def addResolved (total : UInt64) (spent : SpentOutput) : Except TransactionError UInt64 :=
  match Amount.add? total spent.value with
  | some total => pure total
  | none => throw (.invalid .inputTotal)

/-- The total depends on the inputs only through what they resolve to. -/
theorem Resolved.totalInput (resolved : tx.Resolved pairs) :
    tx.totalInput = (pairs.map Prod.snd).foldlM addResolved 0 := by
  have folded : ∀ (pairs : List (Input × SpentOutput)) (start : Nat) (total : UInt64),
      (∀ (index : Nat) (pair : Input × SpentOutput), pairs[index]? = some pair →
        pair.1.sourceOutput (start + index) = .ok pair.2) →
      ((pairs.map Prod.fst).zipIdx start).foldlM addSpent total =
        (pairs.map Prod.snd).foldlM addResolved total := by
    intro pairs
    induction pairs with
    | nil => intros; rfl
    | cons pair pairs ih =>
        intro start total sources
        have here : addSpent total (pair.1, start) = addResolved total pair.2 := by
          have source : pair.1.sourceOutput start = .ok pair.2 := sources 0 pair rfl
          simp only [addSpent, source]
          rfl
        simp only [List.map_cons, List.zipIdx_cons, List.foldlM_cons, here]
        cases addResolved total pair.2 with
        | error cause => rfl
        | ok total =>
            refine ih (start + 1) total fun index later found => ?_
            rw [Nat.add_assoc, Nat.add_comm 1 index]
            exact sources (index + 1) later found
  rw [Transaction.totalInput, resolved.inputs]
  exact folded pairs 0 0 (by simpa using resolved.sources)

/-! ## What is read -/

private theorem resolved_stated (tx : Transaction) (pairs : List (Input × SpentOutput)) :
    (tx.stated pairs).Resolved (pairs.map fun pair => (stateResolved pair, pair.2)) where
  inputs := by simp [Transaction.stated]
  sources := by
    intro index pair found
    rw [List.getElem?_map] at found
    obtain ⟨original, -, rfl⟩ := Option.map_eq_some_iff.mp found
    rfl

private theorem encodeStating_stated (tx : Transaction) (pairs : List (Input × SpentOutput)) :
    (tx.stated pairs).encodeStating (pairs.map fun pair => (stateResolved pair, pair.2)) =
      tx.encodeStating pairs := by
  have same : (pairs.map fun pair => (stateResolved pair, pair.2)).flatMap encodeResolved =
      pairs.flatMap encodeResolved := List.flatMap_map ..
  have tail : (tx.stated pairs).encodeTail = tx.encodeTail := tx.encodeTail_bare
  simp only [encodeStating, encodeCounted, same, tail, List.length_map]
  rfl

private theorem encode_stated (resolved : tx.Resolved pairs) :
    (tx.stated pairs).encode = tx.encode := by
  have inputs : (pairs.map stateResolved).flatMap Input.encode =
      (pairs.map Prod.fst).flatMap Input.encode := by
    rw [List.flatMap_map, List.flatMap_map]
    rfl
  have tail : (tx.stated pairs).encodeTail = tx.encodeTail := tx.encodeTail_bare
  rw [encode, encode, tail, resolved.inputs]
  simp only [encodeCounted, stated, inputs, List.length_map]
  rfl

private theorem totalInput_stated (resolved : tx.Resolved pairs) :
    (tx.stated pairs).totalInput = tx.totalInput := by
  rw [resolved.totalInput, (resolved_stated tx pairs).totalInput, List.map_map]
  rfl

private theorem undoes_readExtended {pair : Input × SpentOutput}
    (fits : pair.1.unlockingBytes.length < UInt64.size)
    (sourceFits : pair.2.script.size < UInt64.size) :
    Undoes Input.readExtended (encodeResolved pair) (stateResolved pair) := by
  have encoded : encodeResolved pair = pair.1.encode ++
      (Bytes.ofNatLE 8 pair.2.value.toNat ++ Wire.varBytes pair.2.script.bytes) := by
    simp [encodeResolved, SpentOutput.encode, Wire.encodeFields, Wire.Field.encode]
  rw [encoded]
  apply (Input.undoes_read fits).bind
  apply (undoes_readWireField (Wire.undoes_readUInt64 pair.2.value) .sourceValue).bind
  exact (undoes_readWireField (Wire.undoes_readVarBytes sourceFits) .sourceScript).map _

private theorem undoes_read_extended (encodable : tx.Encodable)
    (sourcesEncodable : tx.SourcesEncodable) (resolved : tx.Resolved pairs) :
    Undoes read (tx.encodeStating pairs) (tx.stated pairs) := by
  have inputsRead : Undoes (Input.readExtended.replicate (pairs.map stateResolved).length)
      (pairs.flatMap encodeResolved) (pairs.map stateResolved) := by
    rw [List.length_map]
    refine .replicate fun pair member => ?_
    obtain ⟨index, inside, rfl⟩ := List.mem_iff_getElem.mp member
    have found : pairs[index]? = some pairs[index] := List.getElem?_eq_getElem inside
    have input : tx.inputs[index]? = some pairs[index].1 := by
      rw [resolved.inputs, List.getElem?_map, found]
      rfl
    exact undoes_readExtended (encodable.unlocking _ (List.mem_of_getElem? input))
      (sourcesEncodable index _ _ input (resolved.sources index _ found))
  have counted : (pairs.map stateResolved).length < UInt64.size := by
    have inputs := encodable.inputs
    rwa [resolved.inputs, List.length_map, ← List.length_map stateResolved] at inputs
  have partsRead := undoes_readParts encodable tx.version true counted inputsRead
  have encoded : tx.encodeStating pairs = Bytes.ofNatLE 4 tx.version.toNat ++ (extendedMarker ++
      (Wire.varInt (UInt64.ofNat (pairs.map stateResolved).length) ++
        (pairs.flatMap encodeResolved ++ tx.encodeTail))) := by
    simp [encodeStating, encodeCounted]
  rw [encoded, read_eq]
  apply (undoes_readWireField (Wire.undoes_readUInt32 tx.version) .version).bind
  exact undoes_readMarker.bind partsRead

private theorem hasMarker_encodeStating (tx : Transaction) (pairs : List (Input × SpentOutput)) :
    HasMarker (tx.encodeStating pairs) := by
  rw [encodeStating, List.append_assoc, List.append_assoc, hasMarker_append_iff]
  exact List.take_left

private theorem restatedBy_stated (resolved : tx.Resolved pairs) :
    tx.RestatedBy (tx.encodeStating pairs) (tx.stated pairs) where
  version := rfl
  lockTime := rfl
  outputs := rfl
  inputCount := by simp [stated, resolved.inputs]
  inputs := by
    intro index input here
    rw [resolved.inputs, List.getElem?_map] at here
    obtain ⟨pair, found, rfl⟩ := Option.map_eq_some_iff.mp here
    refine ⟨pair.2, resolved.sources index pair found, ?_, rfl⟩
    rw [stated, List.getElem?_map, found]
    rfl
  extended := encodeExtended_eq_ok_iff.mpr
    ⟨_, resolved_stated tx pairs, (encodeStating_stated tx pairs).symm⟩
  standard := encode_stated resolved
  txid := congrArg Hash32.hash256 (encode_stated resolved)
  totalInput := totalInput_stated resolved

theorem read_encodeExtended (encodable : tx.Encodable) (sourcesEncodable : tx.SourcesEncodable) :
    (∀ bytes : Bytes, tx.encodeExtended = .ok bytes → ∃ again : Transaction,
      ofBytes bytes = .ok again ∧ ofBytesExtended bytes = .ok again ∧
        tx.RestatedBy bytes again) ∧
    ∀ cause : TransactionError, tx.encodeExtended = .error cause ↔
      ∃ (index : Nat) (input : Input), tx.inputs[index]? = some input ∧
        input.sourceOutput index = .error cause ∧
        ∀ earlier < index, ∀ before, tx.inputs[earlier]? = some before →
          ∃ spent, before.sourceOutput earlier = .ok spent := by
  refine ⟨?_, fun cause => encodeExtended_eq_error_iff⟩
  intro bytes extended
  obtain ⟨pairs, resolved, rfl⟩ := encodeExtended_eq_ok_iff.mp extended
  have readBack := ofBytes_of_undoes (undoes_read_extended encodable sourcesEncodable resolved)
  have checked : ofBytesExtended (tx.encodeStating pairs) = ofBytes (tx.encodeStating pairs) :=
    if_pos (hasMarker_encodeStating tx pairs)
  exact ⟨tx.stated pairs, readBack, checked.trans readBack, restatedBy_stated resolved⟩

/-- An input whose source is attached and one whose source is stated. -/
def fundedTwice : Transaction :=
  ⟨1, [Input.ofSource ⟨1, [], [⟨700, ⟨[0x51]⟩, false⟩, ⟨900, ⟨[0x52]⟩, false⟩], 0, none⟩ 1,
      (Input.ofOutpoint ⟨Hash32.zero, 3⟩).withSource ⟨400, ⟨[0x53, 0x87]⟩⟩],
    [⟨1200, ⟨[0x51]⟩, true⟩], 0, none⟩

/-- What the inputs of `fundedTwice` resolve to. -/
def fundedTwiceSources : List (Input × SpentOutput) :=
  fundedTwice.inputs.zip [⟨900, ⟨[0x52]⟩⟩, ⟨400, ⟨[0x53, 0x87]⟩⟩]

theorem fundedTwice_read_encodeExtended : fundedTwice.Encodable ∧ fundedTwice.SourcesEncodable ∧
    fundedTwice.encodeExtended = .ok (fundedTwice.encodeStating fundedTwiceSources) ∧
    ∃ again : Transaction, ofBytes (fundedTwice.encodeStating fundedTwiceSources) = .ok again ∧
      ofBytesExtended (fundedTwice.encodeStating fundedTwiceSources) = .ok again ∧
      fundedTwice.RestatedBy (fundedTwice.encodeStating fundedTwiceSources) again := by
  have resolved : fundedTwice.Resolved fundedTwiceSources := by
    refine ⟨rfl, ?_⟩
    intro index pair found
    rcases index with _ | _ | index
    · cases found
      simp [Input.sourceOutput, Input.ofSource, Input.ofOutpoint, Input.statedSource?,
        Output.spent]
    · cases found
      rfl
    · cases found
  have encodable : fundedTwice.Encodable := ⟨by decide, by decide, by decide, by decide⟩
  have sourcesEncodable : fundedTwice.SourcesEncodable := by
    intro index input spent here source
    rw [resolved.inputs, List.getElem?_map] at here
    obtain ⟨pair, found, rfl⟩ := Option.map_eq_some_iff.mp here
    rw [resolved.sources index pair found] at source
    cases source
    have small : ∀ pair ∈ fundedTwiceSources, pair.2.script.size < UInt64.size := by decide
    exact small pair (List.mem_of_getElem? found)
  have extended := encodeExtended_eq_ok_iff.mpr ⟨_, resolved, rfl⟩
  obtain ⟨reads, -⟩ := read_encodeExtended encodable sourcesEncodable
  exact ⟨encodable, sourcesEncodable, extended, reads _ extended⟩

end Transaction

end BitcoinSpend
