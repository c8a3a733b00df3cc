import BitcoinSpend.Wire.Field

/-!
# Reading back what was written

A reader undoes a writer if it takes exactly the bytes that were written, whatever
follows them, and gives the value that they stand for. Two strings that one reader
undoes can then not be told apart by what follows: the first bytes fix the value.
-/

set_option autoImplicit false

namespace BitcoinSpend.Wire

/-- The reader takes these bytes and no more, whatever follows them, and gives the value. -/
def Undoes {ε α : Type} (read : Read ε α) (bytes : Bytes) (value : α) : Prop :=
  ∀ (position : Nat) (rest : Bytes),
    read ⟨position, bytes ++ rest⟩ = .ok value ⟨position + bytes.length, rest⟩

namespace Undoes

variable {ε δ α β : Type}

theorem pure (value : α) : Undoes (Pure.pure value : Read ε α) [] value := by
  intro position rest
  rfl

theorem bind {read : Read ε α} {next : α → Read ε β} {bytes later : Bytes} {value : α} {result : β}
    (first : Undoes read bytes value) (second : Undoes (next value) later result) :
    Undoes (read >>= next) (bytes ++ later) result := by
  intro position rest
  simp only [Bind.bind, EStateM.bind, List.append_assoc, first position, second _ rest,
    List.length_append, Nat.add_assoc]

theorem map {read : Read ε α} {bytes : Bytes} {value : α} (undoes : Undoes read bytes value)
    (change : α → β) :
    Undoes (do let value ← read; Pure.pure (change value)) bytes (change value) := by
  have both : Undoes (do let value ← read; Pure.pure (change value)) (bytes ++ []) (change value) :=
    undoes.bind (pure (change value))
  rwa [List.append_nil] at both

/-- What follows cannot make up for a difference in what a reader has taken. -/
theorem unique {read : Read ε α} {bytes bytes' rest rest' : Bytes} {value value' : α}
    (undoes : Undoes read bytes value) (undoes' : Undoes read bytes' value')
    (same : bytes ++ rest = bytes' ++ rest') : value = value' ∧ rest = rest' := by
  have first := undoes 0 rest
  rw [same, undoes' 0 rest'] at first
  injection first with values cursors
  injection cursors with _ rests
  exact ⟨values.symm, rests.symm⟩

theorem mapError {read : Read ε α} {bytes : Bytes} {value : α} (undoes : Undoes read bytes value)
    (wrap : ε → δ) : Undoes (read.mapError wrap) bytes value := by
  intro position rest
  simp only [Read.mapError, undoes position rest]

theorem replicate {read : Read ε α} {encode : β → Bytes} {result : β → α} {items : List β}
    (each : ∀ item ∈ items, Undoes read (encode item) (result item)) :
    Undoes (read.replicate items.length) (items.flatMap encode) (items.map result) := by
  induction items with
  | nil => exact .pure []
  | cons item rest ih =>
      obtain ⟨first, later⟩ := List.forall_mem_cons.mp each
      exact first.bind ((ih later).map (result item :: ·))

end Undoes

theorem bind_of_ok {ε α β : Type} {read : Read ε α} {next : α → Read ε β}
    {cursor after : Cursor} {value : α} (ran : read cursor = .ok value after) :
    (read >>= next) cursor = next value after := by
  simp only [bind, EStateM.bind, ran]

/-! ## Numbers and strings -/

theorem undoes_takeBytes (bytes : Bytes) : Undoes (takeBytes bytes.length) bytes bytes := by
  intro position rest
  have enough : bytes.length ≤ Cursor.remaining ⟨position, bytes ++ rest⟩ := by
    simp [Cursor.remaining]
  rw [takeBytes, if_pos enough]
  simp

private theorem undoes_readNat (width value : Nat) :
    Undoes (readNat width) (Bytes.ofNatLE width value) (value % Bytes.capacity width) := by
  have taken := undoes_takeBytes (Bytes.ofNatLE width value)
  rw [Bytes.length_ofNatLE] at taken
  have read := taken.map Bytes.toNatLE
  rwa [Bytes.toNatLE_ofNatLE] at read

theorem undoes_readUInt8 (value : UInt8) : Undoes readUInt8 [value] value := by
  have read := (undoes_readNat 1 value.toNat).map UInt8.ofNat
  have low : value.toNat % Bytes.capacity 1 = value.toNat := Nat.mod_eq_of_lt value.toNat_lt
  rwa [low, UInt8.ofNat_toNat, Bytes.ofNatLE, UInt8.ofNat_toNat, Bytes.ofNatLE] at read

private theorem undoes_readUInt16 (value : UInt16) :
    Undoes readUInt16 (Bytes.ofNatLE 2 value.toNat) value := by
  have read := (undoes_readNat 2 value.toNat).map UInt16.ofNat
  have low : value.toNat % Bytes.capacity 2 = value.toNat := Nat.mod_eq_of_lt value.toNat_lt
  rwa [low, UInt16.ofNat_toNat] at read

theorem undoes_readUInt32 (value : UInt32) :
    Undoes readUInt32 (Bytes.ofNatLE 4 value.toNat) value := by
  have read := (undoes_readNat 4 value.toNat).map UInt32.ofNat
  have low : value.toNat % Bytes.capacity 4 = value.toNat := Nat.mod_eq_of_lt value.toNat_lt
  rwa [low, UInt32.ofNat_toNat] at read

theorem undoes_readUInt64 (value : UInt64) :
    Undoes readUInt64 (Bytes.ofNatLE 8 value.toNat) value := by
  have read := (undoes_readNat 8 value.toNat).map UInt64.ofNat
  have low : value.toNat % Bytes.capacity 8 = value.toNat := Nat.mod_eq_of_lt value.toNat_lt
  rwa [low, UInt64.ofNat_toNat] at read

/-- The marker byte of the shortest form tells how many bytes follow it. -/
theorem undoes_readVarInt (value : UInt64) : Undoes readVarInt (varInt value) value := by
  unfold varInt
  split
  · next tiny =>
      have bound : value.toNat < 253 := tiny
      have narrow : value.toUInt8.toNat = value.toNat := by simp; omega
      have notMarker : ∀ marker : UInt8, 253 ≤ marker.toNat → value.toUInt8 ≠ marker := by
        rintro marker large rfl
        omega
      have widened : value.toUInt8.toUInt64 = value := by
        apply UInt64.toNat_inj.mp
        rw [UInt8.toNat_toUInt64, narrow]
      refine (undoes_readUInt8 value.toUInt8).bind ?_
      rw [if_neg (notMarker 0xff (by decide)), if_neg (notMarker 0xfe (by decide)),
        if_neg (notMarker 0xfd (by decide)), widened]
      exact .pure value
  · split
    · next _ short =>
        have bound : value.toNat < 65536 := short
        have narrow : value.toUInt16.toNat = value.toNat := by simp; omega
        have widened : value.toUInt16.toUInt64 = value := by
          apply UInt64.toNat_inj.mp
          rw [UInt16.toNat_toUInt64, narrow]
        have read := (undoes_readUInt16 value.toUInt16).map UInt16.toUInt64
        rw [widened, narrow] at read
        exact (undoes_readUInt8 0xfd).bind read
    · split
      · next _ medium =>
          have bound : value.toNat < 4294967296 := medium
          have narrow : value.toUInt32.toNat = value.toNat := by simp; omega
          have widened : value.toUInt32.toUInt64 = value := by
            apply UInt64.toNat_inj.mp
            rw [UInt32.toNat_toUInt64, narrow]
          have read := (undoes_readUInt32 value.toUInt32).map UInt32.toUInt64
          rw [widened, narrow] at read
          exact (undoes_readUInt8 0xfe).bind read
      · exact (undoes_readUInt8 0xff).bind (undoes_readUInt64 value)

theorem undoes_readVarBytes {bytes : Bytes} (fits : bytes.length < UInt64.size) :
    Undoes readVarBytes (varBytes bytes) bytes := by
  have announced : (UInt64.ofNat bytes.length).toNat = bytes.length :=
    UInt64.toNat_ofNat_of_lt' fits
  refine (undoes_readVarInt _).bind ?_
  rw [announced]
  exact undoes_takeBytes bytes

theorem undoes_readHash32 (hash : Hash32) : Undoes readHash32 hash.bytes hash := by
  intro position rest
  have taken := undoes_takeBytes hash.bytes position rest
  rw [hash.length_bytes] at taken
  simp only [readHash32, taken, Hash32.ofBytes_bytes, hash.length_bytes]

/-! ## Fields -/

/-- The length of the field's bytes is a number that can be written in front of them. -/
def Field.Fits : Field → Prop
  | varBytes value => value.length < UInt64.size
  | _ => True

theorem Field.undoes_read {field : Field} (fits : field.Fits) :
    Undoes field.shape.read field.encode field := by
  cases field with
  | uint8 value => exact (undoes_readUInt8 value).map Field.uint8
  | uint16 value => exact (undoes_readUInt16 value).map Field.uint16
  | uint32 value => exact (undoes_readUInt32 value).map Field.uint32
  | uint64 value => exact (undoes_readUInt64 value).map Field.uint64
  | varInt value => exact (undoes_readVarInt value).map Field.varInt
  | bytes value => exact (undoes_takeBytes value).map Field.bytes
  | varBytes value => exact (undoes_readVarBytes fits).map Field.varBytes

theorem undoes_readFields {fields : List Field} (fit : ∀ field ∈ fields, field.Fits) :
    Undoes (readFields (fields.map Field.shape)) (encodeFields fields) fields := by
  induction fields with
  | nil => exact .pure []
  | cons field rest ih =>
      obtain ⟨fits, restFit⟩ := List.forall_mem_cons.mp fit
      exact (Field.undoes_read fits).bind ((ih restFit).map (field :: ·))

/-- Fields of the same shapes are fixed by their bytes, whatever follows. -/
theorem encodeFields_append_inj {fields fields' : List Field} {rest rest' : Bytes}
    (shapes : fields.map Field.shape = fields'.map Field.shape)
    (fit : ∀ field ∈ fields, field.Fits) (fit' : ∀ field ∈ fields', field.Fits)
    (same : encodeFields fields ++ rest = encodeFields fields' ++ rest') :
    fields = fields' ∧ rest = rest' := by
  have undoes := undoes_readFields fit
  rw [shapes] at undoes
  exact undoes.unique (undoes_readFields fit') same

/-- Encodings that are not empty and that no later bytes can make alike stay so when they are
strung together without a count. -/
theorem flatMap_inj {α : Type} {encode : α → Bytes} {valid : α → Prop}
    (nonempty : ∀ item, encode item ≠ [])
    (apart : ∀ item item' rest rest', valid item → valid item' →
      encode item ++ rest = encode item' ++ rest' → item = item' ∧ rest = rest')
    {items items' : List α} (all : ∀ item ∈ items, valid item)
    (all' : ∀ item ∈ items', valid item)
    (same : items.flatMap encode = items'.flatMap encode) : items = items' := by
  induction items generalizing items' with
  | nil =>
      cases items' with
      | nil => rfl
      | cons item' later' => exact absurd (List.append_eq_nil_iff.mp same.symm).1 (nonempty item')
  | cons item later ih =>
      cases items' with
      | nil => exact absurd (List.append_eq_nil_iff.mp same).1 (nonempty item)
      | cons item' later' =>
          obtain ⟨first, rest⟩ := List.forall_mem_cons.mp all
          obtain ⟨first', rest'⟩ := List.forall_mem_cons.mp all'
          obtain ⟨rfl, tails⟩ := apart item item' _ _ first first' same
          rw [ih rest rest' tails]

end BitcoinSpend.Wire
