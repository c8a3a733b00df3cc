import BitcoinSpend.Wire.Field

/-!
# The strings that readers accept

A reader that gives a value has taken a spelling of it. Only numbers of variable
length have more than one, and the one that is written is shorter than the others.
-/

set_option autoImplicit false

namespace BitcoinSpend.Wire

/-- The strings that are read as a number of variable length. -/
inductive NumberSpelling (value : UInt64) : Bytes → Prop where
  | bare (small : value.toNat < 0xfd) : NumberSpelling value [value.toUInt8]
  | two (fits : value.toNat < Bytes.capacity 2) :
      NumberSpelling value (0xfd :: Bytes.ofNatLE 2 value.toNat)
  | four (fits : value.toNat < Bytes.capacity 4) :
      NumberSpelling value (0xfe :: Bytes.ofNatLE 4 value.toNat)
  | eight : NumberSpelling value (0xff :: Bytes.ofNatLE 8 value.toNat)

/-- The strings that are read as a field. -/
def Field.Spelling : Field → Bytes → Prop
  | .varInt value, spelling => NumberSpelling value spelling
  | .varBytes value, spelling => ∃ length, NumberSpelling (UInt64.ofNat value.length) length ∧
      spelling = length ++ value
  | field, spelling => spelling = field.encode

/-- The strings that are read as fields one after another. -/
inductive Spelling : List Field → Bytes → Prop where
  | nil : Spelling [] []
  | cons {field : Field} {fields : List Field} {first rest : Bytes}
      (head : field.Spelling first) (tail : Spelling fields rest) :
      Spelling (field :: fields) (first ++ rest)

/-! ## Spellings and the encoding -/

/-- The first string is shorter than the second, or they are the same. -/
def ShorterOrSame (left right : Bytes) : Prop :=
  left.length ≤ right.length ∧ (left.length = right.length → left = right)

theorem ShorterOrSame.refl (bytes : Bytes) : ShorterOrSame bytes bytes :=
  ⟨Nat.le_refl _, fun _ => rfl⟩

theorem ShorterOrSame.append {left right left' right' : Bytes} (first : ShorterOrSame left right)
    (second : ShorterOrSame left' right') : ShorterOrSame (left ++ left') (right ++ right') := by
  obtain ⟨shorter, same⟩ := first
  obtain ⟨shorter', same'⟩ := second
  constructor
  · simp only [List.length_append]
    omega
  · intro lengths
    simp only [List.length_append] at lengths
    rw [same (by omega), same' (by omega)]

theorem NumberSpelling.shorterOrSame {value : UInt64} {spelling : Bytes}
    (spelled : NumberSpelling value spelling) : ShorterOrSame (varInt value) spelling := by
  have longer : ∀ bytes : Bytes, varIntLength value < bytes.length →
      ShorterOrSame (varInt value) bytes := by
    intro bytes long
    rw [← length_varInt] at long
    exact ⟨Nat.le_of_lt long, fun same => absurd same (Nat.ne_of_lt long)⟩
  -- A marker is written exactly if no form with fewer bytes holds the value.
  cases spelled with
  | bare small =>
      rw [varInt, if_pos (show value < 0xfd from small)]
      exact .refl _
  | two fits =>
      by_cases tiny : value < 0xfd
      · apply longer
        simp [varIntLength, tiny]
      · rw [varInt, if_neg tiny, if_pos (show value < 0x10000 from fits)]
        exact .refl _
  | four fits =>
      by_cases short : value < 0x10000
      · apply longer
        by_cases tiny : value < 0xfd <;> simp [varIntLength, tiny, short]
      · have large : ¬value < 0xfd := fun tiny => short (UInt64.lt_trans tiny (by decide))
        rw [varInt, if_neg large, if_neg short, if_pos (show value < 0x100000000 from fits)]
        exact .refl _
  | eight =>
      by_cases medium : value < 0x100000000
      · apply longer
        by_cases tiny : value < 0xfd <;> by_cases short : value < 0x10000 <;>
          simp [varIntLength, tiny, short, medium]
      · have large : ¬value < 0x10000 := fun short => medium (UInt64.lt_trans short (by decide))
        have larger : ¬value < 0xfd := fun tiny => large (UInt64.lt_trans tiny (by decide))
        rw [varInt, if_neg larger, if_neg large, if_neg medium]
        exact .refl _

theorem Field.Spelling.shorterOrSame {field : Field} {spelling : Bytes}
    (spelled : field.Spelling spelling) : ShorterOrSame field.encode spelling := by
  cases field with
  | varInt value => exact NumberSpelling.shorterOrSame spelled
  | varBytes value =>
      obtain ⟨length, number, rfl⟩ := spelled
      exact number.shorterOrSame.append (.refl value)
  | uint8 | uint16 | uint32 | uint64 | bytes =>
      cases spelled
      exact .refl _

theorem Spelling.shorterOrSame {fields : List Field} {spelling : Bytes}
    (spelled : Spelling fields spelling) : ShorterOrSame (encodeFields fields) spelling := by
  induction spelled with
  | nil => exact .refl []
  | cons head tail ih => exact head.shorterOrSame.append ih

theorem Spelling.one {field : Field} {spelling : Bytes} (spelled : field.Spelling spelling) :
    Spelling [field] spelling := by
  have single := Spelling.cons spelled .nil
  rwa [List.append_nil] at single

theorem Spelling.append {fields fields' : List Field} {first second : Bytes}
    (spelled : Spelling fields first) (spelled' : Spelling fields' second) :
    Spelling (fields ++ fields') (first ++ second) := by
  induction spelled with
  | nil => exact spelled'
  | cons head tail ih =>
      rw [List.append_assoc]
      exact .cons head ih

/-! ## Readers -/

/-- Where the reader gives a value, it has taken a string that stands for the value. -/
def Takes {ε α : Type} (read : Read ε α) (stands : α → Bytes → Prop) : Prop :=
  ∀ ⦃cursor : Cursor⦄ ⦃value : α⦄ ⦃next : Cursor⦄, read cursor = .ok value next →
    ∃ taken, cursor.rest = taken ++ next.rest ∧ stands value taken

theorem bind_eq_ok {ε α β : Type} {read : Read ε α} {next : α → Read ε β} {cursor last : Cursor}
    {final : β} (ran : (read >>= next) cursor = .ok final last) :
    ∃ (value : α) (middle : Cursor), read cursor = .ok value middle ∧
      next value middle = .ok final last := by
  simp only [bind, EStateM.bind] at ran
  cases opened : read cursor with
  | error cause middle =>
      rw [opened] at ran
      cases ran
  | ok value middle =>
      rw [opened] at ran
      exact ⟨value, middle, rfl, ran⟩

/-- What holds of every item that a reader gives holds of the items that it gives one after
another. -/
theorem forall_mem_of_replicate {ε α : Type} {read : Read ε α} {holds : α → Prop}
    (each : ∀ (cursor : Cursor) (value : α) (next : Cursor), read cursor = .ok value next →
      holds value) {count : Nat} {cursor next : Cursor} {values : List α}
    (ran : read.replicate count cursor = .ok values next) :
    values.length = count ∧ ∀ value ∈ values, holds value := by
  induction count generalizing cursor values with
  | zero =>
      cases ran
      exact ⟨rfl, nofun⟩
  | succ count ih =>
      obtain ⟨value, middle, first, continued⟩ := bind_eq_ok ran
      obtain ⟨rest, last, later, ended⟩ := bind_eq_ok continued
      cases ended
      obtain ⟨counted, all⟩ := ih later
      exact ⟨congrArg (· + 1) counted, List.forall_mem_cons.mpr ⟨each _ _ _ first, all⟩⟩

namespace Takes

variable {ε δ α β : Type} {stands : α → Bytes → Prop} {result : β → Bytes → Prop}

theorem pure {value : α} (none : stands value []) :
    Takes (Pure.pure value : Read ε α) stands := by
  intro cursor value next ran
  cases ran
  exact ⟨[], rfl, none⟩

theorem bind {read : Read ε α} {next : α → Read ε β} (first : Takes read stands)
    (later : ∀ value taken, stands value taken →
      Takes (next value) fun final rest => result final (taken ++ rest)) :
    Takes (read >>= next) result := by
  intro cursor final last ran
  obtain ⟨value, middle, opened, continued⟩ := bind_eq_ok ran
  obtain ⟨taken, before, stood⟩ := first opened
  obtain ⟨rest, after, ended⟩ := later value taken stood continued
  refine ⟨taken ++ rest, ?_, ended⟩
  rw [before, after, List.append_assoc]

theorem map {read : Read ε α} {change : α → β}
    (takes : Takes read fun value => result (change value)) :
    Takes (do let value ← read; Pure.pure (change value)) result := by
  refine takes.bind fun value taken stood => .pure ?_
  rwa [List.append_nil]

theorem imp {read : Read ε α} {stands' : α → Bytes → Prop} (takes : Takes read stands)
    (weaker : ∀ value taken, stands value taken → stands' value taken) : Takes read stands' := by
  intro cursor value next ran
  obtain ⟨taken, before, stood⟩ := takes ran
  exact ⟨taken, before, weaker value taken stood⟩

theorem mapError {read : Read ε α} (takes : Takes read stands) (wrap : ε → δ) :
    Takes (read.mapError wrap) stands := by
  intro cursor value next ran
  simp only [Read.mapError] at ran
  split at ran
  · next opened =>
      cases ran
      exact takes opened
  · cases ran

/-- Items read one after another are spelled one after another. -/
theorem replicate {read : Read ε α} {fields : α → List Field} {holds : α → Prop}
    (takes : Takes read fun value taken => holds value ∧ Spelling (fields value) taken)
    (count : Nat) :
    Takes (read.replicate count) fun values taken =>
      values.length = count ∧ (∀ value ∈ values, holds value) ∧
        Spelling (values.flatMap fields) taken := by
  induction count with
  | zero => exact .pure ⟨rfl, nofun, .nil⟩
  | succ count ih =>
      refine takes.bind ?_
      rintro value first ⟨held, spelled⟩
      refine (ih.imp ?_).map
      rintro values rest ⟨counted, all, later⟩
      exact ⟨congrArg (· + 1) counted, List.forall_mem_cons.mpr ⟨held, all⟩,
        spelled.append later⟩

end Takes

private theorem takes_takeBytes (count : Nat) :
    Takes (takeBytes count) fun value taken => taken = value ∧ value.length = count := by
  intro cursor value next ran
  unfold takeBytes at ran
  split at ran
  · next enough =>
      cases ran
      refine ⟨cursor.rest.take count, (List.take_append_drop count cursor.rest).symm, rfl, ?_⟩
      exact List.length_take_of_le enough
  · cases ran

private theorem takes_readNat (width : Nat) :
    Takes (readNat width) fun value taken =>
      value < Bytes.capacity width ∧ taken = Bytes.ofNatLE width value := by
  refine ((takes_takeBytes width).imp ?_).map
  rintro bytes taken ⟨rfl, rfl⟩
  exact ⟨Bytes.toNatLE_lt taken, (Bytes.ofNatLE_toNatLE taken).symm⟩

private theorem takes_readUInt8 : Takes readUInt8 fun value taken => taken = [value] := by
  refine ((takes_readNat 1).imp ?_).map
  rintro value _ ⟨-, rfl⟩
  rfl

private theorem takes_readUInt16 : Takes readUInt16 fun value taken =>
    taken = Bytes.ofNatLE 2 value.toNat := by
  refine ((takes_readNat 2).imp ?_).map
  rintro value _ ⟨fits, rfl⟩
  rw [UInt16.toNat_ofNat_of_lt' fits]

theorem takes_readUInt32 : Takes readUInt32 fun value taken =>
    taken = Bytes.ofNatLE 4 value.toNat := by
  refine ((takes_readNat 4).imp ?_).map
  rintro value _ ⟨fits, rfl⟩
  rw [UInt32.toNat_ofNat_of_lt' fits]

theorem takes_readUInt64 : Takes readUInt64 fun value taken =>
    taken = Bytes.ofNatLE 8 value.toNat := by
  refine ((takes_readNat 8).imp ?_).map
  rintro value _ ⟨fits, rfl⟩
  rw [UInt64.toNat_ofNat_of_lt' fits]

theorem takes_readVarInt : Takes readVarInt NumberSpelling := by
  refine takes_readUInt8.bind ?_
  rintro marker _ rfl
  by_cases eight : marker = 0xff
  · rw [if_pos eight, eight]
    refine takes_readUInt64.imp ?_
    rintro value _ rfl
    exact .eight
  · rw [if_neg eight]
    by_cases four : marker = 0xfe
    · rw [if_pos four, four]
      refine (takes_readUInt32.imp ?_).map
      rintro value _ rfl
      have spelled := @NumberSpelling.four value.toUInt64
      rw [UInt32.toNat_toUInt64] at spelled
      exact spelled value.toNat_lt
    · rw [if_neg four]
      by_cases two : marker = 0xfd
      · rw [if_pos two, two]
        refine (takes_readUInt16.imp ?_).map
        rintro value _ rfl
        have spelled := @NumberSpelling.two value.toUInt64
        rw [UInt16.toNat_toUInt64] at spelled
        exact spelled value.toNat_lt
      · rw [if_neg two]
        refine .pure ?_
        have below : marker.toNat < 0xfd := by
          have bound := marker.toNat_lt
          have apart : ∀ other : UInt8, marker ≠ other → marker.toNat ≠ other.toNat :=
            fun other distinct same => distinct (UInt8.toNat_inj.mp same)
          have first := apart 0xff eight
          have second := apart 0xfe four
          have third := apart 0xfd two
          simp only [UInt8.reduceToNat] at first second third
          omega
        have spelled := @NumberSpelling.bare marker.toUInt64
        rw [UInt8.toNat_toUInt64, UInt8.toUInt8_toUInt64] at spelled
        exact spelled below

theorem takes_readVarBytes : Takes readVarBytes fun value => (Field.varBytes value).Spelling := by
  refine takes_readVarInt.bind fun length spelling number => ?_
  refine (takes_takeBytes length.toNat).imp ?_
  rintro value _ ⟨rfl, counted⟩
  refine ⟨spelling, ?_, rfl⟩
  rwa [counted, UInt64.ofNat_toNat]

private theorem bytes_of_ofBytes {bytes : Bytes} {hash : Hash32}
    (found : Hash32.ofBytes bytes = .ok hash) :
    hash.bytes = bytes := by
  unfold Hash32.ofBytes Hash32.ofBytes? at found
  by_cases whole : bytes.length = 32
  · rw [dif_pos whole] at found
    cases found
    rfl
  · rw [dif_neg whole] at found
    cases found

theorem takes_readHash32 : Takes readHash32 fun value taken => taken = value.bytes := by
  intro cursor value next ran
  simp only [readHash32] at ran
  split at ran
  · cases ran
  · next bytes after opened =>
      obtain ⟨taken, before, rfl, -⟩ := takes_takeBytes 32 opened
      split at ran
      · next hash found =>
          cases ran
          exact ⟨taken, before, (bytes_of_ofBytes found).symm⟩
      · cases ran

end BitcoinSpend.Wire
