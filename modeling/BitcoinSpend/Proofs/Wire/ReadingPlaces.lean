import BitcoinSpend.Proofs.Wire.ReadBack
import BitcoinSpend.Proofs.Wire.Spelling

/-!
# Places of a reader

Whatever is read, and also where a read fails, the cursor is at a place of the string that it
started with, and never before a place where it has been. A field whose width is known beforehand
is taken whole or leaves the cursor where it is.
-/

set_option autoImplicit false

namespace BitcoinSpend.Wire

/-! ## Places -/

/-- The next cursor is in the same string, where the cursor is or further on. -/
def Cursor.LeadsTo (cursor next : Cursor) : Prop :=
  ∃ taken, cursor.rest = taken ++ next.rest ∧ next.position = cursor.position + taken.length

namespace Cursor.LeadsTo

variable {cursor next last : Cursor}

theorem refl (cursor : Cursor) : cursor.LeadsTo cursor :=
  ⟨[], rfl, rfl⟩

theorem trans (first : cursor.LeadsTo next) (second : next.LeadsTo last) :
    cursor.LeadsTo last := by
  obtain ⟨taken, before, place⟩ := first
  obtain ⟨later, after, placeLater⟩ := second
  refine ⟨taken ++ later, ?_, ?_⟩
  · rw [before, after, List.append_assoc]
  · rw [placeLater, place, List.length_append, Nat.add_assoc]

private theorem position_le (leads : cursor.LeadsTo next) : cursor.position ≤ next.position := by
  obtain ⟨taken, -, place⟩ := leads
  rw [place]
  exact Nat.le_add_right _ _

private theorem of_start {data : Bytes} (leads : (start data).LeadsTo cursor) :
    cursor.rest = data.drop cursor.position ∧
      cursor.position + cursor.remaining = data.length := by
  obtain ⟨taken, parts, place⟩ := leads
  have whole : data = taken ++ cursor.rest := parts
  have counted : cursor.position = taken.length := place.trans (Nat.zero_add _)
  rw [whole, counted, List.drop_left, List.length_append]
  exact ⟨rfl, rfl⟩

end Cursor.LeadsTo

/-- The cursor that a reader leaves, also where it fails. -/
def Read.left {ε α : Type} (read : Read ε α) (cursor : Cursor) : Cursor :=
  match read cursor with
  | .ok _ next => next
  | .error _ next => next

/-- The reader never moves back, and never out of its string. -/
def Advances {ε α : Type} (read : Read ε α) : Prop :=
  ∀ cursor : Cursor, cursor.LeadsTo (read.left cursor)

namespace Advances

variable {ε α β : Type}

theorem pure (value : α) : Advances (Pure.pure value : Read ε α) :=
  fun cursor => .refl cursor

theorem bind {read : Read ε α} {next : α → Read ε β} (first : Advances read)
    (later : ∀ value, Advances (next value)) : Advances (read >>= next) := by
  intro cursor
  have moved := first cursor
  simp only [Read.left, Bind.bind, EStateM.bind] at moved ⊢
  cases ran : read cursor with
  | ok value middle =>
      rw [ran] at moved
      exact moved.trans (later value middle)
  | error cause middle =>
      rw [ran] at moved
      exact moved

theorem map {read : Read ε α} (advances : Advances read) (change : α → β) :
    Advances (do let value ← read; Pure.pure (change value)) :=
  advances.bind fun value => .pure (change value)

end Advances

/-! ## Readers -/

private theorem takeBytes_of_le {count : Nat} {cursor : Cursor}
    (enough : count ≤ cursor.remaining) :
    takeBytes count cursor =
      .ok (cursor.rest.take count) ⟨cursor.position + count, cursor.rest.drop count⟩ :=
  if_pos enough

private theorem takeBytes_of_lt {count : Nat} {cursor : Cursor} (few : cursor.remaining < count) :
    takeBytes count cursor = .error (.endOfData count cursor.remaining) cursor :=
  if_neg (Nat.not_le.mpr few)

private theorem advances_takeBytes (count : Nat) : Advances (takeBytes count) := by
  intro cursor
  rcases Nat.lt_or_ge cursor.remaining count with few | enough
  · rw [Read.left, takeBytes_of_lt few]
    exact .refl cursor
  · rw [Read.left, takeBytes_of_le enough]
    refine ⟨cursor.rest.take count, (List.take_append_drop count cursor.rest).symm, ?_⟩
    rw [List.length_take_of_le enough]

private theorem advances_readNat (width : Nat) : Advances (readNat width) :=
  (advances_takeBytes width).map Bytes.toNatLE

private theorem advances_readVarInt : Advances readVarInt := by
  apply ((advances_readNat 1).map UInt8.ofNat).bind
  intro marker
  split
  · exact (advances_readNat 8).map UInt64.ofNat
  · split
    · exact ((advances_readNat 4).map UInt32.ofNat).map UInt32.toUInt64
    · split
      · exact ((advances_readNat 2).map UInt16.ofNat).map UInt16.toUInt64
      · exact .pure marker.toUInt64

private theorem advances_readVarBytes : Advances readVarBytes :=
  advances_readVarInt.bind fun length => advances_takeBytes length.toNat

private theorem Shape.advances_read (shape : Shape) : Advances shape.read := by
  cases shape with
  | uint8 => exact ((advances_readNat 1).map UInt8.ofNat).map Field.uint8
  | uint16 => exact ((advances_readNat 2).map UInt16.ofNat).map Field.uint16
  | uint32 => exact ((advances_readNat 4).map UInt32.ofNat).map Field.uint32
  | uint64 => exact ((advances_readNat 8).map UInt64.ofNat).map Field.uint64
  | varInt => exact advances_readVarInt.map Field.varInt
  | bytes length => exact (advances_takeBytes length).map Field.bytes
  | varBytes => exact advances_readVarBytes.map Field.varBytes

/-! ## Fields of known width -/

/-- The reader fails only where fewer bytes are left than it takes, and stays there. -/
def TakesWhole {α : Type} (width : Nat) (read : Read EncodingError α) : Prop :=
  ∀ ⦃cursor next : Cursor⦄ ⦃cause : EncodingError⦄, read cursor = .error cause next →
    cursor.remaining < width ∧ cause = .endOfData width cursor.remaining ∧ next = cursor

private theorem takesWhole_takeBytes (width : Nat) : TakesWhole width (takeBytes width) := by
  intro cursor next cause failed
  rcases Nat.lt_or_ge cursor.remaining width with few | enough
  · rw [takeBytes_of_lt few] at failed
    cases failed
    exact ⟨few, rfl, rfl⟩
  · rw [takeBytes_of_le enough] at failed
    cases failed

theorem TakesWhole.map {α β : Type} {width : Nat} {read : Read EncodingError α}
    (whole : TakesWhole width read) (change : α → β) :
    TakesWhole width (do let value ← read; Pure.pure (change value)) := by
  intro cursor next cause failed
  apply whole
  simp only [bind, EStateM.bind] at failed
  cases ran : read cursor with
  | ok value middle =>
      rw [ran] at failed
      cases failed
  | error found left =>
      rw [ran] at failed
      cases failed
      rfl

private theorem takesWhole_readNat (width : Nat) : TakesWhole width (readNat width) :=
  (takesWhole_takeBytes width).map Bytes.toNatLE

/-- The width of a field, where it does not depend on the bytes. -/
def Shape.width? : Shape → Option Nat
  | uint8 => some 1
  | uint16 => some 2
  | uint32 => some 4
  | uint64 => some 8
  | bytes length => some length
  | varInt => none
  | varBytes => none

private theorem Shape.takesWhole_read {shape : Shape} {width : Nat}
    (known : shape.width? = some width) :
    TakesWhole width shape.read := by
  cases shape with
  | varInt | varBytes => cases known
  | uint8 =>
      cases known
      exact ((takesWhole_readNat 1).map UInt8.ofNat).map Field.uint8
  | uint16 =>
      cases known
      exact ((takesWhole_readNat 2).map UInt16.ofNat).map Field.uint16
  | uint32 =>
      cases known
      exact ((takesWhole_readNat 4).map UInt32.ofNat).map Field.uint32
  | uint64 =>
      cases known
      exact ((takesWhole_readNat 8).map UInt64.ofNat).map Field.uint64
  | bytes length =>
      cases known
      exact (takesWhole_takeBytes width).map Field.bytes

/-! ## Calls one after another -/

/-- One use of a reader: it reads a field, or looks at the bytes ahead. -/
inductive Call where
  | read (shape : Shape)
  | peek (count : Nat)
  deriving DecidableEq, Repr

/-- The cursor that a call leaves, also where it fails. -/
def Call.left : Call → Cursor → Cursor
  | read shape, cursor => shape.read.left cursor
  | peek _, cursor => cursor

/-- The cursor after some calls, each of which may have failed. -/
def Cursor.after (cursor : Cursor) (calls : List Call) : Cursor :=
  calls.foldl (fun cursor call => call.left cursor) cursor

private theorem Call.leadsTo_left (call : Call) (cursor : Cursor) :
    cursor.LeadsTo (call.left cursor) := by
  cases call with
  | read shape => exact shape.advances_read cursor
  | peek count => exact .refl cursor

private theorem Cursor.leadsTo_after (cursor : Cursor) (calls : List Call) :
    cursor.LeadsTo (cursor.after calls) := by
  induction calls generalizing cursor with
  | nil => exact .refl cursor
  | cons call calls ih => exact (call.leadsTo_left cursor).trans (ih (call.left cursor))

private theorem Cursor.after_append (cursor : Cursor) (calls later : List Call) :
    cursor.after (calls ++ later) = (cursor.after calls).after later :=
  List.foldl_append

private theorem Cursor.peek?_of_place {data : Bytes} {cursor : Cursor}
    (isRest : cursor.rest = data.drop cursor.position)
    (total : cursor.position + cursor.remaining = data.length) (count : Nat) :
    cursor.peek? count = if cursor.position + count ≤ data.length then
      some ((data.drop cursor.position).take count) else none := by
  have inside : count ≤ cursor.remaining ↔ cursor.position + count ≤ data.length := by omega
  rw [peek?, isRest]
  simp only [inside]

/-- No bytes that are read as a number are fewer than those that are written for it, and no others
are as many. -/
private theorem shorterOrSame_of_readVarInt {value : UInt64} {cursor next : Cursor}
    (read : readVarInt cursor = .ok value next) : ShorterOrSame (varInt value) cursor.rest := by
  obtain ⟨spelling, parts, spelled⟩ := takes_readVarInt read
  obtain ⟨shorter, same⟩ := spelled.shorterOrSame
  have total : cursor.rest.length = spelling.length + next.rest.length := by
    rw [parts, List.length_append]
  constructor
  · omega
  · intro lengths
    have nothing : next.rest = [] := List.length_eq_zero_iff.mp (by omega)
    rw [parts, nothing, List.append_nil]
    exact same (by omega)

/-- Reading undoes writing, field by field, and every number of variable length is written in the
fewest bytes that are read as it. Whatever is read or looked at, and also where that fails, the
cursor stays in its string and never moves back, and a look shows the bytes of the string ahead of
it. Where a field of known width is not read, it stays where it is. -/
theorem reads_undo_writes :
    (∀ (fields : List Field), (∀ field ∈ fields, field.Fits) → ∀ (position : Nat) (rest : Bytes),
      readFields (fields.map Field.shape) ⟨position, encodeFields fields ++ rest⟩ =
        .ok fields ⟨position + (encodeFields fields).length, rest⟩) ∧
    (∀ (value : UInt64) (cursor next : Cursor), readVarInt cursor = .ok value next →
      ShorterOrSame (varInt value) cursor.rest) ∧
    ∀ (data : Bytes) (calls later : List Call),
      let cursor := (Cursor.start data).after calls
      cursor.position + cursor.remaining = data.length ∧
      cursor.rest = data.drop cursor.position ∧
      (∀ count : Nat, cursor.peek? count =
        if cursor.position + count ≤ data.length then
          some ((data.drop cursor.position).take count) else none) ∧
      cursor.position ≤ ((Cursor.start data).after (calls ++ later)).position ∧
      ∀ (shape : Shape) (width : Nat), shape.width? = some width →
        ∀ (cause : EncodingError) (next : Cursor), shape.read cursor = .error cause next →
          next = cursor := by
  refine ⟨?_, ?_, ?_⟩
  · intro fields fit
    exact undoes_readFields fit
  · intro value cursor next read
    exact shorterOrSame_of_readVarInt read
  · intro data calls later cursor
    obtain ⟨isRest, total⟩ := ((Cursor.start data).leadsTo_after calls).of_start
    refine ⟨total, isRest, cursor.peek?_of_place isRest total, ?_, ?_⟩
    · rw [Cursor.after_append]
      exact (cursor.leadsTo_after later).position_le
    · intro shape width known cause next failed
      exact (Shape.takesWhole_read known failed).2.2

/-- Fields with other bytes behind them, a number in a form that is too long, and a field that is
not read because too few bytes are left behind that number. -/
theorem reads_undo_writes_mixed :
    let fields := [Field.uint8 1, .varInt 300, .varBytes [1, 2, 3], .bytes [9]]
    let cursor := (Cursor.start [0xfd, 7, 0, 8]).after [.read .varInt, .peek 2]
    readFields (fields.map Field.shape) ⟨2, encodeFields fields ++ [7, 7]⟩ =
        .ok fields ⟨11, [7, 7]⟩ ∧
      ShorterOrSame (varInt 7) [0xfd, 7, 0, 8] ∧
      Shape.uint32.read cursor = .error (.endOfData 4 1) ⟨3, [8]⟩ ∧ ⟨3, [8]⟩ = cursor := by
  intro fields cursor
  obtain ⟨undoes, shortest, places⟩ := reads_undo_writes
  have fit : ∀ field ∈ fields, field.Fits := by
    simp [fields, Field.Fits, UInt64.size]
  have readLong : readVarInt ⟨0, [0xfd, 7, 0, 8]⟩ = .ok 7 ⟨3, [8]⟩ := rfl
  have failed : Shape.uint32.read cursor = .error (.endOfData 4 1) ⟨3, [8]⟩ := rfl
  obtain ⟨-, -, -, -, stays⟩ := places [0xfd, 7, 0, 8] [.read .varInt, .peek 2] []
  exact ⟨undoes fields fit 2 [7, 7], shortest 7 _ _ readLong, failed,
    stays .uint32 4 rfl _ _ failed⟩

end BitcoinSpend.Wire
