import BitcoinSpend.Proofs.ExceptProperties
import BitcoinSpend.Proofs.Text.SeparatedWords

/-!
# Written hexadecimal

Two digits are written for each byte and read as that byte again. What is written for
data is one word, and its first character is a digit.
-/

set_option autoImplicit false

namespace BitcoinSpend.Hex

/-! ## Digits -/

/-- What reading data and telling words apart rely on of a digit that is written. -/
structure Written (letter : Char) (value : Nat) : Prop where
  reads : digitValue? letter = some value
  single : letter.utf8Size = 1
  solid : Text.isBlank letter = false
  notLetter : letter ≠ 'O'
  notMinus : letter ≠ '-'

theorem written_digit {value : Nat} (small : value < 16) : Written (digit value) value := by
  have all : ∀ value : Fin 16,
      digitValue? (digit value) = some value.val ∧ (digit value).utf8Size = 1 ∧
        Text.isBlank (digit value) = false ∧ digit value ≠ 'O' ∧ digit value ≠ '-' := by
    decide
  obtain ⟨reads, single, solid, notLetter, notMinus⟩ := all ⟨value, small⟩
  exact ⟨reads, single, solid, notLetter, notMinus⟩

theorem nibbles_lt (byte : UInt8) : byte.toNat / 16 < 16 ∧ byte.toNat % 16 < 16 := by
  have bound := byte.toNat_lt
  omega

private theorem encodeChars_cons (byte : UInt8) (rest : Bytes) :
    encodeChars (byte :: rest) =
      digit (byte.toNat / 16) :: digit (byte.toNat % 16) :: encodeChars rest := rfl

private theorem mem_encodeChars {bytes : Bytes} {letter : Char}
    (member : letter ∈ encodeChars bytes) :
    ∃ value < 16, letter = digit value := by
  obtain ⟨byte, -, written⟩ := List.mem_flatMap.mp member
  obtain ⟨high, low⟩ := nibbles_lt byte
  simp only [encodeByte, List.mem_cons, List.not_mem_nil, or_false] at written
  rcases written with rfl | rfl
  · exact ⟨_, high, rfl⟩
  · exact ⟨_, low, rfl⟩

private theorem length_encodeChars (bytes : Bytes) :
    (encodeChars bytes).length = 2 * bytes.length := by
  induction bytes with
  | nil => rfl
  | cons byte rest ih =>
      rw [encodeChars_cons, List.length_cons, List.length_cons, ih, List.length_cons]
      omega

/-! ## Reading back -/

private theorem digitValues_encodeChars (bytes : Bytes) (position : Nat) :
    digitValues position (encodeChars bytes) =
      .ok (bytes.flatMap fun byte => [byte.toNat / 16, byte.toNat % 16]) := by
  induction bytes generalizing position with
  | nil => rfl
  | cons byte rest ih =>
      obtain ⟨high, low⟩ := nibbles_lt byte
      simp only [encodeChars_cons, digitValues, (written_digit high).reads,
        (written_digit low).reads, ih]
      rfl

private theorem joinDigits_flatMap (bytes : Bytes) :
    joinDigits (bytes.flatMap fun byte => [byte.toNat / 16, byte.toNat % 16]) = bytes := by
  induction bytes with
  | nil => rfl
  | cons byte rest ih =>
      have whole : UInt8.ofNat (16 * (byte.toNat / 16) + byte.toNat % 16) = byte := by
        rw [Nat.div_add_mod, UInt8.ofNat_toNat]
      rw [List.flatMap_cons, List.cons_append, List.singleton_append, joinDigits, whole, ih]

private theorem utf8Length_of_single {text : List Char}
    (single : ∀ letter ∈ text, letter.utf8Size = 1) :
    utf8Length text = text.length := by
  have counted : ∀ start, text.foldl (fun length letter => length + letter.utf8Size) start =
      start + text.length := by
    induction text with
    | nil => exact fun start => rfl
    | cons letter rest ih =>
        intro start
        obtain ⟨first, later⟩ := List.forall_mem_cons.mp single
        rw [List.foldl_cons, ih later, first, List.length_cons, Nat.add_assoc, Nat.add_comm 1]
  rw [utf8Length, counted, Nat.zero_add]

theorem decode_encode (bytes : Bytes) : decode (encode bytes) = .ok bytes := by
  have single : ∀ letter ∈ encodeChars bytes, letter.utf8Size = 1 := by
    intro letter member
    obtain ⟨value, small, rfl⟩ := mem_encodeChars member
    exact (written_digit small).single
  have even : ¬utf8Length (encodeChars bytes) % 2 = 1 := by
    rw [utf8Length_of_single single, length_encodeChars]
    omega
  rw [decode, encode, String.toList_ofList, decodeChars, if_neg even, digitValues_encodeChars]
  exact congrArg Except.ok (joinDigits_flatMap bytes)

/-- A text spells at most one byte for two of its characters. -/
theorem length_of_decode {text : String} {bytes : Bytes} (read : decode text = .ok bytes) :
    2 * bytes.length ≤ text.toList.length := by
  have digits : ∀ {letters : List Char} {position : Nat} {values : List Nat},
      digitValues position letters = .ok values → values.length = letters.length := by
    intro letters
    induction letters with
    | nil =>
        intro position values read
        cases read
        rfl
    | cons letter rest ih =>
        intro position values read
        rw [digitValues] at read
        split at read
        · obtain ⟨later, readLater, rfl⟩ := map_eq_ok_iff.mp read
          rw [List.length_cons, ih readLater, List.length_cons]
        · cases read
  have joined : ∀ values, 2 * (joinDigits values).length ≤ values.length := by
    intro values
    fun_induction joinDigits values with
    | case1 high low rest ih =>
        simp only [List.length_cons]
        omega
    | case2 => exact Nat.zero_le _
  rw [decode, decodeChars] at read
  split at read
  · cases read
  · obtain ⟨values, readDigits, rfl⟩ := map_eq_ok_iff.mp read
    rw [← digits readDigits]
    exact joined values

/-! ## Words -/

theorem isWord_encode {bytes : Bytes} (nonempty : bytes ≠ []) : Text.IsWord (encode bytes) := by
  constructor
  · intro empty
    have length := congrArg List.length empty
    rw [encode, String.toList_ofList, length_encodeChars, List.length_nil] at length
    exact nonempty (List.length_eq_zero_iff.mp (by omega))
  · intro letter member
    rw [encode, String.toList_ofList] at member
    obtain ⟨value, small, rfl⟩ := mem_encodeChars member
    exact (written_digit small).solid

end BitcoinSpend.Hex
