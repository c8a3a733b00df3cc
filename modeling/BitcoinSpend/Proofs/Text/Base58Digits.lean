import Mathlib.Data.Nat.Digits.Defs
import BitcoinSpend.Base58
import BitcoinSpend.Proofs.ExceptProperties
import BitcoinSpend.Proofs.ShortestNumber

/-!
# Byte strings in base 58

A byte string is its leading zeros and a number, and so is a list of digits that begins with as
many zeros. The two lists make each other, so a text that is accepted is the text of the bytes
that it gives, and no other text gives them.
-/

set_option autoImplicit false

namespace BitcoinSpend.Base58

/-! ## Leading zeros -/

section LeadingZeros

variable {α : Type} [BEq α] [LawfulBEq α] {zero : α} {rest : List α}

private theorem dropWhile_zeros_append (count : Nat) (bare : rest.dropWhile (· == zero) = rest) :
    (List.replicate count zero ++ rest).dropWhile (· == zero) = rest := by
  rw [List.dropWhile_append_of_pos (by simp), bare]

private theorem takeWhile_zeros_append (count : Nat) (bare : rest.dropWhile (· == zero) = rest) :
    (List.replicate count zero ++ rest).takeWhile (· == zero) = List.replicate count zero := by
  have dropped := dropWhile_zeros_append count bare
  generalize List.replicate count zero = zeros at dropped ⊢
  have parts : (zeros ++ rest).takeWhile (· == zero) ++ (zeros ++ rest).dropWhile (· == zero) =
      zeros ++ rest := List.takeWhile_append_dropWhile
  rw [dropped] at parts
  exact List.append_cancel_right parts

theorem takeWhile_zeros_eq (items : List α) : items.takeWhile (· == zero) =
    List.replicate (items.takeWhile (· == zero)).length zero := by
  apply List.eq_replicate_of_mem
  intro item member
  simpa using List.all_eq_true.mp List.all_takeWhile item member

end LeadingZeros

/-! ## Digits of a number -/

theorem digitsFrom_eq {count value : Nat} (enough : value < Nat.pow 58 count) :
    digitsFrom count value = Nat.digits 58 value := by
  induction count generalizing value with
  | zero =>
      have none : value = 0 := Nat.lt_one_iff.mp enough
      rw [none]
      rfl
  | succ count ih =>
      by_cases zero : value = 0
      · rw [zero]
        rfl
      · have fewer : value / 58 < Nat.pow 58 count := by
          apply Nat.div_lt_of_lt_mul
          rw [Nat.mul_comm]
          exact enough
        have positive : 0 < value := Nat.pos_of_ne_zero zero
        rw [digitsFrom, if_neg zero, ih fewer, Nat.digits_def' (by decide) positive]

/-- Two digits hold more than a byte. -/
private theorem lt_pow_widthOf (value : Nat) : value < Nat.pow 58 (2 * Bytes.widthOf value) := by
  have below := Bytes.lt_capacity_widthOf value
  rw [Bytes.capacity_eq_pow] at below
  apply Nat.lt_of_lt_of_le below
  have byte : Nat.pow 2 (8 * Bytes.widthOf value) = Nat.pow 256 (Bytes.widthOf value) :=
    Nat.pow_mul 2 8 _
  have pair : Nat.pow 58 (2 * Bytes.widthOf value) = Nat.pow 3364 (Bytes.widthOf value) :=
    Nat.pow_mul 58 2 _
  rw [byte, pair]
  exact Nat.pow_le_pow_left (by decide) _

theorem digits_eq (value : Nat) : digits value = (Nat.digits 58 value).reverse := by
  rw [digits, digitsFrom_eq (lt_pow_widthOf value)]

theorem ofDigits_eq (values : List Nat) : ofDigits values = Nat.ofDigits 58 values.reverse := by
  rw [Nat.ofDigits_eq_foldr, List.foldr_reverse, ofDigits]
  congr 1
  funext total value
  rw [Nat.cast_id, Nat.add_comm]

private theorem lt_of_mem_digits {value digit : Nat} (member : digit ∈ digits value) :
    digit < 58 := by
  rw [digits_eq, List.mem_reverse] at member
  exact Nat.digits_lt_base (by decide) member

private theorem ofDigits_digits (value : Nat) : ofDigits (digits value) = value := by
  rw [ofDigits_eq, digits_eq, List.reverse_reverse, Nat.ofDigits_digits]

private theorem ofDigits_dropWhile (values : List Nat) :
    ofDigits (values.dropWhile (· == 0)) = ofDigits values := by
  induction values with
  | nil => rfl
  | cons value rest ih =>
      by_cases zero : value = 0
      · subst zero
        rw [List.dropWhile_cons_of_pos (by decide), ih]
        rfl
      · rw [List.dropWhile_cons_of_neg (by simpa using zero)]

private theorem digits_ofDigits {values : List Nat} (below : ∀ value ∈ values, value < 58) :
    digits (ofDigits values) = values.dropWhile (· == 0) := by
  have bare : ∀ nonempty : (values.dropWhile (· == 0)).reverse ≠ [],
      (values.dropWhile (· == 0)).reverse.getLast nonempty ≠ 0 := by
    intro nonempty
    have first := List.head_dropWhile_not (· == 0) (mt List.reverse_eq_nil_iff.mpr nonempty)
    rw [List.getLast_reverse]
    simpa using first
  have belowStill : ∀ value ∈ (values.dropWhile (· == 0)).reverse, value < 58 := by
    intro value member
    rw [List.mem_reverse] at member
    exact below value ((List.dropWhile_sublist _).subset member)
  rw [← ofDigits_dropWhile, digits_eq, ofDigits_eq,
    Nat.digits_ofDigits 58 (by decide) _ belowStill bare, List.reverse_reverse]

private theorem dropWhile_digits (value : Nat) :
    (digits value).dropWhile (· == 0) = digits value := by
  rw [← digits_ofDigits fun _ => lt_of_mem_digits, ofDigits_digits]

/-! ## Bytes and digits -/

/-- The digits of a byte string, with its leading zeros. -/
def digitsOfBytes (bytes : Bytes) : List Nat :=
  List.replicate (bytes.takeWhile (· == 0)).length 0 ++ digits bytes.toNatBE

/-- The byte string that digits spell. -/
def bytesOfDigits (values : List Nat) : Bytes :=
  List.replicate (values.takeWhile (· == 0)).length 0 ++ Bytes.ofNatBEShortest (ofDigits values)

private theorem lt_of_mem_digitsOfBytes {bytes : Bytes} {value : Nat}
    (member : value ∈ digitsOfBytes bytes) : value < 58 := by
  rcases List.mem_append.mp member with zero | digit
  · rw [List.eq_of_mem_replicate zero]
    decide
  · exact lt_of_mem_digits digit

private theorem bytesOfDigits_digitsOfBytes (bytes : Bytes) :
    bytesOfDigits (digitsOfBytes bytes) = bytes := by
  have bare := dropWhile_digits bytes.toNatBE
  have zeros := takeWhile_zeros_append (bytes.takeWhile (· == 0)).length bare
  have number : ofDigits (digitsOfBytes bytes) = bytes.toNatBE := by
    rw [← ofDigits_dropWhile, digitsOfBytes, dropWhile_zeros_append _ bare, ofDigits_digits]
  rw [bytesOfDigits, number, digitsOfBytes, zeros, List.length_replicate,
    Bytes.ofNatBEShortest_toNatBE, ← takeWhile_zeros_eq, List.takeWhile_append_dropWhile]

private theorem digitsOfBytes_bytesOfDigits {values : List Nat}
    (below : ∀ value ∈ values, value < 58) :
    digitsOfBytes (bytesOfDigits values) = values := by
  have bare := Bytes.dropWhile_ofNatBEShortest (ofDigits values)
  have zeros := takeWhile_zeros_append (values.takeWhile (· == 0)).length bare
  have number : (bytesOfDigits values).toNatBE = ofDigits values := by
    rw [← Bytes.toNatBE_dropWhile, bytesOfDigits, dropWhile_zeros_append _ bare,
      Bytes.toNatBE_ofNatBEShortest]
  rw [digitsOfBytes, number, bytesOfDigits, zeros, List.length_replicate,
    digits_ofDigits below, ← takeWhile_zeros_eq, List.takeWhile_append_dropWhile]

/-! ## Texts -/

private theorem digitValue?_digitChar :
    ∀ value < 58, digitValue? (digitChar value) = some value ∧ (digitChar value).toNat ≤ 127 := by
  decide

private theorem digitValue?_eq_some {c : Char} {value : Nat} (found : digitValue? c = some value) :
    value < 58 ∧ c = digitChar value := by
  obtain ⟨inside, same, -⟩ := List.findIdx?_eq_some_iff_getElem.mp found
  refine ⟨inside, ?_⟩
  rw [digitChar, List.getD_eq_getElem?_getD, List.getElem?_eq_getElem inside, Option.getD_some]
  exact (eq_of_beq same).symm

/-- The characters that are read as digits are the characters of the digits. -/
theorem readDigits_eq_ok_iff {chars : List Char} {values : List Nat} {position : Nat} :
    readDigits position chars = .ok values ↔
      chars = values.map digitChar ∧ ∀ value ∈ values, value < 58 := by
  induction chars generalizing position values with
  | nil =>
      constructor
      · intro read
        cases read
        exact ⟨rfl, nofun⟩
      · rintro ⟨none, -⟩
        rw [List.map_eq_nil_iff.mp none.symm]
        rfl
  | cons c rest ih =>
      constructor
      · intro read
        rw [readDigits] at read
        split at read
        · cases read
        · split at read
          · next value found =>
              obtain ⟨values, later, rfl⟩ := map_eq_ok_iff.mp read
              obtain ⟨below, rfl⟩ := digitValue?_eq_some found
              obtain ⟨rfl, all⟩ := ih.mp later
              exact ⟨rfl, List.forall_mem_cons.mpr ⟨below, all⟩⟩
          · cases read
      · rintro ⟨spelled, all⟩
        cases values with
        | nil => cases spelled
        | cons value values =>
            obtain ⟨rfl, rfl⟩ := List.cons.inj spelled
            obtain ⟨below, later⟩ := List.forall_mem_cons.mp all
            obtain ⟨known, ascii⟩ := digitValue?_digitChar value below
            rw [readDigits, if_neg (Nat.not_lt.mpr ascii), known]
            exact map_eq_ok_iff.mpr ⟨values, ih.mpr ⟨rfl, later⟩, rfl⟩

private theorem toList_encode (bytes : Bytes) :
    (encode bytes).toList = (digitsOfBytes bytes).map digitChar := by
  rw [encode, String.toList_ofList, digitsOfBytes, List.map_append, List.map_replicate,
    List.map_const']
  rfl

theorem decode_eq (text : String) :
    decode text = (readDigits 0 text.toList).map bytesOfDigits := by
  simp only [decode, List.map_const']
  rfl

/-- Each byte string has one text, and each text that is accepted is the text of its bytes. -/
theorem decode_eq_ok_iff {text : String} {bytes : Bytes} :
    decode text = .ok bytes ↔ text = encode bytes := by
  rw [decode_eq, map_eq_ok_iff]
  constructor
  · rintro ⟨values, read, rfl⟩
    obtain ⟨spelled, below⟩ := readDigits_eq_ok_iff.mp read
    apply String.toList_inj.mp
    rw [toList_encode, digitsOfBytes_bytesOfDigits below, spelled]
  · rintro rfl
    refine ⟨digitsOfBytes bytes, ?_, bytesOfDigits_digitsOfBytes bytes⟩
    exact readDigits_eq_ok_iff.mpr ⟨toList_encode bytes, fun _ => lt_of_mem_digitsOfBytes⟩

/-! ## Checksums -/

private theorem length_checksum (payload : Bytes) : (checksum payload).length = 4 := by
  rw [checksum, List.length_take, Digest.length_hash256]
  rfl

/-- Each payload has one checked text, and no other text is accepted for it. -/
theorem decodeChecked_eq_ok_iff {text : String} {payload : Bytes} :
    decodeChecked text = .ok payload ↔ text = encodeChecked payload := by
  rw [encodeChecked, ← decode_eq_ok_iff, decodeChecked]
  cases decoded : decode text with
  | error cause => exact ⟨nofun, nofun⟩
  | ok bytes =>
      rw [Except.ok.injEq]
      constructor
      · intro read
        dsimp only at read
        split at read
        · cases read
        · split at read
          · next sealed =>
              cases read
              rw [← sealed, List.take_append_drop]
          · cases read
      · rintro rfl
        have length : (payload ++ checksum payload).length - 4 = payload.length := by
          rw [List.length_append, length_checksum, Nat.add_sub_cancel]
        have long : ¬(payload ++ checksum payload).length < 4 := by
          rw [List.length_append, length_checksum]
          omega
        simp only [if_neg long, length, List.take_left, List.drop_left, if_true]

end BitcoinSpend.Base58
