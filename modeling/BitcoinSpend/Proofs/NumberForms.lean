import BitcoinSpend.Proofs.NumberSizes

/-!
# Forms of script numbers

A number has many forms and one that is shortest. Writing gives the shortest form,
moving the sign down over zero bytes gives it as well, and the test of the last two
bytes finds out whether a form is it.
-/

set_option autoImplicit false

namespace BitcoinSpend.ScriptNumber

/-! ## Signs of bytes -/

theorem signBit_cases (byte : UInt8) : signBit byte = 0 ∨ signBit byte = 0x80 := by
  have all : ∀ bits : BitVec 8, bits &&& 0x80 = 0 ∨ bits &&& 0x80 = 0x80 := by decide
  rcases all byte.toBitVec with clear | set
  · exact Or.inl (UInt8.toBitVec_inj.mp clear)
  · exact Or.inr (UInt8.toBitVec_inj.mp set)

private theorem signBit_magnitudeBits (byte : UInt8) : signBit (magnitudeBits byte) = 0 := by
  have all : ∀ bits : BitVec 8, bits &&& 0x7f &&& 0x80 = 0 := by decide
  exact UInt8.toBitVec_inj.mp (all byte.toBitVec)

private theorem magnitudeBits_or_signBit (byte : UInt8) :
    magnitudeBits byte ||| signBit byte = byte := by
  have all : ∀ bits : BitVec 8, bits &&& 0x7f ||| bits &&& 0x80 = bits := by decide
  exact UInt8.toBitVec_inj.mp (all byte.toBitVec)

/-- A byte with room for a sign keeps its magnitude when it gets one. -/
private theorem bits_or_sign {top sign : UInt8} (room : signBit top = 0)
    (isSign : sign = 0 ∨ sign = 0x80) :
    magnitudeBits (top ||| sign) = top ∧ signBit (top ||| sign) = sign := by
  have all : ∀ bits : BitVec 8, bits &&& 0x80 = 0 →
      ((bits ||| 0) &&& 0x7f = bits ∧ (bits ||| 0) &&& 0x80 = 0) ∧
        (bits ||| 0x80) &&& 0x7f = bits ∧ (bits ||| 0x80) &&& 0x80 = 0x80 := by decide
  obtain ⟨clear, set⟩ := all top.toBitVec (UInt8.toBitVec_inj.mpr room)
  rcases isSign with rfl | rfl
  · exact ⟨UInt8.toBitVec_inj.mp clear.1, UInt8.toBitVec_inj.mp clear.2⟩
  · exact ⟨UInt8.toBitVec_inj.mp set.1, UInt8.toBitVec_inj.mp set.2⟩

/-! ## Magnitudes with a sign -/

/-- The number of a magnitude and a sign bit. -/
def signedValue (sign : UInt8) (magnitude : Nat) : Int :=
  if sign = 0 then magnitude else -magnitude

/-- A magnitude with its sign in the top bit, or in a byte of its own where that bit is taken. -/
def signedForm (sign : UInt8) (magnitude : Bytes) : Bytes :=
  match magnitude.getLast? with
  | none => []
  | some top =>
      if signBit top = 0 then magnitude.dropLast ++ [top ||| sign] else magnitude ++ [sign]

private theorem signedForm_concat (sign : UInt8) (rest : Bytes) (top : UInt8) :
    signedForm sign (rest ++ [top]) =
      if signBit top = 0 then rest ++ [top ||| sign] else rest ++ [top] ++ [sign] := by
  simp only [signedForm, List.getLast?_concat, List.dropLast_concat]

private theorem natAbs_signedValue (sign : UInt8) (magnitude : Nat) :
    (signedValue sign magnitude).natAbs = magnitude := by
  rw [signedValue]
  split
  · exact Int.natAbs_natCast magnitude
  · rw [Int.natAbs_neg, Int.natAbs_natCast]

theorem signedValue_neg_iff {sign : UInt8} {magnitude : Nat} (positive : 0 < magnitude) :
    signedValue sign magnitude < 0 ↔ sign ≠ 0 := by
  rw [signedValue]
  split
  · next clear => simp [clear]
  · next set => simp [set, positive]

theorem decode_concat (rest : Bytes) (last : UInt8) :
    decode (rest ++ [last]) =
      signedValue (signBit last) (Bytes.toNatLE (rest ++ [magnitudeBits last])) := by
  simp only [decode, List.getLast?_concat, List.dropLast_concat, signedValue, Int.ofNat_eq_natCast]

theorem toNatLE_concat_zero (bytes : Bytes) :
    Bytes.toNatLE (bytes ++ [0]) = Bytes.toNatLE bytes := by
  simp [Bytes.toNatLE_append, Bytes.toNatLE]

private theorem decode_signedForm {sign : UInt8} (isSign : sign = 0 ∨ sign = 0x80)
    (magnitude : Bytes) :
    decode (signedForm sign magnitude) = signedValue sign (Bytes.toNatLE magnitude) := by
  rcases List.eq_nil_or_concat magnitude with rfl | ⟨rest, top, rfl⟩
  · rcases isSign with rfl | rfl <;> rfl
  · rw [List.concat_eq_append, signedForm_concat]
    split
    · next room =>
        obtain ⟨magnitude, marked⟩ := bits_or_sign room isSign
        rw [decode_concat, magnitude, marked]
    · have room : signBit 0 = 0 := by decide
      obtain ⟨magnitude, marked⟩ := bits_or_sign room isSign
      rw [UInt8.zero_or] at magnitude marked
      rw [decode_concat, magnitude, marked, toNatLE_concat_zero]

/-! ## Shortest forms -/

theorem encode_eq (value : Int) :
    encode value =
      signedForm (if value < 0 then 0x80 else 0) (Bytes.ofNatLEShortest value.natAbs) := rfl

theorem decode_encode (value : Int) : decode (encode value) = value := by
  rw [encode_eq, decode_signedForm (by split <;> simp), Bytes.toNatLE_ofNatLEShortest, signedValue]
  by_cases negative : value < 0
  · rw [if_pos negative, if_neg (by decide)]
    omega
  · rw [if_neg negative, if_pos rfl]
    omega

/-- The minimiser puts the sign on the magnitude without its zeros at the end. -/
private theorem minimize_concat (rest : Bytes) (last : UInt8) :
    minimize (rest ++ [last]) =
      signedForm (signBit last)
        (Bytes.ofNatLEShortest (Bytes.toNatLE (rest ++ [magnitudeBits last]))) := by
  simp only [Bytes.ofNatLEShortest_toNatLE, minimize, List.reverse_append, List.reverse_singleton,
    List.singleton_append]
  by_cases zero : magnitudeBits last = 0
  · rw [if_neg fun nonzero => nonzero zero, zero, List.dropWhile_cons_of_pos (by decide)]
    cases rest.reverse.dropWhile (· == 0) with
    | nil => rfl
    | cons top below =>
        rw [List.reverse_cons, signedForm_concat]
        simp only [List.append_assoc, List.cons_append, List.nil_append]
  · have room := signBit_magnitudeBits last
    rw [if_pos zero, List.dropWhile_cons_of_neg (by simpa using zero), List.reverse_cons,
      List.reverse_reverse, signedForm_concat, if_pos room, magnitudeBits_or_signBit]

theorem encode_decode (bytes : Bytes) : encode (decode bytes) = minimize bytes := by
  rcases List.eq_nil_or_concat bytes with rfl | ⟨rest, last, rfl⟩
  · rfl
  · rw [List.concat_eq_append, minimize_concat, encode_eq, decode_concat, natAbs_signedValue]
    generalize Bytes.toNatLE (rest ++ [magnitudeBits last]) = magnitude
    -- Zero loses its sign: it has no byte to stand in.
    cases magnitude with
    | zero => rfl
    | succ magnitude =>
        have negative : signedValue (signBit last) (magnitude + 1) < 0 ↔ signBit last ≠ 0 :=
          signedValue_neg_iff (Nat.succ_pos magnitude)
        rcases signBit_cases last with clear | set
        · rw [if_neg fun below => negative.mp below clear, clear]
        · rw [if_pos (negative.mpr (by rw [set]; decide)), set]

theorem decode_minimize (bytes : Bytes) : decode (minimize bytes) = decode bytes := by
  rw [← encode_decode, decode_encode]

/-! ## The test of the last bytes -/

/-- A last byte without magnitude is its sign bit. -/
private theorem signBit_of_bare {byte : UInt8} (bare : magnitudeBits byte = 0) :
    signBit byte = byte := by
  have whole := magnitudeBits_or_signBit byte
  rwa [bare, UInt8.zero_or] at whole

private theorem minimize_of_isMinimal {bytes : Bytes} (minimal : isMinimal bytes = true) :
    minimize bytes = bytes := by
  obtain ⟨reversed, rfl⟩ : ∃ reversed, bytes = List.reverse reversed :=
    ⟨bytes.reverse, (List.reverse_reverse bytes).symm⟩
  simp only [isMinimal, minimize, List.reverse_reverse] at minimal ⊢
  cases reversed with
  | nil => rfl
  | cons last rest =>
      simp only [Bool.or_eq_true, bne_iff_ne] at minimal
      dsimp only
      by_cases bare : magnitudeBits last = 0
      · rw [if_neg fun held => held bare]
        cases rest with
        | nil => simp [bare] at minimal
        | cons previous below =>
            have taken : signBit previous ≠ 0 := by simpa [bare] using minimal
            have nonzero : ¬(previous == 0) = true := by
              intro zero
              rw [eq_of_beq zero] at taken
              exact taken rfl
            rw [List.dropWhile_cons_of_neg (p := fun byte => byte == 0) nonzero]
            simp only [if_neg taken, signBit_of_bare bare, List.reverse_cons, List.append_assoc,
              List.singleton_append]
      · rw [if_pos bare]

/-- A byte that holds neither magnitude nor the sign of a full byte can be dropped. -/
private theorem length_minimize_lt {bytes : Bytes} (redundant : isMinimal bytes = false) :
    (minimize bytes).length < bytes.length := by
  obtain ⟨reversed, rfl⟩ : ∃ reversed, bytes = List.reverse reversed :=
    ⟨bytes.reverse, (List.reverse_reverse bytes).symm⟩
  simp only [isMinimal, minimize, List.reverse_reverse, List.length_reverse] at redundant ⊢
  cases reversed with
  | nil => cases redundant
  | cons last rest =>
      simp only [Bool.or_eq_false_iff, bne_eq_false_iff_eq] at redundant
      obtain ⟨bare, spare⟩ := redundant
      dsimp only
      rw [if_neg fun held => held bare]
      cases rest with
      | nil => exact Nat.zero_lt_one
      | cons previous below =>
          have room : signBit previous = 0 := by simpa using spare
          by_cases zero : (previous == 0) = true
          · rw [List.dropWhile_cons_of_pos (p := fun byte => byte == 0) zero]
            have shorter := (List.dropWhile_suffix (· == 0) : _ <:+ below).length_le
            cases dropped : below.dropWhile (· == 0) with
            | nil => exact Nat.succ_pos _
            | cons top under =>
                rw [dropped, List.length_cons] at shorter
                dsimp only
                split
                · simp only [List.length_append, List.length_reverse, List.length_cons,
                    List.length_nil]
                  omega
                · simp only [List.length_append, List.length_reverse, List.length_cons,
                    List.length_nil]
                  omega
          · rw [List.dropWhile_cons_of_neg (p := fun byte => byte == 0) zero]
            simp only [if_pos room, List.length_append, List.length_reverse, List.length_cons,
              List.length_nil]
            omega

theorem isMinimal_iff_minimize {bytes : Bytes} :
    isMinimal bytes = true ↔ minimize bytes = bytes := by
  constructor
  · exact minimize_of_isMinimal
  · intro same
    cases tested : isMinimal bytes with
    | true => rfl
    | false =>
        have shorter := length_minimize_lt tested
        rw [same] at shorter
        exact absurd shorter (Nat.lt_irrefl _)

/-- Forms of one number have one shortest form. -/
theorem minimize_eq_of_decode_eq {bytes other : Bytes} (same : decode other = decode bytes) :
    minimize other = minimize bytes := by
  rw [← encode_decode, same, encode_decode]

theorem minimize_iff_shortest {bytes : Bytes} :
    minimize bytes = bytes ↔
      ∀ other, decode other = decode bytes → bytes.length ≤ other.length := by
  constructor
  · intro minimal other same
    have shorter := length_minimize_le other
    rwa [minimize_eq_of_decode_eq same, minimal] at shorter
  · intro shortest
    have long := shortest (minimize bytes) (decode_minimize bytes)
    apply minimize_of_isMinimal
    cases tested : isMinimal bytes with
    | true => rfl
    | false => exact absurd long (Nat.not_le.mpr (length_minimize_lt tested))

/-- A shortest form is the only form of its length. -/
theorem eq_of_minimize_of_length {bytes other : Bytes} (minimal : minimize bytes = bytes)
    (same : decode other = decode bytes) (length : other.length = bytes.length) :
    other = bytes := by
  have form : minimize other = bytes := (minimize_eq_of_decode_eq same).trans minimal
  cases tested : isMinimal other with
  | true => rw [← minimize_of_isMinimal tested, form]
  | false =>
      have shorter := length_minimize_lt tested
      rw [form, length] at shorter
      exact absurd shorter (Nat.lt_irrefl _)

/-! ## Truth -/

theorem signedValue_eq_zero_iff {sign : UInt8} {magnitude : Nat} :
    signedValue sign magnitude = 0 ↔ magnitude = 0 := by
  rw [← Int.natAbs_eq_zero, natAbs_signedValue]

theorem isTrue_iff {bytes : Bytes} : isTrue bytes = true ↔ decode bytes ≠ 0 := by
  rcases List.eq_nil_or_concat bytes with rfl | ⟨rest, last, rfl⟩
  · decide
  · rw [List.concat_eq_append, decode_concat, Ne, signedValue_eq_zero_iff,
      Bytes.toNatLE_eq_zero_iff, ← Bool.not_eq_false]
    apply not_congr
    simp only [isTrue, List.reverse_append, List.reverse_singleton, List.singleton_append,
      List.any_reverse, Bool.or_eq_false_iff, List.any_eq_false, bne_iff_ne, ne_eq,
      Decidable.not_not, bne_eq_false_iff_eq, List.forall_mem_append, List.forall_mem_singleton]

/-- Writing and reading, shortening, the test for the shortest form and the truth of an item agree
with one another on every number and on every form. -/
theorem codec_coherent :
    (∀ value, decode (encode value) = value) ∧
      ∀ bytes,
        encode (decode bytes) = minimize bytes ∧
        (isMinimal bytes = true ↔ minimize bytes = bytes) ∧
        (minimize bytes = bytes ↔
          ∀ other, decode other = decode bytes → bytes.length ≤ other.length) ∧
        (isMinimal bytes = true →
          ∀ other, decode other = decode bytes → other.length = bytes.length → other = bytes) ∧
        (isTrue bytes = true ↔ decode bytes ≠ 0) := by
  refine ⟨decode_encode, fun bytes => ⟨encode_decode bytes, isMinimal_iff_minimize,
    minimize_iff_shortest, ?_, isTrue_iff⟩⟩
  intro minimal other same length
  exact eq_of_minimize_of_length (minimize_of_isMinimal minimal) same length

end BitcoinSpend.ScriptNumber
