import BitcoinSpend.Proofs.ExceptProperties
import BitcoinSpend.Proofs.ShortestNumber
import BitcoinSpend.Spend.SignatureCheck

/-!
# Strict signatures

The layout that the checks of a signature's bytes amount to: two numbers in shortest
non-negative form, each after its tag and length, in a frame that is exactly as long
as it says. The checks read the bytes by position; here they are put together again.
-/

set_option autoImplicit false

namespace BitcoinSpend.Spend

/-- A big-endian number that is not negative and has no needless zero in front. -/
def IsShortest (number : Bytes) : Prop :=
  ∃ first rest, number = first :: rest ∧ first < 0x80 ∧
    (first = 0 → ∀ second ∈ rest.head?, 0x80 ≤ second)

/-- Two numbers in the frame of a signature. -/
def signatureFrame (r s : Bytes) : Bytes :=
  0x30 :: UInt8.ofNat (4 + r.length + s.length) :: 0x02 :: UInt8.ofNat r.length ::
    (r ++ 0x02 :: UInt8.ofNat s.length :: s)

/-- The bytes are a signature in strict form, with a low `s` if that is asked for. -/
def IsStrict (lowS : Bool) (bytes : Bytes) : Prop :=
  ∃ r s, bytes = signatureFrame r s ∧ 8 ≤ bytes.length ∧ bytes.length ≤ 72 ∧
    IsShortest r ∧ IsShortest s ∧ (lowS = true → s.toNatBE ≤ Curve.halfOrder)

theorem IsStrict.length_le {lowS : Bool} {bytes : Bytes} (strict : IsStrict lowS bytes) :
    bytes.length ≤ 72 := by
  obtain ⟨r, s, -, -, bound, -⟩ := strict
  exact bound

/-! ## Guards that let a check go on -/

theorem refuse_eq_ok_iff {condition : Bool} {fault : Fault} {done : Unit} :
    (refuse condition fault : Except Fault Unit) = .ok done ↔ condition = false := by
  cases condition with
  | true => exact ⟨nofun, nofun⟩
  | false => exact ⟨fun _ => rfl, fun _ => rfl⟩

theorem itemAt_eq_ok_iff {α : Type} {items : List α} {index : Nat} {item : α} :
    itemAt items index = .ok item ↔ items[index]? = some item := by
  refine ⟨getElem?_of_itemAt, fun found => ?_⟩
  simp only [itemAt, found]

theorem difference_eq_ok_iff {left right result : Nat} :
    difference left right = .ok result ↔ right ≤ left ∧ left - right = result := by
  simp only [difference]
  split
  · next ordered => simp [ordered]
  · next unordered => simp [unordered]

theorem suffixFrom_eq_ok_iff {α : Type} {items suffix : List α} {start : Nat} :
    suffixFrom items start = .ok suffix ↔ start ≤ items.length ∧ items.drop start = suffix := by
  simp only [suffixFrom]
  split
  · next inside => simp [inside]
  · next outside => simp [outside]

/-! ## Numbers -/

theorem highBit_eq_zero_iff (byte : UInt8) : byte &&& 0x80 = 0 ↔ byte < 0x80 := by
  have all : ∀ bits : BitVec 8, bits &&& 0x80 = 0 ↔ bits < 0x80 := by decide
  exact (UInt8.toBitVec_inj.symm.trans (all byte.toBitVec)).trans UInt8.lt_iff_toBitVec_lt.symm

/-- A zero in front is refused unless the byte after it would be a sign without it. -/
theorem unpadded_eq_ok_iff {part : SignaturePart} {bytes rest later : Bytes} {first : UInt8}
    {offset : Nat} {done : Unit} (there : bytes.drop offset = first :: rest ++ later) :
    (if 1 < (first :: rest).length ∧ first = 0 then (do
        let second ← itemAt bytes (offset + 1)
        refuse (second &&& 0x80 = 0) (.layout (.padded part)) : Except Fault Unit)
      else .ok ()) = .ok done ↔ (first = 0 → ∀ second ∈ rest.head?, 0x80 ≤ second) := by
  cases rest with
  | nil => simp
  | cons second rest =>
      have isSecond : itemAt bytes (offset + 1) = .ok second := by
        rw [itemAt_eq_ok_iff, ← List.getElem?_drop, there]
        rfl
      by_cases zero : first = 0
      · rw [if_pos ⟨by simp, zero⟩, isSecond]
        have high := highBit_eq_zero_iff second
        simp only [bind, Except.bind, refuse_eq_ok_iff, decide_eq_false_iff_not, high, zero,
          forall_const, List.head?_cons, Option.mem_some_iff, forall_eq', UInt8.not_lt]
      · simp [zero]

theorem checkNumber_eq_ok_iff {part : SignaturePart} {bytes number later : Bytes}
    {marker offset : Nat} {done : Unit} (there : bytes.drop offset = number ++ later) :
    checkNumber part bytes marker offset number.length = .ok done ↔
      bytes[marker]? = some 0x02 ∧ IsShortest number := by
  simp only [checkNumber, bind_eq_ok_iff, refuse_eq_ok_iff, itemAt_eq_ok_iff]
  cases number with
  | nil =>
      constructor
      · rintro ⟨_, _, _, _, _, nonempty, _⟩
        simp at nonempty
      · rintro ⟨_, first, rest, same, _⟩
        cases same
  | cons first rest =>
      have isFirst : bytes[offset]? = some first := by
        rw [← Nat.add_zero offset, ← List.getElem?_drop, there]
        rfl
      constructor
      · rintro ⟨tag, tagged, _, isTag, _, _, head, isHead, _, nonnegative, unpadded⟩
        cases isFirst.symm.trans isHead
        exact ⟨by simpa [tagged] using isTag, first, rest, rfl,
          (highBit_eq_zero_iff first).mp (by simpa using nonnegative),
          (unpadded_eq_ok_iff there).mp unpadded⟩
      · rintro ⟨tagged, head, tail, same, positive, unpadded⟩
        cases same
        exact ⟨0x02, tagged, (), rfl, (), by simp, first, isFirst, (),
          by simpa using (highBit_eq_zero_iff first).mpr positive,
          (unpadded_eq_ok_iff there).mpr unpadded⟩

private theorem toNatBE_halfOrderBytes : halfOrderBytes.toNatBE = Curve.halfOrder := by decide

private theorem widthOf_halfOrder : Bytes.widthOf Curve.halfOrder = halfOrderBytes.length := by
  rw [← toNatBE_halfOrderBytes, ← Bytes.length_ofNatBEShortest, Bytes.ofNatBEShortest_toNatBE]
  rfl

/-- Lengths decide first, and bytes between numbers of one length. -/
theorem isHighS_eq_false_iff {number : Bytes} :
    isHighS number = false ↔ number.toNatBE ≤ Curve.halfOrder := by
  have value := Bytes.toNatBE_dropWhile number
  have width : (number.dropWhile (· == 0)).length = Bytes.widthOf number.toNatBE := by
    rw [← Bytes.ofNatBEShortest_toNatBE, Bytes.length_ofNatBEShortest]
  simp only [isHighS]
  generalize number.dropWhile (· == 0) = digits at value width ⊢
  split
  · next long =>
      rw [width] at long
      have above := Bytes.toNatBE_lt_of_widthOf long
      rw [toNatBE_halfOrderBytes] at above
      exact ⟨nofun, fun below => absurd above (Nat.not_lt.mpr below)⟩
  · next notLong =>
      split
      · next short =>
          rw [← widthOf_halfOrder] at short
          have below := Bytes.toNatBE_lt_of_widthOf short
          rw [value] at below
          exact ⟨fun _ => Nat.le_of_lt below, fun _ => rfl⟩
      · next notShort =>
          have same : halfOrderBytes.length = digits.length := by omega
          rw [← Bool.not_eq_true, Bytes.lex_iff_toNatBE_lt same, toNatBE_halfOrderBytes, value,
            Nat.not_lt]

/-! ## The frame -/

theorem length_signatureFrame (r s : Bytes) :
    (signatureFrame r s).length = 6 + r.length + s.length := by
  simp only [signatureFrame, List.length_cons, List.length_append]
  omega

private theorem drop_signatureFrame (r s : Bytes) :
    (signatureFrame r s).drop (4 + r.length + 2) = s := by
  have afterR : (signatureFrame r s).drop 4 = r ++ 0x02 :: UInt8.ofNat s.length :: s := rfl
  rw [Nat.add_assoc, ← List.drop_drop, afterR, List.drop_append]
  simp

/-- The tag and the length of the second number. -/
private theorem getElem?_signatureFrame (r s : Bytes) :
    (signatureFrame r s)[4 + r.length]? = some 0x02 ∧
      (signatureFrame r s)[4 + r.length + 1]? = some (UInt8.ofNat s.length) := by
  have afterR : (signatureFrame r s).drop 4 = r ++ 0x02 :: UInt8.ofNat s.length :: s := rfl
  rw [Nat.add_assoc, ← List.getElem?_drop, ← List.getElem?_drop, afterR,
    List.getElem?_append_right (Nat.le_refl _), List.getElem?_append_right (by omega)]
  simp

/-- The two numbers of a frame, by the length of the first. -/
def partR (bytes : Bytes) (lengthR : UInt8) : Bytes :=
  (bytes.drop 4).take lengthR.toNat

def partS (bytes : Bytes) (lengthR : UInt8) : Bytes :=
  bytes.drop (4 + lengthR.toNat + 2)

/-- A frame is known by the bytes at the places where the checks read it. -/
private theorem eq_signatureFrame {bytes : Bytes} {announced lengthR lengthS : UInt8}
    (total : 4 + lengthR.toNat + 2 + lengthS.toNat = bytes.length)
    (announces : announced.toNat = bytes.length - 2) (tag : bytes[0]? = some 0x30)
    (frame : bytes[1]? = some announced) (tagR : bytes[2]? = some 0x02)
    (countR : bytes[3]? = some lengthR) (tagS : bytes[4 + lengthR.toNat]? = some 0x02)
    (countS : bytes[4 + lengthR.toNat + 1]? = some lengthS) :
    bytes = signatureFrame (partR bytes lengthR) (partS bytes lengthR) := by
  obtain _ | ⟨first, _ | ⟨second, _ | ⟨third, _ | ⟨fourth, body⟩⟩⟩⟩ := bytes
  · cases tag
  · cases frame
  · cases tagR
  · cases countR
  · cases tag
    cases frame
    cases tagR
    cases countR
    simp only [List.length_cons] at total announces
    have tagged : body[lengthR.toNat]? = some 0x02 := by
      simpa [Nat.add_comm 4] using tagS
    have counted : body[lengthR.toNat + 1]? = some lengthS := by
      simpa [Nat.add_comm 4, Nat.add_right_comm] using countS
    have isR : partR (0x30 :: announced :: 0x02 :: lengthR :: body) lengthR =
        body.take lengthR.toNat := rfl
    have isS : partS (0x30 :: announced :: 0x02 :: lengthR :: body) lengthR =
        body.drop (lengthR.toNat + 2) := by
      simp [partS, Nat.add_comm 4, Nat.add_right_comm]
    have sizeR : (body.take lengthR.toNat).length = lengthR.toNat :=
      List.length_take_of_le (by omega)
    have sizeS : (body.drop (lengthR.toNat + 2)).length = lengthS.toNat := by
      rw [List.length_drop]
      omega
    have whole : 4 + lengthR.toNat + lengthS.toNat = announced.toNat := by omega
    have split : body.take lengthR.toNat ++ 0x02 :: lengthS :: body.drop (lengthR.toNat + 2) =
        body := by
      conv => rhs; rw [← List.take_append_drop lengthR.toNat body,
        List.drop_eq_getElem?_toList_append, List.drop_eq_getElem?_toList_append, tagged, counted]
      rfl
    rw [isR, isS, signatureFrame, sizeR, sizeS, whole, UInt8.ofNat_toNat, UInt8.ofNat_toNat,
      UInt8.ofNat_toNat, split]

private theorem isStrict_of_checkLayout {lowS : Bool} {bytes : Bytes}
    (accepted : checkLayout lowS bytes = .ok ()) : IsStrict lowS bytes := by
  simp only [checkLayout, bind_eq_ok_iff, refuse_eq_ok_iff, itemAt_eq_ok_iff,
    difference_eq_ok_iff] at accepted
  obtain ⟨_, notShort, _, notLong, tag, hasTag, _, isTag, announced, frame, actual, ⟨_, rfl⟩, _,
    announces, lengthR, countR, _, _, _, _, lengthS, countS, _, fits, _, goodR, _, goodS, low⟩ :=
      accepted
  have total : 4 + lengthR.toNat + 2 + lengthS.toNat = bytes.length := by simpa using fits
  have sizeR : (partR bytes lengthR).length = lengthR.toNat :=
    List.length_take_of_le (by rw [List.length_drop]; omega)
  have sizeS : (partS bytes lengthR).length = lengthS.toNat := by
    rw [partS, List.length_drop]
    omega
  have isR : bytes.drop 4 = partR bytes lengthR ++ (bytes.drop 4).drop lengthR.toNat :=
    (List.take_append_drop _ _).symm
  have isS : bytes.drop (4 + lengthR.toNat + 2) = partS bytes lengthR ++ [] :=
    (List.append_nil _).symm
  rw [← sizeR, checkNumber_eq_ok_iff isR] at goodR
  rw [← sizeS, checkNumber_eq_ok_iff isS] at goodS
  refine ⟨partR bytes lengthR, partS bytes lengthR, ?_, ?_, ?_, goodR.2, goodS.2, ?_⟩
  · have same : tag = 0x30 := by simpa using isTag
    subst same
    exact eq_signatureFrame total (by simpa using announces) hasTag frame goodR.1 countR goodS.1
      countS
  · simpa using notShort
  · simpa using notLong
  · rintro rfl
    obtain ⟨s, isS, notHigh⟩ := bind_eq_ok_iff.mp low
    obtain ⟨_, rfl⟩ := suffixFrom_eq_ok_iff.mp isS
    exact isHighS_eq_false_iff.mp (refuse_eq_ok_iff.mp notHigh)

private theorem checkLayout_of_isStrict {lowS : Bool} {bytes : Bytes}
    (strict : IsStrict lowS bytes) :
    checkLayout lowS bytes = .ok () := by
  obtain ⟨r, s, rfl, notShort, notLong, goodR, goodS, low⟩ := strict
  have length := length_signatureFrame r s
  have announced : (UInt8.ofNat (4 + r.length + s.length)).toNat = 4 + r.length + s.length :=
    UInt8.toNat_ofNat_of_lt' (show _ < 256 by omega)
  have lengthR : (UInt8.ofNat r.length).toNat = r.length :=
    UInt8.toNat_ofNat_of_lt' (show _ < 256 by omega)
  have lengthS : (UInt8.ofNat s.length).toNat = s.length :=
    UInt8.toNat_ofNat_of_lt' (show _ < 256 by omega)
  have isS : (signatureFrame r s).drop (4 + r.length + 2) = s ++ [] := by
    rw [drop_signatureFrame, List.append_nil]
  obtain ⟨tagS, countS⟩ := getElem?_signatureFrame r s
  simp only [checkLayout, bind_eq_ok_iff, refuse_eq_ok_iff, itemAt_eq_ok_iff, difference_eq_ok_iff]
  refine ⟨(), by simpa using notShort, (), by simpa using notLong, 0x30, rfl, (), rfl, _, rfl,
    _, ⟨by omega, rfl⟩, (), ?_, UInt8.ofNat r.length, rfl, ?_⟩
  · simp only [announced, length, bne_eq_false_iff_eq]
    omega
  rw [lengthR]
  refine ⟨(), ?_, (), ?_, UInt8.ofNat s.length, countS, ?_⟩
  · simp only [length, decide_eq_false_iff_not]
    omega
  · simp only [length, decide_eq_false_iff_not]
    omega
  rw [lengthS]
  refine ⟨(), ?_, (), (checkNumber_eq_ok_iff rfl).mpr ⟨rfl, goodR⟩, (),
    (checkNumber_eq_ok_iff isS).mpr ⟨tagS, goodS⟩, ?_⟩
  · simp only [length, bne_eq_false_iff_eq]
    omega
  · split
    · next asked =>
        have inside : 4 + r.length + 2 ≤ (signatureFrame r s).length := by omega
        exact bind_eq_ok_iff.mpr ⟨s, suffixFrom_eq_ok_iff.mpr ⟨inside, drop_signatureFrame r s⟩,
          refuse_eq_ok_iff.mpr (isHighS_eq_false_iff.mpr (low asked))⟩
    · rfl

/-- The checks of a signature's bytes accept the strict form and nothing else. -/
theorem checkLayout_eq_ok_iff {lowS : Bool} {bytes : Bytes} :
    checkLayout lowS bytes = .ok () ↔ IsStrict lowS bytes :=
  ⟨isStrict_of_checkLayout, checkLayout_of_isStrict⟩

/-! ## Checks that flags ask for -/

/-- Whether a flag asks for the strict layout of signatures. -/
def Flags.asksForLayout (flags : Flags) : Bool :=
  flags.hasAny [Flags.derSignatures, Flags.lowS, Flags.strictEncoding]

theorem Flags.asksForLayout_of_strictEncoding {flags : Flags}
    (strict : flags.has Flags.strictEncoding = true) : flags.asksForLayout = true := by
  simp [asksForLayout, hasAny, strict]

theorem Flags.asksForLayout_of_lowS {flags : Flags} (low : flags.has Flags.lowS = true) :
    flags.asksForLayout = true := by
  simp [asksForLayout, hasAny, low]

theorem checkSignatureEncoding_eq_ok_iff {flags : Flags} (asked : flags.asksForLayout = true)
    {bytes : Bytes} :
    checkSignatureEncoding flags bytes = .ok () ↔
      bytes = [] ∨ IsStrict (flags.has Flags.lowS) bytes := by
  rw [Flags.asksForLayout] at asked
  cases bytes with
  | nil => simp [checkSignatureEncoding]
  | cons byte rest => simp [checkSignatureEncoding, asked, checkLayout_eq_ok_iff]

theorem checkSignatureEncoding_of_notAsked {flags : Flags} (free : flags.asksForLayout = false)
    (bytes : Bytes) : checkSignatureEncoding flags bytes = .ok () := by
  rw [Flags.asksForLayout] at free
  simp [checkSignatureEncoding, free]

end BitcoinSpend.Spend
