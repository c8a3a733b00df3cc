import BitcoinSpend.Proofs.Spend.ShiftedBytes
import BitcoinSpend.Spend.SignatureCheck
import BitcoinSpend.Spend.Splice

/-!
# Accesses in range

The checks and computations that read by position or take differences never do so
out of range, each under what its callers have made sure of. Nothing is assumed
of the layout of a signature.
-/

set_option autoImplicit false

namespace BitcoinSpend.Spend

/-- The failure is not an access out of range. -/
def Fault.InRange (fault : Fault) : Prop :=
  fault ≠ .outOfRange

/-- The computation accesses nothing out of range. -/
def StaysInRange {α : Type} (result : Except Fault α) : Prop :=
  ∀ fault, result = .error fault → fault.InRange

namespace StaysInRange

variable {α β : Type}

theorem ok (value : α) : StaysInRange (.ok value) := by
  intro fault failed
  cases failed

theorem error {fault : Fault} (inRange : fault.InRange) :
    StaysInRange (.error fault : Except Fault α) := by
  intro other failed
  cases failed
  exact inRange

theorem bind {result : Except Fault α} {next : α → Except Fault β} (first : StaysInRange result)
    (rest : ∀ value, result = .ok value → StaysInRange (next value)) :
    StaysInRange (result >>= next) := by
  cases result with
  | ok value => exact rest value rfl
  | error cause => exact error (first cause rfl)

theorem refuse_bind {condition : Bool} {fault : Fault} {next : Unit → Except Fault β}
    (inRange : fault.InRange) (rest : condition = false → StaysInRange (next ())) :
    StaysInRange (refuse condition fault >>= next) := by
  cases condition with
  | true => exact error inRange
  | false => exact rest rfl

theorem refuse {condition : Bool} {fault : Fault} (inRange : fault.InRange) :
    StaysInRange (refuse condition fault) := by
  cases condition with
  | true => exact error inRange
  | false => exact ok ()

theorem difference {left right : Nat} (ordered : right ≤ left) :
    StaysInRange (difference left right) := by
  rw [difference_of_le ordered]
  exact ok _

theorem product {left right : Nat} (word : left * right < UInt64.size) :
    StaysInRange (product left right) := by
  rw [product_of_lt word]
  exact ok _

theorem itemAt {items : List α} {index : Nat} (inside : index < items.length) :
    StaysInRange (itemAt items index) := by
  rw [itemAt_of_lt inside]
  exact ok _

theorem suffixFrom {items : List α} {start : Nat} (inside : start ≤ items.length) :
    StaysInRange (suffixFrom items start) := by
  rw [suffixFrom_of_le inside]
  exact ok _

end StaysInRange

theorem Stack.itemBelow_inRange (stack : Stack) (index : Nat) :
    StaysInRange (stack.itemBelow index) := by
  refine .refuse_bind nofun fun shallow => .itemAt ?_
  simp only [decide_eq_false_iff_not] at shallow
  exact Nat.lt_of_not_le shallow

theorem Stack.deepest_inRange {blocks count : Nat} (positive : 0 < blocks * count)
    (word : blocks * count < UInt64.size) : StaysInRange (deepest blocks count) := by
  rw [deepest, product_of_lt word]
  exact .difference positive

theorem Binary.eval_inRange (op : Binary) (left right : Int) :
    StaysInRange (op.eval left right) := by
  cases op with
  | div | mod =>
      simp only [Binary.eval]
      split
      · exact .error nofun
      · exact .ok _
  | add | sub | mul | min | max => exact .ok _

theorem shiftBytes_inRange (direction : Direction) {amount : Nat} {bytes : Bytes}
    (short : amount < 8 * bytes.length) : StaysInRange (shiftBytes direction amount bytes) := by
  cases direction with
  | left =>
      rw [shiftBytes_left_eq short]
      exact .ok _
  | right =>
      rw [shiftBytes_right_eq short]
      exact .ok _

theorem widen_inRange {size : Nat} (positive : 0 < size) (form : Bytes) :
    StaysInRange (widen size form) := by
  refine .bind (.difference positive) fun filled _ => ?_
  split
  · exact .ok _
  · exact .ok _

theorem compareLockTimes_inRange (transaction threshold required : Nat) :
    StaysInRange (compareLockTimes transaction threshold required) := by
  simp only [compareLockTimes]
  split
  · exact .error nofun
  · split
    · exact .error nofun
    · exact .ok ()

/-! ## Signatures and keys -/

theorem checkHashType_inRange (flags : Flags) (hashType : UInt8) :
    StaysInRange (checkHashType flags hashType) := by
  simp only [checkHashType]
  split
  · exact .ok ()
  · split
    · exact .error nofun
    · split
      · exact .error nofun
      · split
        · exact .error nofun
        · exact .ok ()

theorem checkKeyEncoding_inRange (flags : Flags) (bytes : Bytes) :
    StaysInRange (checkKeyEncoding flags bytes) := by
  simp only [checkKeyEncoding]
  split
  · exact .ok ()
  · split
    · split
      · exact .ok ()
      · split
        · exact .ok ()
        · exact .error nofun
    · exact .error nofun

/-- The number's bytes and its tag must be there; a second byte is only read of a number that has
two. -/
private theorem checkNumber_inRange (part : SignaturePart) {bytes : Bytes}
    {marker offset length : Nat}
    (tagged : marker < bytes.length) (filled : offset + length ≤ bytes.length) :
    StaysInRange (checkNumber part bytes marker offset length) := by
  refine .bind (.itemAt tagged) fun tag _ => ?_
  refine .refuse_bind nofun fun _ => .refuse_bind nofun fun nonempty => ?_
  have positive : length ≠ 0 := by simpa using nonempty
  refine .bind (.itemAt (by omega)) fun first _ => .refuse_bind nofun fun _ => ?_
  split
  · next long =>
      exact .bind (.itemAt (by omega)) fun second _ => .refuse nofun
  · exact .ok ()

/-- Each length read from the signature is compared with the signature's own before it is used. -/
private theorem checkLayout_inRange (requireLowS : Bool) (bytes : Bytes) :
    StaysInRange (checkLayout requireLowS bytes) := by
  refine .refuse_bind nofun fun notShort => .refuse_bind nofun fun _ => ?_
  have eight : 8 ≤ bytes.length := by simpa using notShort
  refine .bind (.itemAt (by omega)) fun tag _ => .refuse_bind nofun fun _ => ?_
  refine .bind (.itemAt (by omega)) fun announced _ => ?_
  refine .bind (.difference (by omega)) fun actual _ => .refuse_bind nofun fun _ => ?_
  refine .bind (.itemAt (by omega)) fun lengthR _ => ?_
  refine .refuse_bind nofun fun markerInside => .refuse_bind nofun fun lengthInside => ?_
  simp only [decide_eq_false_iff_not, Nat.not_le] at markerInside lengthInside
  refine .bind (.itemAt lengthInside) fun lengthS _ => .refuse_bind nofun fun fits => ?_
  have fit : 4 + lengthR.toNat + 2 + lengthS.toNat = bytes.length := by simpa using fits
  refine .bind (checkNumber_inRange .r (by omega) (by omega)) fun _ _ => ?_
  refine .bind (checkNumber_inRange .s markerInside (by omega)) fun _ _ => ?_
  split
  · exact .bind (.suffixFrom (by omega)) fun s _ => .refuse nofun
  · exact .ok ()

theorem checkSignatureEncoding_inRange (flags : Flags) (bytes : Bytes) :
    StaysInRange (checkSignatureEncoding flags bytes) := by
  simp only [checkSignatureEncoding]
  split
  · exact checkLayout_inRange _ bytes
  · exact .ok ()

theorem signedScript_inRange {chunks : List Chunk} {separator : Option Nat}
    (before : ∀ index, separator = some index → index < chunks.length) (signatures : List Bytes)
    (isForkId : Bool) : StaysInRange (signedScript chunks separator signatures isForkId) := by
  refine .bind (.suffixFrom ?_) fun signed _ => .ok _
  cases separator with
  | none => exact Nat.zero_le _
  | some index => exact before index rfl

end BitcoinSpend.Spend
