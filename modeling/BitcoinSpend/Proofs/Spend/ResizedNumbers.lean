import BitcoinSpend.Proofs.NumberForms
import BitcoinSpend.Proofs.Spend.Operands
import BitcoinSpend.Proofs.Spend.ResultLengths

/-!
# Numbers of another size

A number is put in a string of a given size by moving its sign to the last byte, and
shortening the string moves it back. Both keep the value, so what comes back is the
shortest form of the number.
-/

set_option autoImplicit false

namespace BitcoinSpend

private theorem Bytes.toNatLE_append_zeros (bytes : Bytes) (count : Nat) :
    toNatLE (bytes ++ List.replicate count 0) = toNatLE bytes := by
  rw [toNatLE_append, toNatLE_zeros, Nat.mul_zero, Nat.add_zero]

namespace ScriptNumber

/-- A sign bit on its own is a last byte without magnitude. -/
private theorem bits_of_signBit (byte : UInt8) :
    signBit (signBit byte) = signBit byte ∧ magnitudeBits (signBit byte) = 0 := by
  rcases signBit_cases byte with clear | set
  · rw [clear]
    decide
  · rw [set]
    decide

end ScriptNumber

namespace Spend

open ScriptNumber

/-! ## Moving the sign up -/

private theorem decode_widen {size : Nat} {form widened : Bytes}
    (computed : widen size form = .ok widened) :
    decode widened = decode form := by
  simp only [widen, bind_eq_ok_iff, difference_eq_ok_iff] at computed
  obtain ⟨filled, -, computed⟩ := computed
  rcases List.eq_nil_or_concat form with rfl | ⟨rest, last, rfl⟩
  · cases computed
    have none : magnitudeBits 0 = 0 := by decide
    have zero := Bytes.toNatLE_append_zeros [] (filled - 0)
    rw [List.nil_append] at zero
    rw [decode_concat, none, toNatLE_concat_zero, List.length_nil, zero]
    rfl
  · obtain ⟨marked, bare⟩ := bits_of_signBit last
    rw [List.concat_eq_append, List.getLast?_concat, List.dropLast_concat] at computed
    cases computed
    rw [decode_concat, marked, bare, toNatLE_concat_zero, Bytes.toNatLE_append_zeros,
      List.concat_eq_append, decode_concat]

/-- A form that is shorter than a size can be put in that many bytes. -/
private theorem widen_of_lt {size : Nat} {form : Bytes} (shorter : form.length < size) :
    ∃ widened, widen size form = .ok widened ∧ widened.length = size ∧
      decode widened = decode form := by
  have enough : difference size 1 = .ok (size - 1) := difference_of_le (by omega)
  have computed : ∃ widened, widen size form = .ok widened := by
    rw [widen, enough, ok_bind]
    cases form.getLast? <;> exact ⟨_, rfl⟩
  obtain ⟨widened, computed⟩ := computed
  exact ⟨widened, computed, length_of_widen shorter computed, decode_widen computed⟩

/-! ## The two instructions -/

/-- What putting a number in a string of some size comes to, by the tests in their order: the class
of the first one that fails, or a form of the number that has the size. The stacks hold `held` bytes
besides. -/
inductive Setup.Resizes (setup : Setup) (held : Nat) (bytes : Bytes) (size : Int) :
    Except FaultCode Bytes → Prop where
  | negative (low : size < 0) : Resizes setup held bytes size (.error .numberTooSmall)
  | tooBig (nonnegative : 0 ≤ size) (high : setup.limits.maxElementSize < size) :
      Resizes setup held bytes size (.error .elementTooBig)
  | noMemory (nonnegative : 0 ≤ size) (allowed : size ≤ setup.limits.maxElementSize)
      (full : setup.memoryLimit < held + size) :
      Resizes setup held bytes size (.error .memoryLimitExceeded)
  | tooSmall (nonnegative : 0 ≤ size) (allowed : size ≤ setup.limits.maxElementSize)
      (fits : held + size ≤ setup.memoryLimit) (narrow : size < (minimize bytes).length) :
      Resizes setup held bytes size (.error .numberTooSmall)
  | resized (nonnegative : 0 ≤ size) (allowed : size ≤ setup.limits.maxElementSize)
      (fits : held + size ≤ setup.memoryLimit) (wide : (minimize bytes).length ≤ size)
      {form : Bytes} (length : form.length = size) (value : decode form = decode bytes) :
      Resizes setup held bytes size (.ok form)

namespace Exec

variable {frame : Frame} {state : State} {below : List Bytes} {bytes sizeForm : Bytes} {size : Int}

/-- The string that is put where no test fails. -/
def putResized (bytes : Bytes) (size : Nat) : Exec Unit :=
  if (minimize bytes).length = size then onStack (Stack.push (minimize bytes))
  else do
    let widened ← MonadExcept.ofExcept (widen size (minimize bytes))
    onStack (Stack.push widened)

private theorem putResized_withItems (frame : Frame) (state : State) (below : List Bytes)
    {size : Nat} (wide : (minimize bytes).length ≤ size) :
    ∃ form, form.length = size ∧ decode form = decode bytes ∧
      putResized bytes size frame (state.withItems below) =
        .ok () (state.withItems (below ++ [form])) := by
  by_cases same : (minimize bytes).length = size
  · refine ⟨minimize bytes, same, decode_minimize bytes, ?_⟩
    rw [putResized, if_pos same, push_withItems]
  · obtain ⟨widened, computed, length, value⟩ := widen_of_lt (Nat.lt_of_le_of_ne wide same)
    refine ⟨widened, length, value.trans (decode_minimize bytes), ?_⟩
    rw [putResized, if_neg same, bind_of_ok (ofExcept_of_ok computed), push_withItems]

/-- The tests of a size, in their order. -/
private theorem numToBin_withItems (reads : decodeWithin state.stack.rule sizeForm = .ok size) :
    numToBin frame (state.withItems (below ++ [bytes, sizeForm])) =
      if size < 0 then .error (.sizeNegative size) (state.withItems below)
      else if frame.setup.limits.maxElementSize < size then
        .error (.sizeTooBig size frame.setup.limits.maxElementSize) (state.withItems below)
      else if frame.setup.memoryLimit < totalLength below + state.alt.held + size.toNat then
        .error (.resultExceedsMemory size.toNat frame.setup.memoryLimit) (state.withItems below)
      else if size.toNat < (minimize bytes).length then
        .error (.sizeTooSmall (minimize bytes).length size.toNat) (state.withItems below)
      else putResized bytes size.toNat frame (state.withItems below) := by
  have held : (state.withItems below).stack.held = totalLength below := totalLength_reverse below
  rw [List.append_cons below bytes [sizeForm], numToBin, bind_setup,
    bind_of_ok (popNumber_withItems reads), bind_of_ok (pop_withItems bytes), refuse_bind_run,
    refuse_bind_run, bind_get, refuse_bind_run, ← held]
  simp only [decide_eq_true_eq, refuse_bind_run]
  rfl

/-- A size comes to one of the outcomes, and below the operands nothing changes. -/
private theorem numToBin_resizes (frame : Frame) (below : List Bytes) (bytes : Bytes)
    (counted : state.alt.Counted) (reads : decodeWithin state.stack.rule sizeForm = .ok size) :
    ∃ outcome, frame.setup.Resizes (totalLength below + totalLength state.alt.items) bytes size
        outcome ∧
      match outcome with
      | .ok form => numToBin frame (state.withItems (below ++ [bytes, sizeForm])) =
          .ok () (state.withItems (below ++ [form]))
      | .error code => ∃ fault, fault.code = code ∧
          numToBin frame (state.withItems (below ++ [bytes, sizeForm])) =
            .error fault (state.withItems below) := by
  have held : state.alt.held = totalLength state.alt.items := counted
  rw [numToBin_withItems reads, held]
  by_cases low : size < 0
  · rw [if_pos low]
    exact ⟨_, .negative low, _, rfl, rfl⟩
  rw [if_neg low]
  have nonnegative : 0 ≤ size := Int.not_lt.mp low
  obtain ⟨count, rfl⟩ := Int.eq_ofNat_of_zero_le nonnegative
  by_cases high : (frame.setup.limits.maxElementSize : Int) < count
  · rw [if_pos high]
    exact ⟨_, .tooBig nonnegative high, _, rfl, rfl⟩
  rw [if_neg high, Int.toNat_natCast]
  have allowed := Int.not_lt.mp high
  by_cases full : frame.setup.memoryLimit < totalLength below + totalLength state.alt.items + count
  · rw [if_pos full]
    exact ⟨_, .noMemory nonnegative allowed (by exact_mod_cast full), _, rfl, rfl⟩
  rw [if_neg full]
  have fits : ((totalLength below + totalLength state.alt.items : Nat) : Int) + count ≤
      frame.setup.memoryLimit := by exact_mod_cast Nat.not_lt.mp full
  by_cases narrow : count < (minimize bytes).length
  · rw [if_pos narrow]
    exact ⟨_, .tooSmall nonnegative allowed fits (by exact_mod_cast narrow), _, rfl, rfl⟩
  rw [if_neg narrow]
  have wide := Nat.not_lt.mp narrow
  obtain ⟨form, length, value, put⟩ := putResized_withItems frame state below wide
  exact ⟨_, .resized nonnegative allowed fits (by exact_mod_cast wide) (by exact_mod_cast length)
    value, put⟩

private theorem binToNum_withItems (frame : Frame) (state : State) (below : List Bytes)
    (bytes : Bytes) :
    binToNum frame (state.withItems (below ++ [bytes])) =
      if frame.setup.limits.maxNumberLength < (minimize bytes).length then
        .error (.numberLimit frame.setup.limits.maxNumberLength) (state.withItems below)
      else .ok () (state.withItems (below ++ [minimize bytes])) := by
  rw [binToNum, bind_setup, bind_of_ok (pop_withItems bytes), refuse_bind_run, push_withItems]
  simp only [decide_eq_true_eq]

/-- Putting a number in a string of some size passes the tests in their order or fails at one of
them. The string has the size and the value of the number, so that wherever it is shortened, the
shortest form of the number comes back, or is refused if it is longer than numbers may be. Neither
changes anything below its operands. -/
theorem numToBin_binToNum (frame : Frame) {bound : Nat} (consistent : state.Consistent bound)
    (holds : state.stack.toList = below ++ [bytes, sizeForm])
    (reads : decodeWithin state.stack.rule sizeForm = .ok size) :
    ∃ outcome, frame.setup.Resizes (totalLength below + totalLength state.alt.items) bytes size
        outcome ∧
      match outcome with
      | .error code => Fails code (state.withItems below) (runOpcode 0x80 frame state)
      | .ok form =>
          runOpcode 0x80 frame state = .ok .next (state.withItems (below ++ [form])) ∧
          ∀ (later : Frame) (after : State) (under : List Bytes),
            after.stack.Holds (under ++ [form]) →
            if (minimize bytes).length ≤ later.setup.limits.maxNumberLength then
              runOpcode 0x81 later after = .ok .next (after.withItems (under ++ [minimize bytes]))
            else Fails .numberTooBig (after.withItems under) (runOpcode 0x81 later after) := by
  have resizing : Instruction.ofOpcode 0x80 = .numToBin := rfl
  have shortening : Instruction.ofOpcode 0x81 = .binToNum := rfl
  have same := State.eq_withItems ⟨consistent.stack, holds⟩
  obtain ⟨outcome, resizes, ran⟩ := numToBin_resizes frame below bytes consistent.alt reads
  rw [← same] at ran
  refine ⟨outcome, resizes, ?_⟩
  cases outcome with
  | error code =>
      obtain ⟨fault, rfl, failed⟩ := ran
      exact runOpcode_fails resizing nofun failed
  | ok form =>
      cases resizes with
      | resized nonnegative allowed fits wide length value =>
          refine ⟨runOpcode_of_ok resizing nofun ran, ?_⟩
          intro later after under held
          have shortest : minimize form = minimize bytes := minimize_eq_of_decode_eq value
          have shortened := binToNum_withItems later after under form
          rw [← State.eq_withItems held, shortest] at shortened
          split
          · next short =>
              rw [if_neg (Nat.not_lt.mpr short)] at shortened
              exact runOpcode_of_ok shortening nofun shortened
          · next long =>
              rw [if_pos (Nat.not_le.mp long)] at shortened
              exact runOpcode_fails shortening nofun shortened

end Exec

/-- Minus five in three bytes, put in four and shortened again. -/
theorem numToBin_binToNum_minusFive :
    let state := State.ofItems ⟨4, false⟩ [[9], [5, 0, 0x80], [4]]
    decode [5, 0, 0x80] = -5 ∧ ∃ form, form.length = 4 ∧ decode form = -5 ∧
      Exec.runOpcode 0x80 (Frame.bare Flags.empty 100) state =
        .ok .next (state.withItems [[9], form]) ∧
      Exec.runOpcode 0x81 (Frame.bare Flags.empty 100) (state.withItems [[9], form]) =
        .ok .next (state.withItems [[9], [0x85]]) := by
  intro state
  have value : decode [5, 0, 0x80] = -5 := by decide
  obtain ⟨outcome, resizes, ran⟩ := Exec.numToBin_binToNum (Frame.bare Flags.empty 100)
    (State.consistent_ofItems ⟨4, false⟩ [[9], [5, 0, 0x80], [4]] 0)
    (show _ = [[9]] ++ [[5, 0, 0x80], [4]] from rfl)
    (show decodeWithin ⟨4, false⟩ [4] = .ok 4 from rfl)
  cases resizes with
  | negative low => exact absurd low (by decide)
  | tooBig _ high => exact absurd high (by decide)
  | noMemory _ _ full => exact absurd full (by decide)
  | tooSmall _ _ _ narrow => exact absurd narrow (by decide)
  | @resized _ _ _ _ form length same =>
      obtain ⟨put, shortened⟩ := ran
      have back := shortened (Frame.bare Flags.empty 100) (state.withItems [[9], form]) [[9]]
        State.holds_withItems
      exact ⟨value, form, by exact_mod_cast length, same.trans value, put, back⟩

end Spend

end BitcoinSpend
