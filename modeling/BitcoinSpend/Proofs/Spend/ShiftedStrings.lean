import Mathlib.Algebra.Group.Nat.Defs
import BitcoinSpend.Proofs.ShortestNumber
import BitcoinSpend.Proofs.Spend.Operands
import BitcoinSpend.Proofs.Spend.ShiftedBytes

/-!
# Shifted strings

A string of bytes is a big-endian number of its width. Moving its bits up multiplies
the number by a power of two and drops what does not fit, moving them down divides it.
-/

set_option autoImplicit false

namespace BitcoinSpend

namespace Bytes

/-! ## Numbers of a fixed width -/

/-- What does not fit is dropped. -/
private theorem ofNatBE_mod (width value : Nat) :
    ofNatBE width (value % capacity width) = ofNatBE width value := by
  have same := ofNatLE_toNatLE (ofNatLE width value)
  rw [length_ofNatLE, toNatLE_ofNatLE] at same
  rw [ofNatBE, same, ofNatBE]

private theorem ofNatBE_congr {width value other : Nat}
    (same : value % capacity width = other % capacity width) :
    ofNatBE width value = ofNatBE width other := by
  rw [← ofNatBE_mod width value, same, ofNatBE_mod]

private theorem ofNatBE_add_capacity_mul (width value excess : Nat) :
    ofNatBE width (value + capacity width * excess) = ofNatBE width value :=
  ofNatBE_congr (Nat.add_mul_mod_self_left _ _ _)

private theorem ofNatBE_succ (width value : Nat) :
    ofNatBE (width + 1) value = UInt8.ofNat (value / capacity width) :: ofNatBE width value := by
  rw [ofNatBE, ofNatLE_add width 1, List.reverse_append, ofNatBE]
  rfl

private theorem ofNatBE_zero (width : Nat) : ofNatBE width 0 = List.replicate width 0 := by
  rw [ofNatBE, ofNatLE_zero, List.reverse_replicate]

private theorem toNatBE_append (high low : Bytes) :
    toNatBE (high ++ low) = toNatBE low + capacity low.length * toNatBE high := by
  rw [toNatBE, List.reverse_append, toNatLE_append, List.length_reverse]
  rfl

private theorem toNatBE_zeros (count : Nat) : toNatBE (List.replicate count 0) = 0 := by
  rw [toNatBE, List.reverse_replicate, toNatLE_zeros]

/-- Where the string is cut, a power of the base divides the number. -/
private theorem toNatBE_take_drop (bytes : Bytes) (kept : Nat) :
    toNatBE bytes =
      toNatBE (bytes.drop kept) + capacity (bytes.length - kept) * toNatBE (bytes.take kept) := by
  have cut := toNatBE_append (bytes.take kept) (bytes.drop kept)
  rwa [List.take_append_drop, List.length_drop] at cut

end Bytes

namespace Spend

open Bytes

/-! ## Bits across two bytes -/

/-- The byte that starts `bits` bits into two neighbouring bytes. -/
private theorem shiftLeft_or_shiftRight {bits : Nat} (positive : 0 < bits) (part : bits < 8)
    (high low : UInt8) :
    (high <<< UInt8.ofNat bits) ||| (low >>> UInt8.ofNat (8 - bits)) =
      UInt8.ofNat (high.toNat * 2 ^ bits + low.toNat / 2 ^ (8 - bits)) := by
  have whole : 2 ^ 8 = 2 ^ bits * 2 ^ (8 - bits) := by
    rw [← Nat.pow_add]
    congr 1
    omega
  have up : bits % 2 ^ 8 % 8 = bits := by omega
  have down : (8 - bits) % 2 ^ 8 % 8 = 8 - bits := by omega
  have carried : low.toNat / 2 ^ (8 - bits) < 2 ^ bits := by
    refine Nat.div_lt_of_lt_mul ?_
    rw [Nat.mul_comm, ← whole]
    exact low.toNat_lt
  have moved : high.toNat * 2 ^ bits % 2 ^ 8 = 2 ^ bits * (high.toNat % 2 ^ (8 - bits)) := by
    rw [whole, Nat.mul_comm, Nat.mul_mod_mul_left]
  have joined : (high.toNat * 2 ^ bits + low.toNat / 2 ^ (8 - bits)) % 2 ^ 8 =
      2 ^ bits * (high.toNat % 2 ^ (8 - bits)) + low.toNat / 2 ^ (8 - bits) := by
    have fits : 2 ^ bits * (high.toNat % 2 ^ (8 - bits) + 1) ≤ 2 ^ 8 := by
      rw [whole]
      exact Nat.mul_le_mul_left _ (Nat.mod_lt _ (Nat.two_pow_pos _))
    rw [Nat.mul_add_one] at fits
    rw [Nat.add_mod, moved, Nat.mod_eq_of_lt (by omega : low.toNat / 2 ^ (8 - bits) < 2 ^ 8),
      Nat.mod_eq_of_lt (by omega)]
  apply UInt8.toNat_inj.mp
  rw [UInt8.toNat_or, UInt8.toNat_shiftLeft, UInt8.toNat_shiftRight, UInt8.toNat_ofNat',
    UInt8.toNat_ofNat', UInt8.toNat_ofNat', up, down, Nat.shiftLeft_eq, Nat.shiftRight_eq_div_pow,
    moved, ← Nat.two_pow_add_eq_or_of_lt carried, joined]

private theorem shiftLeft_or_carryLeft {bits : Nat} (part : bits < 8) (byte next : UInt8) :
    (byte <<< UInt8.ofNat bits) ||| carryLeft bits (8 - bits) next =
      UInt8.ofNat (byte.toNat * 2 ^ bits + next.toNat / 2 ^ (8 - bits)) := by
  rcases Nat.eq_zero_or_pos bits with rfl | positive
  · have none : next.toNat / 2 ^ (8 - 0) = 0 := Nat.div_eq_of_lt next.toNat_lt
    rw [carryLeft, if_pos rfl, none, Nat.pow_zero, Nat.mul_one, Nat.add_zero, UInt8.ofNat_toNat]
    simp
  · rw [carryLeft, if_neg (Nat.ne_of_gt positive), shiftLeft_or_shiftRight positive part]

private theorem carryRight_or_shiftRight {bits : Nat} (part : bits < 8) (previous byte : UInt8) :
    carryRight bits (8 - bits) previous ||| (byte >>> UInt8.ofNat bits) =
      UInt8.ofNat (previous.toNat * 2 ^ (8 - bits) + byte.toNat / 2 ^ bits) := by
  rcases Nat.eq_zero_or_pos bits with rfl | positive
  · rw [carryRight, if_pos rfl, Nat.pow_zero, Nat.div_one]
    apply UInt8.toNat_inj.mp
    simp
  · have back : 8 - (8 - bits) = bits := by omega
    have joined := shiftLeft_or_shiftRight (show 0 < 8 - bits by omega) (by omega) previous byte
    rw [back] at joined
    rw [carryRight, if_neg (Nat.ne_of_gt positive), joined]

/-! ## Bits of a string -/

/-- The bits that come in from the next byte are those that leave the rest of the string. -/
private theorem toNatBE_mul_div_capacity {bits : Nat} (part : bits < 8) (bytes : Bytes) :
    toNatBE bytes * 2 ^ bits / capacity bytes.length = (bytes.headD 0).toNat / 2 ^ (8 - bits) := by
  cases bytes with
  | nil => simp [toNatBE, toNatLE]
  | cons next rest =>
      have base : 256 = 2 ^ (8 - bits) * 2 ^ bits := by
        rw [← Nat.pow_add, Nat.sub_add_cancel (Nat.le_of_lt part)]
      have width : capacity (rest.length + 1) =
          capacity rest.length * 2 ^ (8 - bits) * 2 ^ bits := by
        rw [capacity, Nat.mul_assoc, ← base, Nat.mul_comm]
      rw [List.length_cons, width, Nat.mul_div_mul_right _ _ (Nat.two_pow_pos bits), toNatBE_cons,
        ← Nat.div_div_eq_div_mul, Nat.add_mul_div_left _ _ (capacity_pos _),
        Nat.div_eq_of_lt (toNatBE_lt rest), Nat.zero_add, List.headD_cons]

theorem shiftBitsLeft_eq {bits : Nat} (part : bits < 8) (bytes : Bytes) :
    shiftBitsLeft bits (8 - bits) bytes = ofNatBE bytes.length (toNatBE bytes * 2 ^ bits) := by
  induction bytes with
  | nil => rfl
  | cons byte rest ih =>
      have split : toNatBE (byte :: rest) * 2 ^ bits =
          toNatBE rest * 2 ^ bits + capacity rest.length * (byte.toNat * 2 ^ bits) := by
        rw [toNatBE_cons, Nat.add_mul, Nat.mul_assoc]
      rw [shiftBitsLeft, ih, shiftLeft_or_carryLeft part, List.length_cons, ofNatBE_succ, split,
        ofNatBE_add_capacity_mul, Nat.add_mul_div_left _ _ (capacity_pos _),
        toNatBE_mul_div_capacity part, Nat.add_comm]

/-- The bits of the byte before are those above the string. -/
theorem shiftBitsRight_eq {bits : Nat} (part : bits < 8) (previous : UInt8) (bytes : Bytes) :
    shiftBitsRight bits (8 - bits) previous bytes =
      ofNatBE bytes.length
        ((toNatBE bytes + capacity bytes.length * previous.toNat) / 2 ^ bits) := by
  induction bytes generalizing previous with
  | nil => rfl
  | cons byte rest ih =>
      have base : 256 = 2 ^ bits * 2 ^ (8 - bits) := by
        rw [← Nat.pow_add, Nat.add_sub_cancel' (Nat.le_of_lt part)]
      have above : toNatBE (byte :: rest) + capacity (rest.length + 1) * previous.toNat =
          toNatBE rest + capacity rest.length * byte.toNat +
            2 ^ bits * (capacity rest.length * (previous.toNat * 2 ^ (8 - bits))) := by
        rw [toNatBE_cons, capacity, base]
        ac_rfl
      have first : (toNatBE rest + capacity rest.length * byte.toNat) / 2 ^ bits /
          capacity rest.length = byte.toNat / 2 ^ bits := by
        rw [Nat.div_div_eq_div_mul, Nat.mul_comm (2 ^ bits), ← Nat.div_div_eq_div_mul,
          Nat.add_mul_div_left _ _ (capacity_pos _), Nat.div_eq_of_lt (toNatBE_lt rest),
          Nat.zero_add]
      rw [shiftBitsRight, ih, carryRight_or_shiftRight part, List.length_cons, above, ofNatBE_succ,
        Nat.add_mul_div_left _ _ (Nat.two_pow_pos bits), ofNatBE_add_capacity_mul,
        Nat.add_mul_div_left _ _ (capacity_pos _), first, Nat.add_comm (byte.toNat / 2 ^ bits)]

/-! ## Whole bytes -/

private theorem capacity_mul_two_pow (amount : Nat) :
    capacity (amount / 8) * 2 ^ (amount % 8) = 2 ^ amount := by
  have whole : 2 ^ (8 * (amount / 8) + amount % 8) = capacity (amount / 8) * 2 ^ (amount % 8) := by
    rw [capacity_eq_pow]
    exact Nat.pow_add 2 _ _
  rw [← whole, Nat.div_add_mod]

/-- Zeros at the end make room for the first bytes, which are dropped. -/
private theorem toNatBE_mul_capacity {moved : Nat} {bytes : Bytes} (inside : moved ≤ bytes.length) :
    toNatBE bytes * capacity moved =
      toNatBE (bytes.drop moved ++ List.replicate moved 0) +
        capacity bytes.length * toNatBE (bytes.take moved) := by
  have width : capacity bytes.length = capacity (bytes.length - moved) * capacity moved := by
    rw [← capacity_add, Nat.sub_add_cancel inside]
  rw [toNatBE_append, toNatBE_zeros, List.length_replicate, Nat.zero_add, width,
    toNatBE_take_drop bytes moved, Nat.add_mul]
  ac_rfl

/-- Zeros at the start take the place of the last bytes, which are dropped. -/
private theorem toNatBE_div_capacity {moved : Nat} {bytes : Bytes} (inside : moved ≤ bytes.length) :
    toNatBE bytes / capacity moved =
      toNatBE (List.replicate moved 0 ++ bytes.take (bytes.length - moved)) := by
  have cut := toNatBE_take_drop bytes (bytes.length - moved)
  have small := toNatBE_lt (bytes.drop (bytes.length - moved))
  rw [List.length_drop, Nat.sub_sub_self inside] at small
  rw [Nat.sub_sub_self inside] at cut
  rw [toNatBE_append, toNatBE_zeros, Nat.mul_zero, Nat.add_zero, cut,
    Nat.add_mul_div_left _ _ (capacity_pos moved), Nat.div_eq_of_lt small, Nat.zero_add]

private theorem shiftBytes_left {amount : Nat} {bytes : Bytes}
    (inside : amount < 8 * bytes.length) :
    shiftBytes .left amount bytes = .ok (ofNatBE bytes.length (toNatBE bytes * 2 ^ amount)) := by
  have part : amount % 8 < 8 := Nat.mod_lt _ (by decide)
  have whole : amount / 8 ≤ bytes.length := by omega
  have moves : toNatBE bytes * 2 ^ amount =
      toNatBE (bytes.drop (amount / 8) ++ List.replicate (amount / 8) 0) * 2 ^ (amount % 8) +
        capacity bytes.length * (toNatBE (bytes.take (amount / 8)) * 2 ^ (amount % 8)) := by
    rw [← capacity_mul_two_pow amount, ← Nat.mul_assoc, toNatBE_mul_capacity whole, Nat.add_mul,
      Nat.mul_assoc]
  have length : (bytes.drop (amount / 8) ++ List.replicate (amount / 8) 0).length =
      bytes.length := by
    rw [List.length_append, List.length_drop, List.length_replicate, Nat.sub_add_cancel whole]
  rw [shiftBytes_left_eq inside, shiftBitsLeft_eq part, length, moves, ofNatBE_add_capacity_mul]

private theorem shiftBytes_right {amount : Nat} {bytes : Bytes}
    (inside : amount < 8 * bytes.length) :
    shiftBytes .right amount bytes = .ok (ofNatBE bytes.length (toNatBE bytes / 2 ^ amount)) := by
  have part : amount % 8 < 8 := Nat.mod_lt _ (by decide)
  have whole : amount / 8 ≤ bytes.length := by omega
  have length : (List.replicate (amount / 8) 0 ++ bytes.take (bytes.length - amount / 8)).length =
      bytes.length := by
    rw [List.length_append, List.length_replicate, List.length_take]
    omega
  rw [shiftBytes_right_eq inside, shiftBitsRight_eq part, length, UInt8.toNat_zero, Nat.mul_zero,
    Nat.add_zero, ← toNatBE_div_capacity whole, Nat.div_div_eq_div_mul, capacity_mul_two_pow]

/-! ## The two instructions -/

/-- What a shift makes of the number of a string of some width. -/
def Direction.scale (width amount value : Nat) : Direction → Nat
  | left => value * 2 ^ amount % 2 ^ (8 * width)
  | right => value / 2 ^ amount

theorem shiftBytes_eq {amount : Nat} {bytes : Bytes} (direction : Direction)
    (inside : amount < 8 * bytes.length) :
    shiftBytes direction amount bytes =
      .ok (ofNatBE bytes.length (direction.scale bytes.length amount (toNatBE bytes))) := by
  cases direction with
  | left =>
      have width : 2 ^ (8 * bytes.length) = capacity bytes.length := (capacity_eq_pow _).symm
      rw [shiftBytes_left inside, Direction.scale, width, ofNatBE_mod]
  | right => rw [shiftBytes_right inside, Direction.scale]

/-- A shift by the whole width or more leaves nothing. -/
private theorem Direction.scale_of_le {amount : Nat} {bytes : Bytes} (direction : Direction)
    (beyond : 8 * bytes.length ≤ amount) :
    direction.scale bytes.length amount (toNatBE bytes) = 0 := by
  cases direction with
  | left =>
      exact Nat.mod_eq_zero_of_dvd (Nat.dvd_mul_left_of_dvd (Nat.pow_dvd_pow 2 beyond) _)
  | right =>
      have small := toNatBE_lt bytes
      rw [capacity_eq_pow] at small
      exact Nat.div_eq_of_lt (Nat.lt_of_lt_of_le small (Nat.pow_le_pow_right (by decide) beyond))

namespace Exec

variable {frame : Frame} {state : State} {below : List Bytes} {bytes countForm : Bytes}
  {count : Int}

private theorem shift_withItems (frame : Frame) (below : List Bytes) (bytes : Bytes)
    (direction : Direction)
    (reads : ScriptNumber.decodeWithin state.stack.rule countForm = .ok count) :
    shift direction frame (state.withItems (below ++ [bytes, countForm])) =
      if count < 0 then .error .shiftNegative (state.withItems below)
      else .ok () (state.withItems (below ++
        [ofNatBE bytes.length (direction.scale bytes.length count.toNat (toNatBE bytes))])) := by
  rw [List.append_cons below bytes [countForm], shift, bind_of_ok (popNumber_withItems reads),
    bind_of_ok (pop_withItems bytes), refuse_bind_run]
  simp only [decide_eq_true_eq]
  by_cases negative : count < 0
  · rw [if_pos negative, if_pos negative]
  rw [if_neg negative, if_neg negative]
  obtain ⟨amount, rfl⟩ := Int.eq_ofNat_of_zero_le (Int.not_lt.mp negative)
  rw [Int.toNat_natCast]
  by_cases beyond : 8 * bytes.length ≤ amount
  · rw [if_pos (by exact_mod_cast beyond), push_withItems, direction.scale_of_le beyond,
      ofNatBE_zero]
  · rw [if_neg (by exact_mod_cast beyond),
      bind_of_ok (ofExcept_of_ok (shiftBytes_eq direction (Nat.not_le.mp beyond))), push_withItems]

/-- A shift refuses a negative count. Otherwise it replaces the string and the count by the string
of the same width whose number is the shifted one. -/
private theorem runOpcode_shift {op : Opcode} {direction : Direction} (frame : Frame)
    (means : Instruction.ofOpcode op = .shift direction)
    (holds : state.stack.Holds (below ++ [bytes, countForm]))
    (reads : ScriptNumber.decodeWithin state.stack.rule countForm = .ok count) :
    (count < 0 → Fails .numberTooSmall (state.withItems below) (runOpcode op frame state)) ∧
    ∀ amount : Nat, count = amount →
      runOpcode op frame state = .ok .next (state.withItems (below ++
        [ofNatBE bytes.length (direction.scale bytes.length amount (toNatBE bytes))])) := by
  have same := State.eq_withItems holds
  have ran := shift_withItems frame below bytes direction reads
  rw [← same] at ran
  constructor
  · intro negative
    rw [if_pos negative] at ran
    exact runOpcode_fails means nofun ran
  · rintro amount rfl
    rw [if_neg (Int.not_lt.mpr (Int.natCast_nonneg amount)), Int.toNat_natCast] at ran
    exact runOpcode_of_ok means nofun ran

/-- The two shifts multiply and divide the big-endian number of a string by a power of two, within
the width of the string. A count of all its bits or more leaves zeros, and a negative count is
refused. -/
theorem shift_multiplies_divides (frame : Frame)
    (holds : state.stack.Holds (below ++ [bytes, countForm]))
    (reads : ScriptNumber.decodeWithin state.stack.rule countForm = .ok count) :
    (count < 0 →
      Fails .numberTooSmall (state.withItems below) (runOpcode 0x98 frame state) ∧
      Fails .numberTooSmall (state.withItems below) (runOpcode 0x99 frame state)) ∧
    ∀ amount : Nat, count = amount →
      runOpcode 0x98 frame state = .ok .next (state.withItems (below ++
        [ofNatBE bytes.length (toNatBE bytes * 2 ^ amount % 2 ^ (8 * bytes.length))])) ∧
      runOpcode 0x99 frame state = .ok .next (state.withItems (below ++
        [ofNatBE bytes.length (toNatBE bytes / 2 ^ amount)])) ∧
      (8 * bytes.length ≤ amount →
        runOpcode 0x98 frame state = .ok .next (state.withItems (below ++
          [List.replicate bytes.length 0])) ∧
        runOpcode 0x99 frame state = .ok .next (state.withItems (below ++
          [List.replicate bytes.length 0]))) := by
  have leftward : Instruction.ofOpcode 0x98 = .shift .left := rfl
  have rightward : Instruction.ofOpcode 0x99 = .shift .right := rfl
  obtain ⟨leftFails, leftRuns⟩ := runOpcode_shift frame leftward holds reads
  obtain ⟨rightFails, rightRuns⟩ := runOpcode_shift frame rightward holds reads
  refine ⟨fun negative => ⟨leftFails negative, rightFails negative⟩, fun amount counts => ?_⟩
  have left := leftRuns amount counts
  have right := rightRuns amount counts
  refine ⟨left, right, fun beyond => ?_⟩
  rw [Direction.scale_of_le _ beyond, ofNatBE_zero] at left right
  exact ⟨left, right⟩

end Exec

/-- Nine bits up and down, the count in a form that is not its shortest. -/
theorem shift_multiplies_divides_nine :
    let state := State.ofItems ⟨4, false⟩ [[7], [0x81, 0x01], [9, 0]]
    Exec.runOpcode 0x98 (Frame.bare Flags.empty 100) state =
      .ok .next (state.withItems [[7], [0x02, 0x00]]) ∧
    Exec.runOpcode 0x99 (Frame.bare Flags.empty 100) state =
      .ok .next (state.withItems [[7], [0x00, 0x40]]) := by
  intro state
  obtain ⟨-, runs⟩ := Exec.shift_multiplies_divides (Frame.bare Flags.empty 100)
    (show state.stack.Holds ([[7]] ++ [[0x81, 0x01], [9, 0]]) from State.holds_withItems)
    (show ScriptNumber.decodeWithin ⟨4, false⟩ [9, 0] = .ok 9 from rfl)
  obtain ⟨left, right, -⟩ := runs 9 rfl
  have doubled : ofNatBE 2 (toNatBE [0x81, 0x01] * 2 ^ 9 % 2 ^ (8 * 2)) = [0x02, 0x00] := by decide
  have halved : ofNatBE 2 (toNatBE [0x81, 0x01] / 2 ^ 9) = [0x00, 0x40] := by decide
  constructor
  · rw [← doubled]
    exact left
  · rw [← halved]
    exact right

end Spend

end BitcoinSpend
