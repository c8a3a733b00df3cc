import Mathlib.Data.List.Forall2
import BitcoinSpend.Proofs.NumberForms
import BitcoinSpend.Proofs.Spend.Operands

/-!
# Numeric opcodes

A numeric opcode takes numbers in any form that is read and puts the exact result over
the integers in its shortest form. Division truncates toward zero, and predicates are
one or zero.
-/

set_option autoImplicit false

namespace BitcoinSpend

/-- The form of a number that is shorter than all others. -/
structure ScriptNumber.IsShortest (form : Bytes) (value : Int) : Prop where
  reads : decode form = value
  shorter : ∀ other, decode other = value → other ≠ form → form.length < other.length

theorem ScriptNumber.isShortest_encode (value : Int) : IsShortest (encode value) value := by
  have minimal : minimize (encode value) = encode value := by
    rw [← encode_decode, decode_encode]
  refine ⟨decode_encode value, fun other reads different => ?_⟩
  have same : decode other = decode (encode value) := by rw [reads, decode_encode]
  have notLonger := minimize_iff_shortest.mp minimal other same
  exact Nat.lt_of_le_of_ne notLonger fun length =>
    different (eq_of_minimize_of_length minimal same length.symm)

namespace Spend

open ScriptNumber (encode)

/-! ## What the opcodes mean -/

/-- Division toward zero: the remainder is smaller than the divisor and on the dividend's side of
zero. -/
structure Truncates (dividend divisor quotient remainder : Int) : Prop where
  sum : dividend = divisor * quotient + remainder
  small : remainder.natAbs < divisor.natAbs
  side : 0 ≤ dividend ∧ 0 ≤ remainder ∨ dividend ≤ 0 ∧ remainder ≤ 0

/-- What a numeric opcode makes of numbers, the deepest first. -/
def Computes (op : Opcode) (values : List Int) (result : Int) : Prop :=
  match values with
  | [value] =>
      match op with
      | 0x8b => result = value + 1
      | 0x8c => result = value - 1
      | 0x8f => result = -value
      | 0x90 => result = max value (-value)
      | 0x91 => result = if value = 0 then 1 else 0
      | 0x92 => result = if value ≠ 0 then 1 else 0
      | _ => False
  | [left, right] =>
      match op with
      | 0x93 => result = left + right
      | 0x94 => result = left - right
      | 0x95 => result = left * right
      | 0x96 => ∃ remainder, Truncates left right result remainder
      | 0x97 => ∃ quotient, Truncates left right quotient result
      | 0x9a => result = if left ≠ 0 ∧ right ≠ 0 then 1 else 0
      | 0x9b => result = if left ≠ 0 ∨ right ≠ 0 then 1 else 0
      | 0x9c => result = if left = right then 1 else 0
      | 0x9e => result = if left ≠ right then 1 else 0
      | 0x9f => result = if left < right then 1 else 0
      | 0xa0 => result = if left > right then 1 else 0
      | 0xa1 => result = if left ≤ right then 1 else 0
      | 0xa2 => result = if left ≥ right then 1 else 0
      | 0xa3 => result = min left right
      | 0xa4 => result = max left right
      | _ => False
  | [value, lower, upper] =>
      match op with
      | 0xa5 => result = if lower ≤ value ∧ value < upper then 1 else 0
      | _ => False
  | _ => False

/-- The numeric opcodes, by the number of their operands. -/
inductive Takes (op : Opcode) : Nat → Prop where
  | one (member : op ∈ [0x8b, 0x8c, 0x8f, 0x90, 0x91, 0x92]) : Takes op 1
  | two (member : op ∈ [0x93, 0x94, 0x95, 0x96, 0x97, 0x9a, 0x9b, 0x9c, 0x9e, 0x9f, 0xa0, 0xa1,
      0xa2, 0xa3, 0xa4]) : Takes op 2
  | three (same : op = 0xa5) : Takes op 3

/-- A division or a remainder with a divisor of zero. -/
def DividesByZero (op : Opcode) (values : List Int) : Prop :=
  op ∈ [0x96, 0x97] ∧ values.getLast? = some 0

/-! ## Division -/

theorem truncates_iff {dividend divisor quotient remainder : Int} (nonzero : divisor ≠ 0) :
    Truncates dividend divisor quotient remainder ↔
      quotient = dividend.tdiv divisor ∧ remainder = dividend.tmod divisor := by
  constructor
  · rintro ⟨sum, small, ⟨nonnegative, side⟩ | ⟨nonpositive, side⟩⟩
    · have unique := (Int.tdiv_tmod_unique nonnegative nonzero).mpr
        (⟨by omega, side, by omega⟩ : remainder + divisor * quotient = dividend ∧ _)
      exact ⟨unique.1.symm, unique.2.symm⟩
    · have unique := (Int.tdiv_tmod_unique' nonpositive nonzero).mpr
        (⟨by omega, by omega, side⟩ : remainder + divisor * quotient = dividend ∧ _)
      exact ⟨unique.1.symm, unique.2.symm⟩
  · rintro ⟨rfl, rfl⟩
    have sum := (Int.mul_tdiv_add_tmod dividend divisor).symm
    rcases Int.le_total 0 dividend with nonnegative | nonpositive
    · obtain ⟨-, side, small⟩ := (Int.tdiv_tmod_unique nonnegative nonzero).mp ⟨rfl, rfl⟩
      exact ⟨sum, by omega, .inl ⟨nonnegative, side⟩⟩
    · obtain ⟨-, small, side⟩ := (Int.tdiv_tmod_unique' nonpositive nonzero).mp ⟨rfl, rfl⟩
      exact ⟨sum, by omega, .inr ⟨nonpositive, side⟩⟩

/-! ## What the instructions compute -/

/-- What an instruction makes of numbers, the deepest first. -/
def Instruction.evaluate : Instruction → List Int → Option (Except Fault Int)
  | .unary op, [value] => some (.ok (op.eval value))
  | .binary op, [left, right] => some (op.eval left right)
  | .relation op, [left, right] => some (.ok (truthNumber (op.holds left right)))
  | .within, [value, lower, upper] =>
      some (.ok (truthNumber (lower ≤ value && value < upper)))
  | _, _ => none

private theorem encode_truthNumber (value : Bool) :
    encode (truthNumber value) = ScriptNumber.ofBool value := by
  cases value <;> decide

/-- What is left of the operands and what is below them. -/
def State.settle {α : Type} (state : State) (below : List Bytes) (done : α) :
    Except Fault Int → EStateM.Result Fault State α
  | .ok value => .ok done (state.withItems (below ++ [encode value]))
  | .error fault => .error fault (state.withItems below)

/-- The forms are read as the numbers. -/
def State.Reads (state : State) (forms : List Bytes) (values : List Int) : Prop :=
  List.Forall₂ (fun form value => ScriptNumber.decodeWithin state.stack.rule form = .ok value)
    forms values

namespace Exec

variable {frame : Frame} {state : State} {below forms : List Bytes} {values : List Int}

/-! ## Runs of the instructions -/

section Operands

variable {first second third : Bytes} {value other last : Int}
  (firstReads : ScriptNumber.decodeWithin state.stack.rule first = .ok value)
  (secondReads : ScriptNumber.decodeWithin state.stack.rule second = .ok other)
  (thirdReads : ScriptNumber.decodeWithin state.stack.rule third = .ok last)

private theorem pushNumber_withItems (frame : Frame) (value : Int) :
    onStack (Stack.pushNumber value) frame (state.withItems below) =
      state.settle below () (.ok value) :=
  push_withItems (encode value)

private theorem pushBool_withItems (value : Bool) :
    onStack (Stack.pushBool value) frame (state.withItems below) =
      state.settle below () (.ok (truthNumber value)) := by
  rw [Stack.pushBool, ← encode_truthNumber]
  exact push_withItems _

include firstReads

private theorem unary_withItems (op : Unary) :
    unary op frame (state.withItems (below ++ [first])) =
      state.settle below () (.ok (op.eval value)) := by
  rw [unary, bind_of_ok (popNumber_withItems firstReads), pushNumber_withItems]

include secondReads

private theorem binary_withItems (op : Binary) :
    binary op frame (state.withItems (below ++ [first, second])) =
      state.settle below () (op.eval value other) := by
  rw [List.append_cons below first [second], binary, bind_of_ok (popNumber_withItems secondReads),
    bind_of_ok (popNumber_withItems firstReads)]
  cases op.eval value other with
  | ok result => exact pushNumber_withItems frame result
  | error fault => rfl

private theorem relation_withItems (op : Relation) :
    relation op frame (state.withItems (below ++ [first, second])) =
      state.settle below () (.ok (truthNumber (op.holds value other))) := by
  rw [List.append_cons below first [second], relation,
    bind_of_ok (popNumber_withItems secondReads), bind_of_ok (popNumber_withItems firstReads),
    pushBool_withItems]

include thirdReads

private theorem within_withItems :
    within frame (state.withItems (below ++ [first, second, third])) =
      state.settle below () (.ok (truthNumber (other ≤ value && value < last))) := by
  rw [List.append_cons below first [second, third], List.append_cons _ second [third], within,
    bind_of_ok (popNumber_withItems thirdReads), bind_of_ok (popNumber_withItems secondReads),
    bind_of_ok (popNumber_withItems firstReads), pushBool_withItems]

end Operands

/-- An instruction that computes with numbers takes exactly its operands and puts the result. -/
private theorem runStraight_evaluate {instruction : Instruction} {outcome : Except Fault Int}
    (frame : Frame) (below : List Bytes) (chunk : Chunk)
    (evaluated : instruction.evaluate values = some outcome) (reads : state.Reads forms values) :
    runStraight instruction chunk frame (state.withItems (below ++ forms)) =
      state.settle below () outcome := by
  unfold Instruction.evaluate at evaluated
  split at evaluated
  · next op value =>
      cases evaluated
      obtain - | ⟨first, - | -⟩ := reads
      exact unary_withItems first op
  · next op left right =>
      cases evaluated
      obtain - | ⟨first, - | ⟨second, - | -⟩⟩ := reads
      exact binary_withItems first second op
  · next op left right =>
      cases evaluated
      obtain - | ⟨first, - | ⟨second, - | -⟩⟩ := reads
      exact relation_withItems first second op
  · next value lower upper =>
      cases evaluated
      obtain - | ⟨first, - | ⟨second, - | ⟨third, - | -⟩⟩⟩ := reads
      exact within_withItems first second third
  · cases evaluated

private theorem runOpcode_evaluate {op : Opcode} {outcome : Except Fault Int} (frame : Frame)
    (below : List Bytes) (evaluated : (Instruction.ofOpcode op).evaluate values = some outcome)
    (reads : state.Reads forms values) :
    runOpcode op frame (state.withItems (below ++ forms)) = state.settle below .next outcome := by
  have other : Instruction.ofOpcode op ≠ .returnEarly := by
    intro same
    rw [same] at evaluated
    cases evaluated
  have ran := runStraight_evaluate frame below (Chunk.ofOpcode op) evaluated reads
  rw [runOpcode, run, if_neg other]
  cases outcome with
  | ok value => rw [bind_of_ok ran]; rfl
  | error fault => rw [bind_of_error ran]; rfl

end Exec

/-! ## The opcodes -/

/-- An outcome is the one exact result, or the refusal of a divisor of zero. -/
inductive Exact (op : Opcode) (values : List Int) : Except Fault Int → Prop where
  | refused (zero : DividesByZero op values) : Exact op values (.error .divideByZero)
  | computed {value : Int} (nonzero : ¬DividesByZero op values)
      (unique : ∀ other, Computes op values other ↔ other = value) : Exact op values (.ok value)

/-- An opcode that does not divide has a result for all numbers. -/
theorem Exact.of_eq {op : Opcode} {values : List Int} {expected value : Int}
    (means : ∀ other, Computes op values other ↔ other = expected)
    (undivided : op ∉ [0x96, 0x97]) (same : expected = value) : Exact op values (.ok value) :=
  .computed (fun divides => undivided divides.1) (same ▸ means)

theorem truthNumber_eq {holds : Prop} [Decidable holds] {value : Bool}
    (reflects : value = true ↔ holds) : (if holds then 1 else 0) = truthNumber value := by
  rw [truthNumber]
  simp only [reflects]

/-- An opcode that divides has a result where the divisor is not zero. -/
private theorem Exact.of_divides {op : Opcode} {dividend divisor result : Int}
    (member : op ∈ [0x96, 0x97])
    (means : divisor ≠ 0 → ∀ other, Computes op [dividend, divisor] other ↔ other = result) :
    Exact op [dividend, divisor] (if divisor = 0 then .error .divideByZero else .ok result) := by
  by_cases zero : divisor = 0
  · rw [if_pos zero]
    exact .refused ⟨member, congrArg some zero⟩
  · rw [if_neg zero]
    exact .computed (fun divides => zero (Option.some.inj divides.2)) (means zero)

private theorem exact_div (dividend divisor : Int) :
    Exact 0x96 [dividend, divisor] (Binary.div.eval dividend divisor) := by
  refine .of_divides (by decide) fun nonzero other => ?_
  constructor
  · rintro ⟨remainder, truncates⟩
    exact ((truncates_iff nonzero).mp truncates).1
  · rintro rfl
    exact ⟨_, (truncates_iff nonzero).mpr ⟨rfl, rfl⟩⟩

private theorem exact_mod (dividend divisor : Int) :
    Exact 0x97 [dividend, divisor] (Binary.mod.eval dividend divisor) := by
  refine .of_divides (by decide) fun nonzero other => ?_
  constructor
  · rintro ⟨quotient, truncates⟩
    exact ((truncates_iff nonzero).mp truncates).2
  · rintro rfl
    exact ⟨_, (truncates_iff nonzero).mpr ⟨rfl, rfl⟩⟩

private theorem exact_one {op : Opcode} (member : op ∈ [0x8b, 0x8c, 0x8f, 0x90, 0x91, 0x92])
    (value : Int) :
    ∃ outcome, (Instruction.ofOpcode op).evaluate [value] = some outcome ∧
      Exact op [value] outcome := by
  simp only [List.mem_cons, List.not_mem_nil, or_false] at member
  rcases member with rfl | rfl | rfl | rfl | rfl | rfl
  · exact ⟨_, rfl, .of_eq (fun _ => Iff.rfl) (by decide) rfl⟩
  · exact ⟨_, rfl, .of_eq (fun _ => Iff.rfl) (by decide) rfl⟩
  · exact ⟨_, rfl, .of_eq (fun _ => Iff.rfl) (by decide) rfl⟩
  · have same : max value (-value) = value.natAbs := by omega
    exact ⟨_, rfl, .of_eq (fun _ => Iff.rfl) (by decide) same⟩
  · exact ⟨_, rfl, .of_eq (fun _ => Iff.rfl) (by decide) (truthNumber_eq beq_iff_eq)⟩
  · exact ⟨_, rfl, .of_eq (fun _ => Iff.rfl) (by decide) (truthNumber_eq bne_iff_ne)⟩

private theorem exact_two {op : Opcode}
    (member : op ∈ [0x93, 0x94, 0x95, 0x96, 0x97, 0x9a, 0x9b, 0x9c,
    0x9e, 0x9f, 0xa0, 0xa1, 0xa2, 0xa3, 0xa4]) (left right : Int) :
    ∃ outcome, (Instruction.ofOpcode op).evaluate [left, right] = some outcome ∧
      Exact op [left, right] outcome := by
  simp only [List.mem_cons, List.not_mem_nil, or_false] at member
  rcases member with rfl | rfl | rfl | rfl | rfl | rfl | rfl | rfl | rfl | rfl | rfl | rfl | rfl |
    rfl | rfl
  · exact ⟨_, rfl, .of_eq (fun _ => Iff.rfl) (by decide) rfl⟩
  · exact ⟨_, rfl, .of_eq (fun _ => Iff.rfl) (by decide) rfl⟩
  · exact ⟨_, rfl, .of_eq (fun _ => Iff.rfl) (by decide) rfl⟩
  · exact ⟨_, rfl, exact_div left right⟩
  · exact ⟨_, rfl, exact_mod left right⟩
  · exact ⟨_, rfl, .of_eq (fun _ => Iff.rfl) (by decide)
      (truthNumber_eq (by simp [Relation.holds]))⟩
  · exact ⟨_, rfl, .of_eq (fun _ => Iff.rfl) (by decide)
      (truthNumber_eq (by simp only [Relation.holds, Bool.or_eq_true, bne_iff_ne]))⟩
  · exact ⟨_, rfl, .of_eq (fun _ => Iff.rfl) (by decide) (truthNumber_eq beq_iff_eq)⟩
  · exact ⟨_, rfl, .of_eq (fun _ => Iff.rfl) (by decide) (truthNumber_eq bne_iff_ne)⟩
  · exact ⟨_, rfl, .of_eq (fun _ => Iff.rfl) (by decide) (truthNumber_eq decide_eq_true_iff)⟩
  · exact ⟨_, rfl, .of_eq (fun _ => Iff.rfl) (by decide) (truthNumber_eq decide_eq_true_iff)⟩
  · exact ⟨_, rfl, .of_eq (fun _ => Iff.rfl) (by decide) (truthNumber_eq decide_eq_true_iff)⟩
  · exact ⟨_, rfl, .of_eq (fun _ => Iff.rfl) (by decide) (truthNumber_eq decide_eq_true_iff)⟩
  · have same : min left right = if left < right then left else right := by omega
    exact ⟨_, rfl, .of_eq (fun _ => Iff.rfl) (by decide) same⟩
  · have same : max left right = if right < left then left else right := by omega
    exact ⟨_, rfl, .of_eq (fun _ => Iff.rfl) (by decide) same⟩

private theorem exact_of_takes {op : Opcode} {values : List Int} (takes : Takes op values.length) :
    ∃ outcome, (Instruction.ofOpcode op).evaluate values = some outcome ∧
      Exact op values outcome := by
  generalize counted : values.length = count at takes
  cases takes with
  | one member =>
      obtain ⟨value, rfl⟩ := List.length_eq_one_iff.mp counted
      exact exact_one member value
  | two member =>
      obtain ⟨left, right, rfl⟩ := List.length_eq_two.mp counted
      exact exact_two member left right
  | three same =>
      obtain ⟨value, lower, upper, rfl⟩ := List.length_eq_three.mp counted
      cases same
      exact ⟨_, rfl, .of_eq (fun _ => Iff.rfl) (by decide) (truthNumber_eq (by simp))⟩

namespace Exec

variable {state : State} {below forms : List Bytes} {values : List Int}

/-- A numeric opcode takes exactly its operands and puts the shortest form of the exact result,
except that a divisor of zero is refused. Other forms of the same numbers change nothing. -/
theorem runOpcode_exact {op : Opcode} (frame : Frame) (takes : Takes op values.length)
    (holds : state.stack.Holds (below ++ forms)) (reads : state.Reads forms values) :
    (DividesByZero op values →
      Fails .divideByZero (state.withItems below) (runOpcode op frame state)) ∧
    (¬DividesByZero op values → ∃ value form,
      (∀ other, Computes op values other ↔ other = value) ∧
      ScriptNumber.IsShortest form value ∧
      runOpcode op frame state = .ok .next (state.withItems (below ++ [form]))) ∧
    ∀ others, state.Reads others values →
      runOpcode op frame (state.withItems (below ++ others)) = runOpcode op frame state := by
  obtain ⟨outcome, evaluated, exact⟩ := exact_of_takes takes
  have ran := runOpcode_evaluate frame below evaluated reads
  rw [← State.eq_withItems holds] at ran
  refine ⟨fun zero => ?_, fun nonzero => ?_, fun others same => ?_⟩
  · cases exact with
    | refused _ =>
        rw [ran]
        exact .fault rfl
    | computed nonzero _ => exact absurd zero nonzero
  · cases exact with
    | refused zero => exact absurd zero nonzero
    | @computed value _ unique =>
        exact ⟨value, encode value, unique, ScriptNumber.isShortest_encode value, ran⟩
  · rw [ran, runOpcode_evaluate frame below evaluated same]

end Exec

/-- The remainder of minus seven by three, the divisor in a form that is not its shortest. -/
theorem runOpcode_exact_remainder :
    let state := State.ofItems ⟨4, false⟩ [[9], [0x87], [3, 0]]
    state.Reads [[0x87], [3, 0]] [-7, 3] ∧ Computes 0x97 [-7, 3] (-1) ∧
      Exec.runOpcode 0x97 (Frame.bare Flags.empty 100) state =
        .ok .next (state.withItems [[9], [0x81]]) ∧
      Exec.runOpcode 0x97 (Frame.bare Flags.empty 100) (state.withItems [[9], [0x87], [3]]) =
        .ok .next (state.withItems [[9], [0x81]]) := by
  intro state
  have long : state.Reads [[0x87], [3, 0]] [-7, 3] := .cons rfl (.cons rfl .nil)
  have short : state.Reads [[0x87], [3]] [-7, 3] := .cons rfl (.cons rfl .nil)
  have computes : Computes 0x97 [-7, 3] (-1) := ⟨-2, by decide, by decide, by decide⟩
  obtain ⟨-, computed, unchanged⟩ := Exec.runOpcode_exact (Frame.bare Flags.empty 100)
    (show Takes 0x97 2 from .two (by decide))
    (show state.stack.Holds ([[9]] ++ [[0x87], [3, 0]]) from State.holds_withItems) long
  obtain ⟨value, form, unique, shortest, ran⟩ := computed fun zero => by
    cases zero.2
  obtain rfl : -1 = value := (unique (-1)).mp computes
  have same : form = [0x81] := by
    by_contra different
    have shorter := shortest.shorter [0x81] (by decide) (Ne.symm different)
    have empty : form = [] := List.length_eq_zero_iff.mp (Nat.lt_one_iff.mp shorter)
    have none := shortest.reads
    rw [empty] at none
    cases none
  subst same
  exact ⟨long, computes, ran, (unchanged _ short).trans ran⟩

end Spend

end BitcoinSpend
