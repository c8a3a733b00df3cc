import Mathlib.Data.Nat.Bitwise
import BitcoinSpend.Proofs.Spend.NumericOpcodes
import BitcoinSpend.Proofs.Spend.StackRules

/-!
# Lock times that a transaction meets

Before the genesis upgrade the two checks accept exactly the operands whose demand the
transaction meets, and touch nothing: the operand stays, and a failure leaves the state as
it was. Operands have up to 40 bits and are compared with fields of 32.
-/

set_option autoImplicit false

namespace BitcoinSpend

/-! ## What is demanded -/

/-- A form of a lock time: a number in at most five bytes that is not negative, in its shortest
form if that is asked for. -/
structure ScriptNumber.IsLockTime (requireMinimal : Bool) (form : Bytes) (value : Nat) : Prop where
  short : form.length ≤ 5
  reads : decode form = value
  minimal : requireMinimal = true → IsShortest form value

theorem ScriptNumber.isMinimal_iff_isShortest {form : Bytes} :
    isMinimal form = true ↔ IsShortest form (decode form) := by
  rw [isMinimal_iff_minimize]
  constructor
  · intro minimal
    have shortest := isShortest_encode (decode form)
    rwa [encode_decode, minimal] at shortest
  · intro shortest
    refine minimize_iff_shortest.mpr fun other same => ?_
    by_cases different : other = form
    · exact Nat.le_of_eq (congrArg List.length different.symm)
    · exact Nat.le_of_lt (shortest.shorter other same different)

/-- Lock times are the numbers that are read within five bytes and are not negative. -/
theorem ScriptNumber.isLockTime_iff {requireMinimal : Bool} {form : Bytes} {value : Nat} :
    IsLockTime requireMinimal form value ↔
      decodeWithin ⟨Spend.lockTimeLength, requireMinimal⟩ form = .ok (value : Int) := by
  have sameLength : Spend.lockTimeLength = 5 := rfl
  simp only [decodeWithin, sameLength]
  constructor
  · rintro ⟨short, reads, minimal⟩
    have admitted : ¬(requireMinimal && !isMinimal form) = true := by
      cases requireMinimal with
      | false => exact Bool.false_ne_true
      | true =>
          have shortest := minimal rfl
          rw [← reads, ← isMinimal_iff_isShortest] at shortest
          simp [shortest]
    rw [if_neg (Nat.not_lt.mpr short), if_neg admitted, reads]
  · intro read
    split at read
    · cases read
    · next short =>
        split at read
        · cases read
        · next admitted =>
            have reads := Except.ok.inj read
            refine ⟨Nat.le_of_not_lt short, reads, fun required => ?_⟩
            rw [← reads, ← isMinimal_iff_isShortest]
            simpa [required] using admitted

namespace Spend

open MonadExcept (ofExcept)

/-- The operand of a check is the top item. -/
def Stack.ShowsLockTime (stack : Stack) (requireMinimal : Bool) (value : Nat) : Prop :=
  ∃ form, stack.toList.getLast? = some form ∧ ScriptNumber.IsLockTime requireMinimal form value

theorem Stack.showsLockTime_iff {stack : Stack} {form : Bytes} {below : List Bytes}
    (items : stack.items = form :: below) {requireMinimal : Bool} {value : Nat} :
    stack.ShowsLockTime requireMinimal value ↔
      ScriptNumber.decodeWithin ⟨lockTimeLength, requireMinimal⟩ form = .ok (value : Int) := by
  have top : stack.toList.getLast? = some form := by
    rw [toList, List.getLast?_reverse, items]
    rfl
  rw [← ScriptNumber.isLockTime_iff]
  constructor
  · rintro ⟨shown, found, isLockTime⟩
    rwa [Option.some.inj (top.symm.trans found)]
  · intro isLockTime
    exact ⟨form, top, isLockTime⟩

private theorem Stack.not_showsLockTime {stack : Stack} (items : stack.items = [])
    {requireMinimal : Bool} {value : Nat} : ¬stack.ShowsLockTime requireMinimal value := by
  rintro ⟨form, found, -⟩
  rw [toList, items] at found
  cases found

/-- The transaction is not final before a height or time. -/
structure TxContext.MeetsLockTime (context : TxContext) (inputIndex value : Nat) : Prop where
  kind : value < 500000000 ↔ context.lockTime.toNat < 500000000
  reached : value ≤ context.lockTime.toNat
  notFinal : context.sequence inputIndex ≠ 0xffffffff

/-- The bits of a relative lock time that count: its unit at bit 22 and the lowest 16. -/
def relativePart (value : Nat) : Nat :=
  2 ^ 22 * (value.testBit 22).toNat + value % 2 ^ 16

/-- An input is older than a number of blocks or of seconds. -/
structure TxContext.MeetsAge (context : TxContext) (inputIndex value : Nat) : Prop where
  version : 2 ≤ context.version
  enabled : (context.sequence inputIndex).toNat.testBit 31 = false
  unit : value.testBit 22 = (context.sequence inputIndex).toNat.testBit 22
  reached : relativePart value ≤ relativePart (context.sequence inputIndex).toNat

/-- An age is demanded only by an operand whose bit 31 is clear. -/
def TxContext.MeetsSequence (context : TxContext) (inputIndex value : Nat) : Prop :=
  value.testBit 31 = true ∨ context.MeetsAge inputIndex value

/-- The outcome accepts with a value exactly on a condition, and leaves the state in any case. -/
inductive Outcome.Tests {α : Type} (value : α) (condition : Prop) (state : State) :
    EStateM.Result Fault State α → Prop where
  | accepted (holds : condition) : Tests value condition state (.ok value state)
  | refused (fails : ¬condition) (fault : Fault) : Tests value condition state (.error fault state)

/-! ## Comparing -/

theorem sequenceDisabledBit_clear_iff {value : Nat} :
    value &&& sequenceDisabledBit = 0 ↔ value.testBit 31 = false := by
  have bit : value &&& sequenceDisabledBit = (value.testBit 31).toNat * 2 ^ 31 :=
    Nat.and_two_pow value 31
  rw [bit]
  cases value.testBit 31 <;> simp

private theorem and_sequenceMask (value : Nat) : value &&& sequenceMask = relativePart value := by
  have parts : sequenceMask = 2 ^ 22 ||| (2 ^ 16 - 1) := by decide
  have low : value % 2 ^ 16 < 2 ^ 22 := Nat.lt_of_lt_of_le (Nat.mod_lt _ (by decide)) (by decide)
  rw [parts, Nat.and_or_distrib_left, Nat.and_two_pow, Nat.and_two_pow_sub_one_eq_mod,
    relativePart, Nat.mul_comm, Nat.two_pow_add_eq_or_of_lt low]

theorem relativePart_lt_iff {value : Nat} :
    relativePart value < sequenceSecondsBit ↔ value.testBit 22 = false := by
  have low : value % 2 ^ 16 < 2 ^ 22 := Nat.lt_of_lt_of_le (Nat.mod_lt _ (by decide)) (by decide)
  have bit : sequenceSecondsBit = 2 ^ 22 := rfl
  rw [relativePart, bit]
  cases value.testBit 22 with
  | false => simpa using low
  | true => simp

theorem compareLockTimes_eq_ok_iff {transaction threshold required : Nat} :
    compareLockTimes transaction threshold required = .ok () ↔
      (required < threshold ↔ transaction < threshold) ∧ required ≤ transaction := by
  have fails (fault : Fault) : (.error fault : Except Fault Unit) ≠ .ok () := by
    intro same
    cases same
  simp only [compareLockTimes]
  by_cases alike : decide (transaction < threshold) = decide (required < threshold)
  · have kind := (decide_eq_decide.mp alike).symm
    rw [if_neg (not_not_intro alike), and_iff_right kind]
    by_cases beyond : transaction < required
    · rw [if_pos beyond]
      exact iff_of_false (fails _) (Nat.not_le.mpr beyond)
    · rw [if_neg beyond]
      exact iff_of_true rfl (Nat.le_of_not_lt beyond)
  · rw [if_pos alike]
    refine iff_of_false (fails _) ?_
    rintro ⟨kind, -⟩
    exact alike (decide_eq_decide.mpr kind.symm)

/-! ## Outcomes that leave the state -/

theorem Outcome.Tests.congr {α : Type} {value : α} {condition condition' : Prop} {state : State}
    {outcome : EStateM.Result Fault State α} (tests : Tests value condition state outcome)
    (same : condition ↔ condition') : Tests value condition' state outcome := by
  cases tests with
  | accepted holds => exact .accepted (same.mp holds)
  | refused fails fault => exact .refused (fun holds => fails (same.mpr holds)) fault

theorem Outcome.Tests.accepts_iff {α : Type} {value : α} {condition : Prop} {state : State}
    {outcome : EStateM.Result Fault State α} (tests : Tests value condition state outcome) :
    outcome = .ok value state ↔ condition := by
  cases tests with
  | accepted holds => exact iff_of_true rfl holds
  | refused fails fault => exact iff_of_false nofun fails

theorem Outcome.Tests.refuses_iff {α : Type} {value : α} {condition : Prop} {state : State}
    {outcome : EStateM.Result Fault State α} (tests : Tests value condition state outcome) :
    (∃ fault, outcome = .error fault state) ↔ ¬condition := by
  cases tests with
  | accepted holds => exact iff_of_false (fun ⟨_, failed⟩ => nomatch failed) (not_not_intro holds)
  | refused fails fault => exact iff_of_true ⟨fault, rfl⟩ fails

namespace Exec

open Outcome (Tests)

variable {frame : Frame} {state : State} {context : TxContext}

private theorem tests_refuse (condition : Bool) (fault : Fault) :
    Tests () (condition = false) state ((refuse condition fault : Exec Unit) frame state) := by
  cases condition with
  | false => exact .accepted rfl
  | true => exact .refused Bool.noConfusion fault

private theorem tests_ofExcept (result : Except Fault Unit) :
    Tests () (result = .ok ()) state ((ofExcept result : Exec Unit) frame state) := by
  cases result with
  | ok => exact .accepted rfl
  | error fault => exact .refused nofun fault

private theorem tests_bind {α : Type} {value : α} {op : Exec Unit} {rest : Unit → Exec α}
    {condition further : Prop} (first : Tests () condition state (op frame state))
    (later : Tests value further state (rest () frame state)) :
    Tests value (condition ∧ further) state ((op >>= rest) frame state) := by
  simp only [bind, ReaderT.bind, EStateM.bind]
  generalize op frame state = outcome at first
  cases first with
  | accepted holds => exact later.congr (and_iff_right holds).symm
  | refused fails fault => exact .refused (fun both => fails both.1) fault

/-! ## The operand -/

private theorem peek_run (frame : Frame) (state : State) : onStack (Stack.peek 0) frame state =
    match state.stack.items with
    | [] => .error (.stackIndex 0 0) state
    | form :: _ => .ok form state := by
  rcases state with
    ⟨⟨items, held, rule⟩, alt, branches, switches, separator, count, returned, asked⟩
  cases items <;> rfl

private theorem readNumber_run (maxLength : Nat) (form : Bytes) (frame : Frame) (state : State) :
    onStack (Stack.readNumber maxLength form) frame state =
      match ScriptNumber.decodeWithin ⟨maxLength, state.stack.rule.requireMinimal⟩ form with
      | .ok value => .ok value state
      | .error cause => .error (.number cause) state := by
  simp only [onStack, Stack.readNumber]
  cases ScriptNumber.decodeWithin ⟨maxLength, state.stack.rule.requireMinimal⟩ form <;> rfl

/-- What follows the operand tests it if the stack shows one, and nothing else does. -/
private theorem tests_peekLockTime {α : Type} {result : α} {rest : Nat → Exec α} {met : Nat → Prop}
    (operand : String)
    (tests : ∀ value, Tests result (met value) state (rest value frame state)) :
    Tests result
      (∃ value, state.stack.ShowsLockTime state.stack.rule.requireMinimal value ∧ met value) state
      ((peekLockTime operand >>= rest) frame state) := by
  have peeked := peek_run frame state
  cases items : state.stack.items with
  | nil =>
      rw [items] at peeked
      rw [peekLockTime, bind_assoc, bind_of_error peeked]
      exact .refused (fun ⟨_, shows, _⟩ => Stack.not_showsLockTime items shows) _
  | cons form below =>
      have read := readNumber_run lockTimeLength form frame state
      rw [items] at peeked
      rw [peekLockTime, bind_assoc, bind_of_ok peeked, bind_assoc]
      simp only [Stack.showsLockTime_iff items]
      cases decoded : ScriptNumber.decodeWithin
          ⟨lockTimeLength, state.stack.rule.requireMinimal⟩ form with
      | error cause =>
          rw [decoded] at read
          rw [bind_of_error read]
          exact .refused (fun ⟨_, reads, _⟩ => nomatch reads) _
      | ok number =>
          rw [decoded] at read
          rw [bind_of_ok read, bind_assoc, refuse_bind_run]
          by_cases negative : number < 0
          · rw [if_pos (decide_eq_true negative)]
            refine .refused ?_ _
            rintro ⟨value, reads, -⟩
            have same := Except.ok.inj reads
            omega
          · rw [if_neg (by simpa using negative), pure_bind]
            refine (tests number.toNat).congr ⟨fun meets => ?_, ?_⟩
            · have same := Int.toNat_of_nonneg (Int.not_lt.mp negative)
              exact ⟨number.toNat, congrArg Except.ok same.symm, meets⟩
            · rintro ⟨value, reads, meets⟩
              have same := Except.ok.inj reads
              rwa [same, Int.toNat_natCast]

/-! ## The checks -/

private theorem tests_checkLockTime (known : frame.setup.context = some context)
    (before : frame.setup.afterGenesis = false)
    (asked : frame.setup.flags.has Flags.checkLockTime = true) (state : State) :
    Tests () (∃ value, state.stack.ShowsLockTime state.stack.rule.requireMinimal value ∧
      context.MeetsLockTime frame.setup.inputIndex value) state (checkLockTime frame state) := by
  have inForce : (!frame.setup.flags.has Flags.checkLockTime || frame.setup.afterGenesis) =
      false := by rw [asked, before]; rfl
  rw [checkLockTime, whereInForce, bind_setup, inForce, if_neg Bool.false_ne_true, bind_setup,
    bind_of_ok (requireContext_of_some known _ _)]
  refine tests_peekLockTime _ fun value => ?_
  refine (tests_bind (tests_ofExcept _) (tests_refuse _ _)).congr ?_
  rw [compareLockTimes_eq_ok_iff, decide_eq_false_iff_not]
  constructor
  · rintro ⟨⟨kind, reached⟩, notFinal⟩
    exact ⟨kind, reached, notFinal⟩
  · rintro ⟨kind, reached, notFinal⟩
    exact ⟨⟨kind, reached⟩, notFinal⟩

private theorem tests_checkSequence (known : frame.setup.context = some context)
    (before : frame.setup.afterGenesis = false)
    (asked : frame.setup.flags.has Flags.checkSequence = true) (state : State) :
    Tests () (∃ value, state.stack.ShowsLockTime state.stack.rule.requireMinimal value ∧
      context.MeetsSequence frame.setup.inputIndex value) state (checkSequence frame state) := by
  have inForce : (!frame.setup.flags.has Flags.checkSequence || frame.setup.afterGenesis) =
      false := by rw [asked, before]; rfl
  rw [checkSequence, whereInForce, bind_setup, inForce, if_neg Bool.false_ne_true, bind_setup,
    bind_of_ok (requireContext_of_some known _ _)]
  refine tests_peekLockTime _ fun value => ?_
  cases disabled : value.testBit 31 with
  | true =>
      have notClear : ¬value &&& sequenceDisabledBit = 0 := by
        rw [sequenceDisabledBit_clear_iff, disabled]
        exact Bool.noConfusion
      rw [if_neg notClear]
      exact .accepted (.inl disabled)
  | false =>
      rw [if_pos (sequenceDisabledBit_clear_iff.mpr disabled)]
      refine (tests_bind (tests_refuse _ _)
        (tests_bind (tests_refuse _ _) (tests_ofExcept _))).congr ?_
      rw [compareLockTimes_eq_ok_iff, and_sequenceMask, and_sequenceMask, relativePart_lt_iff,
        relativePart_lt_iff, decide_eq_false_iff_not, UInt32.not_lt, bne_eq_false_iff_eq,
        sequenceDisabledBit_clear_iff]
      constructor
      · rintro ⟨version, enabled, unit, reached⟩
        exact .inr ⟨version, enabled, Bool.eq_iff_iff.mpr (by simpa using not_congr unit), reached⟩
      · rintro (isDisabled | ⟨version, enabled, unit, reached⟩)
        · rw [disabled] at isDisabled
          cases isDisabled
        · exact ⟨version, enabled, by rw [unit], reached⟩

private theorem tests_runOpcode {op : Opcode} {instruction : Instruction} {condition : Prop}
    (means : Instruction.ofOpcode op = instruction) (other : instruction ≠ .returnEarly)
    (tests : Tests () condition state
      (runStraight instruction (Chunk.ofOpcode op) frame state)) :
    Tests .next condition state (runOpcode op frame state) := by
  have goesOn : Tests Flow.next True state ((pure .next : Exec Flow) frame state) :=
    .accepted trivial
  rw [runOpcode, means, run, if_neg other]
  exact (tests_bind tests goesOn).congr (and_iff_left trivial)

end Exec

open Outcome (Tests) in
/-- Before the genesis upgrade each check accepts exactly the lock times that the transaction meets.
It is judged in any state that has the stack of a machine that calls have led to, and leaves that
state as it is whether it accepts or not. -/
theorem lockTimes_exact {request : Request} {machine : Machine}
    (reached : request.Reaches machine) {context : TxContext}
    (known : machine.setup.context = some context) (before : machine.setup.afterGenesis = false)
    {frame : Frame} {state : State} (here : frame.setup = machine.setup)
    (sameStack : state.stack = machine.state.stack) :
    let shows := machine.state.stack.ShowsLockTime (machine.setup.flags.has Flags.minimalData)
    (machine.setup.flags.has Flags.checkLockTime = true →
      Tests .next (∃ value, shows value ∧ context.MeetsLockTime machine.setup.inputIndex value)
        state (Exec.runOpcode Opcode.checkLockTime frame state)) ∧
    (machine.setup.flags.has Flags.checkSequence = true →
      Tests .next (∃ value, shows value ∧ context.MeetsSequence machine.setup.inputIndex value)
        state (Exec.runOpcode Opcode.checkSequence frame state)) := by
  intro shows
  have rule : state.stack.rule = machine.setup.numberRule := by
    rw [sameStack]
    exact congrArg Prod.fst reached.ruled
  have required : state.stack.rule.requireMinimal =
      machine.setup.flags.has Flags.minimalData := congrArg ScriptNumber.Rule.requireMinimal rule
  rw [← here] at known before
  constructor
  · intro asked
    rw [← here] at asked
    have tests := Exec.tests_checkLockTime known before asked state
    rw [required, sameStack, here] at tests
    exact Exec.tests_runOpcode rfl nofun tests
  · intro asked
    rw [← here] at asked
    have tests := Exec.tests_checkSequence known before asked state
    rw [required, sameStack, here] at tests
    exact Exec.tests_runOpcode rfl nofun tests

/-- An age of five units of 512 seconds that is pushed in five bytes, with a bit above the 32 of a
sequence number. -/
def longAge : Request where
  sourceTxid := Hash32.zero
  sourceIndex := 0
  unlocking := ⟨[0x05, 0x05, 0x00, 0x40, 0x00, 0x01]⟩
  locking := ⟨[0xb2]⟩
  context := some ⟨fun _ _ => .ok false, 0xffffffff, 2, fun _ => 0x00400005⟩
  inputIndex := 0
  flags := (Flags.checkLockTime.union Flags.checkSequence).union Flags.minimalData
  memoryLimit := 100

/-- The input is old enough, but no lock time reaches so far. -/
theorem lockTimes_exact_longAge : ∃ machine context, longAge.Reaches machine ∧
    machine.setup.context = some context ∧ machine.setup.afterGenesis = false ∧
    machine.setup.flags.has Flags.checkLockTime = true ∧
    machine.setup.flags.has Flags.checkSequence = true ∧
    machine.state.stack.toList = [[0x05, 0x00, 0x40, 0x00, 0x01]] ∧
    Exec.runOpcode Opcode.checkSequence machine.frame machine.state = .ok .next machine.state ∧
    ∃ fault, Exec.runOpcode Opcode.checkLockTime machine.frame machine.state =
      .error fault machine.state := by
  have started : longAge.start = .ok (Machine.initial
      (longAge.setup [⟨0x05, some [0x05, 0x00, 0x40, 0x00, 0x01]⟩] [⟨0xb2, none⟩])) := by cbv
  have reached := (Request.Reaches.start started).call .step
  generalize left : Outcome.left _ = machine at reached
  have items : machine.state.stack.items = [[0x05, 0x00, 0x40, 0x00, 0x01]] := by
    rw [← left]
    decide +kernel
  have setup : machine.setup = longAge.setup [⟨0x05, some [0x05, 0x00, 0x40, 0x00, 0x01]⟩]
      [⟨0xb2, none⟩] := by
    rw [← left]
    exact (Machine.left_step _).1
  have known : machine.setup.context = some ⟨fun _ _ => .ok false, 0xffffffff, 2,
      fun _ => 0x00400005⟩ := congrArg Setup.context setup
  have before : machine.setup.afterGenesis = false := by
    rw [setup]
    decide
  have asksLockTime : machine.setup.flags.has Flags.checkLockTime = true := by
    rw [setup]
    decide
  have asksSequence : machine.setup.flags.has Flags.checkSequence = true := by
    rw [setup]
    decide
  have shows (value : Nat) : machine.state.stack.ShowsLockTime
      (machine.setup.flags.has Flags.minimalData) value ↔ 0x0100400005 = value := by
    have required : machine.setup.flags.has Flags.minimalData = true := by
      rw [setup]
      decide
    have reads : ScriptNumber.decodeWithin ⟨lockTimeLength, true⟩
        [0x05, 0x00, 0x40, 0x00, 0x01] = .ok ((0x0100400005 : Nat) : Int) := by cbv
    rw [Stack.showsLockTime_iff items, required, reads, Except.ok.injEq, Int.natCast_inj]
  have here : machine.frame.setup = machine.setup := rfl
  obtain ⟨lockTime, sequence⟩ := lockTimes_exact reached known before here rfl
  refine ⟨machine, _, reached, known, before, asksLockTime, asksSequence, ?_, ?_, ?_⟩
  · rw [Stack.toList, items]
    rfl
  · refine (sequence asksSequence).accepts_iff.mpr ⟨0x0100400005, (shows _).mpr rfl, .inr ?_⟩
    rw [show machine.setup.inputIndex = 0 from congrArg Setup.inputIndex setup]
    exact ⟨by decide, by decide, by decide, by decide⟩
  · refine (lockTime asksLockTime).refuses_iff.mpr ?_
    rintro ⟨value, shown, meets⟩
    obtain rfl := (shows value).mp shown
    exact absurd meets.reached (by decide)

end Spend

end BitcoinSpend
