import BitcoinSpend.Proofs.Spend.OrderedMatching

/-!
# Checks of several signatures

A check of several signatures takes its operands and puts whether each signature is
valid for a key of its own, in the order of the keys. The stack gives it signatures
and keys last first, which makes no difference to that.
-/

set_option autoImplicit false

namespace BitcoinSpend.Spend

/-- The operands of a check of several signatures, deepest first. -/
structure MultiSigOperands where
  /-- Taken from the stack, and nothing more. -/
  dummy : Bytes
  signatures : List Bytes
  /-- The number of signatures, as it is written. -/
  signatureCount : Bytes
  keys : List Bytes
  /-- The number of keys, as it is written. -/
  keyCount : Bytes
  deriving DecidableEq, Repr

/-- The script that signatures checked together commit to. -/
def Frame.committedScript (frame : Frame) (separator : Option Nat) (signatures : List Bytes) :
    Script :=
  let rest := frame.script.drop (afterSeparator separator)
  if (signatures.filterMap List.getLast?).all (usesForkId frame.setup.flags) then
    Script.ofChunks rest
  else Script.ofChunks (stripSignatures signatures rest)

namespace MultiSigOperands

def toList (operands : MultiSigOperands) : List Bytes :=
  operands.dummy :: operands.signatures ++ operands.signatureCount :: operands.keys ++
    [operands.keyCount]

/-- The signatures have keys of their own, in the order of the keys, that they are valid for. -/
def Matched (operands : MultiSigOperands) (frame : Frame) (script : Script) : Prop :=
  ∃ place : Fin operands.signatures.length → Fin operands.keys.length, StrictMono place ∧
    ∀ index, frame.Confirms script operands.signatures[index] operands.keys[place index]

theorem matched_iff_partners (operands : MultiSigOperands) {frame : Frame} {script : Script} :
    operands.Matched frame script ↔
      List.SublistForall₂ (frame.Confirms script) operands.signatures operands.keys :=
  partners_iff_strictMono.symm

/-- The operands are on the stack, above some items, and pass the checks that come before the
search for keys. -/
structure Admitted (operands : MultiSigOperands) (frame : Frame) (state : State)
    (below : List Bytes) : Prop where
  consistent : state.Consistent frame.script.length
  stack : state.stack.toList = below ++ operands.toList
  keyCount : ScriptNumber.decodeWithin state.stack.rule operands.keyCount =
    .ok operands.keys.length
  keysAllowed : operands.keys.length ≤ frame.setup.limits.maxKeys
  opsAllowed : state.opCount + operands.keys.length ≤ frame.setup.limits.maxOps
  signatureCount : ScriptNumber.decodeWithin state.stack.rule operands.signatureCount =
    .ok operands.signatures.length
  enoughKeys : operands.signatures.length ≤ operands.keys.length
  dummy : frame.setup.flags.has Flags.strictMultiSig = true → operands.dummy = []
  /-- Where there are signatures, there is a context without memory, and the check of any of them
  against any of the keys comes to an answer. -/
  context : operands.signatures ≠ [] → ∃ context, frame.setup.context = some context ∧
    context.IsMemoryless ∧ ∀ signature ∈ operands.signatures, ∀ key ∈ operands.keys,
      Exec.Answers frame state context (frame.committedScript state.separator operands.signatures)
        signature key

private theorem toList_reverse (operands : MultiSigOperands) (below : List Bytes) :
    (below ++ operands.toList).reverse =
      operands.keyCount :: (operands.keys.reverse ++ operands.signatureCount ::
        (operands.signatures.reverse ++ operands.dummy :: below.reverse)) := by
  simp [toList]

end MultiSigOperands

/-- The state after a check that has taken its operands, with some items left, bottom first. -/
def State.afterMultiSig (state : State) (keyCount : Nat) (left : List Bytes)
    (asked : List SignatureQuery) : State :=
  { state with
    stack := Stack.ofItems state.stack.rule left.reverse
    opCount := state.opCount + keyCount
    queries := state.queries ++ asked }

@[simp] theorem State.afterMultiSig_separator (state : State) (keyCount : Nat)
    (left : List Bytes) (asked : List SignatureQuery) :
    (state.afterMultiSig keyCount left asked).separator = state.separator := rfl

private theorem stripSignatures_reverse (signatures : List Bytes) (chunks : List Chunk) :
    stripSignatures signatures.reverse chunks = stripSignatures signatures chunks := by
  simp only [stripSignatures, List.any_reverse]

namespace Exec

variable {frame : Frame} {state : State}

/-! ## Operands -/

section Operands

variable {rule : ScriptNumber.Rule} {form : Bytes} {values items : List Bytes}

private theorem popMany_reverse (values : List Bytes) :
    Stack.popMany values.length (Stack.ofItems rule (values.reverse ++ items)) =
      .ok values.reverse (Stack.ofItems rule items) := by
  rw [← List.length_reverse]
  exact Stack.popMany_ofItems values.reverse

private theorem popNumber_of_stack {value : Int}
    (holds : state.stack = Stack.ofItems rule (form :: items))
    (reads : ScriptNumber.decodeWithin rule form = .ok value) :
    onStack Stack.popNumber frame state =
      .ok value { state with stack := Stack.ofItems rule items } :=
  onStack_of_ok (holds ▸ Stack.popNumber_ofItems reads)

private theorem count_allowed_of_le {count limit : Nat} (allowed : count ≤ limit) :
    (decide ((count : Int) < 0) || decide ((limit : Int) < (count : Int))) = false := by
  simp only [Bool.or_eq_false_iff, decide_eq_false_iff_not]
  omega

private theorem popKeys_ofItems
    (holds : state.stack = Stack.ofItems rule (form :: (values.reverse ++ items)))
    (reads : ScriptNumber.decodeWithin rule form = .ok values.length)
    (allowed : values.length ≤ frame.setup.limits.maxKeys)
    (enough : state.opCount + values.length ≤ frame.setup.limits.maxOps) :
    popKeys frame state =
      .ok values.reverse { state with
        stack := Stack.ofItems rule items
        opCount := state.opCount + values.length } := by
  have deep : decide ((Stack.ofItems rule (values.reverse ++ items)).depth < values.length) =
      false := by
    simp [Stack.depth, Stack.ofItems]
  have counted : countOps values.length frame
      { state with stack := Stack.ofItems rule (values.reverse ++ items) } =
        .ok () { state with
          stack := Stack.ofItems rule (values.reverse ++ items)
          opCount := state.opCount + values.length } :=
    countOps_of_le enough
  rw [popKeys, bind_setup, bind_of_ok (popNumber_of_stack holds reads),
    bind_of_ok (refuse_of_false (count_allowed_of_le allowed)),
    bind_of_ok (show (get : Exec State) frame _ = .ok _ _ from rfl), Int.toNat_natCast,
    bind_of_ok (refuse_of_false deep), bind_of_ok counted]
  exact onStack_of_ok (popMany_reverse values)

private theorem popSignatures_ofItems
    (holds : state.stack = Stack.ofItems rule (form :: (values.reverse ++ items)))
    (reads : ScriptNumber.decodeWithin rule form = .ok values.length) {keyCount : Nat}
    (allowed : values.length ≤ keyCount) :
    popSignatures keyCount frame state =
      .ok values.reverse { state with stack := Stack.ofItems rule items } := by
  rw [popSignatures, bind_of_ok (popNumber_of_stack holds reads),
    bind_of_ok (refuse_of_false (count_allowed_of_le allowed)), Int.toNat_natCast]
  exact onStack_of_ok (popMany_reverse values)

end Operands

/-- The order of the signatures does not matter for the script that they commit to. -/
private theorem signingScript_reverse {separator : Option Nat}
    (inside : ∀ index, separator = some index → index < frame.script.length)
    (signatures : List Bytes) {state : State} (same : state.separator = separator) :
    signingScript signatures.reverse
        ((signatures.reverse.filterMap List.getLast?).all (usesForkId frame.setup.flags)) frame
        state =
      .ok (frame.committedScript separator signatures) state := by
  have reached : afterSeparator separator ≤ frame.script.length := by
    cases separator with
    | none => exact Nat.zero_le _
    | some index => exact inside index rfl
  have signed : ∀ isForkId, signedScript frame.script state.separator signatures.reverse isForkId =
      .ok (Script.ofChunks (if isForkId then frame.script.drop (afterSeparator separator)
        else stripSignatures signatures (frame.script.drop (afterSeparator separator)))) := by
    intro isForkId
    rw [← stripSignatures_reverse, same]
    exact bind_eq_ok_iff.mpr ⟨_, suffixFrom_of_le reached, rfl⟩
  have committed := signed ((signatures.filterMap List.getLast?).all (usesForkId frame.setup.flags))
  rw [List.filterMap_reverse, List.all_reverse]
  rw [apply_ite Script.ofChunks] at committed
  exact ofExcept_of_ok committed

/-- What a check of several signatures does once it has taken its operands. -/
def putMatched (keys signatures : List Bytes) : Exec Unit := do
  let setup ← setup
  if signatures.isEmpty then onStack (Stack.pushBool true)
  else
    let context ← requireContext "OP_CHECKMULTISIG"
    let isForkId := (signatures.filterMap List.getLast?).all (usesForkId setup.flags)
    let script ← signingScript signatures isForkId
    let valid ← matchSignatures context script keys signatures
    refuse (!valid && setup.flags.has Flags.nullFail && signatures.any (!·.isEmpty))
      .nullFailCheckMultiSig
    onStack (Stack.pushBool valid)

private theorem checkMultiSig_of_admitted {operands : MultiSigOperands} {below : List Bytes}
    (admitted : operands.Admitted frame state below) :
    checkMultiSig frame state =
      putMatched operands.keys.reverse operands.signatures.reverse frame
        (state.afterMultiSig operands.keys.length below []) := by
  have holds := Stack.eq_ofItems_of_toList admitted.consistent.stack admitted.stack
  rw [operands.toList_reverse] at holds
  have dummyAllowed : (frame.setup.flags.has Flags.strictMultiSig && !operands.dummy.isEmpty) =
      false := by
    cases strict : frame.setup.flags.has Flags.strictMultiSig with
    | true => rw [admitted.dummy strict]; rfl
    | false => rfl
  rw [checkMultiSig, bind_setup,
    bind_of_ok (popKeys_ofItems holds admitted.keyCount admitted.keysAllowed admitted.opsAllowed),
    List.length_reverse,
    bind_of_ok (popSignatures_ofItems rfl admitted.signatureCount admitted.enoughKeys),
    bind_of_ok (onStack_of_ok (Stack.pop_ofItems operands.dummy)),
    bind_of_ok (refuse_of_false dummyAllowed), putMatched, bind_setup, State.afterMultiSig,
    List.append_nil]

/-- A search that comes to an answer decides what is put. -/
private theorem putMatched_of_decides {keys signatures : List Bytes} {context : TxContext}
    {script : Script} {next : State} {valid : Bool} (present : signatures.isEmpty = false)
    (known : frame.setup.context = some context)
    (signed : signingScript signatures
      ((signatures.filterMap List.getLast?).all (usesForkId frame.setup.flags)) frame state =
        .ok script state)
    (ran : matchSignatures context script keys signatures frame state = .ok valid next) :
    putMatched keys signatures frame state =
      if !valid && frame.setup.flags.has Flags.nullFail && signatures.any (!·.isEmpty) then
        .error .nullFailCheckMultiSig next
      else onStack (Stack.pushBool valid) frame next := by
  rw [putMatched, bind_setup, present, if_neg Bool.false_ne_true,
    bind_of_ok (requireContext_of_some known _ _), bind_of_ok signed, bind_of_ok ran]
  cases rejected : !valid && frame.setup.flags.has Flags.nullFail && signatures.any (!·.isEmpty)
  · rw [bind_of_ok (refuse_of_false rfl), if_neg Bool.false_ne_true]
  · rfl

private theorem pushBool_afterMultiSig (frame : Frame) (keyCount : Nat) (below : List Bytes)
    (asked : List SignatureQuery) (valid : Bool) :
    onStack (Stack.pushBool valid) frame (state.afterMultiSig keyCount below asked) =
      .ok () (state.afterMultiSig keyCount (below ++ [ScriptNumber.ofBool valid]) asked) := by
  have onTop : state.afterMultiSig keyCount (below ++ [ScriptNumber.ofBool valid]) asked =
      { state.afterMultiSig keyCount below asked with
        stack := Stack.ofItems state.stack.rule (ScriptNumber.ofBool valid :: below.reverse) } := by
    simp only [State.afterMultiSig, List.reverse_concat]
  rw [onTop]
  exact onStack_of_ok (Stack.push_ofItems _)

/-- Where there are signatures, the search for keys comes to an answer. -/
private theorem matchSignatures_of_admitted {operands : MultiSigOperands} {below : List Bytes}
    (admitted : operands.Admitted frame state below) (present : operands.signatures ≠ []) :
    ∃ context valid asked, frame.setup.context = some context ∧
      (valid = true ↔
        operands.Matched frame (frame.committedScript state.separator operands.signatures)) ∧
      asked.length ≤ operands.keys.length ∧
      matchSignatures context (frame.committedScript state.separator operands.signatures)
          operands.keys.reverse operands.signatures.reverse frame
          (state.afterMultiSig operands.keys.length below []) =
        .ok valid (state.afterMultiSig operands.keys.length below asked) := by
  obtain ⟨context, known, memoryless, answers⟩ := admitted.context present
  have reversed : ∀ signature ∈ operands.signatures.reverse, ∀ key ∈ operands.keys.reverse,
      Answers frame state context (frame.committedScript state.separator operands.signatures)
        signature key := by
    intro signature inside key among
    exact answers signature (List.mem_reverse.mp inside) key (List.mem_reverse.mp among)
  obtain ⟨valid, asked, iff, count, ran⟩ := decides_matchSignatures memoryless known reversed
    (state.afterMultiSig operands.keys.length below [])
  rw [partners_reverse, ← operands.matched_iff_partners] at iff
  rw [List.length_reverse] at count
  refine ⟨context, valid, asked, known, iff, count, ran.trans ?_⟩
  simp only [State.afterMultiSig, List.append_nil]

/-- The check takes its operands and asks at most one question for each key. It puts whether the
signatures are valid for keys of their own, in the order of the keys. Where they are not, it fails
if invalid signatures have to be empty and one of these is not. -/
theorem checkMultiSig_matching {operands : MultiSigOperands} {below : List Bytes}
    (admitted : operands.Admitted frame state below) :
    ∃ valid asked,
      (valid = true ↔
        operands.Matched frame (frame.committedScript state.separator operands.signatures)) ∧
      asked.length ≤ operands.keys.length ∧
      checkMultiSig frame state =
        if !valid && frame.setup.flags.has Flags.nullFail &&
            operands.signatures.any (!·.isEmpty) then
          .error .nullFailCheckMultiSig (state.afterMultiSig operands.keys.length below asked)
        else
          .ok () (state.afterMultiSig operands.keys.length (below ++ [ScriptNumber.ofBool valid])
            asked) := by
  rw [checkMultiSig_of_admitted admitted]
  cases empty : operands.signatures.isEmpty with
  | true =>
      rw [List.isEmpty_iff] at empty
      refine ⟨true, [], ⟨fun _ => ?_, fun _ => rfl⟩, Nat.zero_le _, ?_⟩
      · rw [operands.matched_iff_partners, empty]
        exact .nil
      · rw [empty, Bool.not_true, Bool.false_and, Bool.false_and, if_neg Bool.false_ne_true,
          ← pushBool_afterMultiSig frame]
        rfl
  | false =>
      obtain ⟨context, valid, asked, known, iff, count, ran⟩ :=
        matchSignatures_of_admitted admitted (List.isEmpty_eq_false_iff.mp empty)
      have present : operands.signatures.reverse.isEmpty = false := by
        rw [List.isEmpty_reverse, empty]
      refine ⟨valid, asked, iff, count, ?_⟩
      have signed := signingScript_reverse admitted.consistent.separator operands.signatures
        (state.afterMultiSig_separator operands.keys.length below [])
      rw [putMatched_of_decides present known signed ran, List.any_reverse,
        pushBool_afterMultiSig]

end Exec

/-- A check at the start of a locking script, by a context that compares the first bytes of a
signature and a key. -/
def firstBytesFrame : Frame where
  setup :=
    { sourceTxid := Hash32.zero
      sourceIndex := 0
      unlocking := []
      locking := [⟨0xae, none⟩]
      context := some
        { verifySignature := fun _ query => .ok (query.signature.head? == query.publicKey.head?)
          lockTime := 0
          version := 1
          sequence := fun _ => 0 }
      inputIndex := 0
      flags := Flags.strictMultiSig.union Flags.nullFail
      memoryLimit := 100 }
  phase := .locking
  position := 0

/-- Two signatures, which are valid for the first and the last of three keys. -/
def twoOfThree : MultiSigOperands :=
  ⟨[], [[1, 0x41], [3, 0x41]], [2], [[1], [2], [3]], [3]⟩

theorem checkMultiSig_twoOfThree :
    ∃ state, twoOfThree.Admitted firstBytesFrame state [[9]] ∧
      ∃ asked, asked.length ≤ 3 ∧
        Exec.checkMultiSig firstBytesFrame state =
          .ok () (state.afterMultiSig 3 [[9], [1]] asked) := by
  have admitted : twoOfThree.Admitted firstBytesFrame
      (State.plain firstBytesFrame.setup.numberRule ([[9]] ++ twoOfThree.toList).reverse 1 [])
      [[9]] := by
    constructor
    case consistent => exact ⟨rfl, rfl, rfl, nofun⟩
    case stack => rfl
    case keyCount => decide
    case keysAllowed => decide
    case opsAllowed => decide
    case signatureCount => decide
    case enoughKeys => decide
    case dummy => exact fun _ => rfl
    case context =>
      intro _
      refine ⟨_, rfl, fun _ _ _ => rfl, ?_⟩
      intro signature inside key _
      simp only [twoOfThree, List.mem_cons, List.not_mem_nil, or_false] at inside
      rcases inside with rfl | rfl
      · exact ⟨_, _, rfl⟩
      · exact ⟨_, _, rfl⟩
  have matched : ∀ script, twoOfThree.Matched firstBytesFrame script := by
    intro script
    rw [MultiSigOperands.matched_iff_partners]
    have first : firstBytesFrame.Confirms script [1, 0x41] [1] := ⟨_, _, rfl, rfl, rfl⟩
    have second : firstBytesFrame.Confirms script [3, 0x41] [3] := ⟨_, _, rfl, rfl, rfl⟩
    exact .cons first (.cons_right (.cons second .nil))
  obtain ⟨valid, asked, iff, count, ran⟩ := Exec.checkMultiSig_matching admitted
  rw [iff.mpr (matched _)] at ran
  exact ⟨_, admitted, asked, count, ran⟩

end BitcoinSpend.Spend
