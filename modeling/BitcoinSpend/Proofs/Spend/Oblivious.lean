import BitcoinSpend.Proofs.Spend.Keeps

/-!
# Operations that see only what is running

An instruction sees the running script alone of the two scripts, and nothing of
the questions asked before it if the answers do not depend on them. So it does the
same in two runs that differ in nothing else, whether it succeeds or fails. Both
runs keep the rule under which their stacks read numbers.
-/

set_option autoImplicit false

namespace BitcoinSpend.Spend

open MonadExcept (ofExcept)

/-- Two outcomes of one kind, with one value or cause, that leave agreeing states. -/
inductive Outcome.Agree {ε σ α : Type} (agree : σ → σ → Prop) :
    EStateM.Result ε σ α → EStateM.Result ε σ α → Prop where
  | ok (value : α) {next next' : σ} (agreed : agree next next') :
      Agree agree (.ok value next) (.ok value next')
  | error (cause : ε) {next next' : σ} (agreed : agree next next') :
      Agree agree (.error cause next) (.error cause next')

namespace Outcome.Agree

variable {ε σ α : Type} {agree : σ → σ → Prop} {outcome : EStateM.Result ε σ α} {next : σ}

theorem of_ok {value : α} (agreed : Agree agree (.ok value next) outcome) :
    ∃ next', outcome = .ok value next' ∧ agree next next' := by
  cases agreed with
  | ok value same => exact ⟨_, rfl, same⟩

theorem of_error {cause : ε}
    (agreed : Agree agree (.error cause next : EStateM.Result ε σ α) outcome) :
    ∃ next', outcome = .error cause next' ∧ agree next next' := by
  cases agreed with
  | error cause same => exact ⟨_, rfl, same⟩

end Outcome.Agree

/-- From agreeing states the two operations have agreeing outcomes. -/
def InStep {ε σ α : Type} (agree : σ → σ → Prop) (op other : EStateM ε σ α) : Prop :=
  ∀ ⦃state state' : σ⦄, agree state state' → Outcome.Agree agree (op state) (other state')

theorem InStep.bind {ε σ α β : Type} {agree : σ → σ → Prop} {op other : EStateM ε σ α}
    {next next' : α → EStateM ε σ β} (first : InStep agree op other)
    (rest : ∀ value, InStep agree (next value) (next' value)) :
    InStep agree (op >>= next) (other >>= next') := by
  intro state state' related
  have outcomes := first related
  simp only [Bind.bind, EStateM.bind]
  generalize op state = outcome at outcomes
  generalize other state' = outcome' at outcomes
  cases outcomes with
  | ok value agreed => exact rest value agreed
  | error cause agreed => exact .error cause agreed

/-- Frames that differ at most in the unlocking script, and in that only once it has run. -/
structure Frame.SameView (frame frame' : Frame) : Prop where
  unlocking : ∃ unlocking,
    frame' = { frame with setup := { frame.setup with unlocking := unlocking } }
  script : frame'.script = frame.script
  memoryless : ∀ context, frame.setup.context = some context → context.IsMemoryless

/-- States that differ at most in the questions asked so far, and whose stacks read numbers under
one rule. -/
structure State.SameView (rule : ScriptNumber.Rule) (state state' : State) : Prop where
  asked : ∃ queries, state' = { state with queries := queries }
  stack : state.stack.rule = rule
  alt : state.alt.rule = rule

/-- The operation does the same in two runs with one view. -/
def Exec.Oblivious {α : Type} (op : Exec α) : Prop :=
  ∀ ⦃frame frame' : Frame⦄, frame.SameView frame' → ∀ rule : ScriptNumber.Rule,
    InStep (State.SameView rule) (op frame) (op frame')

/-! ## The rule of a stack -/

namespace Stack

/-- The operation leaves the rule under which the stack reads numbers. -/
abbrev KeepsRule {α : Type} (op : StackM α) : Prop :=
  ∀ rule : ScriptNumber.Rule, Keeps (fun stack => stack.rule = rule) (fun _ => True) op

theorem keepsRule_push (item : Bytes) : KeepsRule (push item) := by
  intro rule stack same
  exact same

theorem keepsRule_peek (index : Nat) : KeepsRule (peek index) :=
  fun _ => .get_bind fun _ _ => .ofExcept fun _ _ => trivial

theorem keepsRule_remove (index : Nat) : KeepsRule (remove index) := by
  refine fun rule => .get_run fun stack same => ?_
  cases stack.itemBelow index with
  | error fault => exact ⟨same, trivial⟩
  | ok item =>
      simp only [ofExcept, pure_bind]
      cases difference stack.held item.length with
      | error fault => exact ⟨same, trivial⟩
      | ok held => exact same

theorem keepsRule_readNumber (maxLength : Nat) (item : Bytes) :
    KeepsRule (readNumber maxLength item) := by
  intro rule stack same
  simp only [readNumber]
  cases ScriptNumber.decodeWithin { stack.rule with maxLength := maxLength } item with
  | ok value => exact same
  | error cause => exact ⟨same, trivial⟩

theorem keepsRule_pop : KeepsRule pop :=
  keepsRule_remove 0

theorem keepsRule_popNumber : KeepsRule popNumber :=
  fun rule => (keepsRule_pop rule).bind fun item =>
    .get_bind fun stack _ => keepsRule_readNumber stack.rule.maxLength item rule

theorem keepsRule_popBool : KeepsRule popBool :=
  fun rule => (keepsRule_pop rule).bind fun item => .pure (ScriptNumber.isTrue item)

theorem keepsRule_popMany (count : Nat) : KeepsRule (popMany count) := by
  intro rule
  induction count with
  | zero => exact .pure []
  | succ count ih =>
      exact (keepsRule_pop rule).bind fun item => ih.bind fun items => .pure (item :: items)

private theorem keepsRule_repeatOp {op : StackM Unit} (keeps : KeepsRule op) (count : Nat) :
    KeepsRule (repeatOp op count) := by
  intro rule
  induction count with
  | zero => exact .pure ()
  | succ count ih => exact (keeps rule).bind fun _ => ih

theorem keepsRule_pick (index : Nat) : KeepsRule (pick index) :=
  fun rule => (keepsRule_peek index rule).bind fun item => keepsRule_push item rule

theorem keepsRule_roll (index : Nat) : KeepsRule (roll index) :=
  fun rule => (keepsRule_remove index rule).bind fun item => keepsRule_push item rule

theorem keepsRule_tuck : KeepsRule tuck := by
  intro rule
  refine (keepsRule_pop rule).bind fun top => (keepsRule_pop rule).bind fun below => ?_
  refine (keepsRule_push top rule).bind fun _ => (keepsRule_push below rule).bind fun _ => ?_
  exact keepsRule_push top rule

theorem keepsRule_dropBlock (count : Nat) : KeepsRule (dropBlock count) := by
  intro rule
  refine .get_bind fun stack _ => ?_
  split
  · exact .ofExcept_bind (fun _ _ => trivial) fun last _ => .throw trivial
  · exact (keepsRule_popMany count rule).bind fun _ => .pure ()

/-- Repeating an operation at a distance that may be out of range. -/
private theorem keepsRule_repeatAt {op : Nat → StackM Unit} (keeps : ∀ index, KeepsRule (op index))
    (distance : Except Fault Nat) (count : Nat) :
    KeepsRule (do let last ← ofExcept distance; repeatOp (op last) count) :=
  fun rule => .ofExcept_bind (fun _ _ => trivial) fun last _ =>
    keepsRule_repeatOp (keeps last) count rule

theorem keepsRule_dupBlock (count : Nat) : KeepsRule (dupBlock count) :=
  keepsRule_repeatOp
    (fun rule => .ofExcept_bind (fun _ _ => trivial) fun last _ => keepsRule_pick last rule) count

theorem keepsRule_rotBlock (count : Nat) : KeepsRule (rotBlock count) :=
  keepsRule_repeatAt keepsRule_roll _ count

theorem keepsRule_swapBlock (count : Nat) : KeepsRule (swapBlock count) :=
  keepsRule_repeatAt keepsRule_roll _ count

theorem keepsRule_overBlock (count : Nat) : KeepsRule (overBlock count) :=
  keepsRule_repeatAt keepsRule_pick _ count

end Stack

/-! ## Parts of instructions -/

theorem Exec.requireContext_run (instruction : String) (frame : Frame) (state : State) :
    requireContext instruction frame state =
      match frame.setup.context with
      | some context => .ok context state
      | none => .error (.noContext instruction) state := by
  have opened : requireContext instruction frame state =
      (match frame.setup.context with
      | some context => pure context
      | none => throw (.noContext instruction) : Exec TxContext) frame state := rfl
  rw [opened]
  cases frame.setup.context <;> rfl

namespace Exec.Oblivious

variable {α β : Type}

theorem pure (value : α) : Oblivious (Pure.pure value) := by
  intro frame frame' view rule state state' related
  exact .ok value related

theorem throw (fault : Fault) : Oblivious (throw fault : Exec α) := by
  intro frame frame' view rule state state' related
  exact .error fault related

theorem bind {op : Exec α} {next : α → Exec β} (first : Oblivious op)
    (rest : ∀ value, Oblivious (next value)) : Oblivious (op >>= next) := by
  intro frame frame' view rule
  exact (first view rule).bind fun value => rest value view rule

/-- What follows a look at the state must not depend on the questions in it. -/
theorem get_bind {next : State → Exec β}
    (same : ∀ state queries, next { state with queries := queries } = next state)
    (rest : ∀ state, Oblivious (next state)) : Oblivious (get >>= next) := by
  intro frame frame' view rule state state' related
  obtain ⟨queries, rfl⟩ := related.asked
  have looked : Outcome.Agree (State.SameView rule) (next state frame state)
      (next { state with queries := queries } frame' { state with queries := queries }) := by
    rw [same state queries]
    exact rest state view rule related
  exact looked

/-- What follows a look at the setup must not depend on the unlocking script in it. -/
theorem setup_bind {next : Setup → Exec β}
    (same : ∀ setup unlocking, next { setup with unlocking := unlocking } = next setup)
    (rest : ∀ setup, Oblivious (next setup)) : Oblivious (setup >>= next) := by
  intro frame frame' view rule state state' related
  have seen : next frame'.setup = next frame.setup := by
    obtain ⟨unlocking, rfl⟩ := view.unlocking
    exact same frame.setup unlocking
  have looked : Outcome.Agree (State.SameView rule) (next frame.setup frame state)
      (next frame'.setup frame' state') := by
    rw [seen]
    exact rest frame.setup view rule related
  exact looked

theorem requireContext_bind {instruction : String} {next : TxContext → Exec β}
    (rest : ∀ context : TxContext, context.IsMemoryless → Oblivious (next context)) :
    Oblivious (requireContext instruction >>= next) := by
  intro frame frame' view rule state state' related
  have seen : frame'.setup.context = frame.setup.context := by
    obtain ⟨unlocking, rfl⟩ := view.unlocking
    rfl
  simp only [Bind.bind, ReaderT.bind, EStateM.bind, requireContext_run, seen]
  cases found : frame.setup.context with
  | some context => exact rest context (view.memoryless context found) view rule related
  | none => exact .error (Fault.noContext instruction) related

theorem modify {change : State → State}
    (same : ∀ state queries,
      change { state with queries := queries } = { change state with queries := queries })
    (stack : ∀ state, (change state).stack = state.stack)
    (alt : ∀ state, (change state).alt = state.alt) : Oblivious (modify change) := by
  intro frame frame' view rule state state' related
  obtain ⟨queries, rfl⟩ := related.asked
  refine .ok () ⟨⟨queries, same state queries⟩, ?_, ?_⟩
  · rw [stack]
    exact related.stack
  · rw [alt]
    exact related.alt

theorem ofExcept (result : Except Fault α) : Oblivious (ofExcept result) := by
  cases result with
  | ok value => exact pure value
  | error fault => exact throw fault

theorem refuse (condition : Bool) (fault : Fault) : Oblivious (refuse condition fault) := by
  cases condition with
  | false => exact pure ()
  | true => exact throw fault

theorem ite {condition : Prop} [Decidable condition] {op other : Exec α} (positive : Oblivious op)
    (negative : Oblivious other) : Oblivious (if condition then op else other) := by
  split
  · exact positive
  · exact negative

theorem onStack {op : StackM α} (keeps : Stack.KeepsRule op) : Oblivious (onStack op) := by
  intro frame frame' view rule state state' related
  obtain ⟨queries, rfl⟩ := related.asked
  have kept := keeps rule state.stack related.stack
  simp only [Exec.onStack]
  cases ran : op state.stack with
  | ok value stack =>
      rw [ran] at kept
      exact .ok value ⟨⟨queries, rfl⟩, kept, related.alt⟩
  | error fault stack =>
      rw [ran] at kept
      exact .error fault ⟨⟨queries, rfl⟩, kept.1, related.alt⟩

theorem onAlt {op : StackM α} (keeps : Stack.KeepsRule op) : Oblivious (onAlt op) := by
  intro frame frame' view rule state state' related
  obtain ⟨queries, rfl⟩ := related.asked
  have kept := keeps rule state.alt related.alt
  simp only [Exec.onAlt]
  cases ran : op state.alt with
  | ok value stack =>
      rw [ran] at kept
      exact .ok value ⟨⟨queries, rfl⟩, related.stack, kept⟩
  | error fault stack =>
      rw [ran] at kept
      exact .error fault ⟨⟨queries, rfl⟩, related.stack, kept.1⟩

end Exec.Oblivious

end BitcoinSpend.Spend
