import BitcoinSpend.Spend.Execute

/-!
# Operations that keep an invariant

An operation is judged by all of its outcomes: a failure must leave the
invariant as well, and must be one that is allowed. Both properties pass through
sequencing, so an instruction has them as soon as its parts do.
-/

set_option autoImplicit false

namespace BitcoinSpend.Spend

open MonadExcept (ofExcept)

/-- The outcome has the invariant and, if it is a failure, an allowed cause. -/
def Outcome.Keeps {ε σ α : Type} (invariant : σ → Prop) (allowed : ε → Prop) :
    EStateM.Result ε σ α → Prop
  | .ok _ next => invariant next
  | .error cause next => invariant next ∧ allowed cause

/-- Every outcome of the operation has the invariant, and every failure is allowed. -/
def Keeps {ε σ α : Type} (invariant : σ → Prop) (allowed : ε → Prop) (op : EStateM ε σ α) :
    Prop :=
  ∀ state, invariant state → Outcome.Keeps invariant allowed (op state)

namespace Keeps

variable {ε σ α β : Type} {invariant : σ → Prop} {allowed : ε → Prop}

theorem pure (value : α) : Keeps invariant allowed (Pure.pure value : EStateM ε σ α) := by
  intro state holds
  exact holds

theorem throw {cause : ε} (permitted : allowed cause) :
    Keeps invariant allowed (throw cause : EStateM ε σ α) := by
  intro state holds
  exact ⟨holds, permitted⟩

theorem bind {op : EStateM ε σ α} {next : α → EStateM ε σ β}
    (first : Keeps invariant allowed op) (rest : ∀ value, Keeps invariant allowed (next value)) :
    Keeps invariant allowed (op >>= next) := by
  intro state holds
  have outcome := first state holds
  simp only [Bind.bind, EStateM.bind]
  cases ran : op state with
  | ok value middle =>
      rw [ran] at outcome
      exact rest value middle outcome
  | error cause middle =>
      rw [ran] at outcome
      exact outcome

/-- What follows a look at the state may rely on the invariant of the state that it saw. -/
theorem get_bind {next : σ → EStateM ε σ β}
    (rest : ∀ state, invariant state → Keeps invariant allowed (next state)) :
    Keeps invariant allowed (get >>= next) := by
  intro state holds
  exact rest state holds state holds

/-- A look at the state that is followed by a change of the same state. -/
theorem get_run {next : σ → EStateM ε σ β}
    (rest : ∀ state, invariant state → Outcome.Keeps invariant allowed (next state state)) :
    Keeps invariant allowed (get >>= next) :=
  rest

theorem ofExcept_bind {result : Except ε α} {next : α → EStateM ε σ β}
    (failed : ∀ cause, result = .error cause → allowed cause)
    (rest : ∀ value, result = .ok value → Keeps invariant allowed (next value)) :
    Keeps invariant allowed (ofExcept result >>= next) := by
  intro state holds
  cases result with
  | ok value => exact rest value rfl state holds
  | error cause => exact ⟨holds, failed cause rfl⟩

theorem ofExcept {result : Except ε α} (failed : ∀ cause, result = .error cause → allowed cause) :
    Keeps invariant allowed (ofExcept result : EStateM ε σ α) := by
  intro state holds
  cases result with
  | ok value => exact holds
  | error cause => exact ⟨holds, failed cause rfl⟩

end Keeps

/-- An operation of an instruction at a place keeps an invariant. -/
def Exec.Keeps {α : Type} (invariant : State → Prop) (allowed : Fault → Prop) (frame : Frame)
    (op : Exec α) : Prop :=
  Spend.Keeps invariant allowed (op frame)

namespace Exec.Keeps

variable {α β : Type} {invariant : State → Prop} {allowed : Fault → Prop} {frame : Frame}

theorem pure (value : α) : Keeps invariant allowed frame (Pure.pure value) :=
  Spend.Keeps.pure value

theorem throw {fault : Fault} (permitted : allowed fault) :
    Keeps invariant allowed frame (throw fault : Exec α) :=
  Spend.Keeps.throw permitted

theorem bind {op : Exec α} {next : α → Exec β} (first : Keeps invariant allowed frame op)
    (rest : ∀ value, Keeps invariant allowed frame (next value)) :
    Keeps invariant allowed frame (op >>= next) :=
  Spend.Keeps.bind first rest

theorem get_bind {next : State → Exec β}
    (rest : ∀ state, invariant state → Keeps invariant allowed frame (next state)) :
    Keeps invariant allowed frame (get >>= next) := by
  intro state holds
  exact rest state holds state holds

theorem get_run {next : State → Exec β}
    (rest : ∀ state, invariant state → Outcome.Keeps invariant allowed (next state frame state)) :
    Keeps invariant allowed frame (get >>= next) :=
  rest

theorem read_bind {next : Frame → Exec β} (rest : Keeps invariant allowed frame (next frame)) :
    Keeps invariant allowed frame (read >>= next) :=
  rest

theorem setup_bind {next : Setup → Exec β}
    (rest : Keeps invariant allowed frame (next frame.setup)) :
    Keeps invariant allowed frame (setup >>= next) :=
  rest

theorem modify {change : State → State}
    (keeps : ∀ state, invariant state → invariant (change state)) :
    Keeps invariant allowed frame (modify change) := by
  intro state holds
  exact keeps state holds

theorem refuse_bind {condition : Bool} {fault : Fault} {next : Unit → Exec β}
    (permitted : condition = true → allowed fault)
    (rest : condition = false → Keeps invariant allowed frame (next ())) :
    Keeps invariant allowed frame (refuse condition fault >>= next) := by
  intro state holds
  cases condition with
  | false => exact rest rfl state holds
  | true => exact ⟨holds, permitted rfl⟩

theorem refuse {condition : Bool} {fault : Fault} (permitted : condition = true → allowed fault) :
    Keeps invariant allowed frame (refuse condition fault) := by
  intro state holds
  cases condition with
  | false => exact holds
  | true => exact ⟨holds, permitted rfl⟩

theorem ofExcept_bind {result : Except Fault α} {next : α → Exec β}
    (failed : ∀ fault, result = .error fault → allowed fault)
    (rest : ∀ value, result = .ok value → Keeps invariant allowed frame (next value)) :
    Keeps invariant allowed frame (ofExcept result >>= next) := by
  intro state holds
  cases result with
  | ok value => exact rest value rfl state holds
  | error fault => exact ⟨holds, failed fault rfl⟩

theorem ofExcept {result : Except Fault α}
    (failed : ∀ fault, result = .error fault → allowed fault) :
    Keeps invariant allowed frame (ofExcept result) := by
  intro state holds
  cases result with
  | ok value => exact holds
  | error fault => exact ⟨holds, failed fault rfl⟩

theorem requireContext_bind {instruction : String} {next : TxContext → Exec β}
    (missing : ∀ name, allowed (.noContext name))
    (rest : ∀ context, Keeps invariant allowed frame (next context)) :
    Keeps invariant allowed frame (requireContext instruction >>= next) := by
  refine bind ?_ rest
  refine setup_bind ?_
  cases frame.setup.context with
  | some context => exact pure context
  | none => exact throw (missing instruction)

theorem ite {condition : Prop} [Decidable condition] {op other : Exec α}
    (positive : condition → Keeps invariant allowed frame op)
    (negative : ¬condition → Keeps invariant allowed frame other) :
    Keeps invariant allowed frame (if condition then op else other) := by
  by_cases holds : condition
  · rw [if_pos holds]
    exact positive holds
  · rw [if_neg holds]
    exact negative holds

/-- An operation on the main stack keeps what it keeps of the stack, if the rest of the invariant
does not look at the main stack. -/
theorem onStack {op : StackM α} {property : Stack → Prop}
    (keeps : Spend.Keeps property allowed op)
    (enter : ∀ state, invariant state → property state.stack)
    (leave : ∀ state stack, invariant state → property stack →
      invariant { state with stack := stack }) :
    Keeps invariant allowed frame (onStack op) := by
  intro state holds
  have outcome := keeps state.stack (enter state holds)
  simp only [Exec.onStack]
  cases ran : op state.stack with
  | ok value stack =>
      rw [ran] at outcome
      exact leave state stack holds outcome
  | error fault stack =>
      rw [ran] at outcome
      exact ⟨leave state stack holds outcome.1, outcome.2⟩

/-- An operation on the alternative stack keeps what it keeps of the stack, if the rest of the
invariant does not look at the alternative stack. -/
theorem onAlt {op : StackM α} {property : Stack → Prop}
    (keeps : Spend.Keeps property allowed op)
    (enter : ∀ state, invariant state → property state.alt)
    (leave : ∀ state stack, invariant state → property stack →
      invariant { state with alt := stack }) :
    Keeps invariant allowed frame (onAlt op) := by
  intro state holds
  have outcome := keeps state.alt (enter state holds)
  simp only [Exec.onAlt]
  cases ran : op state.alt with
  | ok value stack =>
      rw [ran] at outcome
      exact leave state stack holds outcome
  | error fault stack =>
      rw [ran] at outcome
      exact ⟨leave state stack holds outcome.1, outcome.2⟩

end Exec.Keeps

end BitcoinSpend.Spend
