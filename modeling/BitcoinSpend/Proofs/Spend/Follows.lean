import BitcoinSpend.Proofs.Spend.RelaxedRules

/-!
# Runs that follow each other

An operation follows another if it succeeds wherever the other does, from an
agreeing state, with the same value and an agreeing state after it. Failures of
the first operation are not followed.
-/

set_option autoImplicit false

namespace BitcoinSpend.Spend

open MonadExcept (ofExcept)

/-- What the first operation does when it succeeds, the second does from every agreeing state. -/
def Follows {ε σ α : Type} (agree : σ → σ → Prop) (op other : EStateM ε σ α) : Prop :=
  ∀ ⦃state state' : σ⦄, agree state state' → ∀ ⦃value : α⦄ ⦃next : σ⦄,
    op state = .ok value next → ∃ next', other state' = .ok value next' ∧ agree next next'

namespace Follows

variable {ε σ α β : Type} {agree : σ → σ → Prop}

theorem pure (value : α) : Follows agree (Pure.pure value : EStateM ε σ α) (Pure.pure value) := by
  intro state state' related value next ran
  cases ran
  exact ⟨state', rfl, related⟩

theorem throw (cause : ε) (other : EStateM ε σ α) : Follows agree (throw cause) other := by
  intro state state' related value next ran
  cases ran

theorem bind {op other : EStateM ε σ α} {next next' : α → EStateM ε σ β}
    (first : Follows agree op other) (rest : ∀ value, Follows agree (next value) (next' value)) :
    Follows agree (op >>= next) (other >>= next') := by
  intro state state' related result final ran
  simp only [Bind.bind, EStateM.bind] at ran ⊢
  cases opened : op state with
  | error cause middle =>
      rw [opened] at ran
      cases ran
  | ok value middle =>
      rw [opened] at ran
      obtain ⟨middle', opened', agreed⟩ := first related opened
      rw [opened']
      exact rest value agreed ran

theorem get_bind {next next' : σ → EStateM ε σ β}
    (rest : ∀ state state', agree state state' → Follows agree (next state) (next' state')) :
    Follows agree (get >>= next) (get >>= next') := by
  intro state state' related result final ran
  exact rest state state' related related ran

theorem ofExcept_bind {result result' : Except ε α} {next next' : α → EStateM ε σ β}
    (same : ∀ value, result = .ok value → result' = .ok value)
    (rest : ∀ value, Follows agree (next value) (next' value)) :
    Follows agree (ofExcept result >>= next) (ofExcept result' >>= next') := by
  intro state state' related value final ran
  cases found : result with
  | error cause =>
      rw [found] at ran
      cases ran
  | ok middle =>
      rw [found] at ran
      rw [same middle found]
      exact rest middle related ran

theorem ofExcept {result result' : Except ε α}
    (same : ∀ value, result = .ok value → result' = .ok value) :
    Follows agree (ofExcept result : EStateM ε σ α) (ofExcept result') := by
  intro state state' related value final ran
  cases found : result with
  | error cause =>
      rw [found] at ran
      cases ran
  | ok middle =>
      rw [found] at ran
      cases ran
      exact ⟨state', by rw [same value found]; rfl, related⟩

theorem set {state state' : σ} (related : agree state state') :
    Follows agree (set state : EStateM ε σ PUnit) (set state') := by
  intro before before' _ value next ran
  cases ran
  exact ⟨state', rfl, related⟩

end Follows

/-- Two frames at one place, the second under relaxed rules. -/
structure Frame.Relaxes (strict lax : Frame) : Prop where
  setup : strict.setup.Relaxes lax.setup
  phase : lax.phase = strict.phase
  position : lax.position = strict.position

/-- The second operation, under relaxed rules, follows the first. -/
def Exec.Follows {α : Type} (op other : Exec α) : Prop :=
  ∀ ⦃strict lax : Frame⦄, strict.Relaxes lax →
    Spend.Follows State.Relaxes (op strict) (other lax)

namespace Exec.Follows

variable {α β : Type}

theorem pure (value : α) : Follows (Pure.pure value) (Pure.pure value) := by
  intro strict lax frames
  exact Spend.Follows.pure value

theorem throw (fault : Fault) (other : Exec α) : Follows (throw fault) other := by
  intro strict lax frames
  exact Spend.Follows.throw fault (other lax)

theorem bind {op other : Exec α} {next next' : α → Exec β} (first : Follows op other)
    (rest : ∀ value, Follows (next value) (next' value)) :
    Follows (op >>= next) (other >>= next') := by
  intro strict lax frames
  exact (first frames).bind fun value => rest value frames

theorem get_bind {next next' : State → Exec β}
    (rest : ∀ state state', state.Relaxes state' → Follows (next state) (next' state')) :
    Follows (get >>= next) (get >>= next') := by
  intro strict lax frames state state' related value final ran
  exact rest state state' related frames related ran

theorem read_bind {next next' : Frame → Exec β}
    (rest : ∀ strict lax, strict.Relaxes lax → Follows (next strict) (next' lax)) :
    Follows (read >>= next) (read >>= next') := by
  intro strict lax frames
  exact rest strict lax frames frames

theorem setup_bind {next next' : Setup → Exec β}
    (rest : ∀ strict lax, strict.Relaxes lax → Follows (next strict) (next' lax)) :
    Follows (setup >>= next) (setup >>= next') := by
  intro strict lax frames
  exact rest strict.setup lax.setup frames.setup frames

theorem modify {change change' : State → State}
    (keeps : ∀ state state', state.Relaxes state' → (change state).Relaxes (change' state')) :
    Follows (modify change) (modify change') := by
  intro strict lax frames state state' related value next ran
  cases ran
  exact ⟨change' state', rfl, keeps state state' related⟩

theorem set {state state' : State} (related : state.Relaxes state') :
    Follows (set state) (set state') := by
  intro strict lax frames before before' _ value next ran
  cases ran
  exact ⟨state', rfl, related⟩

theorem refuse_bind {condition condition' : Bool} {fault fault' : Fault}
    {next next' : Unit → Exec β} (fewer : condition' = true → condition = true)
    (rest : Follows (next ()) (next' ())) :
    Follows (refuse condition fault >>= next) (refuse condition' fault' >>= next') := by
  intro strict lax frames state state' related value final ran
  cases condition with
  | true => cases ran
  | false =>
      cases condition' with
      | true => cases fewer rfl
      | false => exact rest frames related ran

theorem refuse {condition condition' : Bool} {fault fault' : Fault}
    (fewer : condition' = true → condition = true) :
    Follows (refuse condition fault) (refuse condition' fault') := by
  intro strict lax frames state state' related value final ran
  cases condition with
  | true => cases ran
  | false =>
      cases condition' with
      | true => cases fewer rfl
      | false =>
          cases ran
          exact ⟨state', rfl, related⟩

theorem ofExcept {result result' : Except Fault α}
    (same : ∀ value, result = .ok value → result' = .ok value) :
    Follows (ofExcept result) (ofExcept result') := by
  intro strict lax frames state state' related value final ran
  cases found : result with
  | error fault =>
      rw [found] at ran
      cases ran
  | ok middle =>
      rw [found] at ran
      cases ran
      exact ⟨state', by rw [same value found]; rfl, related⟩

theorem requireContext (instruction : String) :
    Follows (requireContext instruction) (requireContext instruction) := by
  refine setup_bind fun strict lax setups => ?_
  rw [setups.context]
  cases strict.context with
  | some context => exact pure context
  | none => exact throw _ _

theorem ite {condition condition' : Prop} [Decidable condition] [Decidable condition']
    {op op' other other' : Exec α} (same : condition' ↔ condition)
    (positive : condition → Follows op op') (negative : ¬condition → Follows other other') :
    Follows (if condition then op else other) (if condition' then op' else other') := by
  by_cases holds : condition
  · rw [if_pos holds, if_pos (same.mpr holds)]
    exact positive holds
  · rw [if_neg holds, if_neg fun holds' => holds (same.mp holds')]
    exact negative holds

theorem onStack {op other : StackM α} (follows : Spend.Follows Stack.Relaxes op other) :
    Follows (onStack op) (onStack other) := by
  intro strict lax frames state state' related value final ran
  simp only [Exec.onStack] at ran ⊢
  cases opened : op state.stack with
  | error fault stack =>
      rw [opened] at ran
      cases ran
  | ok middle stack =>
      rw [opened] at ran
      cases ran
      obtain ⟨stack', opened', agreed⟩ := follows related.stack opened
      rw [opened']
      exact ⟨_, rfl, { related with stack := agreed }⟩

theorem onAlt {op other : StackM α} (follows : Spend.Follows Stack.Relaxes op other) :
    Follows (onAlt op) (onAlt other) := by
  intro strict lax frames state state' related value final ran
  simp only [Exec.onAlt] at ran ⊢
  cases opened : op state.alt with
  | error fault stack =>
      rw [opened] at ran
      cases ran
  | ok middle stack =>
      rw [opened] at ran
      cases ran
      obtain ⟨stack', opened', agreed⟩ := follows related.alt opened
      rw [opened']
      exact ⟨_, rfl, { related with alt := agreed }⟩

end Exec.Follows

end BitcoinSpend.Spend
