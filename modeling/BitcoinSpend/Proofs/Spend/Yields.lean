import BitcoinSpend.Spend.Execute

/-!
# Operations that yield values with a property

A bound on what an instruction puts may follow from a bound on what it takes. So an
operation is judged by the value that it gives along with the state that it leaves,
and what follows it may rely on both. A failure may leave less than the invariant.
-/

set_option autoImplicit false

namespace BitcoinSpend.Spend

open MonadExcept (ofExcept)

/-- The outcome is a value with the property and a state with the invariant, or a failure that
leaves a state with `failed`. -/
def Outcome.Yields {ε σ α : Type} (invariant failed : σ → Prop) (property : α → Prop) :
    EStateM.Result ε σ α → Prop
  | .ok value next => property value ∧ invariant next
  | .error _ next => failed next

/-- From every state with the invariant the operation yields a value with the property, or fails. -/
def Yields {ε σ α : Type} (invariant failed : σ → Prop) (property : α → Prop)
    (op : EStateM ε σ α) : Prop :=
  ∀ state, invariant state → Outcome.Yields invariant failed property (op state)

namespace Yields

variable {ε σ α β : Type} {invariant failed : σ → Prop} {property : α → Prop} {result : β → Prop}

theorem pure {value : α} (holds : property value) :
    Yields invariant failed property (Pure.pure value : EStateM ε σ α) :=
  fun _ kept => ⟨holds, kept⟩

theorem bind {op : EStateM ε σ α} {next : α → EStateM ε σ β}
    (first : Yields invariant failed property op)
    (rest : ∀ value, property value → Yields invariant failed result (next value)) :
    Yields invariant failed result (op >>= next) := by
  intro state kept
  have outcome := first state kept
  simp only [Bind.bind, EStateM.bind]
  cases ran : op state with
  | ok value middle =>
      rw [ran] at outcome
      exact rest value outcome.1 middle outcome.2
  | error cause middle =>
      rw [ran] at outcome
      exact outcome

theorem imp {weaker : α → Prop} {op : EStateM ε σ α}
    (yields : Yields invariant failed property op)
    (implies : ∀ value, property value → weaker value) :
    Yields invariant failed weaker op := by
  intro state kept
  have outcome := yields state kept
  cases ran : op state with
  | ok value next =>
      rw [ran] at outcome
      exact ⟨implies value outcome.1, outcome.2⟩
  | error cause next =>
      rw [ran] at outcome
      exact outcome

/-- What follows a look at the state may rely on the invariant of the state that it saw. -/
theorem get_bind {next : σ → EStateM ε σ β}
    (rest : ∀ state, invariant state → Yields invariant failed result (next state)) :
    Yields invariant failed result (get >>= next) :=
  fun state kept => rest state kept state kept

theorem ofExcept_bind {computed : Except ε α} {next : α → EStateM ε σ β}
    (weaker : ∀ state, invariant state → failed state)
    (rest : ∀ value, computed = .ok value → Yields invariant failed result (next value)) :
    Yields invariant failed result (ofExcept computed >>= next) := by
  intro state kept
  cases computed with
  | ok value => exact rest value rfl state kept
  | error cause => exact weaker state kept

theorem ofExcept {computed : Except ε α} (weaker : ∀ state, invariant state → failed state)
    (holds : ∀ value, computed = .ok value → property value) :
    Yields invariant failed property (ofExcept computed : EStateM ε σ α) := by
  intro state kept
  cases computed with
  | ok value => exact ⟨holds value rfl, kept⟩
  | error cause => exact weaker state kept

end Yields

end BitcoinSpend.Spend
