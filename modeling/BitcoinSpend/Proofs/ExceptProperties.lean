import BitcoinSpend.Bytes

/-!
# Computations that succeed

When a computation that may fail gives a value, in terms of its parts, and how one
goes on.
-/

set_option autoImplicit false

namespace BitcoinSpend

theorem bind_eq_ok_iff {ε α β : Type} {result : Except ε α} {next : α → Except ε β} {value : β} :
    result >>= next = .ok value ↔ ∃ middle, result = .ok middle ∧ next middle = .ok value := by
  cases result with
  | error cause => exact ⟨nofun, nofun⟩
  | ok middle => simp [bind, Except.bind]

theorem ok_bind {ε α β : Type} (value : α) (next : α → Except ε β) :
    (Except.ok value >>= next) = next value := rfl

/-- A result is used where there is a state, which a failure leaves as it is. -/
theorem ofExcept_bind_run {ε σ α β : Type} (result : Except ε α) (next : α → EStateM ε σ β)
    (state : σ) : (MonadExcept.ofExcept result >>= next) state =
      match result with
      | .ok value => next value state
      | .error cause => .error cause state := by
  cases result <;> rfl

theorem mapError_eq_ok_iff {ε ε' α : Type} {result : Except ε α} {wrap : ε → ε'} {value : α} :
    result.mapError wrap = .ok value ↔ result = .ok value := by
  cases result with
  | error cause => exact ⟨nofun, nofun⟩
  | ok found =>
      constructor
      · intro same
        cases same
        rfl
      · intro same
        cases same
        rfl

theorem map_eq_ok_iff {ε α β : Type} {result : Except ε α} {change : α → β} {value : β} :
    result.map change = .ok value ↔ ∃ found, result = .ok found ∧ change found = value := by
  cases result with
  | error cause => exact ⟨nofun, nofun⟩
  | ok found => simp [Except.map]

theorem map_eq_error_iff {ε α β : Type} {result : Except ε α} {change : α → β} {cause : ε} :
    result.map change = .error cause ↔ result = .error cause := by
  cases result with
  | error found => simp [Except.map]
  | ok value => exact ⟨nofun, nofun⟩

theorem toOption_eq_some_iff {ε α : Type} {result : Except ε α} {value : α} :
    result.toOption = some value ↔ result = .ok value := by
  cases result with
  | error cause => exact ⟨nofun, nofun⟩
  | ok found => simp [Except.toOption]

theorem forM_eq_ok_iff {ε α : Type} {check : α → Except ε Unit} {items : List α} {done : Unit} :
    items.forM check = .ok done ↔ ∀ item ∈ items, check item = .ok () := by
  induction items with
  | nil => simp [List.forM, pure, Except.pure]
  | cons item rest ih =>
      simp only [List.forM, bind_eq_ok_iff, ih, List.forall_mem_cons]
      constructor
      · rintro ⟨_, passed, later⟩
        exact ⟨passed, later⟩
      · rintro ⟨passed, later⟩
        exact ⟨(), passed, later⟩

theorem forall_mem_zipIdx_iff {α : Type} {items : List α} {property : α × Nat → Prop} :
    (∀ item ∈ items.zipIdx, property item) ↔
      ∀ (index : Nat) (item : α), items[index]? = some item → property (item, index) := by
  constructor
  · intro holds index item found
    exact holds (item, index) (List.mk_mem_zipIdx_iff_getElem?.mpr found)
  · rintro holds ⟨item, index⟩ member
    exact holds index item (List.mk_mem_zipIdx_iff_getElem?.mp member)

/-! ## Computations over the items of a list -/

theorem bind_pure_eq_error_iff {ε α β : Type} {result : Except ε α} {change : α → β} {cause : ε} :
    (do let value ← result; pure (change value)) = .error cause ↔ result = .error cause := by
  cases result with
  | error found => simp [bind, Except.bind]
  | ok value => exact ⟨nofun, nofun⟩

theorem mapM_zipIdx_cons {ε α γ : Type} (each : α × Nat → Except ε γ) (head : α) (rest : List α) :
    (head :: rest).zipIdx.mapM each = (do
      let first ← each (head, 0)
      let later ← rest.zipIdx.mapM fun item => each (item.1, item.2 + 1)
      pure (first :: later)) := by
  rw [List.zipIdx_cons', List.mapM_cons, List.mapM_map]
  rfl

/-- What is found for each item and its index, and joined with it. -/
theorem mapM_zipIdx_eq_ok_iff {ε α β γ : Type} (find : α → Nat → Except ε β) (join : α × β → γ)
    {items : List α} {values : List γ} :
    (items.zipIdx.mapM fun item => do
      let found ← find item.1 item.2
      pure (join (item.1, found))) = .ok values ↔
      ∃ pairs : List (α × β), items = pairs.map Prod.fst ∧
        values = pairs.map join ∧
        ∀ index pair, pairs[index]? = some pair → find pair.1 index = .ok pair.2 := by
  -- The items after the first are found by their indices in the whole list.
  induction items generalizing find values with
  | nil =>
      constructor
      · intro computed
        cases computed
        exact ⟨[], rfl, rfl, nofun⟩
      · rintro ⟨pairs, none, rfl, -⟩
        cases List.map_eq_nil_iff.mp none.symm
        rfl
  | cons item rest ih =>
      simp only [mapM_zipIdx_cons, bind_eq_ok_iff, ih fun later index => find later (index + 1)]
      simp only [pure, Except.pure, Except.ok.injEq]
      constructor
      · rintro ⟨_, ⟨found, here, rfl⟩, _, ⟨pairs, rfl, rfl, later⟩, rfl⟩
        refine ⟨(item, found) :: pairs, rfl, rfl, ?_⟩
        intro index pair member
        cases index with
        | zero =>
            cases member
            exact here
        | succ index => exact later index pair member
      · rintro ⟨pairs, items, rfl, found⟩
        cases pairs with
        | nil => cases items
        | cons pair pairs =>
            obtain ⟨rfl, rfl⟩ := List.cons.inj items
            refine ⟨_, ⟨pair.2, found 0 pair rfl, rfl⟩, _, ⟨pairs, rfl, rfl, ?_⟩, rfl⟩
            intro index later member
            exact found (index + 1) later member

/-- The first item for which nothing is found decides the error. -/
theorem mapM_zipIdx_eq_error_iff {ε α β γ : Type} (find : α → Nat → Except ε β) (join : α × β → γ)
    {items : List α} {cause : ε} :
    (items.zipIdx.mapM fun item => do
      let found ← find item.1 item.2
      pure (join (item.1, found))) = .error cause ↔
      ∃ (index : Nat) (item : α), items[index]? = some item ∧ find item index = .error cause ∧
        ∀ earlier < index, ∀ before, items[earlier]? = some before →
          ∃ found, find before earlier = .ok found := by
  induction items generalizing find with
  | nil => simp [pure, Except.pure]
  | cons head rest ih =>
      rw [mapM_zipIdx_cons]
      cases computed : find head 0 with
      | error found =>
          constructor
          · intro failed
            cases failed
            exact ⟨0, head, rfl, computed, nofun⟩
          · rintro ⟨index, item, here, failed, earlier⟩
            cases index with
            | zero =>
                cases here
                rw [computed] at failed
                cases failed
                rfl
            | succ index =>
                obtain ⟨value, succeeded⟩ := earlier 0 (Nat.succ_pos index) head rfl
                rw [computed] at succeeded
                cases succeeded
      | ok found =>
          have shifted := ih fun later index => find later (index + 1)
          refine bind_pure_eq_error_iff.trans (shifted.trans ?_)
          constructor
          · rintro ⟨index, item, here, failed, earlier⟩
            refine ⟨index + 1, item, here, failed, ?_⟩
            intro place inside before there
            cases place with
            | zero =>
                cases there
                exact ⟨found, computed⟩
            | succ place => exact earlier place (Nat.lt_of_succ_lt_succ inside) before there
          · rintro ⟨index, item, here, failed, earlier⟩
            cases index with
            | zero =>
                cases here
                rw [computed] at failed
                cases failed
            | succ index =>
                refine ⟨index, item, here, failed, ?_⟩
                intro place inside before there
                exact earlier (place + 1) (Nat.succ_lt_succ inside) before there

end BitcoinSpend
