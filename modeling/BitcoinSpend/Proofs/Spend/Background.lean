import BitcoinSpend.Proofs.Spend.Follows
import BitcoinSpend.Proofs.Spend.PlainRun

/-!
# What an instruction does not see

An instruction that succeeds has found the items that it uses on the stacks. So it does
the same with more items beneath the main stack, as long as their bytes may be held,
and leaves them there. Except for conditionals and returns it does the same in any
nesting as well.
-/

set_option autoImplicit false

namespace BitcoinSpend.Spend

open MonadExcept (ofExcept)

/-- Items beneath the main stack and the nesting around an instruction. -/
structure Background where
  /-- The items, top first. -/
  beneath : List Bytes
  branches : List Bool
  switched : List Bool
  returned : Bool

/-- The stack with items beneath it. -/
def Stack.atop (stack : Stack) (beneath : List Bytes) : Stack :=
  { stack with items := stack.items ++ beneath, held := stack.held + totalLength beneath }

def State.atop (state : State) (background : Background) : State :=
  { state with
    stack := state.stack.atop background.beneath
    branches := background.branches
    switched := background.switched
    returned := background.returned }

/-- The setup with room for more bytes. -/
def Setup.withRoom (setup : Setup) (more : Nat) : Setup :=
  { setup with memoryLimit := setup.memoryLimit + more }

def Frame.withRoom (frame : Frame) (more : Nat) : Frame :=
  { frame with setup := frame.setup.withRoom more }

/-- What the operation does when it succeeds, it does with items beneath the stack as well. -/
abbrev Stack.Blind (beneath : List Bytes) {α : Type} (op : StackM α) : Prop :=
  Follows (fun stack stack' => stack' = stack.atop beneath) op op

/-- What the first operation does when it succeeds, the second does before a background. -/
def Exec.Blind (background : Background) {α : Type} (op other : Exec α) : Prop :=
  ∀ frame : Frame, Spend.Follows (fun state state' => state' = state.atop background) (op frame)
    (other (frame.withRoom (totalLength background.beneath)))

/-! ## Stack operations -/

namespace Stack

variable {beneath : List Bytes}

theorem depth_atop (stack : Stack) (beneath : List Bytes) :
    (stack.atop beneath).depth = stack.depth + beneath.length :=
  List.length_append

theorem depth_le_atop (stack : Stack) (beneath : List Bytes) :
    stack.depth ≤ (stack.atop beneath).depth := by
  rw [depth_atop]
  exact Nat.le_add_right _ _

theorem toList_atop (stack : Stack) (beneath : List Bytes) :
    (stack.atop beneath).toList = beneath.reverse ++ stack.toList :=
  List.reverse_append

theorem atop_nil (stack : Stack) : stack.atop [] = stack := by
  simp only [atop, List.append_nil, totalLength, Nat.add_zero]

private theorem cons_atop (stack : Stack) (beneath : List Bytes) (item : Bytes) :
    (stack.atop beneath).cons item = (stack.cons item).atop beneath := by
  simp only [atop, cons, List.cons_append, Nat.add_right_comm]

private theorem itemBelow_atop {stack : Stack} {index : Nat} {item : Bytes}
    (found : stack.itemBelow index = .ok item) :
    (stack.atop beneath).itemBelow index = .ok item := by
  have here := getElem?_of_itemBelow found
  have inside : index < stack.items.length := (List.getElem?_eq_some_iff.mp here).1
  have deeper : ¬(stack.atop beneath).depth ≤ index := by
    rw [depth_atop]
    exact Nat.not_le.mpr (Nat.lt_add_right _ inside)
  have there : (stack.atop beneath).items[index]? = some item := by
    rw [atop, List.getElem?_append_left inside, here]
  exact bind_eq_ok_iff.mpr
    ⟨(), refuse_eq_ok_iff.mpr (decide_eq_false deeper), itemAt_eq_ok_iff.mpr there⟩

theorem blind_push (item : Bytes) : Blind beneath (push item) := by
  rintro stack _ rfl value next ran
  cases ran
  exact ⟨_, rfl, cons_atop stack beneath item⟩

theorem blind_peek (index : Nat) : Blind beneath (peek index) := by
  refine .get_bind ?_
  rintro stack _ rfl
  exact .ofExcept fun item found => itemBelow_atop found

private theorem remove_run (index : Nat) (stack : Stack) : remove index stack =
    match stack.itemBelow index with
    | .error fault => .error fault stack
    | .ok item =>
        match difference stack.held item.length with
        | .error fault => .error fault stack
        | .ok held =>
            .ok item { stack with items := stack.items.eraseIdx index, held := held } := by
  have opened : remove index stack =
      (do
        let item ← ofExcept (stack.itemBelow index)
        let held ← ofExcept (difference stack.held item.length)
        set { stack with items := stack.items.eraseIdx index, held := held }
        pure item : StackM Bytes) stack := rfl
  rw [opened]
  cases stack.itemBelow index with
  | error fault => rfl
  | ok item =>
      simp only [ofExcept, pure_bind]
      cases difference stack.held item.length <;> rfl

theorem remove_eq_ok_iff {index : Nat} {stack next : Stack} {item : Bytes} :
    remove index stack = .ok item next ↔
      stack.itemBelow index = .ok item ∧ item.length ≤ stack.held ∧
        next = { stack with
          items := stack.items.eraseIdx index
          held := stack.held - item.length } := by
  constructor
  · intro removed
    rw [remove_run] at removed
    split at removed
    · cases removed
    · next found =>
        split at removed
        · cases removed
        · next lowered =>
            cases removed
            obtain ⟨enough, rfl⟩ := difference_eq_ok_iff.mp lowered
            exact ⟨found, enough, rfl⟩
  · rintro ⟨found, enough, rfl⟩
    simp only [remove_run, found, difference_of_le enough]

theorem blind_remove (index : Nat) : Blind beneath (remove index) := by
  rintro stack _ rfl item next removed
  obtain ⟨found, enough, rfl⟩ := remove_eq_ok_iff.mp removed
  have inside : index < stack.items.length :=
    (List.getElem?_eq_some_iff.mp (getElem?_of_itemBelow found)).1
  refine ⟨_, remove_eq_ok_iff.mpr ⟨itemBelow_atop found, Nat.le_add_right_of_le enough, rfl⟩, ?_⟩
  simp only [atop, List.eraseIdx_append_of_lt_length inside, Nat.sub_add_comm enough]

theorem blind_readNumber (maxLength : Nat) (item : Bytes) :
    Blind beneath (readNumber maxLength item) := by
  rintro stack _ rfl value next ran
  simp only [readNumber] at ran ⊢
  split at ran
  · next read =>
      cases ran
      have same : ScriptNumber.decodeWithin { (stack.atop beneath).rule with
          maxLength := maxLength } item = .ok value := read
      rw [same]
      exact ⟨_, rfl, rfl⟩
  · cases ran

theorem blind_pop : Blind beneath pop :=
  blind_remove 0

theorem blind_popNumber : Blind beneath popNumber := by
  refine blind_pop.bind fun item => .get_bind ?_
  rintro stack _ rfl
  exact blind_readNumber stack.rule.maxLength item

theorem blind_popBool : Blind beneath popBool :=
  blind_pop.bind fun _ => .pure _

theorem blind_popMany (count : Nat) : Blind beneath (popMany count) := by
  induction count with
  | zero => exact .pure []
  | succ count ih => exact blind_pop.bind fun item => ih.bind fun items => .pure (item :: items)

private theorem blind_repeatOp {op : StackM Unit} (blind : Blind beneath op) (count : Nat) :
    Blind beneath (repeatOp op count) := by
  induction count with
  | zero => exact .pure ()
  | succ count ih => exact blind.bind fun _ => ih

theorem blind_pick (index : Nat) : Blind beneath (pick index) :=
  (blind_peek index).bind blind_push

theorem blind_roll (index : Nat) : Blind beneath (roll index) :=
  (blind_remove index).bind blind_push

theorem blind_tuck : Blind beneath tuck := by
  refine blind_pop.bind fun top => blind_pop.bind fun below => ?_
  refine (blind_push top).bind fun _ => (blind_push below).bind fun _ => ?_
  exact blind_push top

theorem blind_dropBlock (count : Nat) : Blind beneath (dropBlock count) := by
  refine .get_bind ?_
  rintro stack _ rfl
  by_cases short : stack.depth < count
  · rw [if_pos short]
    rintro state _ - value next ran
    cases lowered : difference count 1 with
    | ok last =>
        rw [lowered] at ran
        cases ran
    | error fault =>
        rw [lowered] at ran
        cases ran
  · have enough : ¬(stack.atop beneath).depth < count := by
      have := depth_le_atop stack beneath
      omega
    rw [if_neg short, if_neg enough]
    exact (blind_popMany count).bind fun _ => .pure ()

theorem blind_dupBlock (count : Nat) : Blind beneath (dupBlock count) :=
  blind_repeatOp (.ofExcept_bind (fun _ same => same) blind_pick) count

theorem blind_rotBlock (count : Nat) : Blind beneath (rotBlock count) :=
  .ofExcept_bind (fun _ same => same) fun last => blind_repeatOp (blind_roll last) count

theorem blind_swapBlock (count : Nat) : Blind beneath (swapBlock count) :=
  .ofExcept_bind (fun _ same => same) fun last => blind_repeatOp (blind_roll last) count

theorem blind_overBlock (count : Nat) : Blind beneath (overBlock count) :=
  .ofExcept_bind (fun _ same => same) fun last => blind_repeatOp (blind_pick last) count

end Stack

/-! ## Parts of instructions -/

namespace Exec.Blind

variable {background : Background} {α β : Type}

theorem pure (value : α) : Blind background (Pure.pure value) (Pure.pure value) :=
  fun _ => Spend.Follows.pure value

theorem throw (fault : Fault) (other : Exec α) : Blind background (throw fault) other :=
  fun _ => Spend.Follows.throw fault _

theorem bind {op other : Exec α} {next next' : α → Exec β} (first : Blind background op other)
    (rest : ∀ value, Blind background (next value) (next' value)) :
    Blind background (op >>= next) (other >>= next') :=
  fun frame => (first frame).bind fun value => rest value frame

/-- What follows a look at the state sees the background in the second run. -/
theorem get_bind {next next' : State → Exec β}
    (rest : ∀ state, Blind background (next state) (next' (state.atop background))) :
    Blind background (get >>= next) (get >>= next') := by
  rintro frame state _ rfl value final ran
  exact rest state frame rfl ran

theorem read_bind {next next' : Frame → Exec β}
    (rest : ∀ frame, Blind background (next frame)
      (next' (frame.withRoom (totalLength background.beneath)))) :
    Blind background (read >>= next) (read >>= next') :=
  fun frame => rest frame frame

theorem setup_bind {next next' : Setup → Exec β}
    (rest : ∀ setup, Blind background (next setup)
      (next' (setup.withRoom (totalLength background.beneath)))) :
    Blind background (setup >>= next) (setup >>= next') :=
  fun frame => rest frame.setup frame

theorem modify {change change' : State → State}
    (same : ∀ state, change' (State.atop state background) = (change state).atop background) :
    Blind background (modify change) (modify change') := by
  rintro frame state _ rfl value final ran
  cases ran
  exact ⟨_, rfl, same state⟩

theorem refuse_bind {condition condition' : Bool} {fault fault' : Fault}
    {next next' : Unit → Exec β} (fewer : condition' = true → condition = true)
    (rest : Blind background (next ()) (next' ())) :
    Blind background (refuse condition fault >>= next) (refuse condition' fault' >>= next') := by
  cases condition with
  | true => exact fun _ => Spend.Follows.throw fault _
  | false =>
      cases condition' with
      | true => cases fewer rfl
      | false => exact rest

theorem refuse {condition condition' : Bool} {fault fault' : Fault}
    (fewer : condition' = true → condition = true) :
    Blind background (refuse condition fault) (refuse condition' fault') := by
  cases condition with
  | true => exact throw fault _
  | false =>
      cases condition' with
      | true => cases fewer rfl
      | false => exact pure ()

theorem ofExcept (result : Except Fault α) :
    Blind background (ofExcept result) (ofExcept result) := by
  cases result with
  | ok value => exact pure value
  | error fault => exact throw fault _

theorem requireContext (instruction : String) :
    Blind background (requireContext instruction) (requireContext instruction) := by
  refine setup_bind fun setup => ?_
  have same : (setup.withRoom (totalLength background.beneath)).context = setup.context := rfl
  rw [same]
  cases setup.context with
  | some context => exact pure context
  | none => exact throw _ _

theorem ite {condition : Prop} [Decidable condition] {op op' other other' : Exec α}
    (positive : Blind background op op') (negative : Blind background other other') :
    Blind background (if condition then op else other) (if condition then op' else other') := by
  split
  · exact positive
  · exact negative

theorem onStack {op : StackM α} (blind : Stack.Blind background.beneath op) :
    Blind background (onStack op) (onStack op) := by
  rintro frame state _ rfl value final ran
  simp only [Exec.onStack] at ran ⊢
  cases opened : op state.stack with
  | error fault stack =>
      rw [opened] at ran
      cases ran
  | ok middle stack =>
      rw [opened] at ran
      cases ran
      obtain ⟨_, opened', rfl⟩ := blind rfl opened
      have there : op (state.atop background).stack = .ok value (stack.atop background.beneath) :=
        opened'
      rw [there]
      exact ⟨_, rfl, rfl⟩

/-- Nothing is hidden beneath the alternative stack. -/
theorem onAlt (op : StackM α) : Blind background (onAlt op) (onAlt op) := by
  rintro frame state _ rfl value final ran
  simp only [Exec.onAlt] at ran ⊢
  cases opened : op state.alt with
  | error fault stack =>
      rw [opened] at ran
      cases ran
  | ok middle stack =>
      rw [opened] at ran
      cases ran
      have there : op (state.atop background).alt = .ok value stack := opened
      rw [there]
      exact ⟨_, rfl, rfl⟩

end Exec.Blind

end BitcoinSpend.Spend
