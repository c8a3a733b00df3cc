import BitcoinSpend.Proofs.Spend.InRange
import BitcoinSpend.Proofs.Spend.Keeps

/-!
# Consistent states

A stack counts the bytes that it holds, conditionals are recorded in two lists of
one length, and a separator lies before the instruction that runs. Every
instruction keeps this, succeeding or failing, and while it holds no access of an
instruction is out of range.
-/

set_option autoImplicit false

namespace BitcoinSpend.Spend

/-- The number of bytes of some items together. -/
def totalLength : List Bytes → Nat
  | [] => 0
  | item :: rest => item.length + totalLength rest

/-- The stack's count is the number of bytes of its items. -/
def Stack.Counted (stack : Stack) : Prop :=
  stack.held = totalLength stack.items

/-- What every instruction keeps. The separators run so far lie before `bound`. -/
structure State.Consistent (bound : Nat) (state : State) : Prop where
  stack : state.stack.Counted
  alt : state.alt.Counted
  paired : state.branches.length = state.switched.length
  separator : ∀ index, state.separator = some index → index < bound

theorem State.Consistent.mono {bound larger : Nat} {state : State}
    (consistent : state.Consistent bound) (ordered : bound ≤ larger) :
    state.Consistent larger where
  stack := consistent.stack
  alt := consistent.alt
  paired := consistent.paired
  separator index found := Nat.lt_of_lt_of_le (consistent.separator index found) ordered

theorem totalLength_eraseIdx {items : List Bytes} {index : Nat} {item : Bytes}
    (found : items[index]? = some item) :
    item.length + totalLength (items.eraseIdx index) = totalLength items := by
  induction items generalizing index with
  | nil => simp at found
  | cons head rest ih =>
      cases index with
      | zero =>
          simp only [List.getElem?_cons_zero, Option.some.injEq] at found
          subst found
          rfl
      | succ index =>
          have inner := ih (by simpa using found)
          simp only [List.eraseIdx_cons_succ, totalLength]
          omega

/-! ## Stacks -/

namespace Stack

theorem counted_empty (rule : ScriptNumber.Rule) : (empty rule).Counted := rfl

private theorem counted_cons {stack : Stack} (counted : stack.Counted) (item : Bytes) :
    (stack.cons item).Counted := by
  simp only [Counted, cons, totalLength] at counted ⊢
  omega

theorem keeps_push (item : Bytes) : Keeps Counted Fault.InRange (push item) := by
  intro stack counted
  exact counted_cons counted item

theorem keeps_pushNumber (value : Int) : Keeps Counted Fault.InRange (pushNumber value) :=
  keeps_push _

theorem keeps_pushBool (value : Bool) : Keeps Counted Fault.InRange (pushBool value) :=
  keeps_push _

theorem keeps_peek (index : Nat) : Keeps Counted Fault.InRange (peek index) :=
  .get_bind fun stack _ => .ofExcept (stack.itemBelow_inRange index)

theorem getElem?_of_itemBelow {stack : Stack} {index : Nat} {item : Bytes}
    (found : stack.itemBelow index = .ok item) : stack.items[index]? = some item := by
  simp only [itemBelow, refuse] at found
  split at found
  · cases found
  · exact getElem?_of_itemAt found

/-- The bytes of an item that is there are part of the count, so taking them away is in range. -/
theorem keeps_remove (index : Nat) : Keeps Counted Fault.InRange (remove index) := by
  refine .get_run fun stack counted => ?_
  cases found : stack.itemBelow index with
  | error fault => exact ⟨counted, stack.itemBelow_inRange index fault found⟩
  | ok item =>
      have split := totalLength_eraseIdx (getElem?_of_itemBelow found)
      have total : stack.held = totalLength stack.items := counted
      have inside : item.length ≤ stack.held := by omega
      have left : stack.held - item.length = totalLength (stack.items.eraseIdx index) := by omega
      simp only [MonadExcept.ofExcept, pure_bind, difference_of_le inside]
      exact left

theorem keeps_pop : Keeps Counted Fault.InRange pop :=
  keeps_remove 0

theorem keeps_readNumber (maxLength : Nat) (item : Bytes) :
    Keeps Counted Fault.InRange (readNumber maxLength item) := by
  intro stack counted
  simp only [readNumber]
  cases ScriptNumber.decodeWithin { stack.rule with maxLength := maxLength } item with
  | ok value => exact counted
  | error cause => exact ⟨counted, nofun⟩

theorem keeps_popNumber : Keeps Counted Fault.InRange popNumber := by
  refine keeps_pop.bind fun item => .get_bind fun stack _ => ?_
  exact keeps_readNumber stack.rule.maxLength item

theorem keeps_popBool : Keeps Counted Fault.InRange popBool :=
  keeps_pop.bind fun item => .pure (ScriptNumber.isTrue item)

theorem keeps_popMany (count : Nat) : Keeps Counted Fault.InRange (popMany count) := by
  induction count with
  | zero => exact .pure []
  | succ count ih => exact keeps_pop.bind fun item => ih.bind fun items => .pure (item :: items)

private theorem keeps_repeatOp {op : StackM Unit} (keeps : Keeps Counted Fault.InRange op)
    (count : Nat) :
    Keeps Counted Fault.InRange (repeatOp op count) := by
  induction count with
  | zero => exact .pure ()
  | succ count ih => exact keeps.bind fun _ => ih

theorem keeps_pick (index : Nat) : Keeps Counted Fault.InRange (pick index) :=
  (keeps_peek index).bind keeps_push

theorem keeps_roll (index : Nat) : Keeps Counted Fault.InRange (roll index) :=
  (keeps_remove index).bind keeps_push

theorem keeps_tuck : Keeps Counted Fault.InRange tuck := by
  refine keeps_pop.bind fun top => keeps_pop.bind fun below => ?_
  refine (keeps_push top).bind fun _ => (keeps_push below).bind fun _ => ?_
  exact keeps_push top

theorem keeps_dropBlock (count : Nat) : Keeps Counted Fault.InRange (dropBlock count) := by
  refine .get_bind fun stack _ => ?_
  split
  · next short =>
      refine .ofExcept_bind (StaysInRange.difference (by omega)) fun last _ => ?_
      exact .throw nofun
  · exact (keeps_popMany count).bind fun _ => .pure ()

theorem keeps_dupBlock (count : Nat) : Keeps Counted Fault.InRange (dupBlock count) := by
  cases count with
  | zero => exact .pure ()
  | succ count =>
      refine keeps_repeatOp ?_ (count + 1)
      exact .ofExcept_bind (StaysInRange.difference (by omega)) fun last _ => keeps_pick last

theorem keeps_rotBlock {count : Nat} (positive : 0 < 3 * count)
    (word : 3 * count < UInt64.size) : Keeps Counted Fault.InRange (rotBlock count) :=
  .ofExcept_bind (deepest_inRange positive word) fun last _ =>
    keeps_repeatOp (keeps_roll last) count

theorem keeps_swapBlock {count : Nat} (positive : 0 < 2 * count)
    (word : 2 * count < UInt64.size) : Keeps Counted Fault.InRange (swapBlock count) :=
  .ofExcept_bind (deepest_inRange positive word) fun last _ =>
    keeps_repeatOp (keeps_roll last) count

theorem keeps_overBlock {count : Nat} (positive : 0 < 2 * count)
    (word : 2 * count < UInt64.size) : Keeps Counted Fault.InRange (overBlock count) :=
  .ofExcept_bind (deepest_inRange positive word) fun last _ =>
    keeps_repeatOp (keeps_pick last) count

end Stack

end BitcoinSpend.Spend
