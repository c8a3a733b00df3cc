import Mathlib.Data.List.Induction
import BitcoinSpend.Proofs.Spend.StackContents

/-!
# Blocks of a stack

An operation on blocks moves or copies the item at one depth, again and again. Every item that
arrives on top pushes the next one of its block down to that depth, so the block arrives in its
own order. The first item decides whether the stack is deep enough. A depth that is not a machine
word is refused before, and no stack is as deep.
-/

set_option autoImplicit false

namespace BitcoinSpend.Spend

namespace Stack

variable {rule : ScriptNumber.Rule} {items block upper below : List Bytes} {op : StackM Unit}
  {stack : Stack} {blocks count index needed : Nat}

/-! ## One item -/

private theorem pick_ofItems {item : Bytes} (found : items[index]? = some item) :
    pick index (ofItems rule items) = .ok () (ofItems rule (item :: items)) := by
  simp only [pick, bind, EStateM.bind, peek_ofItems found, push_ofItems]

private theorem roll_ofItems {item : Bytes} (found : items[index]? = some item) :
    roll index (ofItems rule items) = .ok () (ofItems rule (item :: items.eraseIdx index)) := by
  simp only [roll, bind, EStateM.bind, remove_ofItems found, push_ofItems]

private theorem itemBelow_of_depth_le (shallow : stack.depth ≤ index) :
    stack.itemBelow index = .error (.stackIndex index stack.depth) := by
  rw [itemBelow, refuse, decide_eq_true shallow]
  rfl

private theorem pick_of_depth_le (shallow : stack.depth ≤ index) :
    pick index stack = .error (.stackIndex index stack.depth) stack := by
  have same : pick index stack =
      (MonadExcept.ofExcept (stack.itemBelow index) >>= push : StackM Unit) stack := rfl
  rw [same, ofExcept_bind_run, itemBelow_of_depth_le shallow]

private theorem roll_of_depth_le (shallow : stack.depth ≤ index) :
    roll index stack = .error (.stackIndex index stack.depth) stack := by
  have same : roll index stack =
      (do
        let item ← MonadExcept.ofExcept (stack.itemBelow index)
        let held ← MonadExcept.ofExcept (difference stack.held item.length)
        set { stack with items := stack.items.eraseIdx index, held := held }
        push item : StackM Unit) stack := by
    simp only [roll, remove, bind_assoc, pure_bind]
    rfl
  rw [same, ofExcept_bind_run, itemBelow_of_depth_le shallow]

/-! ## One item after another -/

private theorem repeatOp_succ_of_ok {next : Stack} (ran : op stack = .ok () next) (count : Nat) :
    repeatOp op (count + 1) stack = repeatOp op count next := by
  simp only [repeatOp, bind, EStateM.bind, ran]

private theorem repeatOp_of_error {fault : Fault} {left : Stack}
    (failed : op stack = .error fault left)
    (positive : 0 < count) : repeatOp op count stack = .error fault left := by
  cases count with
  | zero => cases positive
  | succ count => simp only [repeatOp, bind, EStateM.bind, failed]

/-- The deepest item of the block moves first, and is above the rest of it in the end. -/
theorem repeatOp_roll (upper block below : List Bytes)
    (reaches : upper.length + block.length = index + 1) :
    repeatOp (roll index) block.length (ofItems rule (upper ++ block ++ below)) =
      .ok () (ofItems rule (block ++ upper ++ below)) := by
  induction block using List.reverseRecOn generalizing upper with
  | nil =>
      rw [List.append_nil]
      rfl
  | append_singleton block item ih =>
      obtain rfl : index = (upper ++ block).length := by
        simp only [List.length_append, List.length_singleton] at reaches ⊢
        omega
      have longer : (block ++ [item]).length = block.length + 1 := List.length_append
      have whole : upper ++ (block ++ [item]) ++ below = upper ++ block ++ item :: below := by simp
      have found : (upper ++ block ++ item :: below)[(upper ++ block).length]? = some item := by
        simp
      have rest : (upper ++ block ++ item :: below).eraseIdx (upper ++ block).length =
          upper ++ block ++ below := by
        rw [List.eraseIdx_append_of_length_le (Nat.le_refl _), Nat.sub_self,
          List.eraseIdx_cons_zero]
      have moved : roll (upper ++ block).length (ofItems rule (upper ++ block ++ item :: below)) =
          .ok () (ofItems rule (item :: (upper ++ block ++ below))) := by
        rw [roll_ofItems found, rest]
      have later := ih (item :: upper) (by
        simp only [List.length_cons, List.length_append]
        omega)
      rw [whole, longer, repeatOp_succ_of_ok moved]
      simpa using later

/-- The copies lie above the items between them and the block, in the order of the block. -/
theorem repeatOp_pick (upper block below : List Bytes)
    (reaches : upper.length + block.length = index + 1) :
    repeatOp (pick index) block.length (ofItems rule (upper ++ block ++ below)) =
      .ok () (ofItems rule (block ++ upper ++ block ++ below)) := by
  induction block using List.reverseRecOn generalizing upper below with
  | nil =>
      rw [List.nil_append, List.append_nil]
      rfl
  | append_singleton block item ih =>
      obtain rfl : index = (upper ++ block).length := by
        simp only [List.length_append, List.length_singleton] at reaches ⊢
        omega
      have longer : (block ++ [item]).length = block.length + 1 := List.length_append
      have whole : upper ++ (block ++ [item]) ++ below = upper ++ block ++ item :: below := by simp
      have found : (upper ++ block ++ item :: below)[(upper ++ block).length]? = some item := by
        simp
      have later := ih (item :: upper) (item :: below) (by
        simp only [List.length_cons, List.length_append]
        omega)
      rw [whole, longer, repeatOp_succ_of_ok (pick_ofItems found)]
      simpa using later

/-! ## Blocks on top of a stack -/

/-- A machine word counts the items, as it does those of any stack in memory. -/
def Addressable (stack : Stack) : Prop :=
  stack.depth < UInt64.size

/-- Where the first items are on top of a stack, bottom first, the operation puts the second ones
in their place. What lies below stays, and the bytes held are counted. -/
def Turns (op : StackM Unit) (items items' : List Bytes) : Prop :=
  ∀ (stack : Stack) (below : List Bytes), stack.Addressable → stack.Holds (below ++ items) →
    ∃ after, op stack = .ok () after ∧ after.Holds (below ++ items') ∧ after.rule = stack.rule

/-- The operation fails on the stacks of fewer items than it needs, and leaves them as they are. It
reports the deepest place that it looks at, or that this place is not a machine word. -/
def FailsBelow (op : StackM Unit) (needed : Nat) : Prop :=
  ∀ stack : Stack, stack.Counted → stack.Addressable →
    ((∃ fault left, op stack = .error fault left) ↔ stack.depth < needed) ∧
    ∀ fault left, op stack = .error fault left → left = stack ∧
      (fault = .stackIndex (needed - 1 : Nat) stack.depth ∨
        UInt64.size ≤ needed ∧ fault = .outOfRange)

private theorem turns_of_ofItems {items items' : List Bytes}
    (ran : ∀ rule below, op (ofItems rule (items.reverse ++ below)) =
      .ok () (ofItems rule (items'.reverse ++ below))) : Turns op items items' := by
  intro stack below _ holds
  have same := eq_ofItems_of_toList holds.counted holds.toList
  refine ⟨ofItems stack.rule (below ++ items').reverse, ?_, holds_ofItems, rfl⟩
  rw [same, List.reverse_append, List.reverse_append]
  exact ran stack.rule below.reverse

private theorem turns_repeatOp_roll {block upper : List Bytes} (counted : block.length = count)
    (reaches : upper.length + count = needed) (positive : 0 < needed) :
    Turns (repeatOp (roll (needed - 1)) count) (block ++ upper) (upper ++ block) := by
  subst counted
  have reversed : upper.reverse.length + block.reverse.length = needed - 1 + 1 := by
    simp only [List.length_reverse]
    omega
  apply turns_of_ofItems
  intro rule below
  rw [List.reverse_append, List.reverse_append, ← List.length_reverse]
  exact repeatOp_roll upper.reverse block.reverse below reversed

private theorem turns_repeatOp_pick {block upper : List Bytes} (counted : block.length = count)
    (reaches : upper.length + count = needed) (positive : 0 < needed) :
    Turns (repeatOp (pick (needed - 1)) count) (block ++ upper) (block ++ upper ++ block) := by
  subst counted
  have reversed : upper.reverse.length + block.reverse.length = needed - 1 + 1 := by
    simp only [List.length_reverse]
    omega
  apply turns_of_ofItems
  intro rule below
  rw [List.reverse_append, List.reverse_append, List.reverse_append, ← List.append_assoc,
    ← List.length_reverse]
  exact repeatOp_pick upper.reverse block.reverse below reversed

/-- A stack that is deep enough has a block where an operation takes it from. -/
private theorem exists_block (stack : Stack) (enough : count ≤ needed)
    (deep : needed ≤ stack.depth) :
    ∃ below block upper, stack.toList = below ++ (block ++ upper) ∧ block.length = count ∧
      upper.length + count = needed := by
  have length : stack.toList.length = stack.depth := List.length_reverse
  let start := stack.depth - needed
  refine ⟨stack.toList.take start, (stack.toList.drop start).take count,
    (stack.toList.drop start).drop count, ?_, ?_, ?_⟩
  · rw [List.take_append_drop, List.take_append_drop]
  · simp only [start, List.length_take, List.length_drop]
    omega
  · simp only [start, List.length_drop]
    omega

private theorem failsBelow_of_turns {replaced : List Bytes → List Bytes → List Bytes}
    (enough : count ≤ needed)
    (refuses : ∀ stack : Stack, stack.depth < needed →
      op stack = .error (.stackIndex (needed - 1 : Nat) stack.depth) stack)
    (turns : ∀ block upper : List Bytes, block.length = count → upper.length + count = needed →
      Turns op (block ++ upper) (replaced block upper)) : FailsBelow op needed := by
  intro stack counted addressable
  rcases Nat.lt_or_ge stack.depth needed with short | deep
  · rw [refuses stack short]
    refine ⟨⟨fun _ => short, fun _ => ⟨_, _, rfl⟩⟩, ?_⟩
    intro fault left failed
    cases failed
    exact ⟨rfl, Or.inl rfl⟩
  · obtain ⟨below, block, upper, parts, isBlock, reaches⟩ := exists_block stack enough deep
    obtain ⟨after, ran, -, -⟩ :=
      turns block upper isBlock reaches stack below addressable ⟨counted, parts⟩
    rw [ran]
    exact ⟨⟨nofun, fun short => absurd short (Nat.not_lt.mpr deep)⟩, nofun⟩

private theorem failsBelow_repeatOp_roll (positive : 0 < count) (enough : count ≤ needed) :
    FailsBelow (repeatOp (roll (needed - 1)) count) needed := by
  apply failsBelow_of_turns enough
  · intro stack short
    have shallow : stack.depth ≤ needed - 1 := by omega
    exact repeatOp_of_error (roll_of_depth_le shallow) positive
  · intro block upper counted reaches
    exact turns_repeatOp_roll counted reaches (by omega)

private theorem failsBelow_repeatOp_pick (positive : 0 < count) (enough : count ≤ needed) :
    FailsBelow (repeatOp (pick (needed - 1)) count) needed := by
  apply failsBelow_of_turns enough
  · intro stack short
    have shallow : stack.depth ≤ needed - 1 := by omega
    exact repeatOp_of_error (pick_of_depth_le shallow) positive
  · intro block upper counted reaches
    exact turns_repeatOp_pick counted reaches (by omega)

/-! ## The deepest place of some blocks -/

private theorem ofExcept_deepest_bind (positive : 0 < blocks * count)
    (word : blocks * count < UInt64.size) (move : Nat → StackM Unit) :
    (MonadExcept.ofExcept (deepest blocks count) >>= move) = move (blocks * count - 1) := by
  have last : deepest blocks count = .ok (blocks * count - 1) := by
    rw [deepest, product_of_lt word, ok_bind, difference_of_le positive]
  simp only [last, MonadExcept.ofExcept, pure_bind]

private theorem ofExcept_deepest_bind_of_le (overflows : UInt64.size ≤ blocks * count)
    (move : Nat → StackM Unit) (stack : Stack) :
    (MonadExcept.ofExcept (deepest blocks count) >>= move) stack = .error .outOfRange stack := by
  have refused : deepest blocks count = .error .outOfRange := by
    rw [deepest, product_of_le overflows]
    rfl
  rw [ofExcept_bind_run, refused]

/-- The items of the blocks are on the stack, so a machine word counts them. -/
private theorem turns_of_deepest {items items' : List Bytes}
    (length : items.length = blocks * count)
    (positive : 0 < blocks * count) (move : Nat → StackM Unit)
    (turns : Turns (move (blocks * count - 1)) items items') :
    Turns (MonadExcept.ofExcept (deepest blocks count) >>= move) items items' := by
  intro stack below addressable holds
  have depth : (below ++ items).length = stack.depth := by
    rw [← holds.toList]
    exact List.length_reverse
  rw [List.length_append, length] at depth
  have word : blocks * count < UInt64.size :=
    Nat.lt_of_le_of_lt (depth ▸ Nat.le_add_left _ _) addressable
  rw [ofExcept_deepest_bind positive word]
  exact turns stack below addressable holds

private theorem failsBelow_of_deepest (positive : 0 < blocks * count) (move : Nat → StackM Unit)
    (fails : FailsBelow (move (blocks * count - 1)) (blocks * count)) :
    FailsBelow (MonadExcept.ofExcept (deepest blocks count) >>= move) (blocks * count) := by
  intro stack counted addressable
  rcases Nat.lt_or_ge (blocks * count) UInt64.size with word | overflows
  · rw [ofExcept_deepest_bind positive word]
    exact fails stack counted addressable
  · rw [ofExcept_deepest_bind_of_le overflows]
    have short : stack.depth < blocks * count := Nat.lt_of_lt_of_le addressable overflows
    refine ⟨⟨fun _ => short, fun _ => ⟨_, _, rfl⟩⟩, ?_⟩
    intro fault left failed
    cases failed
    exact ⟨rfl, Or.inr ⟨overflows, rfl⟩⟩

/-! ## The operations -/

private theorem dropBlock_of_depth_lt (short : stack.depth < count) :
    dropBlock count stack = .error (.stackIndex (count - 1 : Nat) stack.depth) stack := by
  have same : dropBlock count stack =
      (if stack.depth < count then
        (do
          let last ← MonadExcept.ofExcept (difference count 1)
          throw (.stackIndex last stack.depth) : StackM Unit)
      else
        (do
          let _ ← popMany count : StackM Unit)) stack := rfl
  have last : difference count 1 = .ok (count - 1) := difference_of_le (by omega)
  rw [same, if_pos short, ofExcept_bind_run, last]
  rfl

private theorem turns_dropBlock (counted : items.length = count) :
    Turns (dropBlock count) items [] := by
  subst counted
  apply turns_of_ofItems
  intro rule below
  rw [← List.length_reverse]
  exact dropBlock_ofItems items.reverse

private theorem failsBelow_dropBlock (count : Nat) : FailsBelow (dropBlock count) count := by
  apply failsBelow_of_turns (Nat.le_refl count)
  · intro stack short
    exact dropBlock_of_depth_lt short
  · intro block upper counted reaches
    apply turns_dropBlock
    rw [List.length_append, counted]
    omega

theorem dupBlock_eq (positive : 0 < count) :
    dupBlock count = repeatOp (pick (count - 1)) count := by
  simp only [dupBlock, difference_of_le positive, MonadExcept.ofExcept, pure_bind]

theorem swapBlock_eq (positive : 0 < count) (word : 2 * count < UInt64.size) :
    swapBlock count = repeatOp (roll (2 * count - 1)) count :=
  ofExcept_deepest_bind (Nat.mul_pos Nat.two_pos positive) word _

theorem overBlock_eq (positive : 0 < count) (word : 2 * count < UInt64.size) :
    overBlock count = repeatOp (pick (2 * count - 1)) count :=
  ofExcept_deepest_bind (Nat.mul_pos Nat.two_pos positive) word _

/-- Three blocks of more items than a machine word counts. -/
example :
    let stack := ofItems ⟨4, false⟩ [[2], [1]]
    rotBlock 6148914691236517206 stack = .error .outOfRange stack :=
  ofExcept_deepest_bind_of_le (by decide) _ _

end Stack

end BitcoinSpend.Spend
