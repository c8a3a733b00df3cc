import BitcoinSpend.Proofs.Spend.Consistency
import BitcoinSpend.Proofs.Spend.StrictSignature

/-!
# What a stack holds

A stack that counts its bytes is given by its items and its rule for numbers. So each
operation is described by what it makes of the items.
-/

set_option autoImplicit false

namespace BitcoinSpend.Spend

theorem totalLength_append (items others : List Bytes) :
    totalLength (items ++ others) = totalLength items + totalLength others := by
  induction items with
  | nil => simp [totalLength]
  | cons item items ih => simp [totalLength, ih, Nat.add_assoc]

theorem totalLength_reverse (items : List Bytes) :
    totalLength items.reverse = totalLength items := by
  induction items with
  | nil => rfl
  | cons item items ih =>
      simp only [List.reverse_cons, totalLength_append, totalLength, ih]
      omega

theorem length_le_totalLength {item : Bytes} {items : List Bytes} (member : item ∈ items) :
    item.length ≤ totalLength items := by
  induction member with
  | head => exact Nat.le_add_right _ _
  | tail _ _ ih => exact Nat.le_trans ih (Nat.le_add_left _ _)

namespace Stack

/-- A stack with the count that goes with its items. -/
def ofItems (rule : ScriptNumber.Rule) (items : List Bytes) : Stack :=
  ⟨items, totalLength items, rule⟩

/-- The stack holds these items, bottom first, and counts their bytes. -/
structure Holds (stack : Stack) (items : List Bytes) : Prop where
  counted : stack.Counted
  toList : stack.toList = items

variable {rule : ScriptNumber.Rule} {items : List Bytes}

theorem eq_ofItems_of_toList {stack : Stack} (counted : stack.Counted)
    (list : stack.toList = items) : stack = ofItems stack.rule items.reverse := by
  have same : stack.items = items.reverse := by
    rw [← list, toList, List.reverse_reverse]
  rw [Counted, same] at counted
  obtain ⟨held, count, rule⟩ := stack
  cases same
  cases counted
  rfl

theorem holds_ofItems : (ofItems rule items.reverse).Holds items :=
  ⟨rfl, List.reverse_reverse items⟩

theorem cons_ofItems (item : Bytes) :
    (ofItems rule items).cons item = ofItems rule (item :: items) := by
  simp only [cons, ofItems, totalLength, Nat.add_comm]

theorem push_ofItems (item : Bytes) :
    push item (ofItems rule items) = .ok () (ofItems rule (item :: items)) :=
  congrArg (EStateM.Result.ok ()) (cons_ofItems item)

private theorem itemBelow_ofItems {index : Nat} {item : Bytes} (found : items[index]? = some item) :
    (ofItems rule items).itemBelow index = .ok item := by
  have inside : index < items.length := (List.getElem?_eq_some_iff.mp found).1
  have within : ¬(ofItems rule items).depth ≤ index := Nat.not_le.mpr inside
  exact bind_eq_ok_iff.mpr
    ⟨(), refuse_eq_ok_iff.mpr (decide_eq_false within), itemAt_eq_ok_iff.mpr found⟩

theorem peek_ofItems {index : Nat} {item : Bytes} (found : items[index]? = some item) :
    peek index (ofItems rule items) = .ok item (ofItems rule items) := by
  have same : peek index (ofItems rule items) =
      (MonadExcept.ofExcept ((ofItems rule items).itemBelow index) : StackM Bytes)
        (ofItems rule items) := rfl
  rw [same, itemBelow_ofItems found]
  rfl

theorem remove_ofItems {index : Nat} {item : Bytes} (found : items[index]? = some item) :
    remove index (ofItems rule items) = .ok item (ofItems rule (items.eraseIdx index)) := by
  have total := totalLength_eraseIdx found
  have enough : item.length ≤ totalLength items := by omega
  have left : totalLength items - item.length = totalLength (items.eraseIdx index) := by omega
  have same : remove index (ofItems rule items) =
      (do
        let item ← MonadExcept.ofExcept ((ofItems rule items).itemBelow index)
        let held ← MonadExcept.ofExcept (difference (totalLength items) item.length)
        set (⟨items.eraseIdx index, held, rule⟩ : Stack)
        pure item : StackM Bytes) (ofItems rule items) := rfl
  rw [same, itemBelow_ofItems found]
  simp only [MonadExcept.ofExcept, pure_bind, difference_of_le enough, left]
  rfl

theorem pop_ofItems (item : Bytes) :
    pop (ofItems rule (item :: items)) = .ok item (ofItems rule items) :=
  remove_ofItems rfl

theorem popNumber_ofItems {form : Bytes} {value : Int}
    (reads : ScriptNumber.decodeWithin rule form = .ok value) :
    popNumber (ofItems rule (form :: items)) = .ok value (ofItems rule items) := by
  have same : popNumber (ofItems rule (form :: items)) =
      (do
        let item ← pop
        let stack ← get
        readNumber stack.rule.maxLength item : StackM Int) (ofItems rule (form :: items)) := rfl
  have read : readNumber rule.maxLength form (ofItems rule items) =
      .ok value (ofItems rule items) := by
    have here : ScriptNumber.decodeWithin { (ofItems rule items).rule with
        maxLength := rule.maxLength } form = .ok value := reads
    simp only [readNumber, here]
  rw [same]
  simp only [bind, EStateM.bind, pop_ofItems]
  exact read

theorem popMany_ofItems (values : List Bytes) :
    popMany values.length (ofItems rule (values ++ items)) = .ok values (ofItems rule items) := by
  induction values with
  | nil => rfl
  | cons value values ih =>
      simp only [List.length_cons, List.cons_append, popMany, bind, EStateM.bind, pop_ofItems, ih]
      rfl

theorem dropBlock_ofItems (values : List Bytes) :
    dropBlock values.length (ofItems rule (values ++ items)) = .ok () (ofItems rule items) := by
  have enough : ¬(ofItems rule (values ++ items)).depth < values.length := by
    simp [depth, ofItems]
  have same : dropBlock values.length (ofItems rule (values ++ items)) =
      (if (ofItems rule (values ++ items)).depth < values.length then
        (do
          let last ← MonadExcept.ofExcept (difference values.length 1)
          throw (.stackIndex last (ofItems rule (values ++ items)).depth) : StackM Unit)
      else
        (do
          let _ ← popMany values.length : StackM Unit)) (ofItems rule (values ++ items)) := rfl
  rw [same, if_neg enough]
  simp only [bind, EStateM.bind, popMany_ofItems]
  rfl

end Stack

end BitcoinSpend.Spend
