import BitcoinSpend.Spend.Fault

/-!
# Guards

Refusals, and what may be out of range: indexing, slicing, the difference of unsigned
numbers and the product of machine words, each failing where its result is not defined.
What an instruction reads by position, it reads through these.
-/

set_option autoImplicit false

namespace BitcoinSpend.Spend

/-- Fails if a condition holds. -/
def refuse {m : Type → Type} [Monad m] [MonadExceptOf Fault m] (condition : Bool) (fault : Fault) :
    m Unit :=
  if condition then throw fault else pure ()

/-- The difference of two unsigned numbers. -/
def difference (left right : Nat) : Except Fault Nat :=
  if right ≤ left then .ok (left - right) else .error .outOfRange

/-- The product of two machine words. -/
def product (left right : Nat) : Except Fault Nat :=
  if left * right < UInt64.size then .ok (left * right) else .error .outOfRange

def itemAt {α : Type} (items : List α) (index : Nat) : Except Fault α :=
  match items[index]? with
  | some item => .ok item
  | none => .error .outOfRange

/-- The items of a list from an index on. -/
def suffixFrom {α : Type} (items : List α) (start : Nat) : Except Fault (List α) :=
  if start ≤ items.length then .ok (items.drop start) else .error .outOfRange

theorem difference_of_le {left right : Nat} (ordered : right ≤ left) :
    difference left right = .ok (left - right) :=
  if_pos ordered

theorem product_of_lt {left right : Nat} (word : left * right < UInt64.size) :
    product left right = .ok (left * right) :=
  if_pos word

theorem product_of_le {left right : Nat} (overflows : UInt64.size ≤ left * right) :
    product left right = .error .outOfRange :=
  if_neg (Nat.not_lt.mpr overflows)

theorem itemAt_of_lt {α : Type} {items : List α} {index : Nat} (inside : index < items.length) :
    itemAt items index = .ok items[index] := by
  simp [itemAt, inside]

theorem getElem?_of_itemAt {α : Type} {items : List α} {index : Nat} {item : α}
    (found : itemAt items index = .ok item) : items[index]? = some item := by
  simp only [itemAt] at found
  split at found
  · next same =>
      cases found
      exact same
  · cases found

theorem lt_of_itemAt {α : Type} {items : List α} {index : Nat} {item : α}
    (found : itemAt items index = .ok item) : index < items.length :=
  (List.getElem?_eq_some_iff.mp (getElem?_of_itemAt found)).1

theorem suffixFrom_of_le {α : Type} {items : List α} {start : Nat}
    (inside : start ≤ items.length) : suffixFrom items start = .ok (items.drop start) :=
  if_pos inside

end BitcoinSpend.Spend
