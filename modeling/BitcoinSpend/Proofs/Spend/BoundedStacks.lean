import BitcoinSpend.Proofs.NumberSizes
import BitcoinSpend.Proofs.Spend.Yields

/-!
# Stacks of items within the limits

An item is no longer than the limits allow if it was on a stack before, is a short
number or truth value, or stands for a number that is bounded in turn. Numbers taken
from a stack are bounded by the length that the limits allow for their forms.
-/

set_option autoImplicit false

namespace BitcoinSpend.Spend

open MonadExcept (ofExcept)

namespace Limits

/-- The item is no longer than a script may handle. -/
def Admits (limits : Limits) (item : Bytes) : Prop :=
  item.length ≤ limits.maxElementSize

/-- The number has a form that a script may read. -/
def Expresses (limits : Limits) (value : Int) : Prop :=
  value.natAbs < Bytes.capacity limits.maxNumberLength

/-- Limits under which digests, counts and the results of arithmetic are admitted. -/
structure Roomy (limits : Limits) : Prop where
  numbers : 0 < limits.maxNumberLength
  products : 2 * limits.maxNumberLength + 1 ≤ limits.maxElementSize
  digests : 32 ≤ limits.maxElementSize
  sizes : limits.maxElementSize < Bytes.capacity 4
  depths : limits.maxStackSize < Bytes.capacity 4

theorem roomy_ofFlags (flags : Flags) : (ofFlags flags).Roomy := by
  simp only [ofFlags]
  split
  · constructor <;> decide
  · constructor <;> decide

variable {limits : Limits} {value : Int}

/-- Products are the largest results: they need at most the bytes of both operands, and one for the
sign. -/
theorem Roomy.admits_encode (room : limits.Roomy)
    (small : value.natAbs < Bytes.capacity (limits.maxNumberLength + limits.maxNumberLength)) :
    limits.Admits (ScriptNumber.encode value) := by
  have short := ScriptNumber.length_encode_le small
  have products := room.products
  simp only [Admits]
  omega

/-- The numbers of bytes and of items that there may be. -/
theorem Roomy.admits_count (room : limits.Roomy) {count : Nat} (small : count < Bytes.capacity 4) :
    limits.Admits (ScriptNumber.encode count) := by
  have short : (ScriptNumber.encode count).length ≤ 4 + 1 := ScriptNumber.length_encode_le small
  have digests := room.digests
  simp only [Admits]
  omega

theorem Roomy.admits_ofBool (room : limits.Roomy) (value : Bool) :
    limits.Admits (ScriptNumber.ofBool value) := by
  have short := ScriptNumber.length_ofBool_le value
  have digests := room.digests
  simp only [Admits]
  omega

/-- A number one larger than one that may be read. -/
theorem Roomy.admits_succ (room : limits.Roomy)
    (small : value.natAbs ≤ Bytes.capacity limits.maxNumberLength) :
    limits.Admits (ScriptNumber.encode value) := by
  refine room.admits_encode ?_
  have wider : Bytes.capacity (limits.maxNumberLength + 1) ≤
      Bytes.capacity (limits.maxNumberLength + limits.maxNumberLength) :=
    Bytes.capacity_mono (Nat.add_le_add_left room.numbers _)
  have positive := Bytes.capacity_pos limits.maxNumberLength
  simp only [Bytes.capacity] at wider
  omega

end Limits

namespace Stack

/-- A stack of admitted items that reads numbers within the limits. -/
structure Fits (limits : Limits) (stack : Stack) : Prop where
  items : ∀ item ∈ stack.items, limits.Admits item
  rule : stack.rule.maxLength = limits.maxNumberLength

/-- The operation keeps the stack within the limits and gives values with the property. -/
abbrev Gives {α : Type} (limits : Limits) (property : α → Prop) (op : StackM α) : Prop :=
  Yields (Fits limits) (Fits limits) property op

/-- The operation keeps the stack within the limits. -/
abbrev KeepsFit {α : Type} (limits : Limits) (op : StackM α) : Prop :=
  Gives limits (fun _ => True) op

variable {limits : Limits}

theorem fits_empty {rule : ScriptNumber.Rule} (same : rule.maxLength = limits.maxNumberLength) :
    (empty rule).Fits limits :=
  ⟨nofun, same⟩

theorem keepsFit_push {item : Bytes} (admitted : limits.Admits item) :
    KeepsFit limits (push item) :=
  fun _ fits => ⟨trivial, List.forall_mem_cons.mpr ⟨admitted, fits.items⟩, fits.rule⟩

private theorem admits_of_itemBelow {stack : Stack} (fits : stack.Fits limits) {index : Nat}
    {item : Bytes} (found : stack.itemBelow index = .ok item) : limits.Admits item := by
  simp only [itemBelow, refuse] at found
  split at found
  · cases found
  · exact fits.items item (List.mem_of_getElem? (getElem?_of_itemAt found))

theorem gives_peek (index : Nat) : Gives limits limits.Admits (peek index) :=
  .get_bind fun _ fits => .ofExcept (fun _ => id) fun _ found => admits_of_itemBelow fits found

theorem gives_remove (index : Nat) : Gives limits limits.Admits (remove index) := by
  refine .get_bind fun stack fits => .ofExcept_bind (fun _ => id) fun item found => ?_
  refine .ofExcept_bind (fun _ => id) fun held _ => ?_
  intro current _
  refine ⟨admits_of_itemBelow fits found, fun other member => ?_, fits.rule⟩
  exact fits.items other (List.mem_of_mem_eraseIdx member)

theorem gives_pop : Gives limits limits.Admits pop :=
  gives_remove 0

theorem gives_readNumber (maxLength : Nat) (item : Bytes) :
    Gives limits (fun value => value.natAbs < Bytes.capacity maxLength)
      (readNumber maxLength item) := by
  intro stack fits
  simp only [readNumber]
  split
  · next value read => exact ⟨ScriptNumber.natAbs_lt_of_decodeWithin read, fits⟩
  · exact fits

theorem gives_popNumber : Gives limits limits.Expresses popNumber := by
  refine gives_pop.bind fun item _ => .get_bind fun stack fits => ?_
  rw [fits.rule]
  exact gives_readNumber _ item

theorem keepsFit_popBool : KeepsFit limits popBool :=
  gives_pop.bind fun _ _ => .pure trivial

theorem keepsFit_popMany (count : Nat) : KeepsFit limits (popMany count) := by
  induction count with
  | zero => exact .pure trivial
  | succ count ih => exact gives_pop.bind fun _ _ => ih.bind fun _ _ => .pure trivial

private theorem keepsFit_repeatOp {op : StackM Unit} (keeps : KeepsFit limits op) (count : Nat) :
    KeepsFit limits (repeatOp op count) := by
  induction count with
  | zero => exact .pure trivial
  | succ count ih => exact keeps.bind fun _ _ => ih

theorem keepsFit_pick (index : Nat) : KeepsFit limits (pick index) :=
  (gives_peek index).bind fun _ admitted => keepsFit_push admitted

theorem keepsFit_roll (index : Nat) : KeepsFit limits (roll index) :=
  (gives_remove index).bind fun _ admitted => keepsFit_push admitted

theorem keepsFit_tuck : KeepsFit limits tuck := by
  refine gives_pop.bind fun top admittedTop => gives_pop.bind fun below admittedBelow => ?_
  refine (keepsFit_push admittedTop).bind fun _ _ => ?_
  exact (keepsFit_push admittedBelow).bind fun _ _ => keepsFit_push admittedTop

theorem keepsFit_dropBlock (count : Nat) : KeepsFit limits (dropBlock count) := by
  refine .get_bind fun stack fits => ?_
  split
  · refine .ofExcept_bind (fun _ => id) fun last _ => ?_
    exact fun _ kept => kept
  · exact (keepsFit_popMany count).bind fun _ _ => .pure trivial

theorem keepsFit_dupBlock (count : Nat) : KeepsFit limits (dupBlock count) :=
  keepsFit_repeatOp (.ofExcept_bind (fun _ => id) fun last _ => keepsFit_pick last) count

theorem keepsFit_rotBlock (count : Nat) : KeepsFit limits (rotBlock count) :=
  .ofExcept_bind (fun _ => id) fun last _ => keepsFit_repeatOp (keepsFit_roll last) count

theorem keepsFit_swapBlock (count : Nat) : KeepsFit limits (swapBlock count) :=
  .ofExcept_bind (fun _ => id) fun last _ => keepsFit_repeatOp (keepsFit_roll last) count

theorem keepsFit_overBlock (count : Nat) : KeepsFit limits (overBlock count) :=
  .ofExcept_bind (fun _ => id) fun last _ => keepsFit_repeatOp (keepsFit_pick last) count

end Stack

end BitcoinSpend.Spend
