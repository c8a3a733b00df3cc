import BitcoinSpend.Proofs.Chunk.Splitting

/-!
# Parts of a script that are read anew

A part of a script is split again from its own first byte, with no conditional open.
Where fewer conditionals are open than there were, a return may swallow chunks that
were apart before, but no chunk gets another opcode or comes into being.
-/

set_option autoImplicit false

namespace BitcoinSpend.Chunk

/-- The end of a script is in order where it begins. -/
theorem InOrder.drop {depth : Nat} {chunks : List Chunk} (inOrder : InOrder depth chunks)
    (count : Nat) : ∃ depth', InOrder depth' (chunks.drop count) := by
  induction inOrder generalizing count with
  | nil =>
      rw [List.drop_nil]
      exact ⟨0, .nil⟩
  | ending nonempty =>
      cases count with
      | zero => exact ⟨0, .ending nonempty⟩
      | succ count =>
          rw [List.drop_succ_cons, List.drop_nil]
          exact ⟨0, .nil⟩
  | cons sized goesOn later ih =>
      cases count with
      | zero => exact ⟨_, .cons sized goesOn later⟩
      | succ count => exact ih count

/-- Chunks that leave the conditionals alone may be taken out. -/
theorem InOrder.filter {depth : Nat} {chunks : List Chunk} {keep : Chunk → Bool}
    (inOrder : InOrder depth chunks)
    (neutral : ∀ chunk, keep chunk = false → ∀ depth, depthAfter chunk.op depth = depth) :
    InOrder depth (chunks.filter keep) := by
  induction inOrder with
  | nil => exact .nil
  | @ending data nonempty =>
      rw [List.filter_cons]
      split
      · exact .ending nonempty
      · exact .nil
  | @cons depth chunk rest sized goesOn later ih =>
      rw [List.filter_cons]
      split
      · exact .cons sized goesOn ih
      · next dropped =>
          rw [neutral chunk (Bool.eq_false_iff.mpr dropped)] at ih
          exact ih

private theorem encode_of_return {chunk : Chunk} (sized : chunk.Sized)
    (isReturn : chunk.op = Opcode.returnEarly) : chunk.encode = [Opcode.returnEarly] := by
  cases sized with
  | direct isDirect length =>
      cases isReturn
      cases isDirect
  | pushData1 | pushData2 | pushData4 => cases isReturn
  | bare noOperand => rw [encode, isReturn]

/-- A return outside conditionals takes whatever follows it. -/
private theorem exists_ending (later : Bytes) : ∃ data, InOrder 0 [⟨Opcode.returnEarly, data⟩] ∧
    encodeAll [⟨Opcode.returnEarly, data⟩] = Opcode.returnEarly :: later := by
  cases later with
  | nil => exact ⟨none, .ending (by simp), encodeAll_ending none⟩
  | cons byte later => exact ⟨some (byte :: later), .ending (by simp), encodeAll_ending _⟩

/-- With fewer conditionals open the same bytes split as well, into chunks with opcodes from among
the old ones. -/
theorem InOrder.exists_regrouped {depth depth' : Nat} {chunks : List Chunk}
    (inOrder : InOrder depth chunks) (shallower : depth' ≤ depth) :
    ∃ regrouped, InOrder depth' regrouped ∧ encodeAll regrouped = encodeAll chunks ∧
      ∀ part ∈ regrouped, ∃ chunk ∈ chunks, part.op = chunk.op := by
  induction inOrder generalizing depth' with
  | nil => exact ⟨[], .nil, rfl, nofun⟩
  | @ending data nonempty =>
      obtain rfl : depth' = 0 := Nat.le_zero.mp shallower
      exact ⟨_, .ending nonempty, rfl, fun part member => ⟨part, member, rfl⟩⟩
  | @cons depth chunk rest sized goesOn later ih =>
      by_cases swallows : chunk.op = Opcode.returnEarly ∧ depth' = 0
      · -- The return was inside a conditional, so that it has no data of its own.
        obtain ⟨isReturn, rfl⟩ := swallows
        obtain ⟨data, inOrder, encoded⟩ := exists_ending (encodeAll rest)
        refine ⟨[⟨Opcode.returnEarly, data⟩], inOrder, ?_, ?_⟩
        · rw [encoded, encodeAll_cons, encode_of_return sized isReturn, List.singleton_append]
        · intro part member
          obtain rfl := List.mem_singleton.mp member
          exact ⟨chunk, List.mem_cons_self, isReturn.symm⟩
      · obtain ⟨regrouped, inOrder, encoded, occurs⟩ := ih (depthAfter_mono shallower)
        refine ⟨chunk :: regrouped, .cons sized swallows inOrder, ?_, ?_⟩
        · rw [encodeAll_cons, encodeAll_cons, encoded]
        · intro part member
          obtain rfl | member := List.mem_cons.mp member
          · exact ⟨part, List.mem_cons_self, rfl⟩
          · obtain ⟨original, among, same⟩ := occurs part member
            exact ⟨original, List.mem_cons_of_mem chunk among, same⟩

end BitcoinSpend.Chunk
