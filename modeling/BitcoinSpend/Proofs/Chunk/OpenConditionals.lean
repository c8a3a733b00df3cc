import BitcoinSpend.Proofs.Chunk.Splitting

/-!
# Conditionals counted while a script is split

Splitting a script keeps count of the conditionals that are open, by opcodes alone. The
count before a chunk is a matter of the chunks before it, and it is zero before a return
that takes the rest of the script as its data.
-/

set_option autoImplicit false

namespace BitcoinSpend.Chunk

/-- Splitting bytes from an offset, with `depth` conditionals open before them, comes after a
number of chunks to a place where `counted` are. -/
inductive ReadsTo : (offset depth : Nat) → Bytes → (index counted : Nat) → Prop where
  | here {offset depth : Nat} {bytes : Bytes} : ReadsTo offset depth bytes 0 depth
  | push {offset depth index counted taken : Nat} {op : Opcode} {rest data : Bytes}
      (goesOn : ¬(op = Opcode.returnEarly ∧ depth = 0)) (hasOperand : Opcode.hasOperand op = true)
      (read : readOperand offset op rest = .ok (taken, data))
      (later : ReadsTo (offset + 1 + taken) depth (rest.drop taken) index counted) :
      ReadsTo offset depth (op :: rest) (index + 1) counted
  | bare {offset depth index counted : Nat} {op : Opcode} {rest : Bytes}
      (goesOn : ¬(op = Opcode.returnEarly ∧ depth = 0)) (noOperand : ¬Opcode.hasOperand op = true)
      (later : ReadsTo (offset + 1) (depthAfter op depth) rest index counted) :
      ReadsTo offset depth (op :: rest) (index + 1) counted

/-- The number of conditionals that are counted as open after chunks. -/
def openAfter (depth : Nat) (chunks : List Chunk) : Nat :=
  chunks.foldl (fun depth chunk => depthAfter chunk.op depth) depth

/-- The number of conditionals that are counted as open before the chunk at an index. -/
def openBefore (chunks : List Chunk) (index : Nat) : Nat :=
  openAfter 0 (chunks.take index)

theorem openBefore_succ {chunks : List Chunk} {index : Nat} {chunk : Chunk}
    (here : chunks[index]? = some chunk) :
    openBefore chunks (index + 1) = depthAfter chunk.op (openBefore chunks index) := by
  rw [openBefore, openBefore, List.take_add_one, here, openAfter, List.foldl_append]
  rfl

theorem readsTo_of_decodeFrom {offset depth : Nat} {bytes : Bytes} {chunks : List Chunk}
    (decoded : decodeFrom offset depth bytes = .ok chunks) {index : Nat}
    (inside : index < chunks.length) :
    ReadsTo offset depth bytes index (openAfter depth (chunks.take index)) := by
  fun_induction decodeFrom offset depth bytes generalizing chunks index with
  | case1 =>
      cases decoded
      cases inside
  | case2 offset depth op rest isReturn =>
      cases decoded
      obtain rfl : index = 0 := Nat.lt_one_iff.mp inside
      exact .here
  | case3 offset depth op rest notReturn hasOperand cause read => cases decoded
  | case4 offset depth op rest notReturn hasOperand taken data read ih =>
      obtain ⟨tail, tailDecoded, rfl⟩ := map_eq_ok_iff.mp decoded
      cases index with
      | zero => exact .here
      | succ index =>
          have counted : openAfter depth ((⟨op, some data⟩ :: tail).take (index + 1)) =
              openAfter depth (tail.take index) := by
            rw [List.take_succ_cons, openAfter, List.foldl_cons,
              depthAfter_of_hasOperand hasOperand]
            rfl
          rw [counted]
          exact .push notReturn hasOperand read (ih tailDecoded (Nat.lt_of_succ_lt_succ inside))
  | case5 offset depth op rest notReturn noOperand ih =>
      obtain ⟨tail, tailDecoded, rfl⟩ := map_eq_ok_iff.mp decoded
      cases index with
      | zero => exact .here
      | succ index =>
          exact .bare notReturn noOperand (ih tailDecoded (Nat.lt_of_succ_lt_succ inside))

/-- A return that has data stands outside conditionals, and nothing follows it. -/
theorem InOrder.of_returnData {depth : Nat} {chunks : List Chunk} (inOrder : InOrder depth chunks)
    {index : Nat} {chunk : Chunk} (here : chunks[index]? = some chunk)
    (returns : chunk.op = Opcode.returnEarly) (hasData : chunk.data ≠ none) :
    openAfter depth (chunks.take index) = 0 ∧ index + 1 = chunks.length := by
  induction inOrder generalizing index with
  | nil => cases here
  | ending nonempty =>
      obtain rfl : index = 0 := by
        have inside := (List.getElem?_eq_some_iff.mp here).1
        exact Nat.lt_one_iff.mp inside
      exact ⟨rfl, rfl⟩
  | @cons depth first rest sized goesOn later ih =>
      cases index with
      | zero =>
          cases here
          obtain ⟨op, data⟩ := chunk
          cases data with
          | none => exact absurd rfl hasData
          | some data =>
              have pushes := hasOperand_of_sized sized
              rw [show op = Opcode.returnEarly from returns] at pushes
              cases pushes
      | succ index =>
          obtain ⟨counted, last⟩ := ih here
          exact ⟨counted, congrArg (· + 1) last⟩

end BitcoinSpend.Chunk
