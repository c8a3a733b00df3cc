import BitcoinSpend.Proofs.Chunk.Push
import BitcoinSpend.Template.PushDrop

/-!
# The chunks of push-drop scripts

A push-drop script splits into the chunks that it was made of: those of the check
and those of the data, in either order.
-/

set_option autoImplicit false

namespace BitcoinSpend

namespace PushDrop

variable {count : Nat} {rest : List Chunk} {content : PushDrop} {position : LockPosition}

/-- The chunks of the check. -/
def lockChunks (content : PushDrop) : List Chunk :=
  [Chunk.push content.key.compressed, Chunk.ofOpcode Opcode.checkSig]

def dataChunks (content : PushDrop) : List Chunk :=
  content.fields.map Chunk.push ++ drops content.fields.length

def lockingChunks (content : PushDrop) : (position : LockPosition) → List Chunk
  | .beforeFields => content.lockChunks ++ content.dataChunks
  | .afterFields => content.dataChunks ++ content.lockChunks

theorem lockingScript_eq_ofChunks :
    content.lockingScript position = Script.ofChunks (content.lockingChunks position) := by
  cases position <;> rfl

private theorem inOrder_drops (later : Chunk.InOrder 0 rest) :
    Chunk.InOrder 0 (drops count ++ rest) := by
  induction count using drops.induct with
  | case1 => exact later
  | case2 => exact .cons (.bare rfl) (by decide) later
  | case3 count ih => exact .cons (.bare rfl) (by decide) ih

private theorem inOrder_dataChunks (short : ∀ field ∈ content.fields, field.length < UInt32.size)
    (later : Chunk.InOrder 0 rest) : Chunk.InOrder 0 (content.dataChunks ++ rest) := by
  rw [dataChunks, List.append_assoc]
  exact .pushes_append short (inOrder_drops later)

private theorem inOrder_lockChunks (later : Chunk.InOrder 0 rest) :
    Chunk.InOrder 0 (content.lockChunks ++ rest) := by
  have shortKey : ∀ item ∈ [content.key.compressed], item.length < UInt32.size := by
    intro item member
    rw [List.mem_singleton.mp member, PublicKey.length_compressed]
    decide
  exact .pushes_append shortKey (.cons (.bare rfl) (by decide) later)

/-- A script whose fields are not too long for a push splits into its chunks. -/
theorem chunks_lockingScript (short : ∀ field ∈ content.fields, field.length < UInt32.size) :
    (content.lockingScript position).chunks = .ok (content.lockingChunks position) := by
  have inOrder : Chunk.InOrder 0 (content.lockingChunks position) := by
    cases position with
    | beforeFields =>
        have data := inOrder_dataChunks short .nil
        rw [List.append_nil] at data
        exact inOrder_lockChunks data
    | afterFields =>
        have lock : Chunk.InOrder 0 (content.lockChunks ++ []) := inOrder_lockChunks .nil
        rw [List.append_nil] at lock
        exact inOrder_dataChunks short lock
  rw [lockingScript_eq_ofChunks]
  exact Chunk.decodeFrom_encodeAll inOrder 0

theorem length_lockingChunks : (content.lockingChunks position).length =
    content.fields.length + (drops content.fields.length).length + 2 := by
  cases position with
  | beforeFields =>
      simp only [lockingChunks, lockChunks, dataChunks, List.length_append, List.length_map,
        List.length_cons, List.length_nil]
      omega
  | afterFields =>
      simp only [lockingChunks, lockChunks, dataChunks, List.length_append, List.length_map,
        List.length_cons, List.length_nil]

end PushDrop

end BitcoinSpend
