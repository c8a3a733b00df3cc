import BitcoinSpend.Proofs.Curve.CompressedKey
import BitcoinSpend.Proofs.Template.PushDropScript

/-!
# Reading push-drop scripts back

Which layout a script has shows in its second chunk, and the data end at the first drop.
No push can be taken for a check or a drop, whatever it pushes, so that a push-drop
script gives back the key and the fields that it was made of.
-/

set_option autoImplicit false

namespace BitcoinSpend

namespace PushDrop

variable {content : PushDrop} {count : Nat} {chunk : Chunk}

/-! ## Chunks that mark the layout -/

private theorem op_push_ne {op : Opcode} (beyond : Opcode.sixteen < op) (data : Bytes) :
    (Chunk.push data).op ≠ op := by
  intro same
  exact UInt8.not_le.mpr beyond (same ▸ Chunk.op_push_le data)

private theorem mem_drops (member : chunk ∈ drops count) :
    chunk = Chunk.ofOpcode Opcode.drop ∨ chunk = Chunk.ofOpcode Opcode.drop2 := by
  induction count using drops.induct with
  | case1 => cases member
  | case2 => exact Or.inl (List.mem_singleton.mp member)
  | case3 count ih =>
      rcases List.mem_cons.mp member with same | member
      · exact Or.inr same
      · exact ih member

private theorem op_dataChunks_ne (member : chunk ∈ content.dataChunks) :
    chunk.op ≠ Opcode.checkSig := by
  rcases List.mem_append.mp member with pushed | dropped
  · obtain ⟨field, -, rfl⟩ := List.mem_map.mp pushed
    exact op_push_ne (by decide) field
  · rcases mem_drops dropped with rfl | rfl
    · decide
    · decide

/-! ## Where the key and the data stand -/

/-- A check at the end is found if no chunk before it could be the check of the other layout. -/
private theorem layout?_append {data : List Chunk} {key : Chunk}
    (free : ∀ chunk ∈ data ++ [key], chunk.op ≠ Opcode.checkSig) :
    layout? (data ++ [key, Chunk.ofOpcode Opcode.checkSig]) = some (key, data) := by
  cases data with
  | nil => rfl
  | cons first rest =>
      -- The second chunk is one of the data, or the key where the data are a single chunk.
      obtain ⟨second, others, split⟩ := List.exists_cons_of_ne_nil
        (List.append_ne_nil_of_right_ne_nil rest (List.cons_ne_nil key []))
      have notCheck : second.op ≠ Opcode.checkSig := by
        apply free
        rw [List.cons_append, split]
        exact List.mem_cons_of_mem _ List.mem_cons_self
      have whole : first :: rest ++ [key, Chunk.ofOpcode Opcode.checkSig] =
          first :: second :: (others ++ [Chunk.ofOpcode Opcode.checkSig]) := by
        rw [← List.cons_append, ← split]
        simp
      have backwards : (first :: rest ++ [key, Chunk.ofOpcode Opcode.checkSig]).reverse =
          Chunk.ofOpcode Opcode.checkSig :: key :: (first :: rest).reverse := by
        rw [List.reverse_append]
        rfl
      rw [whole] at backwards ⊢
      simp only [layout?, if_neg notCheck, backwards, List.reverse_reverse]
      rfl

private theorem layout?_lockingChunks (content : PushDrop) (position : LockPosition) :
    layout? (content.lockingChunks position) =
      some (Chunk.push content.key.compressed, content.dataChunks) := by
  cases position with
  | beforeFields => rfl
  | afterFields =>
      refine layout?_append fun chunk member => ?_
      rcases List.mem_append.mp member with inData | isKey
      · exact op_dataChunks_ne inData
      · rw [List.mem_singleton.mp isKey]
        exact op_push_ne (by decide) _

/-! ## What the data hold -/

private theorem mapM_pushValue? (fields : List Bytes) :
    (fields.map Chunk.push).mapM Chunk.pushValue? = some fields := by
  induction fields with
  | nil => rfl
  | cons field fields ih =>
      rw [List.map_cons, List.mapM_cons, Chunk.pushValue?_push, ih]
      rfl

private theorem fields?_dataChunks (content : PushDrop) :
    fields? content.dataChunks = some content.fields := by
  have noneDropped : ∀ chunk ∈ content.fields.map Chunk.push,
      (chunk.op != Opcode.drop && chunk.op != Opcode.drop2) = true := by
    intro chunk member
    obtain ⟨field, -, rfl⟩ := List.mem_map.mp member
    rw [Bool.and_eq_true, bne_iff_ne, bne_iff_ne]
    exact ⟨op_push_ne (by decide) field, op_push_ne (by decide) field⟩
  have dropsFirst : (drops content.fields.length).takeWhile
      (fun chunk => chunk.op != Opcode.drop && chunk.op != Opcode.drop2) = [] := by
    rcases content.fields.length with _ | _ | count <;> rfl
  rw [fields?, dataChunks, List.takeWhile_append_of_pos noneDropped, dropsFirst, List.append_nil,
    mapM_pushValue?]

private theorem data_push_compressed (key : PublicKey) :
    (Chunk.push key.compressed).data = some key.compressed := by
  have long : 1 < key.compressed.length := by
    rw [PublicKey.length_compressed]
    decide
  rw [Chunk.push_of_length long]

/-- A push-drop script in either layout is read as the key and the fields that it was made of. -/
theorem ofScript_lockingScript (content : PushDrop) (position : LockPosition)
    (short : ∀ field ∈ content.fields, field.length < UInt32.size) :
    ofScript (content.lockingScript position) = .ok content := by
  have split : (content.lockingScript position).chunks.mapError TransactionError.script =
      .ok (content.lockingChunks position) := by rw [chunks_lockingScript short]; rfl
  have read : (PublicKey.ofBytes content.key.compressed).mapError TransactionError.encoding =
      .ok content.key := by rw [PublicKey.ofBytes_compressed]; rfl
  rw [ofScript, split, ok_bind, layout?_lockingChunks]
  simp only [data_push_compressed, read, ok_bind, fields?_dataChunks]
  rfl

/-- No fields at all, and fields that look like nothing, a number, a check, drops and a key. -/
theorem ofScript_lockingScript_lookalikes :
    ∃ key, PublicKey.ofPoint? Curve.generator = some key ∧
      let fields : List Bytes := [[], [0x10], [0x81], [0xac], [0x75, 0x6d], key.compressed]
      (∀ field ∈ fields, field.length < UInt32.size) ∧
        ∀ position : LockPosition,
          ofScript (lockingScript ⟨key, []⟩ position) = .ok ⟨key, []⟩ ∧
            ofScript (lockingScript ⟨key, fields⟩ position) = .ok ⟨key, fields⟩ := by
  have isKey : (PublicKey.ofPoint? Curve.generator).isSome = true := by decide +kernel
  obtain ⟨key, found⟩ := Option.isSome_iff_exists.mp isKey
  refine ⟨key, found, ?_⟩
  intro fields
  have short : ∀ field ∈ fields, field.length < UInt32.size := by
    simp [fields, PublicKey.length_compressed, UInt32.size]
  exact ⟨short, fun position => ⟨ofScript_lockingScript ⟨key, []⟩ position nofun,
    ofScript_lockingScript ⟨key, fields⟩ position short⟩⟩

end PushDrop

end BitcoinSpend
