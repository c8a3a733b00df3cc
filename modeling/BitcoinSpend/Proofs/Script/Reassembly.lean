import BitcoinSpend.Proofs.Chunk.Push
import BitcoinSpend.Proofs.Script.Mnemonics
import BitcoinSpend.Proofs.Text.HexDigits
import BitcoinSpend.Script.Assembly

/-!
# Assembly text read again

What a script assembled from words is written as has the words of its chunks, though a
return outside conditionals makes the rest of the script data that is split anew. So
the text assembles to the same script. A word of more data than the longest push can
announce is assembled too, with a length that is cut off, and its text is lost.
-/

set_option autoImplicit false

namespace BitcoinSpend

open Text (words IsWord)

namespace Chunk

/-! ## Chunks that words stand for -/

/-- A chunk that one word stands for: an opcode without an operand, or data that no opcode pushes
alone, in its shortest push. -/
inductive Spelled : Chunk → Prop where
  | bare {op : Opcode} (noOperand : Opcode.hasOperand op = false) : Spelled (ofOpcode op)
  | data {data : Bytes} (long : bareOpcode? data = none) (short : data.length < UInt32.size) :
      Spelled ⟨pushOpcode data.length, some data⟩

private theorem spelled_push {data : Bytes} (short : data.length < UInt32.size) :
    (push data).Spelled := by
  have sized := sized_push short
  rcases push_cases data with ⟨-, same⟩ | ⟨byte, -, -, -, same⟩ | ⟨-, same⟩ | ⟨long, same⟩
  · rw [same]
    exact .bare (by decide)
  · rw [same] at sized ⊢
    exact .bare (noOperand_of_sized sized)
  · rw [same]
    exact .bare (by decide)
  · rw [same]
    exact .data long short

private theorem sized_of_spelled {chunk : Chunk} (spelled : chunk.Spelled) : chunk.Sized := by
  cases spelled with
  | bare noOperand => exact .bare noOperand
  | @data data long short =>
      have sized := sized_push short
      rwa [push, long] at sized

/-! ## The text of a chunk -/

private theorem assembly_bare {op : Opcode} :
    assembly (ofOpcode op) =
      if op = Opcode.pushEmpty then "0"
      else if op = Opcode.negativeOne then "-1"
      else Opcode.mnemonic op := by
  rw [assembly]
  rfl

private theorem assembly_data {data : Bytes} (long : bareOpcode? data = none) :
    assembly ⟨pushOpcode data.length, some data⟩ = Hex.encode data := by
  have nonempty : data ≠ [] := List.ne_nil_of_length_pos (length_pos_of_bareOpcode? long)
  obtain ⟨lower, upper⟩ := pushOpcode_bounds (length_pos_of_bareOpcode? long)
  have notEmpty : pushOpcode data.length ≠ Opcode.pushEmpty := by
    intro same
    rw [same] at lower
    cases lower
  have notNegative : pushOpcode data.length ≠ Opcode.negativeOne := by
    intro same
    rw [same] at upper
    exact absurd upper (by decide)
  have notReturn : pushOpcode data.length ≠ Opcode.returnEarly := by
    intro same
    rw [same] at upper
    exact absurd upper (by decide)
  have isPush : pushOpcode data.length ≤ Opcode.pushData4 := UInt8.le_iff_toNat_le.mpr upper
  rw [assembly]
  simp [notEmpty, notNegative, notReturn, isPush, nonempty]

/-- The data of a return that splits is written as its chunks. -/
private theorem assembly_return {data : Bytes} {inner : List Chunk}
    (decoded : decodeFrom 0 0 data = .ok inner) :
    assembly ⟨Opcode.returnEarly, some data⟩ =
      Opcode.mnemonic Opcode.returnEarly ++ " " ++ joinWords (inner.map assembly) := by
  have notEmpty : Opcode.returnEarly ≠ Opcode.pushEmpty := by decide
  have notNegative : Opcode.returnEarly ≠ Opcode.negativeOne := by decide
  have mark : "OP_RETURN " = Opcode.mnemonic Opcode.returnEarly ++ " " := by decide +kernel
  rw [assembly, if_neg notEmpty, if_neg notNegative]
  dsimp only
  rw [if_pos rfl]
  split
  · next chunks split =>
      rw [decoded] at split
      cases split
      rw [List.attach_map_val, mark]
  · next cause failed =>
      rw [decoded] at failed
      cases failed

/-! ## The word of a chunk -/

private theorem isWord_assembly {chunk : Chunk} (spelled : chunk.Spelled) :
    IsWord chunk.assembly := by
  cases spelled with
  | bare noOperand =>
      rw [assembly_bare]
      split
      · exact Text.isWord_of_all (by decide) (by decide)
      · split
        · exact Text.isWord_of_all (by decide) (by decide)
        · exact Opcode.isWord_mnemonic noOperand
  | @data data long short =>
      rw [assembly_data long]
      exact Hex.isWord_encode (List.ne_nil_of_length_pos (length_pos_of_bareOpcode? long))

end Chunk

namespace Script

private theorem chunkOfWord_mnemonic {op : Opcode} (noOperand : Opcode.hasOperand op = false) :
    chunkOfWord (Opcode.mnemonic op) = .ok (Chunk.ofOpcode op) := by
  have first := Opcode.head?_mnemonic noOperand
  have notZero : Opcode.mnemonic op ≠ "0" := by
    intro same
    rw [same] at first
    exact absurd first (by decide)
  have notMinus : Opcode.mnemonic op ≠ "-1" := by
    intro same
    rw [same] at first
    exact absurd first (by decide)
  rw [chunkOfWord, if_neg notZero, if_neg notMinus]
  simp only [Opcode.ofMnemonic?_mnemonic noOperand, noOperand]
  rfl

private theorem chunkOfWord_hex {data : Bytes} (nonempty : data ≠ []) :
    chunkOfWord (Hex.encode data) = .ok (Chunk.push data) := by
  obtain ⟨first, rest, rfl⟩ := List.exists_cons_of_ne_nil nonempty
  have leading := Hex.written_digit (Hex.nibbles_lt first).1
  have letters : (Hex.encode (first :: rest)).toList =
      Hex.digit (first.toNat / 16) :: Hex.digit (first.toNat % 16) :: Hex.encodeChars rest :=
    String.toList_ofList
  have notZero : Hex.encode (first :: rest) ≠ "0" := by
    intro same
    have length := congrArg List.length letters
    have single : "0".toList.length = 1 := by decide
    rw [same, List.length_cons, List.length_cons] at length
    omega
  have notMinus : Hex.encode (first :: rest) ≠ "-1" := by
    intro same
    rw [same] at letters
    exact leading.notMinus (List.cons.inj letters).1.symm
  have noName : Opcode.ofMnemonic? (Hex.encode (first :: rest)) = none := by
    refine Opcode.ofMnemonic?_eq_none ?_
    rw [letters]
    exact fun same => leading.notLetter (Option.some.inj same)
  rw [chunkOfWord, if_neg notZero, if_neg notMinus]
  simp only [noName, Hex.decode_encode]

/-- The text of a chunk that a word stands for is such a word. -/
private theorem chunkOfWord_assembly {chunk : Chunk} (spelled : chunk.Spelled) :
    chunkOfWord chunk.assembly = .ok chunk := by
  cases spelled with
  | @bare op noOperand =>
      rw [Chunk.assembly_bare]
      split
      · next isEmpty => rw [isEmpty]; rfl
      · split
        · next isNegative => rw [isNegative]; rfl
        · exact chunkOfWord_mnemonic noOperand
  | @data data long short =>
      have nonempty := List.ne_nil_of_length_pos (Chunk.length_pos_of_bareOpcode? long)
      rw [Chunk.assembly_data long, chunkOfWord_hex nonempty, Chunk.push, long]

private theorem spelled_of_chunkOfWord {word : String} {chunk : Chunk}
    (read : chunkOfWord word = .ok chunk)
    (short : ∀ data, Hex.decode word = .ok data → data.length < UInt32.size) : chunk.Spelled := by
  simp only [chunkOfWord] at read
  split at read
  · cases read
    exact .bare (by decide)
  · split at read
    · cases read
      exact .bare (by decide)
    · split at read
      · next op named =>
          split at read
          · cases read
          · next noOperand =>
              cases read
              exact .bare (Bool.eq_false_iff.mpr noOperand)
      · split at read
        · next data decoded =>
            cases read
            exact Chunk.spelled_push (short data decoded)
        · cases read

end Script

/-! ## Whole scripts -/

namespace Chunk

private theorem decodeFrom_bare {op : Opcode} (noOperand : Opcode.hasOperand op = false)
    {depth : Nat} (goesOn : ¬(op = Opcode.returnEarly ∧ depth = 0)) (offset : Nat) (rest : Bytes) :
    decodeFrom offset depth (encode (ofOpcode op) ++ rest) =
      (decodeFrom (offset + 1) (depthAfter op depth) rest).map (ofOpcode op :: ·) := by
  have single : encode (ofOpcode op) = [op] := rfl
  rw [single, List.singleton_append, decodeFrom, if_neg goesOn, noOperand,
    if_neg Bool.false_ne_true]

private theorem decodeFrom_return (offset : Nat) (rest : Bytes) :
    decodeFrom offset 0 (encode (ofOpcode Opcode.returnEarly) ++ rest) =
      .ok [⟨Opcode.returnEarly, if rest.isEmpty then none else some rest⟩] := by
  have single : encode (ofOpcode Opcode.returnEarly) = [Opcode.returnEarly] := rfl
  rw [single, List.singleton_append, decodeFrom, if_pos ⟨rfl, rfl⟩]

/-- A return is written with the words of what its data splits into. -/
private theorem words_assembly_return {data : Bytes} {inner : List Chunk}
    (decoded : decodeFrom 0 0 data = .ok inner) :
    words (assembly ⟨Opcode.returnEarly, if data.isEmpty then none else some data⟩) =
      assembly (ofOpcode Opcode.returnEarly) ::
        inner.flatMap fun chunk => words chunk.assembly := by
  have noOperand : Opcode.hasOperand Opcode.returnEarly = false := rfl
  have word := Text.words_of_isWord (isWord_assembly (.bare noOperand))
  cases data with
  | nil =>
      rw [decodeFrom] at decoded
      cases decoded
      exact word
  | cons byte rest =>
      have mark : assembly (ofOpcode Opcode.returnEarly) = Opcode.mnemonic Opcode.returnEarly :=
        assembly_bare
      rw [List.isEmpty_cons, if_neg Bool.false_ne_true, assembly_return decoded, Text.words_space,
        Text.words_joinWords, ← mark, word, List.flatMap_map, List.singleton_append]

/-- The chunks that the encoding of spelled chunks splits into are written with the words of these,
wherever the splitting starts. A return outside conditionals takes the words after it with it. -/
private theorem words_of_encodeAll {chunks : List Chunk} (spelled : ∀ chunk ∈ chunks, chunk.Spelled)
    (offset depth : Nat) :
    ∃ split, decodeFrom offset depth (encodeAll chunks) = .ok split ∧
      (split.flatMap fun chunk => words chunk.assembly) = chunks.map assembly := by
  induction chunks generalizing offset depth with
  | nil => exact ⟨[], by rw [encodeAll, List.flatMap_nil, decodeFrom], rfl⟩
  | cons chunk rest ih =>
      obtain ⟨first, later⟩ := List.forall_mem_cons.mp spelled
      have word := Text.words_of_isWord (isWord_assembly first)
      rw [encodeAll_cons, List.map_cons]
      cases first with
      | @bare op noOperand =>
          by_cases isReturn : op = Opcode.returnEarly ∧ depth = 0
          · obtain ⟨rfl, rfl⟩ := isReturn
            -- The data of the return is split from the start again.
            obtain ⟨inner, decoded, texts⟩ := ih later 0 0
            refine ⟨_, decodeFrom_return offset _, ?_⟩
            rw [List.flatMap_singleton, words_assembly_return decoded, texts]
          · obtain ⟨split, decoded, texts⟩ := ih later (offset + 1) (depthAfter op depth)
            rw [decodeFrom_bare noOperand isReturn, decoded]
            exact ⟨_, rfl, by rw [List.flatMap_cons, word, texts, List.singleton_append]⟩
      | @data data long short =>
          have sized := sized_of_spelled (.data long short)
          have goesOn : ¬(pushOpcode data.length = Opcode.returnEarly ∧ depth = 0) := by
            rintro ⟨isReturn, -⟩
            have hasOperand := hasOperand_of_sized sized
            rw [isReturn] at hasOperand
            cases hasOperand
          obtain ⟨split, decoded, texts⟩ :=
            ih later (offset + 1 + (lengthWidth (pushOpcode data.length) + data.length)) depth
          rw [decodeFrom_push sized goesOn, decoded]
          exact ⟨_, rfl, by rw [List.flatMap_cons, word, texts, List.singleton_append]⟩

end Chunk

namespace Script

/-- The text of a script assembled from some chunks has a word for each of them. -/
private theorem words_toAssembly {chunks : List Chunk} (spelled : ∀ chunk ∈ chunks, chunk.Spelled) :
    words (ofChunks chunks).toAssembly = chunks.map Chunk.assembly := by
  obtain ⟨split, decoded, texts⟩ := Chunk.words_of_encodeAll spelled 0 0
  have splits : (ofChunks chunks).chunks = .ok split := decoded
  simp only [toAssembly, splits]
  rw [Text.words_joinWords, List.flatMap_map, texts]

private theorem mapM_chunkOfWord {chunks : List Chunk} (spelled : ∀ chunk ∈ chunks, chunk.Spelled) :
    (chunks.map Chunk.assembly).mapM chunkOfWord = .ok chunks := by
  induction chunks with
  | nil => rfl
  | cons chunk rest ih =>
      obtain ⟨first, later⟩ := List.forall_mem_cons.mp spelled
      rw [List.map_cons, List.mapM_cons, chunkOfWord_assembly first, ok_bind, ih later]
      rfl

private theorem spelled_of_mapM {texts : List String} {chunks : List Chunk}
    (read : texts.mapM chunkOfWord = .ok chunks)
    (short : ∀ word ∈ texts, ∀ data, Hex.decode word = .ok data → data.length < UInt32.size) :
    ∀ chunk ∈ chunks, chunk.Spelled := by
  induction texts generalizing chunks with
  | nil =>
      cases read
      exact nofun
  | cons word texts ih =>
      obtain ⟨shortWord, shortLater⟩ := List.forall_mem_cons.mp short
      rw [List.mapM_cons, bind_eq_ok_iff] at read
      obtain ⟨chunk, readWord, read⟩ := read
      obtain ⟨rest, readLater, read⟩ := bind_eq_ok_iff.mp read
      cases read
      exact List.forall_mem_cons.mpr
        ⟨spelled_of_chunkOfWord readWord shortWord, ih readLater shortLater⟩

/-- The text of a script that was assembled assembles to that script again, also where a return
outside conditionals makes the rest of the script data, which is written as the chunks that it
splits into. A word must spell no more data than the length field of a push has room for. -/
theorem ofAssembly_toAssembly {text : String} {script : Script}
    (assembled : ofAssembly text = .ok script)
    (short : ∀ word ∈ words text, ∀ data, Hex.decode word = .ok data →
      data.length < UInt32.size) :
    ofAssembly script.toAssembly = .ok script := by
  obtain ⟨chunks, read, rfl⟩ := map_eq_ok_iff.mp assembled
  have spelled := spelled_of_mapM read short
  rw [ofAssembly, words_toAssembly spelled, mapM_chunkOfWord spelled]
  rfl

/-- An alias, data in upper case, both literal numbers and an unassigned byte, before a return with
a push of an opcode's own and another return in its data. -/
theorem ofAssembly_toAssembly_nested :
    let text := "OP_TRUE DEAD 0 -1 OP_UNKNOWN186 OP_RETURN beef OP_RETURN 81"
    let script : Script :=
      ⟨[0x51, 0x02, 0xde, 0xad, 0x00, 0x4f, 0xba, 0x6a, 0x02, 0xbe, 0xef, 0x6a, 0x4f]⟩
    ofAssembly text = .ok script ∧ ofAssembly script.toAssembly = .ok script := by
  intro text script
  have assembled : ofAssembly text = .ok script := by decide +kernel
  have lengths : ∀ word ∈ words text, word.toList.length < 2 * UInt32.size := by decide +kernel
  refine ⟨assembled, ofAssembly_toAssembly assembled fun word member data read => ?_⟩
  have bound := Hex.length_of_decode read
  have small := lengths word member
  omega

/-! ## A word that is too long -/

/-- The length field of the longest push has no room for the length of the data. -/
private theorem encode_push_of_overlong {data : Bytes} (overlong : data.length = UInt32.size) :
    (Chunk.push data).encode = Opcode.pushData4 :: (List.replicate 4 0 ++ data) := by
  have long : 1 < data.length := by
    rw [overlong]
    decide
  have op : Chunk.pushOpcode UInt32.size = Opcode.pushData4 := by decide
  have width : Chunk.lengthWidth Opcode.pushData4 = 4 := rfl
  have field : Bytes.ofNatLE 4 UInt32.size = List.replicate 4 0 := by decide
  rw [Chunk.push_of_length long]
  simp only [overlong, op, Chunk.encode, width, field]

/-- A push whose length field is zero has no data, and what follows is split on its own. -/
private theorem decodeFrom_emptied (offset depth : Nat) (rest : Bytes) :
    Chunk.decodeFrom offset depth (Opcode.pushData4 :: (List.replicate 4 0 ++ rest)) =
      (Chunk.decodeFrom (offset + 1 + 4) depth rest).map (⟨Opcode.pushData4, some []⟩ :: ·) := by
  have goesOn : ¬(Opcode.pushData4 = Opcode.returnEarly ∧ depth = 0) := fun both =>
    absurd both.1 (by decide)
  have hasOperand : Opcode.hasOperand Opcode.pushData4 = true := rfl
  have width : Chunk.lengthWidth Opcode.pushData4 = 4 := rfl
  have enough : ¬(List.replicate 4 0 ++ rest).length < 4 := by
    rw [List.length_append, List.length_replicate]
    omega
  have announced : Chunk.announcedLength Opcode.pushData4 (List.replicate 4 0 ++ rest) = 0 := rfl
  have read : Chunk.readOperand offset Opcode.pushData4 (List.replicate 4 0 ++ rest) =
      .ok (4, []) := by
    simp only [Chunk.readOperand, width, if_neg enough, announced, Nat.not_lt_zero, if_false,
      List.take_zero, Nat.add_zero]
  rw [Chunk.decodeFrom, if_neg goesOn, hasOperand, if_pos rfl, read]
  rfl

/-- The data of a push whose length is cut off is read as opcodes, so the text has a word for each
of its bytes. -/
private theorem ofAssembly_toAssembly_of_overlong {count : Nat} (overlong : count = UInt32.size) :
    ofAssembly (ofChunks [Chunk.push (List.replicate count 0)]).toAssembly =
      .ok (ofChunks (List.replicate (count + 1) (Chunk.ofOpcode Opcode.pushEmpty))) := by
  have empties : ∀ number, ∀ chunk ∈ List.replicate number (Chunk.ofOpcode Opcode.pushEmpty),
      chunk.Spelled := by
    intro number chunk member
    rw [List.eq_of_mem_replicate member]
    exact .bare rfl
  have bytes : List.replicate count 0 =
      Chunk.encodeAll (List.replicate count (Chunk.ofOpcode Opcode.pushEmpty)) := by
    have single : (Chunk.ofOpcode Opcode.pushEmpty).encode = [0] := rfl
    rw [Chunk.encodeAll, List.flatMap_replicate, single, List.flatten_replicate_singleton]
  obtain ⟨split, decoded, texts⟩ := Chunk.words_of_encodeAll (empties count) (0 + 1 + 4) 0
  have splits : (ofChunks [Chunk.push (List.replicate count 0)]).chunks =
      .ok (⟨Opcode.pushData4, some []⟩ :: split) := by
    rw [chunks, ofChunks, Chunk.encodeAll, List.flatMap_singleton, Chunk.decode,
      encode_push_of_overlong (List.length_replicate.trans overlong), decodeFrom_emptied, bytes,
      decoded]
    rfl
  have words : words (ofChunks [Chunk.push (List.replicate count 0)]).toAssembly =
      (List.replicate (count + 1) (Chunk.ofOpcode Opcode.pushEmpty)).map Chunk.assembly := by
    have empty : (Chunk.ofOpcode Opcode.pushEmpty).Spelled := .bare rfl
    have zero : (Chunk.ofOpcode Opcode.pushEmpty).assembly = "0" := Chunk.assembly_bare
    have emptied : Chunk.assembly ⟨Opcode.pushData4, some []⟩ = "0" := by
      rw [Chunk.assembly]
      rfl
    have word := Text.words_of_isWord (Chunk.isWord_assembly empty)
    simp only [toAssembly, splits]
    rw [Text.words_joinWords, List.flatMap_map, List.flatMap_cons, texts, emptied, ← zero, word,
      List.replicate_succ, List.map_cons, List.singleton_append]
  rw [ofAssembly, words, mapM_chunkOfWord (empties _)]
  rfl

private theorem ofAssembly_encode {data : Bytes} (nonempty : data ≠ []) :
    ofAssembly (Hex.encode data) = .ok (ofChunks [Chunk.push data]) := by
  rw [ofAssembly, Text.words_of_isWord (Hex.isWord_encode nonempty), List.mapM_cons,
    chunkOfWord_hex nonempty]
  rfl

private theorem ofChunks_overlong_ne {count : Nat} (overlong : count = UInt32.size) :
    ofChunks (List.replicate (count + 1) (Chunk.ofOpcode Opcode.pushEmpty)) ≠
      ofChunks [Chunk.push (List.replicate count 0)] := by
  have single : (Chunk.ofOpcode Opcode.pushEmpty).encode = [Opcode.pushEmpty] := rfl
  have different : Opcode.pushEmpty ≠ Opcode.pushData4 := by decide
  intro same
  have heads := congrArg (fun script : Script => script.bytes.head?) same
  simp only [ofChunks, Chunk.encodeAll, List.replicate_succ, List.flatMap_cons, single,
    encode_push_of_overlong (List.length_replicate.trans overlong), List.cons_append,
    List.head?_cons] at heads
  exact different (Option.some.inj heads)

/-- A word for one byte more than a length field of four bytes can count. The field wraps to zero,
and the text has a word for each byte of the data. -/
theorem ofAssembly_toAssembly_overlong :
    let text := Hex.encode (List.replicate UInt32.size 0)
    let script := ofChunks [Chunk.push (List.replicate UInt32.size 0)]
    ofAssembly text = .ok script ∧ ofAssembly script.toAssembly ≠ .ok script := by
  have nonempty : List.replicate UInt32.size (0 : UInt8) ≠ [] := by
    intro none
    exact absurd (List.replicate_eq_nil_iff _ |>.mp none) (by decide)
  refine ⟨ofAssembly_encode nonempty, fun again => ?_⟩
  have zeros := ofAssembly_toAssembly_of_overlong (Eq.refl UInt32.size)
  exact ofChunks_overlong_ne rfl (Except.ok.inj (zeros.symm.trans again))

end Script

end BitcoinSpend
