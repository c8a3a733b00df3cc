import Mathlib.Data.List.Sort
import BitcoinSpend.Merkle.Path.Wire
import BitcoinSpend.Proofs.Wire.ReadBack
import BitcoinSpend.Proofs.Wire.Spelling

/-!
# Encoded Merkle paths read back

Reading a path sorts its levels, drops the marks that are not known and gives each
element a hash or a mark that it is a duplicate. Paths of this form are read back from
their encoding as they are, so that writing what has been read loses nothing more.
-/

set_option autoImplicit false

namespace BitcoinSpend.Merkle

open Wire (Undoes bind_eq_ok)

/-! ## The form that reading gives -/

/-- An element is a duplicate without a hash or has a hash, and is marked as a transaction or not
marked. -/
structure Element.IsNormal (element : Element) : Prop where
  content : (element.duplicate = some true ∧ element.hash = none) ∨
    (element.duplicate = none ∧ element.hash.isSome = true)
  mark : element.txid = none ∨ element.txid = some true

/-- Elements are in the order of their offsets. They can be counted in 64 bits, as whatever fits in
memory can. -/
structure Level.IsNormal (level : Level) : Prop where
  elements : ∀ element ∈ level, element.IsNormal
  sorted : level.Pairwise fun left right => left.offset ≤ right.offset
  counted : level.length < UInt64.size

structure Path.IsNormal (path : Path) : Prop where
  levels : ∀ level ∈ path.levels, Level.IsNormal level
  counted : path.levels.length ≤ 255

/-- Some element of the path has a hash. -/
def Path.HoldsHash (path : Path) : Prop :=
  ∃ level ∈ path.levels, ∃ element ∈ level, element.hash.isSome = true

/-! ## What reading gives -/

private theorem isNormal_of_readElement {cursor next : Wire.Cursor} {element : Element}
    (ran : readElement cursor = .ok element next) : element.IsNormal := by
  obtain ⟨offset, atMarks, -, ran⟩ := bind_eq_ok ran
  obtain ⟨marks, atHash, -, ran⟩ := bind_eq_ok ran
  have mark : (if marks &&& txidMark != 0 then some true else none) = (none : Option Bool) ∨
      (if marks &&& txidMark != 0 then some true else none) = some true := by
    split
    · exact Or.inr rfl
    · exact Or.inl rfl
  dsimp only at ran
  generalize (if marks &&& txidMark != 0 then some true else none : Option Bool) = txid at ran mark
  by_cases duplicate : (marks &&& duplicateMark != 0) = true
  · rw [if_pos duplicate] at ran
    cases ran
    exact ⟨Or.inl ⟨rfl, rfl⟩, mark⟩
  · rw [if_neg duplicate] at ran
    obtain ⟨hash, atEnd, -, ran⟩ := bind_eq_ok ran
    cases ran
    exact ⟨Or.inr ⟨rfl, rfl⟩, mark⟩

theorem Level.pairwise_sort (level : Level) :
    level.sort.Pairwise fun left right => left.offset ≤ right.offset := by
  have trans : ∀ first second third : Element, decide (first.offset ≤ second.offset) = true →
      decide (second.offset ≤ third.offset) = true →
      decide (first.offset ≤ third.offset) = true := by
    intro first second third before after
    rw [decide_eq_true_eq] at before after ⊢
    exact UInt64.le_trans before after
  have total : ∀ left right : Element,
      (decide (left.offset ≤ right.offset) || decide (right.offset ≤ left.offset)) = true := by
    intro left right
    rw [Bool.or_eq_true, decide_eq_true_eq, decide_eq_true_eq]
    exact UInt64.le_total _ _
  have sorted := List.pairwise_mergeSort trans total level
  simp only [decide_eq_true_eq] at sorted
  exact sorted

private theorem isNormal_of_readLevel {cursor next : Wire.Cursor} {level : Level}
    (ran : readLevel cursor = .ok level next) : Level.IsNormal level := by
  obtain ⟨count, atElements, -, ran⟩ := bind_eq_ok ran
  obtain ⟨elements, atEnd, read, ran⟩ := bind_eq_ok ran
  cases ran
  obtain ⟨counted, normal⟩ :=
    Wire.forall_mem_of_replicate (fun _ _ _ => isNormal_of_readElement) read
  refine ⟨fun element member => ?_, Level.pairwise_sort elements, ?_⟩
  · exact normal element (List.mem_mergeSort.mp member)
  · rw [Level.sort, List.length_mergeSort, counted]
    exact count.toNat_lt

private theorem Path.isNormal_of_read {cursor next : Wire.Cursor} {path : Path}
    (ran : Path.read cursor = .ok path next) : path.IsNormal := by
  obtain ⟨height, atCount, -, ran⟩ := bind_eq_ok ran
  dsimp only at ran
  split at ran
  · cases ran
  obtain ⟨count, atLevels, -, ran⟩ := bind_eq_ok ran
  obtain ⟨levels, atEnd, read, ran⟩ := bind_eq_ok ran
  cases ran
  obtain ⟨counted, normal⟩ :=
    Wire.forall_mem_of_replicate (fun _ _ _ => isNormal_of_readLevel) read
  refine ⟨normal, ?_⟩
  rw [counted]
  exact Nat.le_of_lt_succ count.toNat_lt

private theorem Path.isNormal_of_ofBytes {bytes : Bytes} {path : Path}
    (decoded : Path.ofBytes bytes = .ok path) : path.IsNormal := by
  simp only [Path.ofBytes] at decoded
  split at decoded
  · cases decoded
  · split at decoded
    · cases decoded
    · next read =>
        split at decoded
        · cases decoded
          exact Path.isNormal_of_read read
        · cases decoded

/-! ## Reading back what was written -/

private theorem marks_duplicate (element : Element) :
    (element.marks &&& duplicateMark != 0) = element.isDuplicate := by
  unfold Element.marks
  cases element.isDuplicate <;> cases element.isMarked <;> decide

private theorem marks_txid (element : Element) :
    (element.marks &&& txidMark != 0) = element.isMarked := by
  unfold Element.marks
  cases element.isDuplicate <;> cases element.isMarked <;> decide

private theorem undoes_readField {α : Type} {read : Wire.Read EncodingError α} {bytes : Bytes}
    {value : α} (undoes : Undoes read bytes value) (field : PathField) :
    Undoes (readField field read) bytes value :=
  undoes.mapError _

namespace Element.IsNormal

variable {element : Element}

/-- The mark of a normal element can be told from whether it is a transaction. -/
theorem txid_eq (normal : element.IsNormal) :
    (if element.isMarked then some true else none) = element.txid := by
  rcases normal.mark with unmarked | marked
  · simp [isMarked, unmarked]
  · simp [isMarked, marked]

theorem undoes_read (normal : element.IsNormal) : Undoes readElement element.encode element := by
  have mark := normal.txid_eq
  rw [Element.encode, List.append_assoc]
  apply (undoes_readField (Wire.undoes_readVarInt element.offset) .offset).bind
  apply (undoes_readField (Wire.undoes_readUInt8 element.marks) .flags).bind
  rw [marks_duplicate, marks_txid, mark]
  rcases normal.content with ⟨duplicate, absent⟩ | ⟨single, present⟩
  · have isDuplicate : element.isDuplicate = true := by simp [isDuplicate, duplicate]
    rw [isDuplicate, if_pos rfl]
    have same : element = ⟨element.offset, none, element.txid, some true⟩ := by
      rw [← duplicate, ← absent]
    rw [same]
    exact .pure _
  · obtain ⟨hash, hashed⟩ := Option.isSome_iff_exists.mp present
    have isSingle : element.isDuplicate = false := by simp [isDuplicate, single]
    rw [isSingle, hashed, if_neg Bool.false_ne_true]
    have same : element = ⟨element.offset, some hash, element.txid, none⟩ := by
      rw [← hashed, ← single]
    rw [same]
    exact (undoes_readField (Wire.undoes_readHash32 hash) .hash).map fun hash =>
      (⟨element.offset, some hash, element.txid, none⟩ : Element)

end Element.IsNormal

theorem Level.IsNormal.undoes_read {level : Level} (normal : level.IsNormal) :
    Undoes readLevel level.encode level := by
  have sorted : level.sort = level := by
    refine List.mergeSort_of_pairwise ?_
    simpa only [decide_eq_true_eq] using normal.sorted
  have elements : Undoes (readElement.replicate level.length) (level.flatMap Element.encode)
      (level.map id) :=
    .replicate fun element member => (normal.elements element member).undoes_read
  have read := elements.map Level.sort
  rw [List.map_id, sorted] at read
  apply (undoes_readField (Wire.undoes_readVarInt _) .leafCount).bind
  rwa [UInt64.toNat_ofNat_of_lt' normal.counted]

namespace Path.IsNormal

variable {path : Path}

theorem undoes_read (normal : path.IsNormal) : Undoes Path.read path.toBytes path := by
  have inRange : ¬UInt32.size ≤ path.blockHeight.toUInt64.toNat := by
    rw [UInt32.toNat_toUInt64]
    exact Nat.not_le.mpr path.blockHeight.toNat_lt
  have counted : (UInt8.ofNat path.levels.length).toNat = path.levels.length :=
    UInt8.toNat_ofNat_of_lt' (Nat.lt_succ_of_le normal.counted)
  have levels : Undoes (readLevel.replicate path.levels.length)
      (path.levels.flatMap Level.encode) (path.levels.map id) :=
    .replicate fun level member => (normal.levels level member).undoes_read
  have read := levels.map fun levels => (⟨path.blockHeight, levels⟩ : Path)
  rw [List.map_id] at read
  rw [toBytes, List.append_assoc]
  apply (undoes_readField (Wire.undoes_readVarInt path.blockHeight.toUInt64) .blockHeight).bind
  rw [if_neg inRange]
  apply (undoes_readField (Wire.undoes_readUInt8 _) .treeHeight).bind
  rw [counted, UInt32.toUInt32_toUInt64]
  exact read

/-- A path that holds a hash is not shorter than the shortest path. -/
private theorem shortestLength_le (normal : path.IsNormal) (holds : path.HoldsHash) :
    shortestLength ≤ path.toBytes.length := by
  obtain ⟨level, inPath, element, inLevel, present⟩ := holds
  obtain ⟨hash, hashed⟩ := Option.isSome_iff_exists.mp present
  have isSingle : element.isDuplicate = false := by
    rcases ((normal.levels level inPath).elements element inLevel).content with
      ⟨-, absent⟩ | ⟨single, -⟩
    · rw [absent] at hashed
      cases hashed
    · simp [Element.isDuplicate, single]
  have positive : ∀ value : UInt64, 1 ≤ Wire.varIntLength value := by
    intro value
    unfold Wire.varIntLength
    split
    · decide
    · split
      · decide
      · split <;> decide
  have sizeElement : 34 ≤ element.encode.length := by
    have offset := positive element.offset
    simp only [Element.encode, isSingle, hashed, List.length_append, Wire.length_varInt,
      List.length_singleton, hash.length_bytes]
    omega
  have sizeElements : element.encode.length ≤ (level.flatMap Element.encode).length :=
    (List.sublist_flatten_of_mem (List.mem_map_of_mem inLevel)).length_le
  have sizeLevels : level.encode.length ≤ (path.levels.flatMap Level.encode).length :=
    (List.sublist_flatten_of_mem (List.mem_map_of_mem inPath)).length_le
  have count := positive (UInt64.ofNat level.length)
  have height := positive path.blockHeight.toUInt64
  simp only [Level.encode, List.length_append, Wire.length_varInt] at sizeLevels
  simp only [toBytes, shortestLength, List.length_append, Wire.length_varInt,
    List.length_singleton]
  omega

private theorem ofBytes_toBytes (normal : path.IsNormal) (holds : path.HoldsHash) :
    Path.ofBytes path.toBytes = .ok path := by
  have read := normal.undoes_read 0 []
  rw [List.append_nil] at read
  rw [Path.ofBytes, if_neg (Nat.not_lt.mpr (normal.shortestLength_le holds)), Wire.Cursor.start,
    read]
  rfl

end Path.IsNormal

/-- Reading gives normal paths, and normal paths are read back from their encoding, also where more
follows; as a whole string if they hold a hash. So a path that has been read is written and read
again as it is. -/
theorem Path.read_normal_toBytes :
    (∀ (bytes : Bytes) (path : Path), Path.ofBytes bytes = .ok path → path.IsNormal) ∧
    (∀ (cursor next : Wire.Cursor) (path : Path), Path.read cursor = .ok path next →
      path.IsNormal) ∧
    (∀ path : Path, path.IsNormal →
      (∀ (position : Nat) (rest : Bytes), Path.read ⟨position, path.toBytes ++ rest⟩ =
        .ok path ⟨position + path.toBytes.length, rest⟩) ∧
      (path.HoldsHash → Path.ofBytes path.toBytes = .ok path)) ∧
    ∀ (bytes : Bytes) (path : Path), Path.ofBytes bytes = .ok path → path.HoldsHash →
      Path.ofBytes path.toBytes = .ok path := by
  refine ⟨fun _ _ => isNormal_of_ofBytes, fun _ _ _ => isNormal_of_read, ?_, ?_⟩
  · intro path normal
    exact ⟨normal.undoes_read, normal.ofBytes_toBytes⟩
  · intro bytes path decoded holds
    exact (isNormal_of_ofBytes decoded).ofBytes_toBytes holds

/-- Numbers that are longer than necessary, a level out of order, and a mark that is not known. -/
def wordyEncoding : Bytes :=
  [0xfd, 0x07, 0x00, 0x01, 0x02, 0x05, 0x82] ++ Hash32.zero.bytes ++
    [0xfe, 0x04, 0x00, 0x00, 0x00, 0x01]

/-- What the encoding is read as. -/
def wordyPath : Path :=
  ⟨7, [[⟨4, none, none, some true⟩, ⟨5, some Hash32.zero, some true, none⟩]]⟩

private theorem ofBytes_wordyEncoding : Path.ofBytes wordyEncoding = .ok wordyPath := by
  let first : Element := ⟨5, some Hash32.zero, some true, none⟩
  let second : Element := ⟨4, none, none, some true⟩
  have decoded : Path.ofBytes wordyEncoding = .ok ⟨7, [Level.sort [first, second]]⟩ := rfl
  have sorted : Level.sort [first, second] = [second, first] := by
    rw [Level.sort, List.mergeSort]
    simp [first, second]
  rw [decoded, sorted]
  rfl

theorem wordyPath_read_toBytes :
    Path.ofBytes wordyEncoding = .ok wordyPath ∧ wordyPath.IsNormal ∧ wordyPath.HoldsHash ∧
      wordyPath.toBytes ≠ wordyEncoding ∧ Path.ofBytes wordyPath.toBytes = .ok wordyPath ∧
      ∀ (position : Nat) (rest : Bytes), Path.read ⟨position, wordyPath.toBytes ++ rest⟩ =
        .ok wordyPath ⟨position + 39, rest⟩ := by
  have decoded := ofBytes_wordyEncoding
  have holds : wordyPath.HoldsHash := ⟨_, .head _, _, .tail _ (.head _), rfl⟩
  obtain ⟨normal, -, reads, again⟩ := Path.read_normal_toBytes
  have isNormal := normal _ _ decoded
  exact ⟨decoded, isNormal, holds, by decide, again _ _ decoded holds, (reads _ isNormal).1⟩

end BitcoinSpend.Merkle
