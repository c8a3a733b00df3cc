import Mathlib.Data.List.Nodup
import BitcoinSpend.Proofs.Chunk.Splitting
import BitcoinSpend.Proofs.Text.SeparatedWords

/-!
# Mnemonics

Every opcode without an operand is written as one word, and the word is read as the
opcode again: names are distinct, and the number of an unassigned byte is no name.
-/

set_option autoImplicit false

namespace BitcoinSpend.Opcode

/-! ## The table of names -/

/-- The characters of a text as the digits of one number. -/
def spelledNumber (text : String) : Nat :=
  text.toList.foldl (fun number letter => 128 * number + letter.toNat) 0

private theorem nodup_spelledNumber : (names.map fun entry => spelledNumber entry.2).Nodup := by
  decide +kernel

/-- No two entries have one name. -/
theorem eq_of_name_eq {entry other : Opcode × String} (member : entry ∈ names)
    (otherMember : other ∈ names) (same : entry.2 = other.2) : entry = other :=
  List.inj_on_of_nodup_map nodup_spelledNumber member otherMember
    (congrArg spelledNumber same)

private theorem names_words : ∀ entry ∈ names,
    entry.2.toList.head? = some 'O' ∧ entry.2.toList.all (!Text.isBlank ·) = true ∧
      "OP_UNKNOWN".toList.isPrefixOf entry.2.toList = false := by
  decide +kernel

private theorem aliases_words : ∀ entry ∈ aliases,
    entry.1.toList.head? = some 'O' ∧ "OP_UNKNOWN".toList.isPrefixOf entry.1.toList = false := by
  decide +kernel

private theorem mem_names_of_name? {op : Opcode} {name : String} (named : name? op = some name) :
    (op, name) ∈ names := by
  obtain ⟨entry, found, rfl⟩ := Option.map_eq_some_iff.mp named
  have same : entry.1 = op := by simpa using List.find?_some found
  exact same ▸ List.mem_of_find?_eq_some found

private theorem ofMnemonic?_name {op : Opcode} {name : String} (named : name? op = some name) :
    ofMnemonic? name = some op := by
  have member := mem_names_of_name? named
  cases found : names.find? fun entry => entry.2 == name with
  | none =>
      have none := List.find?_eq_none.mp found (op, name) member
      simp at none
  | some entry =>
      have same : entry.2 = name := by simpa using List.find?_some found
      have isEntry := eq_of_name_eq (List.mem_of_find?_eq_some found) member same
      simp only [ofMnemonic?, found, isEntry]

/-- A text that starts otherwise than all names is none of them. -/
theorem ofMnemonic?_eq_none {text : String} (other : text.toList.head? ≠ some 'O') :
    ofMnemonic? text = none := by
  have noName : (names.find? fun entry => entry.2 == text) = none := by
    refine List.find?_eq_none.mpr fun entry member same => other ?_
    exact eq_of_beq same ▸ (names_words entry member).1
  have noAlias : (aliases.find? fun entry => entry.1 == text) = none := by
    refine List.find?_eq_none.mpr fun entry member same => other ?_
    exact eq_of_beq same ▸ (aliases_words entry member).1
  have noNumber : unknownNumber? text = none := by
    refine if_neg fun starts => other ?_
    obtain ⟨number, letters⟩ := List.isPrefixOf_iff_prefix.mp starts
    rw [← letters]
    rfl
  simp only [ofMnemonic?, noName, noAlias, noNumber]

/-! ## Unassigned bytes -/

private theorem hasOperand_or_name? {op : Opcode} (low : op ≤ sixteen) :
    hasOperand op = true ∨ (name? op).isSome = true := by
  have all : ∀ value : Fin 0x61, hasOperand (UInt8.ofNat value) = true ∨
      (name? (UInt8.ofNat value)).isSome = true := by decide +kernel
  have bound := UInt8.le_iff_toNat_le.mp low
  have whole := all ⟨op.toNat, Nat.lt_succ_of_le bound⟩
  rwa [UInt8.ofNat_toNat] at whole

private theorem decimal_byte (byte : UInt8) :
    Text.parseByte? (toString byte.toNat).toList = some byte ∧
      (toString byte.toNat).toList.all (!Text.isBlank ·) = true := by
  have all : ∀ value : Fin 256,
      Text.parseByte? (toString value.val).toList = some (UInt8.ofNat value) ∧
        (toString value.val).toList.all (!Text.isBlank ·) = true := by decide +kernel
  have whole := all ⟨byte.toNat, byte.toNat_lt⟩
  rwa [UInt8.ofNat_toNat] at whole

private theorem toList_unknown (number : String) :
    ("OP_UNKNOWN" ++ number).toList = "OP_UNKNOWN".toList ++ number.toList :=
  String.toList_append

private theorem ofMnemonic?_unknown {op : Opcode} (unnamed : name? op = none)
    (above : sixteen < op) :
    ofMnemonic? ("OP_UNKNOWN" ++ toString op.toNat) = some op := by
  have starts : "OP_UNKNOWN".toList.isPrefixOf ("OP_UNKNOWN" ++ toString op.toNat).toList := by
    rw [toList_unknown]
    simp
  have noName : (names.find? fun entry => entry.2 == "OP_UNKNOWN" ++ toString op.toNat) = none := by
    refine List.find?_eq_none.mpr fun entry member same => ?_
    have other := (names_words entry member).2.2
    rw [eq_of_beq same, starts] at other
    cases other
  have noAlias : (aliases.find? fun entry => entry.1 == "OP_UNKNOWN" ++ toString op.toNat) =
      none := by
    refine List.find?_eq_none.mpr fun entry member same => ?_
    have other := (aliases_words entry member).2
    rw [eq_of_beq same, starts] at other
    cases other
  have number : unknownNumber? ("OP_UNKNOWN" ++ toString op.toNat) = some op := by
    rw [unknownNumber?, if_pos starts, toList_unknown, List.drop_left, (decimal_byte op).1]
  simp only [ofMnemonic?, noName, noAlias, number, unnamed]
  simp [above]

/-! ## All opcodes -/

private theorem mnemonic_cases {op : Opcode} (noOperand : hasOperand op = false) :
    name? op = some (mnemonic op) ∨
      (name? op = none ∧ sixteen < op ∧ mnemonic op = "OP_UNKNOWN" ++ toString op.toNat) := by
  cases named : name? op with
  | some name => exact .inl (by rw [mnemonic, named])
  | none =>
      have high : sixteen < op := by
        refine UInt8.not_le.mp fun low => ?_
        rcases hasOperand_or_name? low with operand | isNamed
        · rw [noOperand] at operand
          cases operand
        · rw [named] at isNamed
          cases isNamed
      have indirect : isDirectPush op = false := by
        refine Bool.eq_false_iff.mpr fun direct => ?_
        rw [Chunk.hasOperand_iff.mpr (.inl direct)] at noOperand
        cases noOperand
      exact .inr ⟨rfl, high, by rw [mnemonic, named, indirect]; rfl⟩

theorem ofMnemonic?_mnemonic {op : Opcode} (noOperand : hasOperand op = false) :
    ofMnemonic? (mnemonic op) = some op := by
  rcases mnemonic_cases noOperand with named | ⟨unnamed, above, written⟩
  · exact ofMnemonic?_name named
  · rw [written]
    exact ofMnemonic?_unknown unnamed above

theorem head?_mnemonic {op : Opcode} (noOperand : hasOperand op = false) :
    (mnemonic op).toList.head? = some 'O' := by
  rcases mnemonic_cases noOperand with named | ⟨-, -, written⟩
  · exact (names_words _ (mem_names_of_name? named)).1
  · rw [written, toList_unknown]
    rfl

theorem isWord_mnemonic {op : Opcode} (noOperand : hasOperand op = false) :
    Text.IsWord (mnemonic op) := by
  refine Text.isWord_of_all ?_ ?_
  · have first := head?_mnemonic noOperand
    cases letters : (mnemonic op).toList with
    | nil =>
        rw [letters] at first
        cases first
    | cons letter rest => rfl
  · rcases mnemonic_cases noOperand with named | ⟨-, -, written⟩
    · exact (names_words _ (mem_names_of_name? named)).2.1
    · rw [written, toList_unknown, List.all_append, (decimal_byte op).2]
      decide

end BitcoinSpend.Opcode
