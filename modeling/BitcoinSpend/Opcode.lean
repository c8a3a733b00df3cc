import BitcoinSpend.Text.Numeral

/-!
# Opcodes

The bytes that script instructions start with, and their mnemonics. Bytes 1 to
75 push as many bytes as they say and have no mnemonic of their own.
-/

set_option autoImplicit false

namespace BitcoinSpend

/-- The first byte of a script instruction. -/
abbrev Opcode := UInt8

namespace Opcode

/-- Pushes the empty string. -/
def pushEmpty : Opcode := 0x00

/-- Pushes a string preceded by one byte of length. -/
def pushData1 : Opcode := 0x4c

/-- Pushes a string preceded by two bytes of length. -/
def pushData2 : Opcode := 0x4d

/-- Pushes a string preceded by four bytes of length. -/
def pushData4 : Opcode := 0x4e

def negativeOne : Opcode := 0x4f

/-- The one unassigned byte among the pushes. -/
def reserved : Opcode := 0x50

/-- Pushes one; the next fifteen opcodes push two to sixteen. -/
def one : Opcode := 0x51

def three : Opcode := 0x53

/-- Pushes sixteen, the last of the pushes. -/
def sixteen : Opcode := 0x60

/-- Opens a conditional. -/
def ifTrue : Opcode := 0x63

/-- Opens a conditional on the negated operand. -/
def ifFalse : Opcode := 0x64

/-- A withdrawn conditional. -/
def verIf : Opcode := 0x65

/-- A withdrawn conditional. -/
def verNotIf : Opcode := 0x66

/-- Switches to the other branch of a conditional. -/
def otherwise : Opcode := 0x67

/-- Closes a conditional. -/
def endIf : Opcode := 0x68

/-- Ends a script; outside conditionals the rest of the script is data. -/
def returnEarly : Opcode := 0x6a

/-- Removes two items. -/
def drop2 : Opcode := 0x6d

def drop : Opcode := 0x75

def dup : Opcode := 0x76

/-- Removes the item below the top. -/
def nip : Opcode := 0x77

/-- Copies the item below the top. -/
def copySecond : Opcode := 0x78

/-- Exchanges two items. -/
def swap : Opcode := 0x7c

/-- Cuts a string in two. -/
def split : Opcode := 0x7f

/-- Fails unless two items are equal. -/
def equalVerify : Opcode := 0x88

def ripemd160 : Opcode := 0xa6

def sha1 : Opcode := 0xa7

def sha256 : Opcode := 0xa8

def hash160 : Opcode := 0xa9

def hash256 : Opcode := 0xaa

/-- Marks where the signed part of the script starts. -/
def codeSeparator : Opcode := 0xab

def checkSig : Opcode := 0xac

/-- Checks the lock time, where that is enabled. -/
def checkLockTime : Opcode := 0xb1

/-- Checks the relative lock time, where that is enabled. -/
def checkSequence : Opcode := 0xb2

/-- The opcodes that have a mnemonic. -/
def names : List (Opcode × String) := [
    (0x00, "OP_0"), (0x4c, "OP_PUSHDATA1"), (0x4d, "OP_PUSHDATA2"), (0x4e, "OP_PUSHDATA4"),
    (0x4f, "OP_1NEGATE"), (0x50, "OP_RESERVED"), (0x51, "OP_1"), (0x52, "OP_2"), (0x53, "OP_3"),
    (0x54, "OP_4"), (0x55, "OP_5"), (0x56, "OP_6"), (0x57, "OP_7"), (0x58, "OP_8"),
    (0x59, "OP_9"), (0x5a, "OP_10"), (0x5b, "OP_11"), (0x5c, "OP_12"), (0x5d, "OP_13"),
    (0x5e, "OP_14"), (0x5f, "OP_15"), (0x60, "OP_16"), (0x61, "OP_NOP"), (0x62, "OP_VER"),
    (0x63, "OP_IF"), (0x64, "OP_NOTIF"), (0x65, "OP_VERIF"), (0x66, "OP_VERNOTIF"),
    (0x67, "OP_ELSE"), (0x68, "OP_ENDIF"), (0x69, "OP_VERIFY"), (0x6a, "OP_RETURN"),
    (0x6b, "OP_TOALTSTACK"), (0x6c, "OP_FROMALTSTACK"), (0x6d, "OP_2DROP"), (0x6e, "OP_2DUP"),
    (0x6f, "OP_3DUP"), (0x70, "OP_2OVER"), (0x71, "OP_2ROT"), (0x72, "OP_2SWAP"),
    (0x73, "OP_IFDUP"), (0x74, "OP_DEPTH"), (0x75, "OP_DROP"), (0x76, "OP_DUP"), (0x77, "OP_NIP"),
    (0x78, "OP_OVER"), (0x79, "OP_PICK"), (0x7a, "OP_ROLL"), (0x7b, "OP_ROT"), (0x7c, "OP_SWAP"),
    (0x7d, "OP_TUCK"), (0x7e, "OP_CAT"), (0x7f, "OP_SPLIT"), (0x80, "OP_NUM2BIN"),
    (0x81, "OP_BIN2NUM"), (0x82, "OP_SIZE"), (0x83, "OP_INVERT"), (0x84, "OP_AND"),
    (0x85, "OP_OR"), (0x86, "OP_XOR"), (0x87, "OP_EQUAL"), (0x88, "OP_EQUALVERIFY"),
    (0x89, "OP_RESERVED1"), (0x8a, "OP_RESERVED2"), (0x8b, "OP_1ADD"), (0x8c, "OP_1SUB"),
    (0x8d, "OP_2MUL"), (0x8e, "OP_2DIV"), (0x8f, "OP_NEGATE"), (0x90, "OP_ABS"), (0x91, "OP_NOT"),
    (0x92, "OP_0NOTEQUAL"), (0x93, "OP_ADD"), (0x94, "OP_SUB"), (0x95, "OP_MUL"),
    (0x96, "OP_DIV"), (0x97, "OP_MOD"), (0x98, "OP_LSHIFT"), (0x99, "OP_RSHIFT"),
    (0x9a, "OP_BOOLAND"), (0x9b, "OP_BOOLOR"), (0x9c, "OP_NUMEQUAL"), (0x9d, "OP_NUMEQUALVERIFY"),
    (0x9e, "OP_NUMNOTEQUAL"), (0x9f, "OP_LESSTHAN"), (0xa0, "OP_GREATERTHAN"),
    (0xa1, "OP_LESSTHANOREQUAL"), (0xa2, "OP_GREATERTHANOREQUAL"), (0xa3, "OP_MIN"),
    (0xa4, "OP_MAX"), (0xa5, "OP_WITHIN"), (0xa6, "OP_RIPEMD160"), (0xa7, "OP_SHA1"),
    (0xa8, "OP_SHA256"), (0xa9, "OP_HASH160"), (0xaa, "OP_HASH256"), (0xab, "OP_CODESEPARATOR"),
    (0xac, "OP_CHECKSIG"), (0xad, "OP_CHECKSIGVERIFY"), (0xae, "OP_CHECKMULTISIG"),
    (0xaf, "OP_CHECKMULTISIGVERIFY"), (0xb0, "OP_NOP1"), (0xb1, "OP_NOP2"), (0xb2, "OP_NOP3"),
    (0xb3, "OP_NOP4"), (0xb4, "OP_NOP5"), (0xb5, "OP_NOP6"), (0xb6, "OP_NOP7"), (0xb7, "OP_NOP8"),
    (0xb8, "OP_NOP9"), (0xb9, "OP_NOP10"), (0xff, "OP_INVALIDOPCODE")]

/-- Further mnemonics that are read but never written. -/
def aliases : List (String × Opcode) := [
    ("OP_FALSE", 0x00), ("OP_TRUE", 0x51), ("OP_CHECKLOCKTIMEVERIFY", 0xb1),
    ("OP_CHECKSEQUENCEVERIFY", 0xb2)]

/-- The mnemonic of an opcode that has one. -/
def name? (op : Opcode) : Option String :=
  (names.find? fun entry => entry.1 == op).map Prod.snd

/-- Whether the opcode pushes as many bytes as its value says. -/
def isDirectPush (op : Opcode) : Bool :=
  0x01 ≤ op && op ≤ 0x4b

/-- Whether the opcode pushes a string that follows it in the script. -/
def hasOperand (op : Opcode) : Bool :=
  0x00 < op && op ≤ pushData4

/-- The text of any opcode. Unassigned bytes are written by number, so that they can be read
back. -/
def mnemonic (op : Opcode) : String :=
  match name? op with
  | some name => name
  | none =>
      if isDirectPush op then "OP_DATA_" ++ toString op.toNat
      else "OP_UNKNOWN" ++ toString op.toNat

/-- The number in a mnemonic of an unassigned byte. -/
def unknownNumber? (text : String) : Option UInt8 :=
  if "OP_UNKNOWN".toList.isPrefixOf text.toList then
    Text.parseByte? (text.toList.drop "OP_UNKNOWN".toList.length)
  else none

/-- The opcode of a mnemonic: a name, an alias, or the number of an unassigned byte. -/
def ofMnemonic? (text : String) : Option Opcode :=
  match names.find? fun entry => entry.2 == text with
  | some entry => some entry.1
  | none =>
      match aliases.find? fun entry => entry.1 == text with
      | some entry => some entry.2
      | none =>
          match unknownNumber? text with
          | some op => if (name? op).isNone && sixteen < op then some op else none
          | none => none

/-- The number between one and sixteen that an opcode pushes. -/
def smallValue? (op : Opcode) : Option UInt8 :=
  if one ≤ op && op ≤ sixteen then some (op - one + 1) else none

/-- The opcode that pushes a number up to sixteen. -/
def ofSmall? (value : UInt8) : Option Opcode :=
  if value = 0 then some pushEmpty
  else if value ≤ 16 then some (one + value - 1)
  else none

end Opcode

end BitcoinSpend
