import BitcoinSpend.Digest.Composite
import BitcoinSpend.Opcode

/-!
# Instructions

What each opcode asks for. Pushes are one instruction here, since what they push
stands in the chunk.
-/

set_option autoImplicit false

namespace BitcoinSpend.Spend

/-- A number computed from one number. -/
inductive Unary where
  | increment
  | decrement
  | negate
  | absolute
  | isZero
  | isNonzero
  deriving DecidableEq, Repr

/-- A number computed from two numbers. -/
inductive Binary where
  | add
  | sub
  | mul
  | div
  | mod
  | min
  | max
  deriving DecidableEq, Repr

/-- A truth value computed from two numbers. -/
inductive Relation where
  | both
  | either
  | equal
  | notEqual
  | less
  | greater
  | lessOrEqual
  | greaterOrEqual
  deriving DecidableEq, Repr

/-- A byte computed from two bytes. -/
inductive Bitwise where
  | and
  | or
  | xor
  deriving DecidableEq, Repr

inductive Direction where
  | left
  | right
  deriving DecidableEq, Repr

/-- What an opcode asks for. -/
inductive Instruction where
  | push
  | nop
  /-- A nop that later upgrades may give a meaning. -/
  | upgradableNop
  | beginIf (negated : Bool)
  | switchBranch
  | endIf
  | verify
  | returnEarly
  | checkLockTime
  | checkSequence
  | toAlt
  | fromAlt
  | dropBlock (count : Nat)
  | dupBlock (count : Nat)
  | overBlock (count : Nat)
  | rotBlock (count : Nat)
  | swapBlock (count : Nat)
  | dupIfTrue
  | depth
  | nip
  | pick
  | roll
  | tuck
  | cat
  | split
  | numToBin
  | binToNum
  | size
  | invert
  | bitwise (op : Bitwise)
  /-- Whether two items are equal; fails on unequal ones if it verifies. -/
  | equal (verifies : Bool)
  | unary (op : Unary)
  | binary (op : Binary)
  | relation (op : Relation)
  | numEqualVerify
  | within
  | shift (direction : Direction)
  | digest (algorithm : Digest.Algorithm)
  | codeSeparator
  | checkSig (verifies : Bool)
  | checkMultiSig (verifies : Bool)
  /-- Fails before the genesis upgrade even where it is not run. -/
  | disabled
  /-- A conditional that fails before the genesis upgrade even where it is not run. -/
  | reservedConditional
  | reserved
  | unassigned
  deriving DecidableEq, Repr

/-- The meaning of an opcode. -/
def Instruction.ofOpcode (op : Opcode) : Instruction :=
  if op = Opcode.reserved then .reserved
  else if op ≤ Opcode.sixteen then .push
  else
    match op with
    | 0x61 => .nop
    | 0x62 => .reserved
    | 0x63 => .beginIf false
    | 0x64 => .beginIf true
    | 0x65 => .reservedConditional
    | 0x66 => .reservedConditional
    | 0x67 => .switchBranch
    | 0x68 => .endIf
    | 0x69 => .verify
    | 0x6a => .returnEarly
    | 0x6b => .toAlt
    | 0x6c => .fromAlt
    | 0x6d => .dropBlock 2
    | 0x6e => .dupBlock 2
    | 0x6f => .dupBlock 3
    | 0x70 => .overBlock 2
    | 0x71 => .rotBlock 2
    | 0x72 => .swapBlock 2
    | 0x73 => .dupIfTrue
    | 0x74 => .depth
    | 0x75 => .dropBlock 1
    | 0x76 => .dupBlock 1
    | 0x77 => .nip
    | 0x78 => .overBlock 1
    | 0x79 => .pick
    | 0x7a => .roll
    | 0x7b => .rotBlock 1
    | 0x7c => .swapBlock 1
    | 0x7d => .tuck
    | 0x7e => .cat
    | 0x7f => .split
    | 0x80 => .numToBin
    | 0x81 => .binToNum
    | 0x82 => .size
    | 0x83 => .invert
    | 0x84 => .bitwise .and
    | 0x85 => .bitwise .or
    | 0x86 => .bitwise .xor
    | 0x87 => .equal false
    | 0x88 => .equal true
    | 0x89 => .reserved
    | 0x8a => .reserved
    | 0x8b => .unary .increment
    | 0x8c => .unary .decrement
    | 0x8d => .disabled
    | 0x8e => .disabled
    | 0x8f => .unary .negate
    | 0x90 => .unary .absolute
    | 0x91 => .unary .isZero
    | 0x92 => .unary .isNonzero
    | 0x93 => .binary .add
    | 0x94 => .binary .sub
    | 0x95 => .binary .mul
    | 0x96 => .binary .div
    | 0x97 => .binary .mod
    | 0x98 => .shift .left
    | 0x99 => .shift .right
    | 0x9a => .relation .both
    | 0x9b => .relation .either
    | 0x9c => .relation .equal
    | 0x9d => .numEqualVerify
    | 0x9e => .relation .notEqual
    | 0x9f => .relation .less
    | 0xa0 => .relation .greater
    | 0xa1 => .relation .lessOrEqual
    | 0xa2 => .relation .greaterOrEqual
    | 0xa3 => .binary .min
    | 0xa4 => .binary .max
    | 0xa5 => .within
    | 0xa6 => .digest .ripemd160
    | 0xa7 => .digest .sha1
    | 0xa8 => .digest .sha256
    | 0xa9 => .digest .hash160
    | 0xaa => .digest .hash256
    | 0xab => .codeSeparator
    | 0xac => .checkSig false
    | 0xad => .checkSig true
    | 0xae => .checkMultiSig false
    | 0xaf => .checkMultiSig true
    | 0xb0 => .upgradableNop
    | 0xb1 => .checkLockTime
    | 0xb2 => .checkSequence
    | 0xb3 => .upgradableNop
    | 0xb4 => .upgradableNop
    | 0xb5 => .upgradableNop
    | 0xb6 => .upgradableNop
    | 0xb7 => .upgradableNop
    | 0xb8 => .upgradableNop
    | 0xb9 => .upgradableNop
    | _ => .unassigned

/-- Whether the instruction also runs where the current branch is not taken. -/
def Instruction.isConditional : Instruction → Bool
  | beginIf _ | switchBranch | endIf => true
  | _ => false

end BitcoinSpend.Spend
