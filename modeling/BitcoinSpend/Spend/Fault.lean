import BitcoinSpend.Script.Error
import BitcoinSpend.Spend.FaultCode

/-!
# Faults

Every way in which running a pair of scripts fails, the class that each belongs
to and its wording.
-/

set_option autoImplicit false

namespace BitcoinSpend.Spend

/-- Which of the two scripts is running. -/
inductive Phase where
  | unlocking
  | locking
  deriving DecidableEq, Repr

def Phase.label : Phase → String
  | unlocking => "unlocking script"
  | locking => "locking script"

inductive SignaturePart where
  | r
  | s
  deriving DecidableEq, Repr

def SignaturePart.letter : SignaturePart → String
  | r => "R"
  | s => "S"

/-- How a signature departs from the strict DER layout. -/
inductive LayoutFault where
  | tooShort (length : Nat)
  | tooLong (length : Nat)
  | wrongType (tag : UInt8)
  | wrongLength (announced : UInt8) (actual : Nat)
  | noTypeS
  | noLengthS
  | invalidLengthS
  | wrongMarker (part : SignaturePart) (tag : UInt8)
  | zeroLength (part : SignaturePart)
  | negative (part : SignaturePart)
  | padded (part : SignaturePart)
  deriving DecidableEq, Repr

/-- The class of a departure from the strict layout. -/
def LayoutFault.code : LayoutFault → FaultCode
  | tooShort _ => .sigTooShort
  | tooLong _ => .sigTooLong
  | wrongType _ => .sigInvalidSeqId
  | wrongLength _ _ => .sigInvalidDataLen
  | noTypeS => .sigMissingSTypeId
  | noLengthS => .sigMissingSLen
  | invalidLengthS => .sigInvalidSLen
  | wrongMarker .r _ => .sigInvalidRIntId
  | wrongMarker .s _ => .sigInvalidSIntId
  | zeroLength .r => .sigZeroRLen
  | zeroLength .s => .sigZeroSLen
  | negative .r => .sigNegativeR
  | negative .s => .sigNegativeS
  | padded .r => .sigTooMuchRPadding
  | padded .s => .sigTooMuchSPadding

/-- The wording of a departure from the strict layout. -/
def LayoutFault.message (fault : LayoutFault) : String :=
  "malformed signature: " ++
    match fault with
    | tooShort length => "too short: " ++ toString length ++ " < 8"
    | tooLong length => "too long: " ++ toString length ++ " > 72"
    | wrongType tag => "format has wrong type: " ++ Text.hexByte 1 tag
    | wrongLength announced actual =>
        "bad length: " ++ toString announced.toNat ++ " != " ++ toString actual
    | noTypeS => "S type indicator missing"
    | noLengthS => "S length missing"
    | invalidLengthS => "invalid S length"
    | wrongMarker part tag =>
        part.letter ++ " integer marker: " ++ Text.hexByte 1 tag ++ " != 0x02"
    | zeroLength part => part.letter ++ " length is zero"
    | negative part => part.letter ++ " is negative"
    | padded part => part.letter ++ " value has too much padding"

/-- Why an opcode that verifies fails. -/
inductive VerifyKind where
  | plain
  | equal
  | numEqual
  | checkSig
  | checkMultiSig
  deriving DecidableEq, Repr

def VerifyKind.code : VerifyKind → FaultCode
  | plain => .verify
  | equal => .equalVerify
  | numEqual => .numEqualVerify
  | checkSig => .checkSigVerify
  | checkMultiSig => .checkMultiSigVerify

/-- Why running a script fails. -/
inductive Fault where
  | noContext (instruction : String)
  /-- A transaction context was asked about an input that it does not have. -/
  | noInput (index : Nat)
  /-- A transaction context does not know the output that an input spends. -/
  | unknownSource (reason : String)
  | noDigest (reason : String)
  | returnedEarly
  | emptyStack
  | falseResult
  | scriptTooBig (phase : Phase) (size limit : Nat)
  | pushTooBig (size limit : Nat)
  | joinedTooBig (size limit : Nat)
  | sizeTooBig (size : Int) (limit : Nat)
  | tooManyOperations (limit : Nat)
  | stackOverflow (size limit : Nat)
  | memoryExceeded (held limit : Nat)
  | resultExceedsMemory (size limit : Nat)
  | keyCount (count : Int) (limit : Nat)
  | signatureCount (count : Int) (limit : Nat)
  /-- A stack item is no number under the rule in force. -/
  | number (cause : EncodingError)
  | splitPastEnd (position : Int) (length : Nat)
  | numberLimit (limit : Nat)
  | splitNegative
  | sizeNegative (size : Int)
  | sizeTooSmall (needed size : Nat)
  | shiftNegative
  | divideByZero
  | notVerified (kind : VerifyKind) (op : Opcode)
  | disabledOpcode (op : Opcode)
  | reservedOpcode (op : Opcode)
  | invalidOpcode (op : Opcode)
  | malformedScript (cause : ScriptError)
  | stackIndex (index : Int) (depth : Nat)
  | tooFewKeys (wanted depth : Nat)
  | openAtEnd
  | openAtUnlockingEnd
  | noOpenConditional (op : Opcode)
  | unequalLengths
  | pushNotMinimal (length : Nat) (op : Opcode)
  | conditionByte
  | conditionLength (length : Nat)
  | hashType (value : UInt8)
  | layout (cause : LayoutFault)
  | highS
  | notPushOnly
  | dummyNotEmpty (length : Nat)
  | keyType
  | uncleanStack (extra : Nat)
  | nullFailCheckSig
  | nullFailCheckMultiSig
  | discouragedNop (op : Opcode)
  | negativeLockTime (operand : String) (value : Int)
  | finalInput
  | oldVersion (version : Nat)
  | sequenceDisabled (sequence : Nat)
  | lockTimeKinds (transaction required : Nat)
  | lockTimeUnmet (required transaction : Nat)
  | forkIdNotEnabled
  | forkIdMissing
  /-- An index, a slice or an unsigned difference that is out of range. -/
  | outOfRange
  deriving DecidableEq, Repr

def numberCode : EncodingError → FaultCode
  | .scriptNumberTooLong _ _ => .numberTooBig
  | .scriptNumberNotMinimal => .minimalData
  | _ => .internal

namespace Fault

def code : Fault → FaultCode
  | noContext _ | noInput _ | unknownSource _ => .invalidParams
  | noDigest _ | outOfRange => .internal
  | returnedEarly => .earlyReturn
  | emptyStack => .emptyStack
  | falseResult => .evalFalse
  | scriptTooBig _ _ _ => .scriptTooBig
  | pushTooBig _ _ | joinedTooBig _ _ | sizeTooBig _ _ => .elementTooBig
  | tooManyOperations _ => .tooManyOperations
  | stackOverflow _ _ => .stackOverflow
  | memoryExceeded _ _ | resultExceedsMemory _ _ => .memoryLimitExceeded
  | keyCount _ _ => .invalidPubKeyCount
  | signatureCount _ _ => .invalidSignatureCount
  | number cause => numberCode cause
  | splitPastEnd _ _ | numberLimit _ => .numberTooBig
  | splitNegative | sizeNegative _ | sizeTooSmall _ _ | shiftNegative => .numberTooSmall
  | divideByZero => .divideByZero
  | notVerified kind _ => kind.code
  | disabledOpcode _ => .disabledOpcode
  | reservedOpcode _ | invalidOpcode _ => .reservedOpcode
  | malformedScript _ => .malformedPush
  | stackIndex _ _ | tooFewKeys _ _ => .invalidStackOperation
  | openAtEnd | openAtUnlockingEnd | noOpenConditional _ => .unbalancedConditional
  | unequalLengths => .invalidInputLength
  | pushNotMinimal _ _ => .minimalData
  | conditionByte | conditionLength _ => .minimalIf
  | hashType _ => .invalidSigHashType
  | layout cause => cause.code
  | highS => .sigHighS
  | notPushOnly => .notPushOnly
  | dummyNotEmpty _ => .sigNullDummy
  | keyType => .pubKeyType
  | uncleanStack _ => .cleanStack
  | nullFailCheckSig | nullFailCheckMultiSig => .nullFail
  | discouragedNop _ => .discourageUpgradableNops
  | negativeLockTime _ _ => .negativeLockTime
  | finalInput | oldVersion _ | sequenceDisabled _ | lockTimeKinds _ _ | lockTimeUnmet _ _ =>
      .unsatisfiedLockTime
  | forkIdNotEnabled | forkIdMissing => .illegalForkId

def message : Fault → String
  | noContext instruction => "no transaction context for " ++ instruction
  | noInput index => "input " ++ toString index ++ " out of range"
  | unknownSource reason => reason
  | noDigest reason => reason
  | returnedEarly => "script returned early"
  | emptyStack => "stack empty at end of script execution"
  | falseResult => "false stack entry at end of script execution"
  | scriptTooBig phase size limit =>
      phase.label ++ " size " ++ toString size ++ " is larger than the max allowed size " ++
        toString limit
  | pushTooBig size limit =>
      "element size " ++ toString size ++ " exceeds max allowed size " ++ toString limit
  | joinedTooBig size limit =>
      "concatenated size " ++ toString size ++ " exceeds max allowed size " ++ toString limit
  | sizeTooBig size limit =>
      "n " ++ toString size ++ " is larger than the max of " ++ toString limit
  | tooManyOperations limit => "exceeded max operation limit of " ++ toString limit
  | stackOverflow size limit =>
      "combined stack size " ++ toString size ++ " > max allowed " ++ toString limit
  | memoryExceeded held limit =>
      "stack memory " ++ toString held ++ " exceeds limit " ++ toString limit
  | resultExceedsMemory size limit =>
      toString size ++ " byte result would exceed the memory limit " ++ toString limit
  | keyCount count limit =>
      "number of pubkeys " ++ toString count ++ " is out of range 0..=" ++ toString limit
  | signatureCount count limit =>
      "number of signatures " ++ toString count ++ " is out of range 0..=" ++ toString limit
  | number cause => cause.message
  | splitPastEnd position length =>
      "n " ++ toString position ++ " is larger than length of array " ++ toString length
  | numberLimit limit => "script numbers are limited to " ++ toString limit ++ " bytes"
  | splitNegative => "n is negative"
  | sizeNegative size => "requested size " ++ toString size ++ " is negative"
  | sizeTooSmall needed size =>
      "cannot fit " ++ toString needed ++ " bytes into " ++ toString size ++ " sized array"
  | shiftNegative => "n less than 0"
  | divideByZero => "division by zero"
  | notVerified _ op => op.mnemonic ++ " failed"
  | disabledOpcode op => "attempt to execute disabled opcode " ++ op.mnemonic
  | reservedOpcode op => "attempt to execute reserved opcode " ++ op.mnemonic
  | invalidOpcode op => "attempt to execute invalid opcode " ++ op.mnemonic
  | malformedScript cause => cause.message
  | stackIndex index depth =>
      "index " ++ toString index ++ " is invalid for stack size " ++ toString depth
  | tooFewKeys wanted depth =>
      toString wanted ++ " pubkeys requested with stack size " ++ toString depth
  | openAtEnd => "end of script reached in conditional execution"
  | openAtUnlockingEnd => "end of unlocking script reached in conditional execution"
  | noOpenConditional op =>
      "encountered opcode " ++ op.mnemonic ++
        " with no matching opcode to begin conditional execution"
  | unequalLengths => "byte arrays are not the same length"
  | pushNotMinimal length op =>
      "data push of " ++ toString length ++ " bytes not minimally encoded with " ++ op.mnemonic
  | conditionByte => "conditional argument must be empty or 0x01"
  | conditionLength length => "conditional has data of length " ++ toString length
  | hashType value => "invalid hash type " ++ Text.hexByte 1 value
  | layout cause => cause.message
  | highS => "signature is not canonical due to unnecessarily high S value"
  | notPushOnly => "unlocking script is not push only"
  | dummyNotEmpty length =>
      "multisig dummy argument has length " ++ toString length ++ " instead of 0"
  | keyType => "unsupported public key type"
  | uncleanStack extra => "stack contains " ++ toString extra ++ " unexpected items"
  | nullFailCheckSig => "signature not empty on failed checksig"
  | nullFailCheckMultiSig => "not all signatures empty on failed checkmultisig"
  | discouragedNop op => op.mnemonic ++ " reserved for soft-fork upgrades"
  | negativeLockTime operand value => "negative " ++ operand ++ ": " ++ toString value
  | finalInput => "transaction input is finalized"
  | oldVersion version => "invalid transaction version: " ++ toString version
  | sequenceDisabled sequence =>
      "transaction sequence has sequence locktime disabled bit set: 0x" ++ Text.hexDigits sequence
  | lockTimeKinds transaction required =>
      "mismatched locktime types -- tx locktime " ++ toString transaction ++
        ", stack locktime " ++ toString required
  | lockTimeUnmet required transaction =>
      "locktime requirement not satisfied -- locktime is greater than the transaction locktime: " ++
        toString required ++ " > " ++ toString transaction
  | forkIdNotEnabled => "fork id sighash set without flag"
  | forkIdMissing => "fork id sighash not set with flag"
  | outOfRange => "access out of range"

end Fault

end BitcoinSpend.Spend
