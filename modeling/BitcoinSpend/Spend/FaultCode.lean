/-!
# Fault codes

The classes of failure of a running script, each with the name that reports
carry.
-/

set_option autoImplicit false

namespace BitcoinSpend.Spend

inductive FaultCode where
  | internal
  | invalidParams
  | earlyReturn
  | emptyStack
  | evalFalse
  | scriptTooBig
  | elementTooBig
  | tooManyOperations
  | stackOverflow
  | memoryLimitExceeded
  | invalidPubKeyCount
  | invalidSignatureCount
  | numberTooBig
  | numberTooSmall
  | divideByZero
  | verify
  | equalVerify
  | numEqualVerify
  | checkSigVerify
  | checkMultiSigVerify
  | disabledOpcode
  | reservedOpcode
  | malformedPush
  | invalidStackOperation
  | unbalancedConditional
  | invalidInputLength
  | minimalData
  | minimalIf
  | invalidSigHashType
  | sigTooShort
  | sigTooLong
  | sigInvalidSeqId
  | sigInvalidDataLen
  | sigMissingSTypeId
  | sigMissingSLen
  | sigInvalidSLen
  | sigInvalidRIntId
  | sigZeroRLen
  | sigNegativeR
  | sigTooMuchRPadding
  | sigInvalidSIntId
  | sigZeroSLen
  | sigNegativeS
  | sigTooMuchSPadding
  | sigHighS
  | notPushOnly
  | sigNullDummy
  | pubKeyType
  | cleanStack
  | nullFail
  | discourageUpgradableNops
  | negativeLockTime
  | unsatisfiedLockTime
  | illegalForkId
  deriving DecidableEq, Repr

/-- The name under which a class of failure is reported. -/
def FaultCode.name : FaultCode → String
  | internal => "Internal"
  | invalidParams => "InvalidParams"
  | earlyReturn => "EarlyReturn"
  | emptyStack => "EmptyStack"
  | evalFalse => "EvalFalse"
  | scriptTooBig => "ScriptTooBig"
  | elementTooBig => "ElementTooBig"
  | tooManyOperations => "TooManyOperations"
  | stackOverflow => "StackOverflow"
  | memoryLimitExceeded => "MemoryLimitExceeded"
  | invalidPubKeyCount => "InvalidPubKeyCount"
  | invalidSignatureCount => "InvalidSignatureCount"
  | numberTooBig => "NumberTooBig"
  | numberTooSmall => "NumberTooSmall"
  | divideByZero => "DivideByZero"
  | verify => "Verify"
  | equalVerify => "EqualVerify"
  | numEqualVerify => "NumEqualVerify"
  | checkSigVerify => "CheckSigVerify"
  | checkMultiSigVerify => "CheckMultiSigVerify"
  | disabledOpcode => "DisabledOpcode"
  | reservedOpcode => "ReservedOpcode"
  | malformedPush => "MalformedPush"
  | invalidStackOperation => "InvalidStackOperation"
  | unbalancedConditional => "UnbalancedConditional"
  | invalidInputLength => "InvalidInputLength"
  | minimalData => "MinimalData"
  | minimalIf => "MinimalIf"
  | invalidSigHashType => "InvalidSigHashType"
  | sigTooShort => "SigTooShort"
  | sigTooLong => "SigTooLong"
  | sigInvalidSeqId => "SigInvalidSeqID"
  | sigInvalidDataLen => "SigInvalidDataLen"
  | sigMissingSTypeId => "SigMissingSTypeID"
  | sigMissingSLen => "SigMissingSLen"
  | sigInvalidSLen => "SigInvalidSLen"
  | sigInvalidRIntId => "SigInvalidRIntID"
  | sigZeroRLen => "SigZeroRLen"
  | sigNegativeR => "SigNegativeR"
  | sigTooMuchRPadding => "SigTooMuchRPadding"
  | sigInvalidSIntId => "SigInvalidSIntID"
  | sigZeroSLen => "SigZeroSLen"
  | sigNegativeS => "SigNegativeS"
  | sigTooMuchSPadding => "SigTooMuchSPadding"
  | sigHighS => "SigHighS"
  | notPushOnly => "NotPushOnly"
  | sigNullDummy => "SigNullDummy"
  | pubKeyType => "PubKeyType"
  | cleanStack => "CleanStack"
  | nullFail => "NullFail"
  | discourageUpgradableNops => "DiscourageUpgradableNOPs"
  | negativeLockTime => "NegativeLockTime"
  | unsatisfiedLockTime => "UnsatisfiedLockTime"
  | illegalForkId => "IllegalForkID"

end BitcoinSpend.Spend
