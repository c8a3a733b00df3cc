import BitcoinSpend.Address
import BitcoinSpend.Fee.Change
import BitcoinSpend.Fee.LivePolicy
import BitcoinSpend.Fee.Required
import BitcoinSpend.Merkle.Path.Combine
import BitcoinSpend.Merkle.Path.Document
import BitcoinSpend.Merkle.Path.Fill
import BitcoinSpend.Script.Assembly
import BitcoinSpend.Template.PushDrop
import BitcoinSpend.Template.RPuzzle
import BitcoinSpend.Template.Sign
import BitcoinSpend.Transaction.Decode
import BitcoinSpend.Proofs.Spend.Consistency
import BitcoinSpend.Proofs.Spend.SafeInstructions
import BitcoinSpend.Proofs.Spend.Sequencing
import BitcoinSpend.Proofs.Spend.ReachableConsistency
import BitcoinSpend.Proofs.Spend.Follows
import BitcoinSpend.Proofs.Spend.RelaxedInstructions
import BitcoinSpend.Proofs.Spend.RelaxedRun
import BitcoinSpend.Proofs.Merkle.BlockTree
import BitcoinSpend.Proofs.Merkle.PathSoundness
import BitcoinSpend.Proofs.Transaction.Ancestry
import BitcoinSpend.Proofs.Wire.ReadBack
import BitcoinSpend.Proofs.SignatureHash.SignedView
import BitcoinSpend.Proofs.Chunk.Splitting
import BitcoinSpend.Proofs.Spend.StrictSignature
import BitcoinSpend.Proofs.Spend.CheckedRuns
import BitcoinSpend.Proofs.Transaction.PayToKeyHash
import BitcoinSpend.Proofs.Transaction.ExtendedRoundTrip
import BitcoinSpend.Proofs.Transaction.Respelling
import BitcoinSpend.Proofs.Spend.Oblivious
import BitcoinSpend.Proofs.Spend.ObliviousInstructions
import BitcoinSpend.Proofs.Spend.ScriptSeparation
import BitcoinSpend.Proofs.NumberSizes
import BitcoinSpend.Proofs.Spend.Yields
import BitcoinSpend.Proofs.Spend.BoundedStacks
import BitcoinSpend.Proofs.Spend.ResultLengths
import BitcoinSpend.Proofs.Spend.BoundedInstructions
import BitcoinSpend.Proofs.Spend.ResourceLimits
import BitcoinSpend.Proofs.Transaction.ExactTotals
import BitcoinSpend.Proofs.Transaction.ValueConservation
import BitcoinSpend.Proofs.Merkle.Labelling
import BitcoinSpend.Proofs.Merkle.CombinedLevels
import BitcoinSpend.Proofs.Merkle.CombinedRoots
import BitcoinSpend.Proofs.Spend.CountedOperations
import BitcoinSpend.Proofs.Spend.FailedCalls
import BitcoinSpend.Proofs.SignatureHash.SigningCopy
import BitcoinSpend.Proofs.Chunk.Regrouping
import BitcoinSpend.Proofs.Spend.SeparatorRemoval
import BitcoinSpend.Proofs.SignatureHash.Blindness
import BitcoinSpend.Proofs.Transaction.SigningInPlace
import BitcoinSpend.Proofs.Spend.StepCounts
import BitcoinSpend.Proofs.Merkle.PathEncoding
import BitcoinSpend.Proofs.Curve.Primality
import BitcoinSpend.Proofs.Curve.CompressedKey
import BitcoinSpend.Proofs.Template.PushDropScript
import BitcoinSpend.Proofs.Transaction.PushDropSpend
import BitcoinSpend.Proofs.Template.RPuzzleScript
import BitcoinSpend.Proofs.Transaction.RPuzzleSpend
import BitcoinSpend.Proofs.Spend.OrderedMatching
import BitcoinSpend.Proofs.Spend.MultipleSignatures
import BitcoinSpend.Proofs.NumberForms
import BitcoinSpend.Proofs.Signature.StrictEncoding
import BitcoinSpend.Proofs.Merkle.CombinedMarks
import BitcoinSpend.Proofs.Transaction.SizeEstimates
import BitcoinSpend.Proofs.Transaction.SignedSize
import BitcoinSpend.Proofs.Fee.Funding
import BitcoinSpend.Proofs.Fee.ChangeShares
import BitcoinSpend.Proofs.Merkle.CombinedForm
import BitcoinSpend.Proofs.Merkle.HonestPaths
import BitcoinSpend.Proofs.Merkle.FilledPath
import BitcoinSpend.Proofs.Spend.SkippedCode
import BitcoinSpend.Proofs.Spend.StepOutcomes
import BitcoinSpend.Proofs.Spend.FailurePlaces
import BitcoinSpend.Proofs.Spend.EarlyReturn
import BitcoinSpend.Proofs.Spend.Background
import BitcoinSpend.Proofs.Spend.BlindInstructions
import BitcoinSpend.Proofs.Spend.ItemsBeneath
import BitcoinSpend.Proofs.Chunk.OpenConditionals
import BitcoinSpend.Proofs.Spend.ConditionalDepth
import BitcoinSpend.Proofs.Script.Mnemonics
import BitcoinSpend.Proofs.Script.Reassembly
import BitcoinSpend.Proofs.Spend.NumericOpcodes
import BitcoinSpend.Proofs.Spend.ResizedNumbers
import BitcoinSpend.Proofs.Spend.ShiftedStrings
import BitcoinSpend.Proofs.Script.TruncatedText
import BitcoinSpend.Proofs.Chunk.UniquePush
import BitcoinSpend.Proofs.Spend.MinimalPushes
import BitcoinSpend.Proofs.Template.PushDropFields
import BitcoinSpend.Proofs.Spend.StackRules
import BitcoinSpend.Proofs.Spend.LockTimes
import BitcoinSpend.Proofs.Text.Base58Digits
import BitcoinSpend.Proofs.CheckedTexts
import BitcoinSpend.Proofs.Wire.ReadingPlaces
