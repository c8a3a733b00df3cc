import BitcoinSpend.Hash32

/-!
# Failures of Merkle proofs

Every way in which a Merkle path is refused, does not reach a root, or could not
be checked, and the wording of each.
-/

set_option autoImplicit false

namespace BitcoinSpend.Merkle

inductive PathField where
  | blockHeight
  | treeHeight
  | leafCount
  | offset
  | flags
  | hash
  deriving DecidableEq, Repr

def PathField.label : PathField → String
  | blockHeight => "block height"
  | treeHeight => "tree height"
  | leafCount => "leaf count"
  | offset => "offset"
  | flags => "flags"
  | hash => "hash"

/-- Why a path is not one that can be worked with. -/
inductive Malformation where
  | tooShort (length : Nat)
  | trailing (length : Nat)
  | field (name : PathField) (cause : EncodingError)
  | blockHeightRange (value : UInt64)
  | noLevels
  | noLeafHash
  | differentHeights (left right : UInt32)
  | differentRoots (left right : Hash32)
  /-- The children of a node would lie past the last offset. -/
  | noChildren (offset : UInt64) (height : Nat)
  deriving DecidableEq, Repr

def Malformation.message : Malformation → String
  | tooShort length => toString length ++ " bytes is too short for a merkle path"
  | trailing length => toString length ++ " trailing bytes after merkle path"
  | field name cause => "reading " ++ name.label ++ ": " ++ cause.message
  | blockHeightRange value => "block height " ++ toString value.toNat ++ " out of range"
  | noLevels => "path has no levels"
  | noLeafHash => "no hash found at level 0"
  | differentHeights left right =>
      "cannot combine paths at heights " ++ toString left.toNat ++ " and " ++ toString right.toNat
  | differentRoots left right =>
      "cannot combine paths with roots " ++ left.display ++ " and " ++ right.display
  | noChildren offset height =>
      "offset " ++ toString offset.toNat ++ " at height " ++ toString height ++ " has no children"

inductive Error where
  | malformed (cause : Malformation)
  | notInPath (txid : Hash32)
  | missingHash (offset height : Nat)
  /-- The source of block roots did not answer. -/
  | tracker (reason : String)
  | encoding (cause : EncodingError)
  | hex (cause : HexError)
  deriving DecidableEq, Repr

def Error.message : Error → String
  | malformed cause => "invalid merkle path: " ++ cause.message
  | notInPath txid => "txid " ++ txid.display ++ " is not in the merkle path"
  | missingHash offset height =>
      "merkle path has no hash for offset " ++ toString offset ++ " at height " ++ toString height
  | tracker reason => "chain tracker: " ++ reason
  | encoding cause => "primitives error: " ++ cause.message
  | hex cause => "hex error: " ++ cause.message

end BitcoinSpend.Merkle
