import BitcoinSpend.Json
import BitcoinSpend.Merkle.Node

/-!
# Merkle paths

A path holds, level by level from the leaves, the nodes needed to climb from one
or more transactions to the Merkle root of their block. Nodes above the leaves
need not be stored where both of their children are.
-/

set_option autoImplicit false

namespace BitcoinSpend.Merkle

/-- A node as a path stores it. -/
structure Element where
  /-- The position of the node in its level. -/
  offset : UInt64
  /-- The node's hash; a node that pairs with itself needs none. -/
  hash : Option Hash32
  /-- Whether the node is a transaction that the path proves. -/
  txid : Option Bool
  /-- Whether the node only stands for its left sibling, which pairs with itself. -/
  duplicate : Option Bool
  deriving DecidableEq, Repr

namespace Element

def leaf (offset : UInt64) (hash : Hash32) : Element :=
  ⟨offset, some hash, none, none⟩

/-- Whether the node only stands for its left sibling. -/
def isDuplicate (element : Element) : Bool :=
  element.duplicate == some true

/-- Whether the node is marked as a transaction that the path proves. -/
def isMarked (element : Element) : Bool :=
  element.txid == some true

end Element

/-- The stored nodes of one level. -/
abbrev Level := List Element

/-- A proof that transactions belong to a block. -/
structure Path where
  blockHeight : UInt32
  /-- The levels from the leaves up to the one below the root. -/
  levels : List Level
  deriving DecidableEq, Repr

namespace Path

/-- The path of a block that holds one transaction. -/
def single (blockHeight : UInt32) (txid : Hash32) : Path :=
  ⟨blockHeight, [[⟨0, some txid, some true, none⟩]]⟩

def find? (path : Path) (level : Nat) (offset : UInt64) : Option Element := do
  let elements ← path.levels[level]?
  elements.find? fun element => element.offset == offset

/-- Adds an element at the end of a level. Levels that are missing up to there are added empty. -/
def add (path : Path) (level : Nat) (element : Element) : Path :=
  let padded := path.levels ++ List.replicate (level + 1 - path.levels.length) []
  { path with levels := padded.modify level (· ++ [element]) }

end Path

end BitcoinSpend.Merkle
