import BitcoinSpend.Merkle.Path.Basic

/-!
# The root of a Merkle path

The climb from a leaf to the root takes the sibling at every level. A sibling is
stored, or made from its children, stored or made in turn. Where a level stores
several elements at one offset, the last of them counts.
-/

set_option autoImplicit false

namespace BitcoinSpend.Merkle

def Level.last? (level : Level) (offset : Nat) : Option Element :=
  level.reverse.find? fun element => element.offset.toNat == offset

def parentOf? (left : Hash32) (right : Element) : Option Hash32 :=
  if right.isDuplicate then some (parent left left)
  else right.hash.map (parent left)

def stored? (levels : List Level) (height offset : Nat) : Option Element := do
  let level ← levels[height]?
  level.last? offset

/-- The element at a height and an offset, stored or made from its children. -/
def node? (levels : List Level) : (height offset : Nat) → Option Element
  | 0, offset => stored? levels 0 offset
  | height + 1, offset =>
      match stored? levels (height + 1) offset with
      | some element => some element
      | none => do
          let left ← node? levels height (2 * offset)
          let right ← node? levels height (2 * offset + 1)
          let leftHash ← left.hash
          let hash ← parentOf? leftHash right
          pure (Element.leaf (UInt64.ofNat offset) hash)

def siblingOffset (offset : Nat) : Nat :=
  offset ^^^ 1

/-- The offset of the node at a height above a leaf. An offset is a word of 64 bits, and is shifted
by the height modulo the width of a word. -/
def ancestorOffset (leafOffset : UInt64) (height : Nat) : Nat :=
  (leafOffset >>> UInt64.ofNat height).toNat

theorem ancestorOffset_of_lt (leafOffset : UInt64) {height : Nat} (narrow : height < 64) :
    ancestorOffset leafOffset height = leafOffset.toNat >>> height := by
  have word : height < 2 ^ 64 := Nat.lt_trans narrow (by decide)
  rw [ancestorOffset, UInt64.toNat_shiftRight, UInt64.toNat_ofNat', Nat.mod_eq_of_lt word,
    Nat.mod_eq_of_lt narrow]

/-- The parent of a node and the element at the sibling's offset. A duplicate has the node pair with
itself; a sibling at an odd offset is the right child. -/
def join? (node : Hash32) (sibling : Element) (offset : Nat) : Option Hash32 :=
  if sibling.isDuplicate then some (parent node node)
  else sibling.hash.map fun hash => if offset % 2 = 1 then parent node hash else parent hash node

/-- Climbs one level: from the node above the leaf at `leafOffset` to its parent. -/
def climb (levels : List Level) (leafOffset : UInt64) (node : Hash32) (height : Nat) :
    Except Error Hash32 :=
  let offset := siblingOffset (ancestorOffset leafOffset height)
  match (node? levels height offset).bind fun sibling => join? node sibling offset with
  | some hash => .ok hash
  | none => .error (.missingHash offset height)

namespace Path

/-- The root to which a leaf climbs. A lone leaf is the root itself. -/
def rootFrom (path : Path) (leaves : Level) (txid : Hash32) : Except Error Hash32 :=
  match leaves.find? fun element => element.hash == some txid with
  | none => .error (.notInPath txid)
  | some leaf =>
      if path.levels.length = 1 ∧ leaves.length = 1 then .ok txid
      else (List.range path.levels.length).foldlM (climb path.levels leaf.offset) txid

/-- The root to which a transaction climbs, or the first leaf with a hash when none is given. -/
def root (path : Path) (txid : Option Hash32) : Except Error Hash32 :=
  match path.levels with
  | [] => .error (.malformed .noLevels)
  | leaves :: _ =>
      match txid, leaves.findSome? Element.hash with
      | some txid, _ => path.rootFrom leaves txid
      | none, some first => path.rootFrom leaves first
      | none, none => .error (.malformed .noLeafHash)

/-- The root to which a transaction climbs, both as displayed texts. -/
def rootOfDisplay (path : Path) (txid : Option String) : Except Error String := do
  let txid ← txid.mapM fun text => (Hash32.ofDisplay text).mapError .encoding
  let root ← path.root txid
  pure root.display

end Path

end BitcoinSpend.Merkle
