import BitcoinSpend.Merkle.Path.Root

/-!
# Combining Merkle paths

Two paths of one block are combined into one that proves what either proves. The
elements of the second path take the place of those of the first at the same
offset. A node whose two children are there is dropped, since it can be made.
-/

set_option autoImplicit false

namespace BitcoinSpend.Merkle

open MonadExcept (ofExcept)

/-- Puts an element into a level that is sorted by offset, in place of one at the same offset. -/
def Level.place (element : Element) : Level → Level
  | [] => [element]
  | first :: rest =>
      if element.offset < first.offset then element :: first :: rest
      else if element.offset = first.offset then element :: rest
      else first :: Level.place element rest

/-- The elements of two levels sorted by offset, one for each offset, the last that there is. -/
def Level.merge (left right : Level) : Level :=
  (left ++ right).foldl (fun level element => level.place element) []

def mergeLevels : (left right : List Level) → List Level
  | [], right => right.map (Level.merge [])
  | left, [] => left.map (Level.merge [])
  | left :: lefts, right :: rights => left.merge right :: mergeLevels lefts rights

def Level.covers (level : Level) (offset : Nat) : Bool :=
  level.any fun element => element.offset.toNat == offset

/-- The elements of a level that cannot be made from the level below. -/
def Level.trim (below level : Level) (height : Nat) : Except Error Level :=
  match level.find? fun element => UInt64.size ≤ 2 * element.offset.toNat with
  | some element => .error (.malformed (.noChildren element.offset height))
  | none =>
      .ok (level.filter fun element =>
        !(below.covers (2 * element.offset.toNat) && below.covers (2 * element.offset.toNat + 1)))

/-- Trims each level above a given one, against the levels as they are before the trimming. -/
def trimAbove (below : Level) (height : Nat) : List Level → Except Error (List Level)
  | [] => .ok []
  | level :: levels => do
      let trimmed ← Level.trim below level height
      let rest ← trimAbove level (height + 1) levels
      pure (trimmed :: rest)

def trimLevels : List Level → Except Error (List Level)
  | [] => .ok []
  | leaves :: levels => do
      let rest ← trimAbove leaves 1 levels
      pure (leaves :: rest)

/-- The path that proves what either of two paths proves. Both must be of one height and climb to
one root from their first leaves. -/
def Path.combine (left right : Path) : Except Error Path :=
  if left.blockHeight ≠ right.blockHeight then
    .error (.malformed (.differentHeights left.blockHeight right.blockHeight))
  else do
    let leftRoot ← left.root none
    let rightRoot ← right.root none
    if leftRoot ≠ rightRoot then throw (.malformed (.differentRoots leftRoot rightRoot))
    let levels ← trimLevels (mergeLevels left.levels right.levels)
    pure ⟨left.blockHeight, levels⟩

/-- Combines another path into the one that is held. The levels are replaced once all of them are
made. -/
def Path.combineInPlace (other : Path) : EStateM Error Path Unit := do
  let path ← get
  if path.blockHeight ≠ other.blockHeight then
    throw (.malformed (.differentHeights path.blockHeight other.blockHeight))
  else
    let root ← ofExcept (path.root none)
    let otherRoot ← ofExcept (other.root none)
    if root ≠ otherRoot then throw (.malformed (.differentRoots root otherRoot))
    else
      let levels ← ofExcept (trimLevels (mergeLevels path.levels other.levels))
      modify fun path => { path with levels := levels }

end BitcoinSpend.Merkle
