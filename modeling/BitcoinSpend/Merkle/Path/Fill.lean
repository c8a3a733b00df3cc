import BitcoinSpend.Merkle.Path.Root
import BitcoinSpend.Merkle.Path.Wire

/-!
# Filling a Merkle path

Every node that can be made from its children is stored, level by level from the
leaves.
-/

set_option autoImplicit false

namespace BitcoinSpend.Merkle

/-- The parent that a left child makes with its sibling, where the level above does not store it. -/
def Level.parent? (children parents : Level) (left : Element) : Option Element :=
  let parentOffset := left.offset / 2
  if left.offset % 2 ≠ 0 ∨ parents.any (fun element => element.offset == parentOffset) then none
  else do
    let leftHash ← left.hash
    let right ← children.find? fun element => element.offset == left.offset + 1
    let hash ← parentOf? leftHash right
    pure (Element.leaf parentOffset hash)

def Level.fill (children parents : Level) : Level :=
  Level.sort (parents ++ children.filterMap (Level.parent? children parents))

def fillAbove (children : Level) : List Level → List Level
  | [] => []
  | parents :: levels =>
      let filled := Level.fill children parents
      filled :: fillAbove filled levels

/-- The path with every node stored that can be made from its children. -/
def Path.fill (path : Path) : Path :=
  match path.levels with
  | [] => path
  | leaves :: levels => { path with levels := leaves :: fillAbove leaves levels }

end BitcoinSpend.Merkle
