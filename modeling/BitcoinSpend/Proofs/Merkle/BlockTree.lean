import BitcoinSpend.Merkle.Node

/-!
# The Merkle tree of a block

Each level pairs the nodes of the one below it, the last node of an odd level
with itself, until one node is left.
-/

set_option autoImplicit false

namespace BitcoinSpend.Merkle

/-- The pairs of a level, left to right. -/
def pairs : List Hash32 → List (Hash32 × Hash32)
  | [] => []
  | [last] => [(last, last)]
  | left :: right :: rest => (left, right) :: pairs rest

def parents (nodes : List Hash32) : List Hash32 :=
  (pairs nodes).map fun pair => parent pair.1 pair.2

private theorem length_pairs (nodes : List Hash32) :
    (pairs nodes).length = (nodes.length + 1) / 2 := by
  induction nodes using pairs.induct with
  | case1 => rfl
  | case2 last => simp [pairs]
  | case3 left right rest ih =>
      simp only [pairs, List.length_cons, ih]
      omega

theorem mem_of_mem_pairs {nodes : List Hash32} {left right : Hash32}
    (member : (left, right) ∈ pairs nodes) : left ∈ nodes ∧ right ∈ nodes := by
  induction nodes using pairs.induct with
  | case1 => cases member
  | case2 last =>
      obtain ⟨rfl, rfl⟩ := Prod.mk.inj (List.mem_singleton.mp member)
      exact ⟨List.mem_singleton_self _, List.mem_singleton_self _⟩
  | case3 first second rest ih =>
      rcases List.mem_cons.mp member with same | later
      · obtain ⟨rfl, rfl⟩ := Prod.mk.inj same
        exact ⟨List.mem_cons_self, List.mem_cons_of_mem _ List.mem_cons_self⟩
      · obtain ⟨leftInside, rightInside⟩ := ih later
        exact ⟨List.mem_cons_of_mem _ (List.mem_cons_of_mem _ leftInside),
          List.mem_cons_of_mem _ (List.mem_cons_of_mem _ rightInside)⟩

theorem length_parents (nodes : List Hash32) : (parents nodes).length = (nodes.length + 1) / 2 := by
  rw [parents, List.length_map, length_pairs]

private theorem length_parents_lt {nodes : List Hash32} (several : 2 ≤ nodes.length) :
    (parents nodes).length < nodes.length := by
  rw [length_parents]
  omega

/-- The levels below the root, the leaves first. -/
def blockLevels (nodes : List Hash32) : List (List Hash32) :=
  if several : 2 ≤ nodes.length then
    have := length_parents_lt several
    nodes :: blockLevels (parents nodes)
  else []
termination_by nodes.length

def blockRoot (nodes : List Hash32) : Option Hash32 :=
  if several : 2 ≤ nodes.length then
    have := length_parents_lt several
    blockRoot (parents nodes)
  else nodes.head?
termination_by nodes.length

/-- What is hashed for the parent of two nodes. -/
def joined (left right : Hash32) : Bytes :=
  left.bytes ++ right.bytes

theorem length_joined (left right : Hash32) : (joined left right).length = 64 := by
  simp only [joined, List.length_append, left.length_bytes, right.length_bytes]

/-- The halves of a string have a fixed length, so the string tells them apart. -/
theorem joined_inj {left right left' right' : Hash32}
    (same : joined left right = joined left' right') : left = left' ∧ right = right' := by
  have lengths : left.bytes.length = left'.bytes.length :=
    left.length_bytes.trans left'.length_bytes.symm
  obtain ⟨leftSame, rightSame⟩ := List.append_inj same lengths
  exact ⟨Hash32.ext leftSame, Hash32.ext rightSame⟩

/-- All that is hashed for the tree above some leaves. -/
def treeStrings (leaves : List Hash32) : List Bytes :=
  (blockLevels leaves).flatMap fun nodes => (pairs nodes).map fun pair => joined pair.1 pair.2

theorem length_of_mem_treeStrings {leaves : List Hash32} {string : Bytes}
    (member : string ∈ treeStrings leaves) : string.length = 64 := by
  obtain ⟨nodes, _, inside⟩ := List.mem_flatMap.mp member
  obtain ⟨pair, _, rfl⟩ := List.mem_map.mp inside
  exact length_joined pair.1 pair.2

end BitcoinSpend.Merkle
