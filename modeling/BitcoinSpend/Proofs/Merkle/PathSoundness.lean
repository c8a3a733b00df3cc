import BitcoinSpend.Merkle.Path.Root
import BitcoinSpend.Proofs.Merkle.BlockTree

/-!
# A path proves membership

A path may hold anything. If it climbs to the root of a block, as many levels as
the block's tree has, then it started from a transaction of the block, or it
hashed a string that collides with one of the tree. Going down from the root,
each node of the climb is a node of the tree's level: its parent is one, and
without a collision the two hash the same pair there.
-/

set_option autoImplicit false

namespace BitcoinSpend.Merkle

/-- What a climb hashes to go up one level. -/
def climbString? (levels : List Level) (leafOffset : UInt64) (node : Hash32) (height : Nat) :
    Option Bytes :=
  let offset := siblingOffset (ancestorOffset leafOffset height)
  (node? levels height offset).bind fun sibling =>
    if sibling.isDuplicate then some (joined node node)
    else sibling.hash.map fun hash => if offset % 2 = 1 then joined node hash else joined hash node

/-- What a climb hashes on its way. -/
def climbStrings (levels : List Level) (leafOffset : UInt64) :
    (heights : List Nat) → Hash32 → List Bytes
  | [], _ => []
  | height :: heights, node =>
      match climbString? levels leafOffset node height with
      | none => []
      | some string => string :: climbStrings levels leafOffset heights (Hash32.hash256 string)

/-- What is hashed on the way from a transaction up. What makes the siblings that are not stored is
left out. -/
def Path.climbStrings (path : Path) (txid : Hash32) : List Bytes :=
  match path.levels with
  | [] => []
  | leaves :: _ =>
      match leaves.find? fun element => element.hash == some txid with
      | none => []
      | some leaf =>
          Merkle.climbStrings path.levels leaf.offset (List.range path.levels.length) txid

theorem climb_eq (levels : List Level) (leafOffset : UInt64) (node : Hash32) (height : Nat) :
    climb levels leafOffset node height =
      match climbString? levels leafOffset node height with
      | some string => .ok (Hash32.hash256 string)
      | none =>
          .error (.missingHash (siblingOffset (ancestorOffset leafOffset height)) height) := by
  simp only [climb, climbString?]
  cases node? levels height (siblingOffset (ancestorOffset leafOffset height)) with
  | none => rfl
  | some sibling =>
      simp only [Option.bind_some, join?]
      cases sibling.isDuplicate with
      | true => rfl
      | false =>
          cases sibling.hash with
          | none => rfl
          | some hash =>
              simp only [Bool.false_eq_true, if_false, Option.map_some]
              by_cases right : siblingOffset (ancestorOffset leafOffset height) % 2 = 1
              · rw [if_pos right, if_pos right]
                rfl
              · rw [if_neg right, if_neg right]
                rfl

/-- The node that climbs is one half of the string. -/
private theorem exists_joined_of_climbString {levels : List Level} {leafOffset : UInt64}
    {height : Nat} {node : Hash32} {string : Bytes}
    (found : climbString? levels leafOffset node height = some string) :
    ∃ sibling, string = joined node sibling ∨ string = joined sibling node := by
  simp only [climbString?, Option.bind_eq_some_iff] at found
  obtain ⟨sibling, _, found⟩ := found
  split at found
  · cases found
    exact ⟨node, Or.inl rfl⟩
  · obtain ⟨hash, _, rfl⟩ := Option.map_eq_some_iff.mp found
    refine ⟨hash, ?_⟩
    split
    · exact Or.inl rfl
    · exact Or.inr rfl

private theorem length_of_mem_climbStrings {levels : List Level} {leafOffset : UInt64}
    {heights : List Nat} {node : Hash32} {string : Bytes}
    (member : string ∈ climbStrings levels leafOffset heights node) : string.length = 64 := by
  induction heights generalizing node with
  | nil => cases member
  | cons height heights ih =>
      simp only [climbStrings] at member
      split at member
      · cases member
      · next found =>
          rcases List.mem_cons.mp member with rfl | later
          · obtain ⟨sibling, half⟩ := exists_joined_of_climbString found
            rcases half with rfl | rfl
            · exact length_joined node sibling
            · exact length_joined sibling node
          · exact ih later

/-- Two different strings, one of the climb and one of the tree, with one hash. -/
def Collision (climbed tree : List Bytes) : Prop :=
  ∃ string ∈ climbed, ∃ other ∈ tree, string ≠ other ∧
    Hash32.hash256 string = Hash32.hash256 other

theorem Collision.mono {climbed climbed' tree tree' : List Bytes}
    (collision : Collision climbed tree) (climbs : climbed ⊆ climbed') (trees : tree ⊆ tree') :
    Collision climbed' tree' := by
  obtain ⟨string, member, other, otherMember, different⟩ := collision
  exact ⟨string, climbs member, other, trees otherMember, different⟩

/-- A node whose parent is in the level above is in the level, unless its string collides. -/
private theorem mem_or_collision_of_parent {nodes : List Hash32} {node sibling : Hash32}
    {string : Bytes} (half : string = joined node sibling ∨ string = joined sibling node)
    (above : Hash32.hash256 string ∈ parents nodes) :
    node ∈ nodes ∨
      Collision [string] ((pairs nodes).map fun pair => joined pair.1 pair.2) := by
  obtain ⟨⟨left, right⟩, member, hashed⟩ := List.mem_map.mp above
  obtain ⟨leftInside, rightInside⟩ := mem_of_mem_pairs member
  by_cases same : string = joined left right
  · rcases half with rfl | rfl
    · exact Or.inl ((joined_inj same).1 ▸ leftInside)
    · exact Or.inl ((joined_inj same).2 ▸ rightInside)
  · exact Or.inr ⟨string, List.mem_singleton_self _, joined left right,
      List.mem_map.mpr ⟨_, member, rfl⟩, same, hashed.symm⟩

private theorem mem_or_collision_of_climb {levels : List Level} {leafOffset : UInt64}
    {nodes : List Hash32}
    {heights : List Nat} {node root : Hash32} (built : blockRoot nodes = some root)
    (height : heights.length = (blockLevels nodes).length)
    (climbed : heights.foldlM (climb levels leafOffset) node = .ok root) :
    node ∈ nodes ∨ Collision (climbStrings levels leafOffset heights node) (treeStrings nodes) := by
  -- The hypothesis is about the level above: the parent that the climb made is in it, or something
  -- collides further up.
  induction nodes using blockLevels.induct generalizing heights node with
  | case1 nodes several _ ih =>
      rw [blockRoot, dif_pos several] at built
      rw [blockLevels, dif_pos several, List.length_cons] at height
      obtain ⟨first, later, rfl⟩ := List.exists_cons_of_length_eq_add_one height
      rw [List.foldlM_cons, climb_eq] at climbed
      cases found : climbString? levels leafOffset node first with
      | none =>
          rw [found] at climbed
          cases climbed
      | some string =>
          rw [found] at climbed
          have strings : climbStrings levels leafOffset (first :: later) node =
              string :: climbStrings levels leafOffset later (Hash32.hash256 string) := by
            simp only [climbStrings, found]
          have trees : treeStrings nodes =
              ((pairs nodes).map fun pair => joined pair.1 pair.2) ++
                treeStrings (parents nodes) := by
            rw [treeStrings, blockLevels, dif_pos several, List.flatMap_cons]
            rfl
          rw [strings, trees]
          rcases ih built (Nat.succ.inj height) climbed with above | collision
          · obtain ⟨sibling, half⟩ := exists_joined_of_climbString found
            refine (mem_or_collision_of_parent half above).imp id fun collision => ?_
            exact collision.mono (by simp) (List.subset_append_left _ _)
          · exact Or.inr (collision.mono (List.subset_cons_self _ _) (List.subset_append_right _ _))
  | case2 nodes few =>
      rw [blockLevels, dif_neg few] at height
      rw [blockRoot, dif_neg few] at built
      rw [List.length_eq_zero_iff.mp height] at climbed
      cases climbed
      exact Or.inl (List.mem_of_head? built)

/-- A path as high as a block's tree climbs to the block's root from nothing but a transaction of
the block, or two strings of 64 bytes, one of the climb and one of the tree, have one hash. -/
theorem mem_or_collision_of_root {txids : List Hash32} {path : Path} {txid root : Hash32}
    (built : blockRoot txids = some root)
    (height : path.levels.length = (blockLevels txids).length)
    (notLone : ∀ element, path.levels ≠ [[element]]) (climbed : path.root (some txid) = .ok root) :
    txid ∈ txids ∨ ∃ string ∈ path.climbStrings txid, ∃ other ∈ treeStrings txids,
      string.length = 64 ∧ other.length = 64 ∧ string ≠ other ∧
        Hash32.hash256 string = Hash32.hash256 other := by
  cases stored : path.levels with
  | nil =>
      simp only [Path.root, stored] at climbed
      cases climbed
  | cons leaves above =>
      simp only [Path.root, stored, Path.rootFrom] at climbed
      cases found : leaves.find? fun element => element.hash == some txid with
      | none =>
          simp only [found] at climbed
          cases climbed
      | some leaf =>
          have climbs : ¬((leaves :: above).length = 1 ∧ leaves.length = 1) := by
            rintro ⟨single, lone⟩
            obtain ⟨element, rfl⟩ := List.length_eq_one_iff.mp lone
            have alone : above = [] := by simpa using single
            exact notLone element (by rw [stored, alone])
          simp only [found, if_neg climbs] at climbed
          have strings : path.climbStrings txid = climbStrings path.levels leaf.offset
              (List.range path.levels.length) txid := by
            simp only [Path.climbStrings, stored, found]
          have asHigh :
              (List.range (leaves :: above).length).length = (blockLevels txids).length := by
            rw [List.length_range, ← stored]
            exact height
          rw [strings, stored]
          refine (mem_or_collision_of_climb built asHigh climbed).imp id ?_
          rintro ⟨string, member, other, otherMember, different, hashed⟩
          exact ⟨string, member, other, otherMember, length_of_mem_climbStrings member,
            length_of_mem_treeStrings otherMember, different, hashed⟩

/-- A block of two transactions and the path from the first of them. -/
def pairTxids : List Hash32 :=
  [Hash32.zero, ⟨List.replicate 32 1, rfl⟩]

def pairPath : Path :=
  ⟨7, [[Element.leaf 0 Hash32.zero, Element.leaf 1 ⟨List.replicate 32 1, rfl⟩]]⟩

theorem pairPath_mem_or_collision : Hash32.zero ∈ pairTxids ∨
    ∃ string ∈ pairPath.climbStrings Hash32.zero, ∃ other ∈ treeStrings pairTxids,
      string.length = 64 ∧ other.length = 64 ∧ string ≠ other ∧
        Hash32.hash256 string = Hash32.hash256 other := by
  have built : blockRoot pairTxids =
      some (parent Hash32.zero ⟨List.replicate 32 1, rfl⟩) := by
    simp [blockRoot, pairTxids, parents, pairs]
  have height : pairPath.levels.length = (blockLevels pairTxids).length := by
    simp [blockLevels, pairTxids, pairPath, parents, pairs]
  have notLone : ∀ element, pairPath.levels ≠ [[element]] := by
    intro element
    simp [pairPath]
  have climbed : pairPath.root (some Hash32.zero) =
      .ok (parent Hash32.zero ⟨List.replicate 32 1, rfl⟩) := by
    rfl
  exact mem_or_collision_of_root built height notLone climbed

end BitcoinSpend.Merkle
