import Mathlib.Data.List.Nodup
import BitcoinSpend.Proofs.Merkle.CombinedRoots

/-!
# Honest paths compute the root of their block

A path that stores nothing but nodes of a block's tree, and markers where an odd
level ends, climbs to the block's root or reports what it lacks. Nodes and markers
fit the tree in which the last node of an odd level is its own right sibling, so
every node that can be made is the tree's, and the one above all levels is the root.
-/

set_option autoImplicit false

namespace BitcoinSpend.Merkle

/-! ## The levels of a block -/

section Levels

variable {leaves nodes : List Hash32} {root : Hash32}

private theorem nodesAt_parents (leaves : List Hash32) (height : Nat) :
    nodesAt (parents leaves) height = nodesAt leaves (height + 1) := by
  induction height with
  | zero => rfl
  | succ height ih => rw [nodesAt, ih, ← nodesAt]

private theorem nodesAt_of_blockLevels {height : Nat}
    (here : (blockLevels leaves)[height]? = some nodes) :
    nodesAt leaves height = nodes := by
  induction leaves using blockLevels.induct generalizing height with
  | case1 leaves several _ ih =>
      rw [blockLevels, dif_pos several] at here
      cases height with
      | zero => exact Option.some.inj here
      | succ height => exact (nodesAt_parents leaves height).symm.trans (ih here)
  | case2 leaves few =>
      rw [blockLevels, dif_neg few] at here
      cases here

private theorem nodesAt_of_blockRoot (built : blockRoot leaves = some root) :
    nodesAt leaves (blockLevels leaves).length = [root] := by
  induction leaves using blockLevels.induct with
  | case1 leaves several _ ih =>
      rw [blockRoot, dif_pos several] at built
      rw [blockLevels, dif_pos several, List.length_cons, ← nodesAt_parents]
      exact ih built
  | case2 leaves few =>
      rw [blockRoot, dif_neg few] at built
      rw [blockLevels, dif_neg few]
      obtain ⟨later, rfl⟩ := List.head?_eq_some_iff.mp built
      obtain rfl : later = [] := List.length_eq_zero_iff.mp (by rw [List.length_cons] at few; omega)
      rfl

/-- Halving the offset keeps a node inside the level above. -/
private theorem shiftRight_lt_length_nodesAt {index : Nat} (inside : index < leaves.length)
    (height : Nat) :
    index >>> height < (nodesAt leaves height).length := by
  induction height with
  | zero => exact inside
  | succ height ih =>
      rw [Nat.shiftRight_succ, nodesAt, length_parents]
      omega

private theorem shiftRight_blockLevels_eq_zero {index : Nat} (built : blockRoot leaves = some root)
    (inside : index < leaves.length) : index >>> (blockLevels leaves).length = 0 := by
  have below := shiftRight_lt_length_nodesAt inside (blockLevels leaves).length
  rw [nodesAt_of_blockRoot built, List.length_singleton] at below
  exact Nat.lt_one_iff.mp below

/-- An odd level ends in a pair of one node. -/
private theorem pairs_last_of_odd (odd : nodes.length % 2 = 1) :
    ∃ last, (pairs nodes)[nodes.length / 2]? = some (last, last) := by
  induction nodes using pairs.induct with
  | case1 => cases odd
  | case2 last => exact ⟨last, by simp [pairs]⟩
  | case3 left right rest ih =>
      simp only [List.length_cons] at odd ⊢
      have half : (rest.length + 1 + 1) / 2 = rest.length / 2 + 1 := by omega
      rw [half, pairs, List.getElem?_cons_succ]
      exact ih (by omega)

end Levels

/-! ## What an honest path stores -/

/-- An element of a level of a block: the node at its offset, or a marker without a hash just past
the end of an odd level. -/
inductive Element.HonestIn (nodes : List Hash32) (element : Element) : Prop where
  | node {hash : Hash32} (single : element.isDuplicate = false) (hashed : element.hash = some hash)
      (here : nodes[element.offset.toNat]? = some hash)
  | marker (duplicate : element.isDuplicate = true) (unhashed : element.hash = none)
      (odd : nodes.length % 2 = 1) (past : element.offset.toNat = nodes.length)

/-- A path as high as the tree of a block, with elements of the block's levels only. -/
structure Path.HonestFor (path : Path) (txids : List Hash32) : Prop where
  height : path.levels.length = (blockLevels txids).length
  several : ¬ path.IsLone
  stored : ∀ {height : Nat} {nodes : List Hash32} {element : Element},
    (blockLevels txids)[height]? = some nodes → Stores path.levels height element →
      element.HonestIn nodes

private theorem Labelling.label_ofBlock {leaves : List Hash32} {height offset : Nat} {node : Hash32}
    (here : (nodesAt leaves height)[offset]? = some node) :
    (Labelling.ofBlock leaves).label height offset = some node :=
  getElem?_pairs here

theorem Element.HonestIn.fits {leaves : List Hash32} {height : Nat} {element : Element}
    (honest : element.HonestIn (nodesAt leaves height)) :
    (Labelling.ofBlock leaves).Fits height element.offset.toNat element := by
  cases honest with
  | @node hash single hashed here =>
      refine ⟨fun same => ?_, fun _ => ⟨hash, hashed⟩, fun duplicate => ?_⟩
      · obtain rfl := Option.some.inj (hashed.symm.trans same)
        exact Labelling.label_ofBlock here
      · cases single.symm.trans duplicate
  | marker duplicate unhashed odd past =>
      refine ⟨fun same => ?_, fun single => ?_, fun _ => ?_⟩
      · cases unhashed.symm.trans same
      · cases duplicate.symm.trans single
      · -- The marker and the last node are one pair, whose halves are equal.
        obtain ⟨last, pair⟩ := pairs_last_of_odd odd
        have half :
            ((nodesAt leaves height).length - 1) / 2 = (nodesAt leaves height).length / 2 := by
          omega
        rw [past]
        refine ⟨odd, ?_⟩
        simp only [Labelling.ofBlock, half, pair, Option.map_some, ite_self]

namespace Path

variable {path : Path} {txids : List Hash32} {txid root : Hash32}

theorem HonestFor.nodes (honest : path.HonestFor txids) {height : Nat} {element : Element}
    (stores : Stores path.levels height element) :
    (blockLevels txids)[height]? = some (nodesAt txids height) := by
  obtain ⟨level, here, -⟩ := stores
  have below : height < (blockLevels txids).length :=
    honest.height ▸ (List.getElem?_eq_some_iff.mp here).1
  have nodes := List.getElem?_eq_getElem below
  rwa [← nodesAt_of_blockLevels nodes] at nodes

theorem HonestFor.holds (honest : path.HonestFor txids) :
    (Labelling.ofBlock txids).Holds path.levels :=
  fun stores => (honest.stored (honest.nodes stores) stores).fits

/-- A leaf with a transaction's hash is at the transaction's place in the block. -/
theorem HonestFor.leaf (honest : path.HonestFor txids) {element : Element}
    (stores : Stores path.levels 0 element) (hashed : element.hash = some txid) :
    txids[element.offset.toNat]? = some txid := by
  cases honest.stored (honest.nodes stores) stores with
  | node _ same here => exact here.trans (same.symm.trans hashed)
  | marker _ unhashed => cases unhashed.symm.trans hashed

private theorem HonestFor.label_top (honest : path.HonestFor txids)
    (built : blockRoot txids = some root) {index : Nat} (here : txids[index]? = some txid) :
    (Labelling.ofBlock txids).label path.levels.length (index >>> path.levels.length) =
      some root := by
  have inside : index < txids.length := (List.getElem?_eq_some_iff.mp here).1
  rw [honest.height, shiftRight_blockLevels_eq_zero built inside]
  refine Labelling.label_ofBlock ?_
  rw [nodesAt_of_blockRoot built]
  rfl

theorem HonestFor.climbs (honest : path.HonestFor txids) (built : blockRoot txids = some root)
    (narrow : path.levels.length ≤ 64) {place : UInt64} (here : txids[place.toNat]? = some txid)
    (siblings : ∀ height < path.levels.length,
      Available path.levels height (siblingOffset (ancestorOffset place height))) :
    climbTo path.levels place txid path.levels.length = .ok root := by
  obtain ⟨reached, climbed, top⟩ :=
    exists_climbTo_of_available narrow honest.holds (Labelling.label_ofBlock here) siblings
  rw [honest.label_top built here] at top
  cases top
  exact climbed

/-- Where no leaf is alone, a transaction that is not among the leaves is reported, and one that is
climbs from the first of them. -/
private theorem root_cases (levels : path.levels ≠ []) (several : ¬ path.IsLone) (txid : Hash32) :
    ((∀ leaf, Stores path.levels 0 leaf → leaf.hash ≠ some txid) ∧
        path.root (some txid) = .error (.notInPath txid)) ∨
      ∃ leaf, Stores path.levels 0 leaf ∧ leaf.hash = some txid ∧
        path.root (some txid) =
          climbTo path.levels leaf.offset txid path.levels.length := by
  obtain ⟨leaves, above, stored⟩ := List.exists_cons_of_ne_nil levels
  simp only [root_of_several several stored, stored, stores_cons_zero]
  cases found : leaves.find? fun element => element.hash == some txid with
  | none =>
      refine Or.inl ⟨fun leaf member hashed => ?_, rfl⟩
      exact List.find?_eq_none.mp found leaf member (by simpa using hashed)
  | some leaf =>
      exact Or.inr ⟨leaf, List.mem_of_find?_eq_some found, by simpa using List.find?_some found,
        rfl⟩

/-- A path with nothing but what a block's tree has proves the block's root for every transaction
whose siblings are stored or can be made, and proves no other root for any. The tree has at most as
many levels as an offset has bits. -/
theorem root_of_honest (several : 2 ≤ txids.length) (distinct : txids.Nodup)
    (built : blockRoot txids = some root) (honest : path.HonestFor txids)
    (narrow : path.levels.length ≤ 64) (txid : Hash32) :
    (path.root (some txid) = .ok root ∨ path.root (some txid) = .error (.notInPath txid) ∨
        ∃ offset height, path.root (some txid) = .error (.missingHash offset height)) ∧
      (path.root (some txid) = .ok root ↔
        ∃ index leaf, txids[index]? = some txid ∧ Stores path.levels 0 leaf ∧
          leaf.offset.toNat = index ∧ leaf.hash = some txid ∧
            ∀ height < path.levels.length,
              Available path.levels height (siblingOffset (index >>> height))) := by
  have levels : path.levels ≠ [] := by
    rw [← List.length_pos_iff, honest.height, blockLevels, dif_pos several]
    exact Nat.succ_pos _
  rcases root_cases levels honest.several txid with
    ⟨absent, reported⟩ | ⟨leaf, stores, hashed, same⟩
  · rw [reported]
    refine ⟨Or.inr (Or.inl rfl), iff_of_false (fun proved => nomatch proved) ?_⟩
    rintro ⟨index, leaf, -, stores, -, hashed, -⟩
    exact absent leaf stores hashed
  · have here := honest.leaf stores hashed
    have places : ∀ height < path.levels.length,
        ancestorOffset leaf.offset height = leaf.offset.toNat >>> height := fun height below =>
      ancestorOffset_of_lt leaf.offset (Nat.lt_of_lt_of_le below narrow)
    rw [same]
    constructor
    · cases climbed : climbTo path.levels leaf.offset txid path.levels.length with
      | ok reached =>
          have top := honest.climbs built narrow here (available_of_climbTo climbed)
          exact Or.inl (climbed.symm.trans top)
      | error failure =>
          obtain ⟨height, -, rfl⟩ := climbTo_eq_error climbed
          exact Or.inr (Or.inr ⟨_, height, rfl⟩)
    · constructor
      · intro climbed
        refine ⟨_, leaf, here, stores, rfl, hashed, fun height below => ?_⟩
        rw [← places height below]
        exact available_of_climbTo climbed height below
      · rintro ⟨index, -, there, -, -, -, siblings⟩
        -- Transactions do not repeat, so the leaf that is found is the one that is meant.
        obtain ⟨inside, found⟩ := List.getElem?_eq_some_iff.mp there
        obtain ⟨inside', found'⟩ := List.getElem?_eq_some_iff.mp here
        obtain rfl : index = leaf.offset.toNat :=
          (List.Nodup.getElem_inj_iff distinct).mp (found.trans found'.symm)
        refine honest.climbs built narrow here fun height below => ?_
        rw [places height below]
        exact siblings height below

end Path

/-- A block of three transactions, of which the last pairs with itself. -/
def tripleTxids : List Hash32 :=
  [uniformHash 1, uniformHash 2, uniformHash 3]

private theorem length_blockLevels_tripleTxids : (blockLevels tripleTxids).length = 2 := by
  simp [tripleTxids, blockLevels, parents, pairs]

private theorem blockRoot_tripleTxids : blockRoot tripleTxids = some tripleRoot := by
  simp [blockRoot, tripleTxids, tripleRoot, parents, pairs]

private theorem honest_tripleLeaves : tripleLeaves.HonestFor tripleTxids where
  height := length_blockLevels_tripleTxids.symm
  several := by
    rintro ⟨element, lone⟩
    cases lone
  stored := by
    rintro height nodes element here ⟨level, there, member⟩
    match height with
    | 0 =>
        obtain rfl : tripleTxids = nodes := nodesAt_of_blockLevels here
        cases there
        simp only [List.mem_cons, List.not_mem_nil, or_false] at member
        rcases member with rfl | rfl | rfl | rfl
        · exact .node rfl rfl rfl
        · exact .node rfl rfl rfl
        · exact .node rfl rfl rfl
        · exact .marker rfl rfl rfl rfl
    | 1 =>
        cases there
        cases member

/-- The last transaction climbs beside the marker, and beside a node that is made. -/
theorem root_of_honest_tripleLeaves : tripleLeaves.HonestFor tripleTxids ∧
    tripleLeaves.root (some (uniformHash 3)) = .ok tripleRoot := by
  have proves := Path.root_of_honest (by decide) (by decide) blockRoot_tripleTxids
    honest_tripleLeaves (by decide) (uniformHash 3)
  have covers : ∀ offset < 4, Covers tripleLeaves.levels 0 offset := by
    intro offset below
    match offset with
    | 0 => exact ⟨Element.leaf 0 (uniformHash 1), ⟨_, rfl, by simp⟩, rfl⟩
    | 1 => exact ⟨Element.leaf 1 (uniformHash 2), ⟨_, rfl, by simp⟩, rfl⟩
    | 2 => exact ⟨Element.leaf 2 (uniformHash 3), ⟨_, rfl, by simp⟩, rfl⟩
    | 3 => exact ⟨⟨3, none, none, some true⟩, ⟨_, rfl, by simp⟩, rfl⟩
  refine ⟨honest_tripleLeaves, proves.2.mpr ⟨2, Element.leaf 2 (uniformHash 3), rfl,
    ⟨_, rfl, by simp⟩, rfl, rfl, fun height below => ?_⟩⟩
  match height with
  | 0 => exact .stored (covers 3 (by decide))
  | 1 => exact .made (.stored (covers 0 (by decide))) (.stored (covers 1 (by decide)))

end BitcoinSpend.Merkle
