import BitcoinSpend.Proofs.Merkle.CombinedLevels

/-!
# Combined paths prove what either path proves

Two paths that store nodes of one tree are combined into a path from which every
transaction climbs to the root that it reached before. Paths that meet at the root
need not be of one tree: a node that no climb takes decides which nodes are dropped.
-/

set_option autoImplicit false

namespace BitcoinSpend.Merkle

namespace Path

variable {path : Path} {txid root : Hash32}

/-- The path of a block with one transaction. -/
def IsLone (path : Path) : Prop :=
  ∃ element, path.levels = [[element]]

/-- The transaction is stored nowhere else among the leaves. -/
def LeafOnlyAt (path : Path) (txid : Hash32) (place : UInt64) : Prop :=
  ∀ {element : Element}, Stores path.levels 0 element → element.hash = some txid →
    element.offset = place

private theorem leafOnlyAt_of_leaves {leaves : Level} {above : List Level} {place : UInt64}
    (stored : path.levels = leaves :: above)
    (only : ∀ element ∈ leaves, element.hash = some txid → element.offset = place) :
    path.LeafOnlyAt txid place := by
  intro element stores
  rw [stored, stores_cons_zero] at stores
  exact only element stores

private theorem root_of_lone {element : Element} (lone : path.levels = [[element]]) :
    path.root (some txid) = .ok root ↔ element.hash = some txid ∧ txid = root := by
  simp only [Path.root, Path.rootFrom, lone, List.find?_cons, List.find?_nil]
  cases same : element.hash == some txid with
  | true =>
      have hashed : element.hash = some txid := by simpa using same
      simp [hashed]
  | false =>
      have hashed : element.hash ≠ some txid := by simpa using same
      simp [hashed]

private theorem first_root_of_lone {element : Element} (lone : path.levels = [[element]]) :
    path.root none = .ok root ↔ element.hash = some root := by
  cases hashed : element.hash with
  | none => simp [Path.root, lone, hashed]
  | some hash => simp [Path.root, Path.rootFrom, lone, hashed]

/-- Where no leaf is alone, a transaction climbs through all levels. -/
theorem root_of_several {leaves : Level} {above : List Level} (several : ¬ path.IsLone)
    (stored : path.levels = leaves :: above) : path.root (some txid) =
      match leaves.find? fun element => element.hash == some txid with
      | none => .error (.notInPath txid)
      | some leaf => climbTo path.levels leaf.offset txid path.levels.length := by
  have climbs : ¬ ((leaves :: above).length = 1 ∧ leaves.length = 1) := by
    rintro ⟨single, alone⟩
    obtain ⟨element, rfl⟩ := List.length_eq_one_iff.mp alone
    obtain rfl : above = [] := by simpa using single
    exact several ⟨element, stored⟩
  simp only [Path.root, Path.rootFrom, stored, if_neg climbs]
  rfl

theorem root_eq_ok_iff (several : ¬ path.IsLone) : path.root (some txid) = .ok root ↔
    ∃ leaves above leaf, path.levels = leaves :: above ∧
      (leaves.find? fun element => element.hash == some txid) = some leaf ∧
      climbTo path.levels leaf.offset txid path.levels.length = .ok root := by
  cases stored : path.levels with
  | nil => simp [Path.root, stored]
  | cons leaves above =>
      rw [root_of_several several stored, stored]
      constructor
      · intro proved
        split at proved
        · cases proved
        · next leaf found => exact ⟨leaves, above, leaf, rfl, found, proved⟩
      · rintro ⟨_, _, leaf, same, found, climbed⟩
        cases same
        rw [found]
        exact climbed

/-- A transaction that is stored at one place climbs from there. -/
theorem root_eq_ok_iff_of_only {place : UInt64} (only : path.LeafOnlyAt txid place)
    (several : ¬ path.IsLone) : path.root (some txid) = .ok root ↔
      (∃ leaf, Stores path.levels 0 leaf ∧ leaf.hash = some txid) ∧
        climbTo path.levels place txid path.levels.length = .ok root := by
  rw [root_eq_ok_iff several]
  constructor
  · rintro ⟨leaves, above, leaf, stored, found, climbed⟩
    have hashed : leaf.hash = some txid := by simpa using List.find?_some found
    have stores : Stores path.levels 0 leaf :=
      ⟨leaves, by rw [stored]; rfl, List.mem_of_find?_eq_some found⟩
    exact ⟨⟨leaf, stores, hashed⟩, only stores hashed ▸ climbed⟩
  · rintro ⟨⟨leaf, ⟨leaves, here, member⟩, hashed⟩, climbed⟩
    obtain ⟨above, stored⟩ := List.head?_eq_some_iff.mp (List.head?_eq_getElem?.trans here)
    have present : (leaves.find? fun element => element.hash == some txid).isSome := by
      rw [List.find?_isSome]
      exact ⟨leaf, member, by simpa using hashed⟩
    obtain ⟨first, isFirst⟩ := Option.isSome_iff_exists.mp present
    have firstHashed : first.hash = some txid := by simpa using List.find?_some isFirst
    have place' : first.offset = place :=
      only ⟨leaves, here, List.mem_of_find?_eq_some isFirst⟩ firstHashed
    exact ⟨leaves, above, first, stored, isFirst, place'.symm ▸ climbed⟩

private theorem not_isLone {offset : Nat} (node : Covers path.levels 0 offset)
    (sibling : Covers path.levels 0 (siblingOffset offset)) : ¬ path.IsLone := by
  rintro ⟨alone, lone⟩
  obtain ⟨element, stores, placed⟩ := node
  obtain ⟨other, otherStores, otherPlaced⟩ := sibling
  rw [lone, stores_cons_zero, List.mem_singleton] at stores otherStores
  rw [stores] at placed
  rw [otherStores, placed] at otherPlaced
  exact siblingOffset_ne offset otherPlaced.symm

end Path

/-- An element at the place of a transaction that is stored only there holds its hash: it does not
stand for its left sibling, which would be the same transaction again. -/
private theorem hash_of_only {tree : Labelling} {source : Path} {txid : Hash32} {place : UInt64}
    {element : Element} (holds : tree.Holds source.levels) (only : source.LeafOnlyAt txid place)
    (fits : tree.Fits 0 place.toNat element) (labelled : tree.label 0 place.toNat = some txid)
    (sibling : Covers source.levels 0 (siblingOffset place.toNat)) : element.hash = some txid := by
  cases duplicate : element.isDuplicate with
  | false =>
      obtain ⟨hash, hashed⟩ := fits.present duplicate
      exact hashed.trans ((fits.hash hashed).symm.trans labelled)
  | true =>
      obtain ⟨odd, same⟩ := fits.twin duplicate
      obtain ⟨half, isOdd⟩ : ∃ half, place.toNat = 2 * half + 1 := ⟨place.toNat / 2, by omega⟩
      rw [isOdd, siblingOffset_of_odd] at sibling
      obtain ⟨other, stores, placed⟩ := sibling
      have otherFits := holds stores
      rw [placed] at otherFits
      obtain ⟨hash, hashed⟩ := otherFits.hash_of_even
      have again : other.hash = some txid := by
        rw [isOdd, Nat.add_sub_cancel, otherFits.hash hashed] at same
        rw [isOdd] at labelled
        exact hashed.trans (same.symm.trans labelled)
      have here := only stores again
      rw [here] at placed
      omega

/-- Where one of two paths of a tree has all the nodes of the other, it proves as much. The tree is
no higher than the width of an offset. -/
private theorem root_of_available {tree : Labelling} {source target : Path} {txid root : Hash32}
    {place : UInt64} (holds : tree.Holds source.levels) (holds' : tree.Holds target.levels)
    (narrow : source.levels.length ≤ 64) (length : source.levels.length = target.levels.length)
    (available : ∀ {height offset : Nat}, Available source.levels height offset →
      Available target.levels height offset)
    (only : source.LeafOnlyAt txid place) (only' : target.LeafOnlyAt txid place)
    (several : ¬ source.IsLone) (proved : source.root (some txid) = .ok root) :
    target.root (some txid) = .ok root := by
  obtain ⟨⟨leaf, stores, hashed⟩, climbed⟩ :=
    (Path.root_eq_ok_iff_of_only only several).mp proved
  have here : leaf.offset.toNat = place.toNat := congrArg UInt64.toNat (only stores hashed)
  have labelled : tree.label 0 place.toNat = some txid := here ▸ (holds stores).hash hashed
  have bottom : 0 < source.levels.length := by
    obtain ⟨leaves, first, -⟩ := stores
    exact List.length_pos_of_mem (List.mem_of_getElem? first)
  -- The climb through the source tells which siblings there are, and the tree what they give.
  have siblings := available_of_climbTo climbed
  have lowest : ancestorOffset place 0 = place.toNat := ancestorOffset_of_lt place (by decide)
  have sibling : Covers source.levels 0 (siblingOffset place.toNat) :=
    lowest ▸ (siblings 0 bottom).covers_leaf
  have node' := (available (.stored ⟨leaf, stores, here⟩)).covers_leaf
  have several' := Path.not_isLone node' (available (.stored sibling)).covers_leaf
  obtain ⟨element, stores', placed⟩ := node'
  have hashed' := hash_of_only holds only (placed ▸ holds' stores') labelled sibling
  refine (Path.root_eq_ok_iff_of_only only' several').mpr ⟨⟨element, stores', hashed'⟩, ?_⟩
  rw [← length]
  obtain ⟨root', climbed', top'⟩ := exists_climbTo_of_available narrow holds' labelled
    fun height below => available (siblings height below)
  obtain ⟨again, climbedAgain, top⟩ := exists_climbTo_of_available narrow holds labelled siblings
  rw [climbed] at climbedAgain
  cases climbedAgain
  rw [top] at top'
  cases top'
  exact climbed'

/-! ## Combining -/

/-- Two paths store nodes of one tree, up to one height. -/
structure SameTree (tree : Labelling) (left right : Path) : Prop where
  holdsLeft : tree.Holds left.levels
  holdsRight : tree.Holds right.levels
  length : left.levels.length = right.levels.length
  lone : left.IsLone ↔ right.IsLone

variable {tree : Labelling} {left right combined : Path} {txid root : Hash32} {place : UInt64}

theorem combine_eq_ok_iff : left.combine right = .ok combined ↔
    left.blockHeight = right.blockHeight ∧
      (∃ common, left.root none = .ok common ∧ right.root none = .ok common) ∧
      ∃ levels, trimLevels (mergeLevels left.levels right.levels) = .ok levels ∧
        combined = ⟨left.blockHeight, levels⟩ := by
  simp only [Path.combine]
  constructor
  · intro combines
    split at combines
    · cases combines
    · next heights =>
        rw [bind_eq_ok_iff] at combines
        obtain ⟨leftRoot, leftClimbed, combines⟩ := combines
        rw [bind_eq_ok_iff] at combines
        obtain ⟨rightRoot, rightClimbed, combines⟩ := combines
        split at combines
        · cases combines
        · next same =>
            rw [bind_eq_ok_iff] at combines
            obtain ⟨levels, trimmed, whole⟩ := combines
            cases whole
            obtain rfl := not_not.mp same
            exact ⟨not_not.mp heights, ⟨leftRoot, leftClimbed, rightClimbed⟩, levels, trimmed, rfl⟩
  · rintro ⟨heights, ⟨common, leftClimbed, rightClimbed⟩, levels, trimmed, rfl⟩
    rw [if_neg (not_not.mpr heights), leftClimbed, rightClimbed, trimmed]
    exact if_neg (not_not.mpr rfl)

/-- Both paths are of a block with one transaction: the leaf of the second takes the first's
place. -/
private theorem root_combine_of_lone {first second : Element}
    (combines : left.combine right = .ok combined)
    (loneLeft : left.levels = [[first]]) (loneRight : right.levels = [[second]])
    (onlyLeft : left.LeafOnlyAt txid place) (onlyRight : right.LeafOnlyAt txid place)
    (proved : left.root (some txid) = .ok root ∨ right.root (some txid) = .ok root) :
    combined.root (some txid) = .ok root := by
  obtain ⟨-, ⟨common, leftRoot, rightRoot⟩, levels, trimmed, rfl⟩ := combine_eq_ok_iff.mp combines
  have hashed := (Path.first_root_of_lone loneLeft).mp leftRoot
  have hashed' := (Path.first_root_of_lone loneRight).mp rightRoot
  have climbed : some common = some txid ∧ txid = root := by
    rw [Path.root_of_lone loneLeft, Path.root_of_lone loneRight, hashed, hashed'] at proved
    exact proved.elim id id
  have offset : first.offset = place := by
    refine onlyLeft ?_ (hashed.trans climbed.1)
    rw [loneLeft, stores_cons_zero, List.mem_singleton]
  have offset' : second.offset = place := by
    refine onlyRight ?_ (hashed'.trans climbed.1)
    rw [loneRight, stores_cons_zero, List.mem_singleton]
  have merged : mergeLevels left.levels right.levels = [[second]] := by
    simp [loneLeft, loneRight, mergeLevels, Level.merge, Level.place, offset, offset']
  rw [merged] at trimmed
  cases trimmed
  exact (Path.root_of_lone rfl).mpr ⟨hashed'.trans climbed.1, climbed.2⟩

/-- Every transaction keeps its proof where the two paths store nodes of one tree, which has at most
as many levels as an offset has bits. -/
theorem root_combine (shared : SameTree tree left right) (narrow : left.levels.length ≤ 64)
    (onlyLeft : left.LeafOnlyAt txid place) (onlyRight : right.LeafOnlyAt txid place)
    (combines : left.combine right = .ok combined)
    (proved : left.root (some txid) = .ok root ∨ right.root (some txid) = .ok root) :
    combined.root (some txid) = .ok root := by
  by_cases lone : left.IsLone
  · obtain ⟨first, loneLeft⟩ := lone
    obtain ⟨second, loneRight⟩ := shared.lone.mp ⟨first, loneLeft⟩
    exact root_combine_of_lone combines loneLeft loneRight onlyLeft onlyRight proved
  · obtain ⟨-, -, levels, trimmed, rfl⟩ := combine_eq_ok_iff.mp combines
    have trims := trims_of_trimLevels trimmed
    have stores : ∀ {height : Nat} {element : Element}, Stores levels height element →
        Stores left.levels height element ∨ Stores right.levels height element :=
      fun kept => stores_of_stores_mergeLevels (trims.stores kept)
    have holds : tree.Holds levels := fun kept =>
      (stores kept).elim shared.holdsLeft shared.holdsRight
    have only : Path.LeafOnlyAt ⟨left.blockHeight, levels⟩ txid place := fun kept hashed =>
      (stores kept).elim (onlyLeft · hashed) (onlyRight · hashed)
    have length : left.levels.length = levels.length :=
      (length_mergeLevels shared.length).symm.trans trims.length.symm
    have available : ∀ {height offset : Nat},
        Covers left.levels height offset ∨ Covers right.levels height offset →
          Available levels height offset :=
      fun covered => trims.available (covers_mergeLevels covered)
    rcases proved with proved | proved
    · exact root_of_available shared.holdsLeft holds narrow length
        (.mono fun covered => available (Or.inl covered)) onlyLeft only lone proved
    · exact root_of_available shared.holdsRight holds (shared.length ▸ narrow)
        (shared.length.symm.trans length) (.mono fun covered => available (Or.inr covered))
        onlyRight only (mt shared.lone.mpr lone) proved

/-- A hash of one repeated byte. -/
def uniformHash (byte : UInt8) : Hash32 :=
  ⟨List.replicate 32 byte, List.length_replicate⟩

/-- The path from the first two transactions of a block of three. -/
def firstTwoPath : Path :=
  ⟨7, [[Element.leaf 0 (uniformHash 1), Element.leaf 1 (uniformHash 2)],
    [Element.leaf 1 (parent (uniformHash 3) (uniformHash 3))]]⟩

/-- The path from the last transaction of that block, which pairs with itself. -/
def lastPath : Path :=
  ⟨7, [[Element.leaf 2 (uniformHash 3), ⟨3, none, none, some true⟩],
    [Element.leaf 0 (parent (uniformHash 1) (uniformHash 2))]]⟩

private theorem sameTree_firstTwo_last : SameTree
    (.ofBlock [uniformHash 1, uniformHash 2, uniformHash 3]) firstTwoPath lastPath where
  holdsLeft := by
    rintro height element ⟨level, here, member⟩
    match height with
    | 0 =>
        cases here
        simp only [List.mem_cons, List.not_mem_nil, or_false] at member
        rcases member with rfl | rfl
        · exact Labelling.fits_leaf _ rfl
        · exact Labelling.fits_leaf _ rfl
    | 1 =>
        cases here
        obtain rfl := List.mem_singleton.mp member
        exact Labelling.fits_leaf _ rfl
  holdsRight := by
    rintro height element ⟨level, here, member⟩
    match height with
    | 0 =>
        cases here
        simp only [List.mem_cons, List.not_mem_nil, or_false] at member
        rcases member with rfl | rfl
        · exact Labelling.fits_leaf _ rfl
        · exact ⟨nofun, nofun, fun _ => ⟨rfl, rfl⟩⟩
    | 1 =>
        cases here
        obtain rfl := List.mem_singleton.mp member
        exact Labelling.fits_leaf _ rfl
  length := rfl
  lone := by simp [Path.IsLone, firstTwoPath, lastPath]

/-- Both paths in one: the nodes above the leaves are made from them. -/
def tripleLeaves : Path :=
  ⟨7, [[Element.leaf 0 (uniformHash 1), Element.leaf 1 (uniformHash 2),
    Element.leaf 2 (uniformHash 3), ⟨3, none, none, some true⟩], []]⟩

def tripleRoot : Hash32 :=
  parent (parent (uniformHash 1) (uniformHash 2)) (parent (uniformHash 3) (uniformHash 3))

theorem root_combine_firstTwo_last : firstTwoPath.combine lastPath = .ok tripleLeaves ∧
    firstTwoPath.root (some (uniformHash 1)) = .ok tripleRoot ∧
      tripleLeaves.root (some (uniformHash 1)) = .ok tripleRoot := by
  have leftRoot : firstTwoPath.root none = .ok tripleRoot := rfl
  have rightRoot : lastPath.root none = .ok tripleRoot := rfl
  have trimmed : trimLevels (mergeLevels firstTwoPath.levels lastPath.levels) =
      .ok tripleLeaves.levels := rfl
  have combines : firstTwoPath.combine lastPath = .ok tripleLeaves :=
    combine_eq_ok_iff.mpr ⟨rfl, ⟨tripleRoot, leftRoot, rightRoot⟩, _, trimmed, rfl⟩
  have onlyLeft : firstTwoPath.LeafOnlyAt (uniformHash 1) 0 :=
    Path.leafOnlyAt_of_leaves rfl (by decide)
  have onlyRight : lastPath.LeafOnlyAt (uniformHash 1) 0 :=
    Path.leafOnlyAt_of_leaves rfl (by decide)
  have proved : firstTwoPath.root (some (uniformHash 1)) = .ok tripleRoot := rfl
  exact ⟨combines, proved,
    root_combine sameTree_firstTwo_last (by decide) onlyLeft onlyRight combines (Or.inl proved)⟩

/-- The path from the first of two transactions beside a node that is only given. -/
def plainPath : Path :=
  ⟨7, [[Element.leaf 0 (uniformHash 1), Element.leaf 1 (uniformHash 2)],
    [Element.leaf 1 (uniformHash 9)]]⟩

/-- The same path with two leaves below the node that is given, which are not its children. -/
def strayPath : Path :=
  ⟨7, [[Element.leaf 0 (uniformHash 1), Element.leaf 1 (uniformHash 2),
      Element.leaf 2 (uniformHash 3), Element.leaf 3 (uniformHash 4)],
    [Element.leaf 1 (uniformHash 9)]]⟩

def plainRoot : Hash32 :=
  parent (parent (uniformHash 1) (uniformHash 2)) (uniformHash 9)

/-- What is left of both paths: the node that was given is dropped. -/
def strayLeaves : Path :=
  ⟨7, [[Element.leaf 0 (uniformHash 1), Element.leaf 1 (uniformHash 2),
    Element.leaf 2 (uniformHash 3), Element.leaf 3 (uniformHash 4)], []]⟩

def strayRoot : Hash32 :=
  parent (parent (uniformHash 1) (uniformHash 2)) (parent (uniformHash 3) (uniformHash 4))

/-- The node that is dropped is not what its children make. -/
theorem combine_loses_root : ¬ ∀ (left right combined : Path) (root txid : Hash32),
    left.combine right = .ok combined → left.root none = .ok root → right.root none = .ok root →
    left.root (some txid) = .ok root ∨ right.root (some txid) = .ok root →
    combined.root (some txid) = .ok root := by
  intro preserves
  have leftRoot : plainPath.root none = .ok plainRoot := rfl
  have rightRoot : strayPath.root none = .ok plainRoot := rfl
  have trimmed : trimLevels (mergeLevels plainPath.levels strayPath.levels) =
      .ok strayLeaves.levels := rfl
  have combines : plainPath.combine strayPath = .ok strayLeaves :=
    combine_eq_ok_iff.mpr ⟨rfl, ⟨plainRoot, leftRoot, rightRoot⟩, _, trimmed, rfl⟩
  have proved : plainPath.root (some (uniformHash 1)) = .ok plainRoot := rfl
  have kept := preserves plainPath strayPath strayLeaves plainRoot (uniformHash 1) combines leftRoot
    rightRoot (Or.inl proved)
  have made : strayLeaves.root (some (uniformHash 1)) = .ok strayRoot := rfl
  have changed : strayRoot ≠ plainRoot := by decide +kernel
  exact changed (Except.ok.inj (made.symm.trans kept))

end BitcoinSpend.Merkle
