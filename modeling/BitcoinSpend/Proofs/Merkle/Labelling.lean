import Mathlib.Data.Nat.Bitwise
import BitcoinSpend.Proofs.ExceptProperties
import BitcoinSpend.Proofs.Merkle.BlockTree
import BitcoinSpend.Merkle.Path.Root

/-!
# Levels that store nodes of one tree

Where what is stored is what a tree has at the same places, every node that can be
made is the tree's as well, and which nodes can be made depends only on the places
that are stored. A path with all the nodes of another then proves what that one
proves.
-/

set_option autoImplicit false

namespace BitcoinSpend.Merkle

/-! ## Trees -/

/-- The hashes of a tree by height and offset. Not every place has one, but a place whose two
children have one has their parent. -/
structure Labelling where
  label : (height offset : Nat) → Option Hash32
  label_parent : ∀ {height offset : Nat} {left right : Hash32},
    label height (2 * offset) = some left → label height (2 * offset + 1) = some right →
      label (height + 1) offset = some (parent left right)

/-- What an element at a place may be: the tree's hash there, or a duplicate that stands for its
left sibling. -/
structure Labelling.Fits (tree : Labelling) (height offset : Nat) (element : Element) : Prop where
  hash : ∀ {hash : Hash32}, element.hash = some hash → tree.label height offset = some hash
  present : element.isDuplicate = false → ∃ hash, element.hash = some hash
  twin : element.isDuplicate = true →
    offset % 2 = 1 ∧ tree.label height offset = tree.label height (offset - 1)

theorem getElem?_pairs {nodes : List Hash32} {offset : Nat} {node : Hash32}
    (here : nodes[offset]? = some node) : ((pairs nodes)[offset / 2]?).map
      (fun pair => if offset % 2 = 1 then pair.2 else pair.1) = some node := by
  induction nodes using pairs.induct generalizing offset with
  | case1 => cases here
  | case2 last =>
      cases offset with
      | zero => exact here
      | succ offset => cases here
  | case3 left right rest ih =>
      rcases offset with _ | _ | offset
      · exact here
      · exact here
      · have half : (offset + 1 + 1) / 2 = offset / 2 + 1 := by omega
        have side : (offset + 1 + 1) % 2 = offset % 2 := by omega
        rw [half, side, pairs, List.getElem?_cons_succ]
        exact ih (by simpa using here)

/-- The nodes at a height above some leaves. -/
def nodesAt (leaves : List Hash32) : (height : Nat) → List Hash32
  | 0 => leaves
  | height + 1 => parents (nodesAt leaves height)

/-- The tree of a block. The last node of an odd level is also its own right sibling. -/
def Labelling.ofBlock (leaves : List Hash32) : Labelling where
  label height offset := ((pairs (nodesAt leaves height))[offset / 2]?).map fun pair =>
    if offset % 2 = 1 then pair.2 else pair.1
  label_parent := by
    intro height offset left right leftLabel rightLabel
    have even : 2 * offset % 2 ≠ 1 := by omega
    have odd : (2 * offset + 1) % 2 = 1 := by omega
    have half : 2 * offset / 2 = offset := by omega
    have half' : (2 * offset + 1) / 2 = offset := by omega
    simp only [half, half', if_neg even, if_pos odd, Option.map_eq_some_iff] at leftLabel rightLabel
    obtain ⟨pair, here, rfl⟩ := leftLabel
    obtain ⟨pair', here', rfl⟩ := rightLabel
    obtain rfl : pair = pair' := Option.some.inj (here.symm.trans here')
    refine getElem?_pairs ?_
    rw [nodesAt, parents, List.getElem?_map, here, Option.map_some]

/-- An element is among those of a level. -/
def Stores (levels : List Level) (height : Nat) (element : Element) : Prop :=
  ∃ level, levels[height]? = some level ∧ element ∈ level

/-- Some element is stored at a place. -/
def Covers (levels : List Level) (height offset : Nat) : Prop :=
  ∃ element, Stores levels height element ∧ element.offset.toNat = offset

def Labelling.Holds (tree : Labelling) (levels : List Level) : Prop :=
  ∀ {height : Nat} {element : Element}, Stores levels height element →
    tree.Fits height element.offset.toNat element

/-- A place where a node is stored, or can be made from what is stored below. -/
inductive Available (levels : List Level) : (height offset : Nat) → Prop where
  | stored {height offset : Nat} (covered : Covers levels height offset) :
      Available levels height offset
  | made {height offset : Nat} (left : Available levels height (2 * offset))
      (right : Available levels height (2 * offset + 1)) : Available levels (height + 1) offset

theorem Labelling.fits_leaf {tree : Labelling} {height offset : Nat} {hash : Hash32}
    (place : UInt64) (labelled : tree.label height offset = some hash) :
    tree.Fits height offset (Element.leaf place hash) where
  hash same := Option.some.inj same ▸ labelled
  present _ := ⟨hash, rfl⟩
  twin duplicate := nomatch duplicate

theorem Labelling.Fits.hash_of_even {tree : Labelling} {height offset : Nat} {element : Element}
    (fits : tree.Fits height (2 * offset) element) : ∃ hash, element.hash = some hash := by
  refine fits.present (Bool.eq_false_iff.mpr fun duplicate => ?_)
  obtain ⟨odd, -⟩ := fits.twin duplicate
  omega

theorem Available.mono {source target : List Level} {height offset : Nat}
    (covers : ∀ {height offset : Nat}, Covers source height offset → Available target height offset)
    (available : Available source height offset) : Available target height offset := by
  induction available with
  | stored covered => exact covers covered
  | made _ _ leftIH rightIH => exact .made leftIH rightIH

/-! ## What is stored -/

section Levels

variable {levels : List Level} {height offset : Nat} {element : Element}

theorem Level.last?_eq_some {level : Level} (found : level.last? offset = some element) :
    element ∈ level ∧ element.offset.toNat = offset := by
  refine ⟨List.mem_reverse.mp (List.mem_of_find?_eq_some found), ?_⟩
  simpa using List.find?_some found

theorem stores_of_stored (found : stored? levels height offset = some element) :
    Stores levels height element ∧ element.offset.toNat = offset := by
  obtain ⟨level, here, last⟩ := Option.bind_eq_some_iff.mp found
  obtain ⟨member, placed⟩ := Level.last?_eq_some last
  exact ⟨⟨level, here, member⟩, placed⟩

theorem exists_stored_of_covers (covered : Covers levels height offset) :
    ∃ element, stored? levels height offset = some element := by
  obtain ⟨element, ⟨level, here, member⟩, placed⟩ := covered
  have found : (level.last? offset).isSome := by
    rw [Level.last?, List.find?_isSome]
    exact ⟨element, List.mem_reverse.mpr member, by simpa using placed⟩
  obtain ⟨last, isLast⟩ := Option.isSome_iff_exists.mp found
  exact ⟨last, Option.bind_eq_some_iff.mpr ⟨level, here, isLast⟩⟩

theorem node?_of_stored (found : stored? levels height offset = some element) :
    node? levels height offset = some element := by
  cases height with
  | zero => exact found
  | succ height => simp only [node?, found]

private theorem available_of_node (found : node? levels height offset = some element) :
    Available levels height offset := by
  induction height generalizing offset element with
  | zero =>
      obtain ⟨stores, placed⟩ := stores_of_stored found
      exact .stored ⟨element, stores, placed⟩
  | succ height ih =>
      cases known : stored? levels (height + 1) offset with
      | some stored =>
          obtain ⟨stores, placed⟩ := stores_of_stored known
          exact .stored ⟨stored, stores, placed⟩
      | none =>
          simp only [node?, known, bind, Option.bind_eq_some_iff] at found
          obtain ⟨left, leftFound, right, rightFound, -⟩ := found
          exact .made (ih leftFound) (ih rightFound)

theorem Available.covers_leaf (available : Available levels 0 offset) :
    Covers levels 0 offset := by
  cases available with
  | stored covered => exact covered

end Levels

/-! ## What is made -/

variable {tree : Labelling} {levels : List Level} {height offset : Nat}

private theorem Labelling.Fits.parentOf {left : Hash32} {right : Element}
    (fits : tree.Fits height (2 * offset + 1) right)
    (labelled : tree.label height (2 * offset) = some left) :
    ∃ hash, parentOf? left right = some hash ∧ tree.label (height + 1) offset = some hash := by
  cases duplicate : right.isDuplicate with
  | true =>
      obtain ⟨-, same⟩ := fits.twin duplicate
      exact ⟨parent left left, by simp only [parentOf?, duplicate, if_true],
        tree.label_parent labelled (same.trans labelled)⟩
  | false =>
      obtain ⟨hash, hashed⟩ := fits.present duplicate
      refine ⟨parent left hash, ?_, tree.label_parent labelled (fits.hash hashed)⟩
      simp only [parentOf?, duplicate, Bool.false_eq_true, if_false, hashed, Option.map_some]

private theorem Labelling.exists_node_of_available (holds : tree.Holds levels)
    (available : Available levels height offset) :
    ∃ element, node? levels height offset = some element ∧ tree.Fits height offset element := by
  have fits_stored : ∀ {height offset : Nat} {element : Element},
      stored? levels height offset = some element → tree.Fits height offset element := by
    intro height offset element found
    obtain ⟨stores, rfl⟩ := stores_of_stored found
    exact holds stores
  induction available with
  | stored covered =>
      obtain ⟨element, found⟩ := exists_stored_of_covers covered
      exact ⟨element, node?_of_stored found, fits_stored found⟩
  | @made height offset _ _ leftIH rightIH =>
      cases known : stored? levels (height + 1) offset with
      | some element => exact ⟨element, node?_of_stored known, fits_stored known⟩
      | none =>
          obtain ⟨left, leftFound, leftFits⟩ := leftIH
          obtain ⟨right, rightFound, rightFits⟩ := rightIH
          obtain ⟨leftHash, hashed⟩ := leftFits.hash_of_even
          obtain ⟨hash, joined, labelled⟩ := rightFits.parentOf (leftFits.hash hashed)
          refine ⟨Element.leaf (UInt64.ofNat offset) hash, ?_, fits_leaf _ labelled⟩
          simp only [node?, known, bind, leftFound, rightFound, hashed, joined,
            Option.bind_some, pure]

/-! ## Climbing -/

private theorem siblingOffset_of_even (offset : Nat) :
    siblingOffset (2 * offset) = 2 * offset + 1 :=
  Nat.xor_one_of_even (even_two_mul offset)

theorem siblingOffset_of_odd (offset : Nat) : siblingOffset (2 * offset + 1) = 2 * offset :=
  Nat.xor_one_of_odd (odd_two_mul_add_one offset)

theorem siblingOffset_ne (offset : Nat) : siblingOffset offset ≠ offset := by
  rcases Nat.even_or_odd' offset with ⟨half, rfl | rfl⟩
  · rw [siblingOffset_of_even]
    omega
  · rw [siblingOffset_of_odd]
    omega

/-- The node at a place and the element at its sibling's give the node above both. -/
theorem Labelling.Fits.join {node : Hash32} {sibling : Element}
    (fits : tree.Fits height (siblingOffset offset) sibling)
    (labelled : tree.label height offset = some node) :
    ∃ hash, join? node sibling (siblingOffset offset) = some hash ∧
      tree.label (height + 1) (offset / 2) = some hash := by
  rcases Nat.even_or_odd' offset with ⟨half, rfl | rfl⟩
  · rw [siblingOffset_of_even] at fits ⊢
    have above : 2 * half / 2 = half := by omega
    rw [above]
    cases duplicate : sibling.isDuplicate with
    | true =>
        obtain ⟨-, same⟩ := fits.twin duplicate
        exact ⟨parent node node, by simp only [join?, duplicate, if_true],
          tree.label_parent labelled (same.trans labelled)⟩
    | false =>
        obtain ⟨hash, hashed⟩ := fits.present duplicate
        refine ⟨parent node hash, ?_, tree.label_parent labelled (fits.hash hashed)⟩
        have odd : (2 * half + 1) % 2 = 1 := by omega
        simp only [join?, duplicate, Bool.false_eq_true, if_false, hashed, Option.map_some, odd,
          if_true]
  · rw [siblingOffset_of_odd] at fits ⊢
    have above : (2 * half + 1) / 2 = half := by omega
    have even : ¬ 2 * half % 2 = 1 := by omega
    obtain ⟨hash, hashed⟩ := fits.hash_of_even
    have single : sibling.isDuplicate = false := by
      refine Bool.eq_false_iff.mpr fun duplicate => even (fits.twin duplicate).1
    rw [above]
    refine ⟨parent hash node, ?_, tree.label_parent (fits.hash hashed) labelled⟩
    simp only [join?, single, Bool.false_eq_true, if_false, hashed, Option.map_some, even]

private theorem available_of_climb {leafOffset : UInt64} {node hash : Hash32}
    (climbed : climb levels leafOffset node height = .ok hash) :
    Available levels height (siblingOffset (ancestorOffset leafOffset height)) := by
  simp only [climb] at climbed
  split at climbed
  · next found =>
      obtain ⟨sibling, here, -⟩ := Option.bind_eq_some_iff.mp found
      exact available_of_node here
  · cases climbed

/-- Below the width of a word the offset of the node is halved from level to level. -/
private theorem exists_climb_of_available {leafOffset : UInt64} {node : Hash32}
    (narrow : height < 64) (holds : tree.Holds levels)
    (labelled : tree.label height (leafOffset.toNat >>> height) = some node)
    (available : Available levels height (siblingOffset (ancestorOffset leafOffset height))) :
    ∃ hash, climb levels leafOffset node height = .ok hash ∧
      tree.label (height + 1) (leafOffset.toNat >>> (height + 1)) = some hash := by
  have place := ancestorOffset_of_lt leafOffset narrow
  rw [place] at available
  obtain ⟨sibling, found, fits⟩ := tree.exists_node_of_available holds available
  obtain ⟨hash, joined, above⟩ := fits.join labelled
  refine ⟨hash, ?_, ?_⟩
  · simp only [climb, place, found, Option.bind_some, joined]
  · rw [Nat.shiftRight_succ]
    exact above

/-- The climb through the lowest levels. -/
def climbTo (levels : List Level) (leafOffset : UInt64) (leaf : Hash32) (count : Nat) :
    Except Error Hash32 :=
  (List.range count).foldlM (climb levels leafOffset) leaf

theorem climbTo_succ (levels : List Level) (leafOffset : UInt64) (leaf : Hash32) (count : Nat) :
    climbTo levels leafOffset leaf (count + 1) =
      (do let node ← climbTo levels leafOffset leaf count; climb levels leafOffset node count) := by
  simp only [climbTo, List.range_succ, List.foldlM_append, List.foldlM_cons, List.foldlM_nil,
    bind_pure]

theorem available_of_climbTo {leafOffset : UInt64} {count : Nat} {leaf root : Hash32}
    (climbed : climbTo levels leafOffset leaf count = .ok root) :
    ∀ height < count,
      Available levels height (siblingOffset (ancestorOffset leafOffset height)) := by
  induction count generalizing root with
  | zero => exact fun _ below => absurd below (Nat.not_lt_zero _)
  | succ count ih =>
      rw [climbTo_succ] at climbed
      obtain ⟨node, lower, last⟩ := bind_eq_ok_iff.mp climbed
      intro height below
      rcases Nat.lt_succ_iff_lt_or_eq.mp below with before | rfl
      · exact ih lower height before
      · exact available_of_climb last

/-- A climb that fails names the sibling it lacks. -/
theorem climbTo_eq_error {leafOffset : UInt64} {count : Nat} {leaf : Hash32} {failure : Error}
    (failed : climbTo levels leafOffset leaf count = .error failure) :
    ∃ height < count,
      failure = .missingHash (siblingOffset (ancestorOffset leafOffset height)) height := by
  induction count with
  | zero => cases failed
  | succ count ih =>
      rw [climbTo_succ] at failed
      cases lower : climbTo levels leafOffset leaf count with
      | error cause =>
          rw [lower] at failed
          cases failed
          obtain ⟨height, below, missing⟩ := ih lower
          exact ⟨height, Nat.lt_succ_of_lt below, missing⟩
      | ok node =>
          simp only [lower, bind, Except.bind, climb] at failed
          split at failed
          · cases failed
          · cases failed
            exact ⟨count, Nat.lt_succ_self count, rfl⟩

theorem exists_climbTo_of_available {leafOffset : UInt64} {count : Nat} {leaf : Hash32}
    (narrow : count ≤ 64) (holds : tree.Holds levels)
    (labelled : tree.label 0 leafOffset.toNat = some leaf)
    (available : ∀ height < count,
      Available levels height (siblingOffset (ancestorOffset leafOffset height))) :
    ∃ root, climbTo levels leafOffset leaf count = .ok root ∧
      tree.label count (leafOffset.toNat >>> count) = some root := by
  induction count with
  | zero => exact ⟨leaf, rfl, labelled⟩
  | succ count ih =>
      obtain ⟨node, lower, nodeLabelled⟩ := ih (Nat.le_of_succ_le narrow) fun height below =>
        available height (Nat.lt_succ_of_lt below)
      obtain ⟨root, last, rootLabelled⟩ := exists_climb_of_available
        (Nat.lt_of_succ_le narrow) holds nodeLabelled (available count (Nat.lt_succ_self count))
      refine ⟨root, ?_, rootLabelled⟩
      rw [climbTo_succ]
      exact bind_eq_ok_iff.mpr ⟨node, lower, last⟩

end BitcoinSpend.Merkle
