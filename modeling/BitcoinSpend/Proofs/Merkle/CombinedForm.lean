import BitcoinSpend.Proofs.Merkle.CombinedMarks

/-!
# The form of a combined path

Two paths are combined or the first is left as it was. A combined path has at each
offset at most one element, the second path's where it has one, none whose children
are both stored, and whatever either path stores can be made from what is left.
Trimming looks at the levels as they are merged: the children that let a node be
dropped may be dropped in turn, since what lies below them stays.
-/

set_option autoImplicit false

namespace BitcoinSpend.Merkle

open MonadExcept (ofExcept)

variable {left right levels trimmed : List Level} {height offset : Nat} {element : Element}

/-! ## Merged levels -/

private theorem Level.ordered_merge (first second : Level) : (first.merge second).Ordered :=
  ordered_gather (first ++ second)

private theorem ordered_mergeLevels (left right : List Level) :
    ∀ level ∈ mergeLevels left right, Level.Ordered level := by
  have single : ∀ levels : List Level, ∀ level ∈ levels.map (Level.merge []),
      Level.Ordered level := by
    intro levels level member
    obtain ⟨source, -, rfl⟩ := List.mem_map.mp member
    exact Level.ordered_merge [] source
  induction left, right using mergeLevels.induct with
  | case1 right =>
      rw [mergeLevels]
      exact single right
  | case2 left nonempty =>
      rw [mergeLevels]
      · exact single left
      · exact nonempty
  | case3 first firsts second seconds ih =>
      rw [mergeLevels]
      exact List.forall_mem_cons.mpr ⟨Level.ordered_merge first second, ih⟩

/-! ## Trimmed levels -/

/-- Whether both children of a node of a level are stored in the level below. -/
def Level.coversChildren (below : Level) (element : Element) : Bool :=
  below.covers (2 * element.offset.toNat) && below.covers (2 * element.offset.toNat + 1)

/-- The elements of a level without those whose children are both stored below. -/
def Level.prune (below level : Level) : Level :=
  level.filter (!below.coversChildren ·)

def pruneAbove (below : Level) : List Level → List Level
  | [] => []
  | level :: levels => Level.prune below level :: pruneAbove level levels

/-- The levels that trimming leaves. -/
def pruneLevels : List Level → List Level
  | [] => []
  | leaves :: levels => leaves :: pruneAbove leaves levels

/-- The children of a node have offsets, too. -/
def Element.HasChildren (element : Element) : Prop :=
  2 * element.offset.toNat < UInt64.size

theorem Level.trim_eq_ok_iff {below level kept : Level} :
    Level.trim below level height = .ok kept ↔
      (∀ element ∈ level, element.HasChildren) ∧ kept = Level.prune below level := by
  simp only [Level.trim]
  split
  · next far found =>
      have beyond : UInt64.size ≤ 2 * far.offset.toNat := by simpa using List.find?_some found
      constructor
      · intro trims
        cases trims
      · rintro ⟨children, -⟩
        exact absurd (children far (List.mem_of_find?_eq_some found)) (Nat.not_lt.mpr beyond)
  · next none =>
      have children : ∀ element ∈ level, element.HasChildren := by
        intro element member
        exact Nat.not_le.mp (by simpa using List.find?_eq_none.mp none element member)
      rw [and_iff_right children, Except.ok.injEq, eq_comm]
      rfl

theorem trimAbove_eq_ok_iff {below : Level} : trimAbove below height levels = .ok trimmed ↔
    (∀ level ∈ levels, ∀ element ∈ level, element.HasChildren) ∧
      trimmed = pruneAbove below levels := by
  induction levels generalizing below height trimmed with
  | nil => simp [trimAbove, pruneAbove, eq_comm]
  | cons level levels ih =>
      simp only [trimAbove, bind_eq_ok_iff, Level.trim_eq_ok_iff, ih, List.forall_mem_cons,
        pruneAbove]
      constructor
      · rintro ⟨_, ⟨here, rfl⟩, _, ⟨above, rfl⟩, same⟩
        cases same
        exact ⟨⟨here, above⟩, rfl⟩
      · rintro ⟨⟨here, above⟩, rfl⟩
        exact ⟨_, ⟨here, rfl⟩, _, ⟨above, rfl⟩, rfl⟩

theorem trimLevels_eq_ok_iff : trimLevels levels = .ok trimmed ↔
    (∀ level ∈ levels.tail, ∀ element ∈ level, element.HasChildren) ∧
      trimmed = pruneLevels levels := by
  cases levels with
  | nil => simp [trimLevels, pruneLevels, eq_comm]
  | cons leaves levels =>
      simp only [trimLevels, bind_eq_ok_iff, trimAbove_eq_ok_iff, List.tail_cons, pruneLevels]
      constructor
      · rintro ⟨_, ⟨above, rfl⟩, same⟩
        cases same
        exact ⟨above, rfl⟩
      · rintro ⟨above, rfl⟩
        exact ⟨_, ⟨above, rfl⟩, rfl⟩

private theorem length_pruneAbove (below : Level) :
    (pruneAbove below levels).length = levels.length := by
  induction levels generalizing below with
  | nil => rfl
  | cons level levels ih => rw [pruneAbove, List.length_cons, List.length_cons, ih]

private theorem length_pruneLevels (levels : List Level) :
    (pruneLevels levels).length = levels.length := by
  cases levels with
  | nil => rfl
  | cons leaves levels => rw [pruneLevels, List.length_cons, List.length_cons, length_pruneAbove]

private theorem ordered_pruneAbove (below : Level)
    (ordered : ∀ level ∈ levels, Level.Ordered level) :
    ∀ level ∈ pruneAbove below levels, Level.Ordered level := by
  induction levels generalizing below with
  | nil => exact ordered
  | cons level levels ih =>
      obtain ⟨here, above⟩ := List.forall_mem_cons.mp ordered
      exact List.forall_mem_cons.mpr ⟨List.Pairwise.filter _ here, ih level above⟩

private theorem ordered_pruneLevels (ordered : ∀ level ∈ levels, Level.Ordered level) :
    ∀ level ∈ pruneLevels levels, Level.Ordered level := by
  cases levels with
  | nil => exact ordered
  | cons leaves levels =>
      obtain ⟨here, above⟩ := List.forall_mem_cons.mp ordered
      exact List.forall_mem_cons.mpr ⟨here, ordered_pruneAbove leaves above⟩

theorem covers_cons_zero_iff {level : Level} :
    Covers (level :: levels) 0 offset ↔ level.covers offset = true := by
  simp [Covers, Level.covers_eq_true_iff]

theorem covers_cons_succ_iff {level : Level} :
    Covers (level :: levels) (height + 1) offset ↔ Covers levels height offset := by
  simp [Covers]

/-- Both children of a node are stored. -/
def CoversChildren (levels : List Level) (height : Nat) (element : Element) : Prop :=
  Covers levels height (2 * element.offset.toNat) ∧
    Covers levels height (2 * element.offset.toNat + 1)

theorem coversChildren_cons_zero_iff {level : Level} :
    CoversChildren (level :: levels) 0 element ↔ level.coversChildren element = true := by
  simp only [CoversChildren, covers_cons_zero_iff, Level.coversChildren, Bool.and_eq_true]

theorem coversChildren_cons_succ_iff {level : Level} :
    CoversChildren (level :: levels) (height + 1) element ↔
      CoversChildren levels height element := by
  simp only [CoversChildren, covers_cons_succ_iff]

theorem stores_pruneAbove_iff {below : Level} :
    Stores (pruneAbove below levels) height element ↔
      Stores levels height element ∧ ¬ CoversChildren (below :: levels) height element := by
  induction levels generalizing below height with
  | nil => simp [pruneAbove, not_stores_nil]
  | cons level levels ih =>
      cases height with
      | zero =>
          simp only [pruneAbove, Level.prune, stores_cons_zero, List.mem_filter,
            coversChildren_cons_zero_iff, Bool.not_eq_true', Bool.not_eq_true]
      | succ height =>
          simp only [pruneAbove, stores_cons_succ, ih, coversChildren_cons_succ_iff]

/-- Above the leaves a node is left exactly if its children are not both stored. -/
theorem stores_pruneLevels_iff : Stores (pruneLevels levels) (height + 1) element ↔
    Stores levels (height + 1) element ∧ ¬ CoversChildren levels height element := by
  cases levels with
  | nil => simp [pruneLevels, not_stores_nil]
  | cons leaves levels => simp only [pruneLevels, stores_cons_succ, stores_pruneAbove_iff]

theorem Trims.covers (trims : Trims levels trimmed) (covered : Covers trimmed height offset) :
    Covers levels height offset := by
  obtain ⟨element, stores, placed⟩ := covered
  exact ⟨element, trims.stores stores, placed⟩

theorem forall_mem_tail_iff {property : Element → Prop} :
    (∀ level ∈ levels.tail, ∀ element ∈ level, property element) ↔
      ∀ {height : Nat} {element : Element}, Stores levels (height + 1) element →
        property element := by
  constructor
  · rintro all height element ⟨level, here, member⟩
    rw [← List.getElem?_tail] at here
    exact all level (List.mem_of_getElem? here) element member
  · intro all level member element inside
    obtain ⟨height, here⟩ := List.mem_iff_getElem?.mp member
    rw [List.getElem?_tail] at here
    exact all ⟨level, here, inside⟩

/-! ## Combining in place -/

namespace Path

variable {left right combined : Path}

theorem combineInPlace_eq (left right : Path) : combineInPlace right left =
    match left.combine right with
    | .ok combined => .ok () combined
    | .error cause => .error cause left := by
  have looked : combineInPlace right left =
      (if left.blockHeight ≠ right.blockHeight then
        throw (.malformed (.differentHeights left.blockHeight right.blockHeight))
      else do
        let root ← ofExcept (left.root none)
        let otherRoot ← ofExcept (right.root none)
        if root ≠ otherRoot then throw (.malformed (.differentRoots root otherRoot))
        else
          let levels ← ofExcept (trimLevels (mergeLevels left.levels right.levels))
          modify fun path => { path with levels := levels } : EStateM Error Path Unit) left := rfl
  rw [looked, combine]
  by_cases heights : left.blockHeight = right.blockHeight
  · rw [if_neg (not_not.mpr heights), if_neg (not_not.mpr heights)]
    cases left.root none with
    | error cause => rfl
    | ok root =>
        cases right.root none with
        | error cause => rfl
        | ok otherRoot =>
            simp only [ofExcept_bind_run, ok_bind]
            by_cases same : root = otherRoot
            · rw [if_neg (not_not.mpr same), if_neg (not_not.mpr same)]
              cases trimLevels (mergeLevels left.levels right.levels) with
              | error cause => rfl
              | ok levels => rfl
            · rw [if_pos same, if_pos same]
              rfl
  · rw [if_pos heights, if_pos heights]
    rfl

/-- Both paths are of one block, as far as their heights and roots tell, and no node above the
leaves has children without an offset. -/
structure Combinable (left right : Path) : Prop where
  blockHeight : left.blockHeight = right.blockHeight
  root : ∃ root, left.root none = .ok root ∧ right.root none = .ok root
  children : ∀ {height : Nat} {element : Element}, Stores left.levels (height + 1) element ∨
    Stores right.levels (height + 1) element → element.HasChildren

/-- What a combined path stores, by the paths that it is made from. -/
structure Merges (left right combined : Path) : Prop where
  blockHeight : combined.blockHeight = left.blockHeight
  length : combined.levels.length = max left.levels.length right.levels.length
  ordered : ∀ level ∈ combined.levels, Level.Ordered level
  origin : ∀ {height : Nat} {element : Element}, Stores combined.levels height element →
    Stores right.levels height element ∨
      (Stores left.levels height element ∧ ¬ Covers right.levels height element.offset.toNat)
  spare : ∀ {height : Nat} {element : Element}, Stores combined.levels (height + 1) element →
    ¬ CoversChildren combined.levels height element
  available : ∀ {height offset : Nat}, Covers left.levels height offset ∨
    Covers right.levels height offset → Available combined.levels height offset

theorem combine_eq_ok_iff_pruned : left.combine right = .ok combined ↔ left.Combinable right ∧
    combined = ⟨left.blockHeight, pruneLevels (mergeLevels left.levels right.levels)⟩ := by
  rw [combine_eq_ok_iff]
  constructor
  · rintro ⟨heights, root, levels, trimmed, rfl⟩
    obtain ⟨children, rfl⟩ := trimLevels_eq_ok_iff.mp trimmed
    refine ⟨⟨heights, root, fun stores => ?_⟩, rfl⟩
    obtain ⟨merged, kept, same⟩ := exists_stores_mergeLevels stores
    have hasChildren := forall_mem_tail_iff.mp children kept
    rwa [Element.HasChildren, same] at hasChildren
  · rintro ⟨⟨heights, root, children⟩, rfl⟩
    refine ⟨heights, root, _, trimLevels_eq_ok_iff.mpr ⟨?_, rfl⟩, rfl⟩
    exact forall_mem_tail_iff.mpr fun stores => children (stores_of_stores_mergeLevels stores)

private theorem merges_of_combine (combines : left.combine right = .ok combined) :
    left.Merges right combined := by
  obtain ⟨-, -, levels, trimmed, rfl⟩ := combine_eq_ok_iff.mp combines
  have trims := trims_of_trimLevels trimmed
  obtain ⟨-, rfl⟩ := trimLevels_eq_ok_iff.mp trimmed
  refine ⟨rfl, ?_, ordered_pruneLevels (ordered_mergeLevels _ _), ?_, ?_, ?_⟩
  · rw [length_pruneLevels, length_mergeLevels_eq_max]
  · intro height element stores
    rcases Option.or_eq_some_iff.mp (stores_mergeLevels_iff.mp (trims.stores stores)) with
      here | ⟨absent, here⟩
    · exact Or.inl (stores_of_stored here).1
    · refine Or.inr ⟨(stores_of_stored here).1, fun covered => ?_⟩
      obtain ⟨other, found⟩ := exists_stored_of_covers covered
      rw [absent] at found
      cases found
  · intro height element stores ⟨leftChild, rightChild⟩
    obtain ⟨-, spare⟩ := stores_pruneLevels_iff.mp stores
    -- What is stored after trimming was stored before it.
    exact spare ⟨trims.covers leftChild, trims.covers rightChild⟩
  · intro height offset covered
    exact trims.available (covers_mergeLevels covered)

/-- Combining replaces the path or leaves it as it was. -/
theorem combineInPlace_merges_or_keeps (left right : Path) :
    (left.Combinable right ∧ ∃ combined,
      combineInPlace right left = .ok () combined ∧ left.Merges right combined) ∨
    (¬ left.Combinable right ∧ ∃ cause, combineInPlace right left = .error cause left) := by
  rw [combineInPlace_eq]
  cases ran : left.combine right with
  | ok combined =>
      exact Or.inl ⟨(combine_eq_ok_iff_pruned.mp ran).1, combined, rfl, merges_of_combine ran⟩
  | error cause =>
      refine Or.inr ⟨fun combinable => ?_, cause, rfl⟩
      rw [combine_eq_ok_iff_pruned.mpr ⟨combinable, rfl⟩] at ran
      cases ran

end Path

end BitcoinSpend.Merkle
