import Mathlib.Data.List.Basic
import Mathlib.Data.List.Induction
import BitcoinSpend.Proofs.Merkle.CombinedRoots

/-!
# Marks after combining

A merged level has one element at an offset, the last that either path stores there, and
the leaves are not trimmed. So a leaf is marked as a transaction that the combined path
proves exactly if the element that counts at its offset is marked: the last one of the
second path, or else the last one of the first. A mark of the first path is lost where
the second path stores the same leaf without it.
-/

set_option autoImplicit false

namespace BitcoinSpend.Merkle

/-! ## Ordered levels -/

/-- Offsets grow from element to element, so that none comes twice. -/
def Level.Ordered (level : Level) : Prop :=
  level.Pairwise fun left right => left.offset < right.offset

namespace Level

variable {level first second : Level} {element other : Element} {offset : Nat}

theorem Ordered.place (ordered : level.Ordered) (element : Element) :
    (level.place element).Ordered := by
  induction level with
  | nil => exact List.pairwise_singleton _ _
  | cons head rest ih =>
      obtain ⟨before, later⟩ := List.pairwise_cons.mp ordered
      simp only [Level.place]
      split
      · next smaller =>
          refine List.pairwise_cons.mpr ⟨fun other member => ?_, ordered⟩
          rcases List.mem_cons.mp member with rfl | inRest
          · exact smaller
          · exact UInt64.lt_trans smaller (before other inRest)
      · next notSmaller =>
          split
          · next same =>
              exact List.pairwise_cons.mpr ⟨fun other inRest => same ▸ before other inRest, later⟩
          · next different =>
              refine List.pairwise_cons.mpr ⟨fun other member => ?_, ih later⟩
              rcases mem_of_mem_place member with rfl | inRest
              · exact UInt64.lt_of_le_of_ne (UInt64.not_lt.mp notSmaller) (Ne.symm different)
              · exact before other inRest

/-- An element takes the place of the one at its offset. -/
theorem Ordered.mem_place_iff (ordered : level.Ordered) : other ∈ level.place element ↔
    other = element ∨ (other ∈ level ∧ other.offset ≠ element.offset) := by
  induction level with
  | nil => simp [Level.place]
  | cons head rest ih =>
      obtain ⟨before, later⟩ := List.pairwise_cons.mp ordered
      simp only [Level.place]
      split
      · next smaller =>
          have apart : other ∈ head :: rest → other.offset ≠ element.offset := by
            intro member same
            rcases List.mem_cons.mp member with rfl | inRest
            · exact UInt64.ne_of_lt smaller same.symm
            · exact UInt64.lt_asymm smaller (same ▸ before other inRest)
          rw [List.mem_cons, and_iff_left_of_imp apart]
      · split
        · next same =>
            have apart : other ∈ rest → other.offset ≠ element.offset := by
              intro inRest equal
              exact UInt64.ne_of_lt (before other inRest) (same.symm.trans equal.symm)
            simp only [List.mem_cons, or_and_right, and_iff_left_of_imp apart]
            refine or_congr_right (or_iff_right ?_).symm
            rintro ⟨rfl, different⟩
            exact different same.symm
        · next different =>
            simp only [List.mem_cons, ih later, or_and_right]
            rw [or_left_comm]
            refine or_congr_right (or_congr_left (and_iff_left_of_imp ?_).symm)
            rintro rfl same
            exact different same.symm

private theorem last?_append : (first ++ second).last? offset =
    (second.last? offset).or (first.last? offset) := by
  rw [last?, last?, last?, List.reverse_append, List.find?_append]

private theorem last?_singleton : Level.last? [element] offset =
    if element.offset.toNat = offset then some element else none := by
  rw [last?, List.reverse_singleton, List.find?_singleton]
  simp only [beq_iff_eq]

/-! ## Merged levels -/

/-- The last element at each offset, in the order of the offsets. -/
def gather (elements : List Element) : Level :=
  elements.foldl (fun level element => Level.place element level) []

private theorem gather_concat (elements : List Element) (element : Element) :
    gather (elements ++ [element]) = (gather elements).place element :=
  List.foldl_concat ..

theorem ordered_gather (elements : List Element) : (gather elements).Ordered := by
  induction elements using List.reverseRecOn with
  | nil => exact List.Pairwise.nil
  | append_singleton elements element ih =>
      rw [gather_concat]
      exact ih.place element

theorem mem_gather_iff {elements : List Element} :
    element ∈ gather elements ↔ last? elements element.offset.toNat = some element := by
  induction elements using List.reverseRecOn with
  | nil => simp [gather, last?]
  | append_singleton elements later ih =>
      rw [gather_concat, (ordered_gather elements).mem_place_iff, ih, last?_append,
        last?_singleton]
      split
      · next same =>
          have equal : element.offset = later.offset := UInt64.toNat_inj.mp same.symm
          simp [equal, eq_comm]
      · next different =>
          have apart : element.offset ≠ later.offset := fun equal => different (by rw [equal])
          have unequal : element ≠ later := fun equal => apart (by rw [equal])
          simp [apart, unequal]

/-- What a merged level has at an offset is the last element of the second level there, or else the
last one of the first. -/
theorem mem_merge_iff : element ∈ first.merge second ↔
    (second.last? element.offset.toNat).or (first.last? element.offset.toNat) = some element := by
  rw [← last?_append]
  exact mem_gather_iff

end Level

variable {levels left right : List Level} {height offset : Nat} {element : Element}

@[simp] theorem stored?_nil : stored? [] height offset = none := rfl

@[simp] theorem stored?_cons_zero {level : Level} :
    stored? (level :: levels) 0 offset = level.last? offset := rfl

@[simp] theorem stored?_cons_succ {level : Level} :
    stored? (level :: levels) (height + 1) offset = stored? levels height offset := rfl

theorem stores_map_merge_iff : Stores (levels.map (Level.merge [])) height element ↔
    stored? levels height element.offset.toNat = some element := by
  induction levels generalizing height with
  | nil => simp [not_stores_nil]
  | cons level levels ih =>
      cases height with
      | zero =>
          rw [List.map_cons, stores_cons_zero, stored?_cons_zero, Level.mem_merge_iff]
          simp [Level.last?]
      | succ height => rw [List.map_cons, stores_cons_succ, stored?_cons_succ, ih]

theorem stores_mergeLevels_iff : Stores (mergeLevels left right) height element ↔
    (stored? right height element.offset.toNat).or (stored? left height element.offset.toNat) =
      some element := by
  induction left, right using mergeLevels.induct generalizing height with
  | case1 right => rw [mergeLevels, stores_map_merge_iff, stored?_nil, Option.or_none]
  | case2 left nonempty =>
      rw [mergeLevels, stores_map_merge_iff, stored?_nil, Option.none_or]
      exact nonempty
  | case3 first firsts second seconds ih =>
      cases height with
      | zero =>
          rw [mergeLevels, stores_cons_zero, stored?_cons_zero, stored?_cons_zero,
            Level.mem_merge_iff]
      | succ height =>
          rw [mergeLevels, stores_cons_succ, stored?_cons_succ, stored?_cons_succ, ih]

theorem Trims.stores_leaf_iff {trimmed : List Level} (trims : Trims levels trimmed) :
    Stores trimmed 0 element ↔ Stores levels 0 element := by
  simp only [Stores, ← List.head?_eq_getElem?, trims.leaves]

namespace Path

variable {left right combined : Path} {place : UInt64} {hash : Hash32}

/-- A leaf is marked as a transaction that the path proves. -/
def Marks (path : Path) (place : UInt64) (hash : Hash32) : Prop :=
  ∃ element, Stores path.levels 0 element ∧ element.offset = place ∧ element.hash = some hash ∧
    element.isMarked = true

/-- The leaf of two paths that counts at an offset: the last one of the second path, or else the
last one of the first. -/
def countingLeaf (left right : Path) (place : UInt64) : Option Element :=
  (stored? right.levels 0 place.toNat).or (stored? left.levels 0 place.toNat)

theorem stores_leaf_combine_iff (combines : left.combine right = .ok combined) :
    Stores combined.levels 0 element ↔
      left.countingLeaf right element.offset = some element := by
  obtain ⟨-, -, levels, trimmed, rfl⟩ := combine_eq_ok_iff.mp combines
  rw [(trims_of_trimLevels trimmed).stores_leaf_iff, stores_mergeLevels_iff, countingLeaf]

private theorem offset_of_countingLeaf (counts : left.countingLeaf right place = some element) :
    element.offset = place := by
  rcases Option.or_eq_some_iff.mp counts with here | ⟨-, here⟩
  · exact UInt64.toNat_inj.mp (stores_of_stored here).2
  · exact UInt64.toNat_inj.mp (stores_of_stored here).2

/-- A combined path marks the leaves that are marked where they count. -/
theorem marks_combine_iff (combines : left.combine right = .ok combined) :
    combined.Marks place hash ↔ ∃ element, left.countingLeaf right place = some element ∧
      element.hash = some hash ∧ element.isMarked = true := by
  constructor
  · rintro ⟨element, stores, rfl, hashed, marked⟩
    exact ⟨element, (stores_leaf_combine_iff combines).mp stores, hashed, marked⟩
  · rintro ⟨element, counts, hashed, marked⟩
    obtain rfl := offset_of_countingLeaf counts
    exact ⟨element, (stores_leaf_combine_iff combines).mpr counts, rfl, hashed, marked⟩

/-- The leaves of a block with two transactions, with the marks that are given. -/
def markedPair (first second : Option Bool) : Path :=
  ⟨7, [[⟨0, some (uniformHash 1), first, none⟩, ⟨1, some (uniformHash 2), second, none⟩]]⟩

private theorem combine_markedPair : (markedPair (some true) none).combine
    (markedPair none (some true)) =
    .ok (markedPair none (some true)) := by
  have leftRoot : (markedPair (some true) none).root none =
      .ok (parent (uniformHash 1) (uniformHash 2)) := rfl
  have rightRoot : (markedPair none (some true)).root none =
      .ok (parent (uniformHash 1) (uniformHash 2)) := rfl
  exact combine_eq_ok_iff.mpr ⟨rfl, ⟨_, leftRoot, rightRoot⟩, _, rfl, rfl⟩

theorem markedPair_marks_second :
    (markedPair (some true) none).combine (markedPair none (some true)) =
        .ok (markedPair none (some true)) ∧
      (markedPair none (some true)).Marks 1 (uniformHash 2) :=
  ⟨combine_markedPair, (marks_combine_iff combine_markedPair).mpr ⟨_, rfl, rfl, rfl⟩⟩

/-- A transaction that the first path proves is only a sibling in the second one. -/
theorem combine_loses_mark : ¬ ∀ (left right combined : Path) (place : UInt64) (hash : Hash32),
    left.combine right = .ok combined → left.Marks place hash ∨ right.Marks place hash →
      combined.Marks place hash := by
  intro keeps
  have marked : (markedPair (some true) none).Marks 0 (uniformHash 1) :=
    ⟨_, ⟨_, rfl, List.mem_cons_self⟩, rfl, rfl, rfl⟩
  obtain ⟨element, ⟨leaves, here, member⟩, placed, -, isMarked⟩ :=
    keeps _ _ _ 0 (uniformHash 1) combine_markedPair (Or.inl marked)
  cases here
  simp only [List.mem_cons, List.not_mem_nil, or_false] at member
  rcases member with rfl | rfl
  · cases isMarked
  · cases placed

end Path

end BitcoinSpend.Merkle
