import BitcoinSpend.Merkle.Path.Fill
import BitcoinSpend.Proofs.Merkle.CombinedMarks
import BitcoinSpend.Proofs.Merkle.PathEncoding

/-!
# Filled levels store what can be made

A climb makes missing nodes from the top down, filling stores them from the leaves up.
Where no level repeats an offset both come to the same nodes, whatever the levels
store: stored parents stand even where their children contradict them, and a child
without a hash makes no parent.
-/

set_option autoImplicit false

namespace BitcoinSpend.Merkle

/-- No offset comes twice in a level. -/
def Level.Distinct (level : Level) : Prop :=
  level.Pairwise fun left right => left.offset ≠ right.offset

instance (level : Level) : Decidable level.Distinct :=
  inferInstanceAs (Decidable (List.Pairwise _ level))

/-- The node that two children make, by what is known of the level below. -/
def made? (children : Nat → Option Element) (offset : Nat) : Option Element := do
  let left ← children (2 * offset)
  let right ← children (2 * offset + 1)
  let leftHash ← left.hash
  let hash ← parentOf? leftHash right
  pure (Element.leaf (UInt64.ofNat offset) hash)

variable {levels : List Level} {height offset : Nat} {element : Element}

theorem node?_succ : node? levels (height + 1) offset =
    (stored? levels (height + 1) offset).or (made? (node? levels height) offset) := by
  rw [node?]
  cases stored? levels (height + 1) offset <;> rfl

theorem made?_eq_some_iff {children : Nat → Option Element} :
    made? children offset = some element ↔ ∃ left right leftHash hash,
      children (2 * offset) = some left ∧ children (2 * offset + 1) = some right ∧
        left.hash = some leftHash ∧ parentOf? leftHash right = some hash ∧
          element = Element.leaf (UInt64.ofNat offset) hash := by
  simp only [made?, bind, pure, Option.bind_eq_some_iff, Option.some.injEq]
  constructor
  · rintro ⟨left, isLeft, right, isRight, leftHash, hashed, hash, parent, rfl⟩
    exact ⟨left, right, leftHash, hash, isLeft, isRight, hashed, parent, rfl⟩
  · rintro ⟨left, right, leftHash, hash, isLeft, isRight, hashed, parent, rfl⟩
    exact ⟨left, isLeft, right, isRight, leftHash, hashed, hash, parent, rfl⟩

namespace Level

variable {level children parents : Level} {left other : Element}

/-! ## Levels without repeated offsets -/

private theorem Distinct.eq_of_offset (distinct : level.Distinct) (member : element ∈ level)
    (otherMember : other ∈ level) (same : element.offset = other.offset) : element = other :=
  List.inj_on_of_nodup_map (List.pairwise_map.mpr distinct) member otherMember same

/-- A search finds the one element that passes its test. -/
theorem find?_eq_some_iff_of_unique {test : Element → Bool}
    (unique : ∀ element ∈ level, ∀ other ∈ level, test element = true → test other = true →
      element = other) :
    level.find? test = some element ↔ element ∈ level ∧ test element = true := by
  refine ⟨fun found => ⟨List.mem_of_find?_eq_some found, List.find?_some found⟩, ?_⟩
  rintro ⟨member, passes⟩
  obtain ⟨first, isFirst⟩ :=
    Option.isSome_iff_exists.mp (List.find?_isSome.mpr ⟨element, member, passes⟩)
  rw [isFirst, unique first (List.mem_of_find?_eq_some isFirst) element member
    (List.find?_some isFirst) passes]

theorem Distinct.find?_eq_some_iff (distinct : level.Distinct) {place : UInt64} :
    (level.find? fun element => element.offset == place) = some element ↔
      element ∈ level ∧ element.offset = place := by
  rw [find?_eq_some_iff_of_unique, beq_iff_eq]
  intro element member other otherMember placed otherPlaced
  exact distinct.eq_of_offset member otherMember
    ((beq_iff_eq.mp placed).trans (beq_iff_eq.mp otherPlaced).symm)

theorem Distinct.last?_eq_some_iff (distinct : level.Distinct) :
    level.last? offset = some element ↔ element ∈ level ∧ element.offset.toNat = offset := by
  rw [last?, find?_eq_some_iff_of_unique, List.mem_reverse, beq_iff_eq]
  intro element member other otherMember placed otherPlaced
  exact distinct.eq_of_offset (List.mem_reverse.mp member) (List.mem_reverse.mp otherMember)
    (UInt64.toNat_inj.mp ((beq_iff_eq.mp placed).trans (beq_iff_eq.mp otherPlaced).symm))

theorem last?_eq_none_iff : level.last? offset = none ↔
    ∀ element ∈ level, element.offset.toNat ≠ offset := by
  simp [last?]

/-! ## Filling one level -/

theorem parent?_eq_some_iff (distinct : children.Distinct) :
    parent? children parents left = some element ↔ left.offset % 2 = 0 ∧
      (∀ other ∈ parents, other.offset ≠ left.offset / 2) ∧ ∃ right leftHash hash,
        (right ∈ children ∧ right.offset = left.offset + 1) ∧ left.hash = some leftHash ∧
          parentOf? leftHash right = some hash ∧
            element = Element.leaf (left.offset / 2) hash := by
  simp only [parent?]
  split
  · next excluded =>
      refine ⟨nofun, ?_⟩
      rintro ⟨even, free, -⟩
      rcases excluded with odd | taken
      · exact absurd even odd
      · obtain ⟨other, member, same⟩ := List.any_eq_true.mp taken
        exact absurd (by simpa using same) (free other member)
  · next included =>
      simp only [not_or, not_not, Bool.not_eq_true, List.any_eq_false, beq_iff_eq] at included
      obtain ⟨even, free⟩ := included
      rw [and_iff_right even, and_iff_right free]
      simp only [bind, pure, Option.bind_eq_some_iff, Option.some.injEq,
        distinct.find?_eq_some_iff]
      constructor
      · rintro ⟨leftHash, hashed, right, isRight, hash, parent, rfl⟩
        exact ⟨right, leftHash, hash, isRight, hashed, parent, rfl⟩
      · rintro ⟨right, leftHash, hash, isRight, hashed, parent, rfl⟩
        exact ⟨leftHash, hashed, right, isRight, hash, parent, rfl⟩

theorem mem_fill_iff_exists : element ∈ Level.fill children parents ↔
    element ∈ parents ∨ ∃ left ∈ children, parent? children parents left = some element := by
  rw [Level.fill, Level.sort, List.mem_mergeSort, List.mem_append, List.mem_filterMap]

/-- The half of an even offset, as a word and as a number. -/
private theorem toNat_half {place : UInt64} (even : place % 2 = 0) :
    place.toNat = 2 * (place / 2).toNat := by
  have remainder := congrArg UInt64.toNat even
  rw [UInt64.toNat_mod] at remainder
  rw [UInt64.toNat_div]
  change place.toNat % 2 = 0 at remainder
  change place.toNat = 2 * (place.toNat / 2)
  omega

private theorem toNat_succ_of_even {place : UInt64} (even : place % 2 = 0) :
    (place + 1).toNat = place.toNat + 1 := by
  have half := toNat_half even
  have inside := place.toNat_lt
  rw [UInt64.toNat_add]
  change (place.toNat + 1) % 2 ^ 64 = place.toNat + 1
  omega

theorem made?_last?_eq_some_iff (distinct : children.Distinct) :
    made? children.last? offset = some element ↔ ∃ left ∈ children, left.offset % 2 = 0 ∧
      offset = (left.offset / 2).toNat ∧ ∃ right leftHash hash,
        (right ∈ children ∧ right.offset = left.offset + 1) ∧ left.hash = some leftHash ∧
          parentOf? leftHash right = some hash ∧
            element = Element.leaf (left.offset / 2) hash := by
  simp only [made?_eq_some_iff, distinct.last?_eq_some_iff]
  constructor
  · rintro ⟨left, right, leftHash, hash, ⟨leftMember, leftPlaced⟩, ⟨rightMember, rightPlaced⟩,
      hashed, parent, rfl⟩
    have even : left.offset % 2 = 0 := by
      rw [← UInt64.toNat_inj, UInt64.toNat_mod]
      change left.offset.toNat % 2 = 0
      omega
    have half := toNat_half even
    have halved : offset = (left.offset / 2).toNat := by omega
    have next : right.offset = left.offset + 1 := by
      rw [← UInt64.toNat_inj, toNat_succ_of_even even]
      omega
    refine ⟨left, leftMember, even, halved, right, leftHash, hash, ⟨rightMember, next⟩, hashed,
      parent, ?_⟩
    rw [halved, UInt64.ofNat_toNat]
  · rintro ⟨left, leftMember, even, rfl, right, leftHash, hash, ⟨rightMember, next⟩, hashed,
      parent, rfl⟩
    have half := toNat_half even
    refine ⟨left, right, leftHash, hash, ⟨leftMember, half⟩, ⟨rightMember, ?_⟩, hashed, parent, ?_⟩
    · rw [next, toNat_succ_of_even even, half]
    · rw [UInt64.ofNat_toNat]

/-- A filled level stores what was stored, and elsewhere what the children make. -/
theorem mem_fill_iff (distinct : children.Distinct) (distinctParents : parents.Distinct) :
    element ∈ Level.fill children parents ↔
      (parents.last? element.offset.toNat).or (made? children.last? element.offset.toNat) =
        some element := by
  rw [mem_fill_iff_exists, Option.or_eq_some_iff, distinctParents.last?_eq_some_iff,
    and_iff_left rfl, last?_eq_none_iff, made?_last?_eq_some_iff distinct]
  refine or_congr_right ?_
  simp only [parent?_eq_some_iff distinct]
  constructor
  · rintro ⟨left, member, even, free, right, leftHash, hash, isRight, hashed, parent, rfl⟩
    refine ⟨fun other otherMember same => ?_, left, member, even, rfl, right, leftHash, hash,
      isRight, hashed, parent, rfl⟩
    exact free other otherMember (UInt64.toNat_inj.mp same)
  · rintro ⟨free, left, member, even, half, right, leftHash, hash, isRight, hashed, parent, rfl⟩
    refine ⟨left, member, even, fun other otherMember same => ?_, right, leftHash, hash, isRight,
      hashed, parent, rfl⟩
    exact free other otherMember (congrArg UInt64.toNat same)

theorem Distinct.fill (distinct : children.Distinct) (distinctParents : parents.Distinct) :
    (Level.fill children parents).Distinct := by
  have derived : Level.Distinct (children.filterMap (parent? children parents)) := by
    refine List.Pairwise.filterMap _ ?_ distinct
    intro first second apart made isMade other isOther
    obtain ⟨even, -, -, -, -, -, -, -, rfl⟩ := (parent?_eq_some_iff distinct).mp isMade
    obtain ⟨otherEven, -, -, -, -, -, -, -, rfl⟩ := (parent?_eq_some_iff distinct).mp isOther
    intro same
    refine apart (UInt64.toNat_inj.mp ?_)
    rw [toNat_half even, toNat_half otherEven]
    exact congrArg (2 * UInt64.toNat ·) same
  rw [Level.fill, Level.sort]
  refine ((List.mergeSort_perm _ _).pairwise_iff Ne.symm).mpr
    (List.pairwise_append.mpr ⟨distinctParents, derived, ?_⟩)
  intro parent member made derivedMember
  obtain ⟨left, -, isMade⟩ := List.mem_filterMap.mp derivedMember
  obtain ⟨-, free, -, -, -, -, -, -, rfl⟩ := (parent?_eq_some_iff distinct).mp isMade
  exact free parent member

theorem last?_fill (distinct : children.Distinct) (distinctParents : parents.Distinct)
    (offset : Nat) : (Level.fill children parents).last? offset =
      (parents.last? offset).or (made? children.last? offset) := by
  have filled := distinct.fill distinctParents
  refine Option.ext fun element => ?_
  rw [filled.last?_eq_some_iff, mem_fill_iff distinct distinctParents]
  constructor
  · rintro ⟨made, rfl⟩
    exact made
  · intro made
    have placed : element.offset.toNat = offset := by
      rcases Option.or_eq_some_iff.mp made with stored | ⟨-, derived⟩
      · exact (last?_eq_some stored).2
      · obtain ⟨-, -, -, rfl, -, -, -, -, -, -, rfl⟩ :=
          (made?_last?_eq_some_iff distinct).mp derived
        rfl
    rw [placed]
    exact ⟨made, rfl⟩

private theorem sort_of_pairwise
    (sorted : level.Pairwise fun left right => left.offset ≤ right.offset) :
    level.sort = level :=
  List.mergeSort_of_pairwise (by simpa using sorted)

/-- A level that has been filled has nothing left to make. -/
theorem Distinct.fill_fill (distinct : children.Distinct) (parents : Level) :
    Level.fill children (Level.fill children parents) = Level.fill children parents := by
  have nothing : children.filterMap (parent? children (Level.fill children parents)) = [] := by
    rw [List.filterMap_eq_nil_iff]
    intro left member
    refine Option.eq_none_iff_forall_ne_some.mpr fun element made => ?_
    obtain ⟨even, free, right, leftHash, hash, isRight, hashed, parent, rfl⟩ :=
      (parent?_eq_some_iff distinct).mp made
    have freeBefore : ∀ other ∈ parents, other.offset ≠ left.offset / 2 :=
      fun other stored => free other (mem_fill_iff_exists.mpr (Or.inl stored))
    have madeBefore := (parent?_eq_some_iff distinct).mpr
      ⟨even, freeBefore, right, leftHash, hash, isRight, hashed, parent, rfl⟩
    exact free _ (mem_fill_iff_exists.mpr (Or.inr ⟨left, member, madeBefore⟩)) rfl
  rw [Level.fill, nothing, List.append_nil, sort_of_pairwise]
  exact pairwise_sort _

end Level

end BitcoinSpend.Merkle
