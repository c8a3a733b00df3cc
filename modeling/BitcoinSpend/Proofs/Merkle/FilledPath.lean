import BitcoinSpend.Proofs.Merkle.FilledLevels

/-!
# A filled path proves what it proved

Filling stores exactly the nodes that a climb could make on its way, so that every climb
comes to the same root or stops at the same missing node.
-/

set_option autoImplicit false

namespace BitcoinSpend.Merkle

variable {levels : List Level} {height offset : Nat} {element : Element}

/-! ## Filled levels -/

/-- The levels of a filled path. -/
def fillLevels : List Level → List Level
  | [] => []
  | leaves :: levels => leaves :: fillAbove leaves levels

theorem fill_eq (path : Path) : path.fill = ⟨path.blockHeight, fillLevels path.levels⟩ := by
  obtain ⟨blockHeight, levels⟩ := path
  cases levels <;> rfl

private theorem length_fillAbove (children : Level) :
    (fillAbove children levels).length = levels.length := by
  induction levels generalizing children with
  | nil => rfl
  | cons parents levels ih => rw [fillAbove, List.length_cons, List.length_cons, ih]

private theorem length_fillLevels (levels : List Level) :
    (fillLevels levels).length = levels.length := by
  cases levels with
  | nil => rfl
  | cons leaves levels => rw [fillLevels, List.length_cons, List.length_cons, length_fillAbove]

private theorem head?_fillLevels (levels : List Level) :
    (fillLevels levels).head? = levels.head? := by
  cases levels <;> rfl

/-- Each level is filled from the level below as that has been filled. -/
private theorem getElem?_fillAbove (children : Level) : (fillAbove children levels)[height]? =
    ((children :: fillAbove children levels)[height]?).bind fun below =>
      levels[height]?.map (Level.fill below) := by
  induction levels generalizing children height with
  | nil => simp [fillAbove]
  | cons parents levels ih =>
      cases height with
      | zero => rfl
      | succ height =>
          rw [fillAbove, List.getElem?_cons_succ, List.getElem?_cons_succ, List.getElem?_cons_succ]
          exact ih _

private theorem getElem?_fillLevels_succ : (fillLevels levels)[height + 1]? =
    (fillLevels levels)[height]?.bind fun below => levels[height + 1]?.map (Level.fill below) := by
  cases levels with
  | nil => rfl
  | cons leaves levels =>
      rw [fillLevels, List.getElem?_cons_succ, List.getElem?_cons_succ]
      exact getElem?_fillAbove leaves

private theorem stored?_eq_bind (levels : List Level) (height offset : Nat) :
    stored? levels height offset = levels[height]?.bind fun level => level.last? offset := rfl

section Distinct

variable (distinct : ∀ level ∈ levels, Level.Distinct level)
include distinct

/-- A filled level is distinct and has the node at an offset that a climb would make there. -/
private theorem exists_filled_level (inside : height < levels.length) :
    ∃ level, (fillLevels levels)[height]? = some level ∧ level.Distinct ∧
      level.last? = node? levels height := by
  induction height with
  | zero =>
      cases levels with
      | nil => cases inside
      | cons leaves levels =>
          exact ⟨leaves, rfl, distinct leaves List.mem_cons_self, rfl⟩
  | succ height ih =>
      obtain ⟨below, isBelow, distinctBelow, nodes⟩ := ih (Nat.lt_of_succ_lt inside)
      have here : levels[height + 1]? = some levels[height + 1] := List.getElem?_eq_getElem inside
      have distinctHere := distinct _ (List.getElem_mem inside)
      refine ⟨Level.fill below levels[height + 1], ?_, distinctBelow.fill distinctHere, ?_⟩
      · rw [getElem?_fillLevels_succ, isBelow, here]
        rfl
      · funext offset
        rw [Level.last?_fill distinctBelow distinctHere, nodes, node?_succ, stored?_eq_bind, here,
          Option.bind_some]

private theorem stored?_fillLevels (inside : height < levels.length) :
    stored? (fillLevels levels) height offset = node? levels height offset := by
  obtain ⟨level, here, -, nodes⟩ := exists_filled_level distinct inside
  rw [stored?_eq_bind, here, Option.bind_some, nodes]

private theorem distinct_fillLevels : ∀ level ∈ fillLevels levels, Level.Distinct level := by
  intro level member
  obtain ⟨height, inside, rfl⟩ := List.mem_iff_getElem.mp member
  have within : height < levels.length := length_fillLevels levels ▸ inside
  obtain ⟨filled, here, distinctHere, -⟩ := exists_filled_level distinct within
  rw [List.getElem?_eq_getElem inside, Option.some.injEq] at here
  rw [here]
  exact distinctHere

/-- Nothing more can be made from what has been filled. -/
private theorem node?_fillLevels (inside : height < levels.length) :
    node? (fillLevels levels) height offset = node? levels height offset := by
  induction height generalizing offset with
  | zero => exact stored?_fillLevels distinct inside
  | succ height ih =>
      have below : node? (fillLevels levels) height = node? levels height :=
        funext fun offset => ih (Nat.lt_of_succ_lt inside)
      rw [node?_succ, stored?_fillLevels distinct inside, below, node?_succ, Option.or_assoc,
        Option.or_self]

private theorem climb_fillLevels (inside : height < levels.length) (leafOffset : UInt64)
    (node : Hash32) :
    climb (fillLevels levels) leafOffset node height = climb levels leafOffset node height := by
  simp only [climb, node?_fillLevels distinct inside]

private theorem climbTo_fillLevels {count : Nat} (inside : count ≤ levels.length)
    (leafOffset : UInt64) (leaf : Hash32) :
    climbTo (fillLevels levels) leafOffset leaf count = climbTo levels leafOffset leaf count := by
  induction count with
  | zero => rfl
  | succ count ih =>
      simp only [climbTo_succ, ih (Nat.le_of_succ_le inside),
        climb_fillLevels distinct (Nat.lt_of_succ_le inside)]

private theorem stored_of_stores (stores : Stores levels height element) :
    stored? levels height element.offset.toNat = some element := by
  obtain ⟨level, here, member⟩ := stores
  have distinctHere := distinct level (List.mem_of_getElem? here)
  rw [stored?_eq_bind, here, Option.bind_some]
  exact distinctHere.last?_eq_some_iff.mpr ⟨member, rfl⟩

/-- What is stored after filling was stored before, or a climb could make it where nothing was. -/
theorem stores_fillLevels_iff (inside : height < levels.length) :
    Stores (fillLevels levels) height element ↔ Stores levels height element ∨
      ∃ offset, ¬ Covers levels height offset ∧ node? levels height offset = some element := by
  constructor
  · intro stores
    have made := stored_of_stores (distinct_fillLevels distinct) stores
    rw [stored?_fillLevels distinct inside] at made
    by_cases covered : Covers levels height element.offset.toNat
    · obtain ⟨other, found⟩ := exists_stored_of_covers covered
      cases (node?_of_stored found).symm.trans made
      exact Or.inl (stores_of_stored found).1
    · exact Or.inr ⟨_, covered, made⟩
  · rintro (stores | ⟨offset, -, made⟩)
    · have found := node?_of_stored (stored_of_stores distinct stores)
      rw [← stored?_fillLevels distinct inside] at found
      exact (stores_of_stored found).1
    · rw [← stored?_fillLevels distinct inside] at made
      exact (stores_of_stored made).1

/-- Filled levels are filled already. -/
private theorem fillLevels_fillLevels : fillLevels (fillLevels levels) = fillLevels levels := by
  refine List.ext_getElem? fun height => ?_
  induction height with
  | zero => rw [← List.head?_eq_getElem?, ← List.head?_eq_getElem?, head?_fillLevels]
  | succ height ih =>
      rw [getElem?_fillLevels_succ, ih]
      cases isBelow : (fillLevels levels)[height]? with
      | none => rw [getElem?_fillLevels_succ, isBelow, Option.bind_none, Option.bind_none]
      | some below =>
          have distinctBelow := distinct_fillLevels distinct below (List.mem_of_getElem? isBelow)
          rw [Option.bind_some, getElem?_fillLevels_succ, isBelow, Option.bind_some,
            Option.map_map]
          exact congrArg (levels[height + 1]?.map ·) (funext distinctBelow.fill_fill)

end Distinct

/-! ## The path -/

namespace Path

variable {path : Path}

/-- What filling keeps of a path and what it adds. -/
structure Fills (path filled : Path) : Prop where
  blockHeight : filled.blockHeight = path.blockHeight
  length : filled.levels.length = path.levels.length
  leaves : filled.levels.head? = path.levels.head?
  distinct : ∀ level ∈ filled.levels, Level.Distinct level
  /-- What was stored above the leaves is stored, and so is every node that a climb could make. -/
  stores : ∀ {height : Nat} {element : Element}, height + 1 < path.levels.length →
    (Stores filled.levels (height + 1) element ↔ Stores path.levels (height + 1) element ∨
      ∃ offset, ¬ Covers path.levels (height + 1) offset ∧
        node? path.levels (height + 1) offset = some element)
  root : ∀ txid : Option Hash32, filled.root txid = path.root txid

section Distinct

variable (distinct : ∀ level ∈ path.levels, Level.Distinct level)
include distinct

private theorem rootFrom_fill (leaves : Level) (txid : Hash32) :
    path.fill.rootFrom leaves txid = path.rootFrom leaves txid := by
  simp only [rootFrom, fill_eq, length_fillLevels]
  split
  · rfl
  · split
    · rfl
    · exact climbTo_fillLevels distinct (Nat.le_refl _) _ txid

private theorem root_fill (txid : Option Hash32) : path.fill.root txid = path.root txid := by
  have sameClimb := rootFrom_fill distinct
  simp only [fill_eq] at sameClimb
  simp only [root, fill_eq]
  cases stored : path.levels with
  | nil => rfl
  | cons leaves above =>
      simp only [stored, fillLevels] at sameClimb ⊢
      simp only [sameClimb]

/-- Filling stores what climbs could make and leaves all else as it was, the roots included. -/
theorem fills_once : path.Fills path.fill ∧ path.fill.fill = path.fill := by
  rw [fill_eq, fill_eq, fillLevels_fillLevels distinct]
  refine ⟨⟨rfl, length_fillLevels _, head?_fillLevels _, distinct_fillLevels distinct, ?_, ?_⟩, rfl⟩
  · intro height element inside
    exact stores_fillLevels_iff distinct inside
  · intro txid
    rw [← fill_eq, root_fill distinct]

end Distinct

/-- A stored node that is not what its children make, beside a pair whose last node is doubled. -/
def contradictedPath : Path :=
  ⟨7, [[Element.leaf 0 (uniformHash 1), Element.leaf 1 (uniformHash 2),
    Element.leaf 2 (uniformHash 3), ⟨3, none, none, some true⟩], [Element.leaf 0 (uniformHash 9)],
    []]⟩

theorem contradictedPath_fills_once :
    (∀ level ∈ contradictedPath.levels, Level.Distinct level) ∧
      contradictedPath.Fills contradictedPath.fill ∧
      contradictedPath.fill.fill = contradictedPath.fill := by
  have distinct : ∀ level ∈ contradictedPath.levels, Level.Distinct level := by decide
  exact ⟨distinct, fills_once distinct⟩

end Path

end BitcoinSpend.Merkle
