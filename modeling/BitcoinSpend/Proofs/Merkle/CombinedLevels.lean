import BitcoinSpend.Merkle.Path.Combine
import BitcoinSpend.Proofs.Merkle.Labelling

/-!
# What a combined path stores

Merging keeps every place that either path stores and puts nothing there that neither
has. Trimming drops nodes whose children are stored, so that what was stored can still
be made.
-/

set_option autoImplicit false

namespace BitcoinSpend.Merkle

variable {left right levels trimmed : List Level} {height offset : Nat} {element : Element}

/-! ## Stores and covers -/

@[simp] theorem stores_cons_zero {level : Level} :
    Stores (level :: levels) 0 element ↔ element ∈ level := by
  simp [Stores]

@[simp] theorem stores_cons_succ {level : Level} :
    Stores (level :: levels) (height + 1) element ↔ Stores levels height element := by
  simp [Stores]

theorem not_stores_nil : ¬ Stores [] height element := by
  rintro ⟨level, here, -⟩
  cases here

theorem Level.covers_eq_true_iff {level : Level} :
    level.covers offset = true ↔ ∃ element ∈ level, element.offset.toNat = offset := by
  simp [Level.covers]

theorem Covers.above {level : Level} (covered : Covers levels height offset) :
    Covers (level :: levels) (height + 1) offset := by
  obtain ⟨element, stores, placed⟩ := covered
  exact ⟨element, stores_cons_succ.mpr stores, placed⟩

/-! ## Merging -/

theorem Level.mem_of_mem_place {level : Level} {other : Element}
    (member : other ∈ level.place element) : other = element ∨ other ∈ level := by
  induction level with
  | nil => exact Or.inl (List.mem_singleton.mp member)
  | cons first rest ih =>
      simp only [Level.place] at member
      split at member
      · exact List.mem_cons.mp member
      · split at member
        · exact (List.mem_cons.mp member).imp id (List.mem_cons_of_mem _)
        · rcases List.mem_cons.mp member with rfl | later
          · exact Or.inr List.mem_cons_self
          · exact (ih later).imp id (List.mem_cons_of_mem _)

private theorem Level.exists_mem_place {level : Level} {other : Element}
    (member : other = element ∨ other ∈ level) :
    ∃ placed ∈ level.place element, placed.offset = other.offset := by
  induction level with
  | nil =>
      rcases member with rfl | absent
      · exact ⟨other, List.mem_singleton_self _, rfl⟩
      · cases absent
  | cons first rest ih =>
      simp only [Level.place]
      split
      · exact ⟨other, List.mem_cons.mpr member, rfl⟩
      · split
        · next same =>
            rcases member with rfl | present
            · exact ⟨other, List.mem_cons_self, rfl⟩
            · rcases List.mem_cons.mp present with rfl | later
              · exact ⟨element, List.mem_cons_self, same⟩
              · exact ⟨other, List.mem_cons_of_mem _ later, rfl⟩
        · rcases member with rfl | present
          · obtain ⟨placed, inside, same⟩ := ih (Or.inl rfl)
            exact ⟨placed, List.mem_cons_of_mem _ inside, same⟩
          · rcases List.mem_cons.mp present with rfl | later
            · exact ⟨other, List.mem_cons_self, rfl⟩
            · obtain ⟨placed, inside, same⟩ := ih (Or.inr later)
              exact ⟨placed, List.mem_cons_of_mem _ inside, same⟩

private theorem Level.mem_of_mem_merge {first second : Level}
    (member : element ∈ first.merge second) : element ∈ first ∨ element ∈ second := by
  have folded : ∀ (items start : Level),
      element ∈ items.foldl (fun level element => level.place element) start →
        element ∈ items ∨ element ∈ start := by
    intro items
    induction items with
    | nil => exact fun _ member => Or.inr member
    | cons item rest ih =>
        intro start member
        rcases ih _ member with later | before
        · exact Or.inl (List.mem_cons_of_mem _ later)
        · rcases mem_of_mem_place before with rfl | earlier
          · exact Or.inl List.mem_cons_self
          · exact Or.inr earlier
  exact List.mem_append.mp ((folded _ [] member).resolve_right List.not_mem_nil)

private theorem Level.exists_mem_merge {first second : Level}
    (member : element ∈ first ∨ element ∈ second) :
    ∃ merged ∈ first.merge second, merged.offset = element.offset := by
  have folded : ∀ (items start : Level) (element : Element), element ∈ items ∨ element ∈ start →
      ∃ merged ∈ items.foldl (fun level element => level.place element) start,
        merged.offset = element.offset := by
    intro items
    induction items with
    | nil => exact fun _ element member => ⟨element, member.resolve_left List.not_mem_nil, rfl⟩
    | cons item rest ih =>
        intro start element member
        rw [List.mem_cons, or_assoc, or_left_comm] at member
        rcases member with later | member
        · exact ih _ element (Or.inl later)
        · obtain ⟨placed, inside, same⟩ := exists_mem_place member
          obtain ⟨merged, kept, equal⟩ := ih (start.place item) placed (Or.inr inside)
          exact ⟨merged, kept, equal.trans same⟩
  exact folded _ [] element (Or.inl (List.mem_append.mpr member))

private theorem stores_of_stores_map_merge
    (stores : Stores (levels.map (Level.merge [])) height element) :
    Stores levels height element := by
  obtain ⟨level, here, member⟩ := stores
  rw [List.getElem?_map] at here
  obtain ⟨source, found, rfl⟩ := Option.map_eq_some_iff.mp here
  exact ⟨source, found, (Level.mem_of_mem_merge member).resolve_left List.not_mem_nil⟩

private theorem exists_stores_map_merge (stores : Stores levels height element) :
    ∃ merged, Stores (levels.map (Level.merge [])) height merged ∧
      merged.offset = element.offset := by
  obtain ⟨level, here, member⟩ := stores
  have merges : ∃ merged ∈ Level.merge [] level, merged.offset = element.offset :=
    Level.exists_mem_merge (Or.inr member)
  obtain ⟨merged, inside, same⟩ := merges
  refine ⟨merged, ⟨Level.merge [] level, ?_, inside⟩, same⟩
  rw [List.getElem?_map, here, Option.map_some]

theorem stores_of_stores_mergeLevels (stores : Stores (mergeLevels left right) height element) :
    Stores left height element ∨ Stores right height element := by
  induction left, right using mergeLevels.induct generalizing height with
  | case1 right => exact Or.inr (stores_of_stores_map_merge stores)
  | case2 left nonempty =>
      rw [mergeLevels] at stores
      · exact Or.inl (stores_of_stores_map_merge stores)
      · exact nonempty
  | case3 first firsts second seconds ih =>
      cases height with
      | zero =>
          simp only [mergeLevels, stores_cons_zero] at stores ⊢
          exact Level.mem_of_mem_merge stores
      | succ height =>
          simp only [mergeLevels, stores_cons_succ] at stores ⊢
          exact ih stores

theorem exists_stores_mergeLevels
    (stores : Stores left height element ∨ Stores right height element) :
    ∃ merged, Stores (mergeLevels left right) height merged ∧ merged.offset = element.offset := by
  induction left, right using mergeLevels.induct generalizing height with
  | case1 right => exact exists_stores_map_merge (stores.resolve_left not_stores_nil)
  | case2 left nonempty =>
      rw [mergeLevels]
      · exact exists_stores_map_merge (stores.resolve_right not_stores_nil)
      · exact nonempty
  | case3 first firsts second seconds ih =>
      cases height with
      | zero =>
          simp only [mergeLevels, stores_cons_zero] at stores ⊢
          exact Level.exists_mem_merge stores
      | succ height =>
          simp only [mergeLevels, stores_cons_succ] at stores ⊢
          exact ih stores

theorem covers_mergeLevels (covered : Covers left height offset ∨ Covers right height offset) :
    Covers (mergeLevels left right) height offset := by
  have stored : ∃ element, (Stores left height element ∨ Stores right height element) ∧
      element.offset.toNat = offset := by
    rcases covered with ⟨element, stores, placed⟩ | ⟨element, stores, placed⟩
    · exact ⟨element, Or.inl stores, placed⟩
    · exact ⟨element, Or.inr stores, placed⟩
  obtain ⟨element, stores, rfl⟩ := stored
  obtain ⟨merged, kept, same⟩ := exists_stores_mergeLevels stores
  exact ⟨merged, kept, congrArg UInt64.toNat same⟩

theorem length_mergeLevels_eq_max (left right : List Level) :
    (mergeLevels left right).length = max left.length right.length := by
  induction left, right using mergeLevels.induct with
  | case1 right => rw [mergeLevels, List.length_map, List.length_nil, Nat.zero_max]
  | case2 left nonempty =>
      rw [mergeLevels, List.length_map, List.length_nil, Nat.max_zero]
      exact nonempty
  | case3 first firsts second seconds ih =>
      rw [mergeLevels, List.length_cons, List.length_cons, List.length_cons, ih,
        Nat.add_max_add_right]

theorem length_mergeLevels (same : left.length = right.length) :
    (mergeLevels left right).length = left.length := by
  rw [length_mergeLevels_eq_max, same, Nat.max_self]

/-! ## Trimming -/

private theorem Level.covers_of_covers {level : Level} (here : levels[height]? = some level)
    (covered : level.covers offset = true) : Covers levels height offset := by
  obtain ⟨element, member, placed⟩ := Level.covers_eq_true_iff.mp covered
  exact ⟨element, ⟨level, here, member⟩, placed⟩

/-- What is left out of a level has both of its children in the level below. -/
private theorem Level.mem_or_covers_of_trim {below level kept : Level}
    (computed : Level.trim below level height = .ok kept) :
    kept ⊆ level ∧ ∀ element ∈ level, element ∈ kept ∨
      (below.covers (2 * element.offset.toNat) = true ∧
        below.covers (2 * element.offset.toNat + 1) = true) := by
  simp only [Level.trim] at computed
  split at computed
  · cases computed
  · cases computed
    refine ⟨fun _ member => (List.mem_filter.mp member).1, ?_⟩
    intro element member
    rw [List.mem_filter, and_iff_right member, ← Bool.and_eq_true]
    cases below.covers (2 * element.offset.toNat) &&
        below.covers (2 * element.offset.toNat + 1) with
    | true => exact Or.inr rfl
    | false => exact Or.inl rfl

/-- The levels after trimming, by those before: what is missing has both children there. -/
structure Trims (levels trimmed : List Level) : Prop where
  leaves : trimmed.head? = levels.head?
  length : trimmed.length = levels.length
  stores : ∀ {height : Nat} {element : Element}, Stores trimmed height element →
    Stores levels height element
  made : ∀ {height : Nat} {element : Element}, Stores levels (height + 1) element →
    Stores trimmed (height + 1) element ∨
      (Covers levels height (2 * element.offset.toNat) ∧
        Covers levels height (2 * element.offset.toNat + 1))

private theorem trims_of_trimAbove {below : Level}
    (computed : trimAbove below height levels = .ok trimmed) :
    Trims (below :: levels) (below :: trimmed) := by
  induction levels generalizing below height trimmed with
  | nil =>
      cases computed
      refine ⟨rfl, rfl, id, fun stores => ?_⟩
      exact absurd (stores_cons_succ.mp stores) not_stores_nil
  | cons level levels ih =>
      simp only [trimAbove, bind_eq_ok_iff] at computed
      obtain ⟨kept, cut, rest, computed, same⟩ := computed
      cases same
      obtain ⟨subset, covers⟩ := Level.mem_or_covers_of_trim cut
      have above := ih computed
      refine ⟨rfl, congrArg Nat.succ above.length, ?_, ?_⟩
      · intro height element stores
        match height with
        | 0 => exact stores
        | 1 =>
            simp only [stores_cons_succ, stores_cons_zero] at stores ⊢
            exact subset stores
        | height + 2 =>
            simp only [stores_cons_succ] at stores ⊢
            exact stores_cons_succ.mp (above.stores (stores_cons_succ.mpr stores))
      · intro height element stores
        cases height with
        | zero =>
            simp only [stores_cons_succ, stores_cons_zero] at stores ⊢
            exact (covers element stores).imp id fun ⟨left, right⟩ =>
              ⟨Level.covers_of_covers rfl left, Level.covers_of_covers rfl right⟩
        | succ height =>
            rw [stores_cons_succ] at stores
            refine (above.made stores).imp (fun kept => ?_) fun ⟨left, right⟩ => ?_
            · exact stores_cons_succ.mpr (stores_cons_succ.mpr (stores_cons_succ.mp kept))
            · exact ⟨left.above, right.above⟩

theorem trims_of_trimLevels (computed : trimLevels levels = .ok trimmed) :
    Trims levels trimmed := by
  cases levels with
  | nil =>
      cases computed
      exact ⟨rfl, rfl, id, fun stores => absurd stores not_stores_nil⟩
  | cons leaves levels =>
      simp only [trimLevels, bind_eq_ok_iff] at computed
      obtain ⟨rest, computed, same⟩ := computed
      cases same
      exact trims_of_trimAbove computed

/-- What was stored can be made from what is left. -/
theorem Trims.available (trims : Trims levels trimmed) (covered : Covers levels height offset) :
    Available trimmed height offset := by
  induction height generalizing offset with
  | zero =>
      obtain ⟨element, ⟨leaves, here, member⟩, placed⟩ := covered
      rw [← List.head?_eq_getElem?, ← trims.leaves, List.head?_eq_getElem?] at here
      exact .stored ⟨element, ⟨leaves, here, member⟩, placed⟩
  | succ height ih =>
      obtain ⟨element, stores, rfl⟩ := covered
      rcases trims.made stores with kept | ⟨left, right⟩
      · exact .stored ⟨element, kept, rfl⟩
      · exact .made (ih left) (ih right)

end BitcoinSpend.Merkle
