import BitcoinSpend.Chunk.Basic
import BitcoinSpend.Spend.Instruction

/-!
# Well nested chunks

Chunks nest well when every switch and every end of a conditional among them belongs
to a conditional that begins among them, each of these ends there, and none switches
twice. A scan that keeps the conditionals that are open decides whether they do.
-/

set_option autoImplicit false

namespace BitcoinSpend.Spend

/-- A run of chunks with whole conditionals only, each with one branch or with two. -/
inductive WellNested : List Chunk → Prop where
  | nil : WellNested []
  | plain {chunk : Chunk} {rest : List Chunk}
      (other : (Instruction.ofOpcode chunk.op).isConditional = false) (later : WellNested rest) :
      WellNested (chunk :: rest)
  | closed {opening closing : Chunk} {negated : Bool} {body rest : List Chunk}
      (begins : Instruction.ofOpcode opening.op = .beginIf negated) (inner : WellNested body)
      (ends : Instruction.ofOpcode closing.op = .endIf) (later : WellNested rest) :
      WellNested (opening :: (body ++ closing :: rest))
  | switched {opening switching closing : Chunk} {negated : Bool} {first second rest : List Chunk}
      (begins : Instruction.ofOpcode opening.op = .beginIf negated) (firstInner : WellNested first)
      (switches : Instruction.ofOpcode switching.op = .switchBranch)
      (secondInner : WellNested second) (ends : Instruction.ofOpcode closing.op = .endIf)
      (later : WellNested rest) :
      WellNested (opening :: (first ++ switching :: (second ++ closing :: rest)))

/-- The conditionals that are open after an instruction, innermost first, each with whether it has
switched. There are none to give if the instruction belongs to no open conditional, or switches one
again. -/
def Instruction.reopen? : Instruction → List Bool → Option (List Bool)
  | .beginIf _, opened => some (false :: opened)
  | .switchBranch, false :: outer => some (true :: outer)
  | .switchBranch, _ => none
  | .endIf, _ :: outer => some outer
  | .endIf, [] => none
  | _, opened => some opened

/-- The conditionals that are open after chunks. -/
def openAfter? (opened : List Bool) (chunks : List Chunk) : Option (List Bool) :=
  chunks.foldlM (fun opened chunk => (Instruction.ofOpcode chunk.op).reopen? opened) opened

private theorem Instruction.reopen?_of_plain {instruction : Instruction}
    (other : instruction.isConditional = false) (opened : List Bool) :
    instruction.reopen? opened = some opened := by
  cases instruction with
  | beginIf | switchBranch | endIf => cases other
  | _ => rfl

/-- How the open conditionals can change. -/
inductive Instruction.Reopens : Instruction → List Bool → List Bool → Prop where
  | plain {instruction : Instruction} {opened : List Bool}
      (other : instruction.isConditional = false) : Reopens instruction opened opened
  | begin {negated : Bool} {opened : List Bool} :
      Reopens (.beginIf negated) opened (false :: opened)
  | switch {outer : List Bool} : Reopens .switchBranch (false :: outer) (true :: outer)
  | close {switched : Bool} {outer : List Bool} : Reopens .endIf (switched :: outer) outer

theorem Instruction.reopens_of_reopen {instruction : Instruction} {opened opened' : List Bool}
    (tracked : instruction.reopen? opened = some opened') :
    instruction.Reopens opened opened' := by
  cases plain : instruction.isConditional with
  | false =>
      rw [reopen?_of_plain plain] at tracked
      cases tracked
      exact .plain plain
  | true =>
      cases instruction with
      | beginIf negated =>
          cases tracked
          exact .begin
      | switchBranch =>
          match opened, tracked with
          | false :: outer, rfl => exact .switch
      | endIf =>
          match opened, tracked with
          | switched :: outer, rfl => exact .close
      | _ => cases plain

theorem openAfter?_cons (opened : List Bool) (chunk : Chunk) (rest : List Chunk) :
    openAfter? opened (chunk :: rest) =
      ((Instruction.ofOpcode chunk.op).reopen? opened).bind (openAfter? · rest) := by
  rw [openAfter?, List.foldlM_cons]
  rfl

private theorem openAfter?_append (opened : List Bool) (first second : List Chunk) :
    openAfter? opened (first ++ second) =
      (openAfter? opened first).bind (openAfter? · second) := by
  rw [openAfter?, List.foldlM_append]
  rfl

/-- Well nested chunks leave open what was open. -/
theorem WellNested.openAfter? {chunks : List Chunk} (nested : WellNested chunks)
    (opened : List Bool) : openAfter? opened chunks = some opened := by
  induction nested generalizing opened with
  | nil => rfl
  | plain other _ ih =>
      rw [openAfter?_cons, Instruction.reopen?_of_plain other, Option.bind_some, ih]
  | closed begins _ ends _ innerIH laterIH =>
      simp only [openAfter?_cons, openAfter?_append, begins, ends, Instruction.reopen?,
        Option.bind_some, innerIH, laterIH]
  | switched begins _ switches _ ends _ firstIH secondIH laterIH =>
      simp only [openAfter?_cons, openAfter?_append, begins, switches, ends, Instruction.reopen?,
        Option.bind_some, firstIH, secondIH, laterIH]

/-! ## The scan finds the nesting -/

/-- Chunks that end the open conditionals one after another, with well nested chunks between. -/
inductive Closes : List Bool → List Chunk → Prop where
  | done {chunks : List Chunk} (nested : WellNested chunks) : Closes [] chunks
  | close {switched : Bool} {outer : List Bool} {body rest : List Chunk} {closing : Chunk}
      (inner : WellNested body) (ends : Instruction.ofOpcode closing.op = .endIf)
      (later : Closes outer rest) : Closes (switched :: outer) (body ++ closing :: rest)
  | switch {outer : List Bool} {first second rest : List Chunk} {switching closing : Chunk}
      (firstInner : WellNested first)
      (switches : Instruction.ofOpcode switching.op = .switchBranch)
      (secondInner : WellNested second) (ends : Instruction.ofOpcode closing.op = .endIf)
      (later : Closes outer rest) :
      Closes (false :: outer) (first ++ switching :: (second ++ closing :: rest))

/-- What stays well nested before well nested chunks may stand before the first end. -/
private theorem Closes.prepend {opened : List Bool} {chunks : List Chunk}
    (closes : Closes opened chunks) (block : List Chunk)
    (whole : ∀ {rest : List Chunk}, WellNested rest → WellNested (block ++ rest)) :
    Closes opened (block ++ chunks) := by
  cases closes with
  | done nested => exact .done (whole nested)
  | close inner ends later =>
      rw [← List.append_assoc]
      exact .close (whole inner) ends later
  | switch firstInner switches secondInner ends later =>
      rw [← List.append_assoc]
      exact .switch (whole firstInner) switches secondInner ends later

private theorem closes_of_openAfter {opened : List Bool} {chunks : List Chunk}
    (scanned : openAfter? opened chunks = some []) : Closes opened chunks := by
  induction chunks generalizing opened with
  | nil =>
      cases scanned
      exact .done .nil
  | cons chunk rest ih =>
      rw [openAfter?_cons, Option.bind_eq_some_iff] at scanned
      obtain ⟨opened', tracked, scanned⟩ := scanned
      have closes := ih scanned
      have reopens := Instruction.reopens_of_reopen tracked
      generalize asks : Instruction.ofOpcode chunk.op = instruction at reopens
      cases reopens with
      | plain other =>
          refine closes.prepend [chunk] fun nested => .plain ?_ nested
          rwa [asks]
      | begin =>
          -- The conditional that begins here takes the chunks up to the first end.
          cases closes with
          | @close _ _ body rest closing inner ends later =>
              have block := later.prepend (chunk :: (body ++ [closing])) fun nested => by
                simpa using WellNested.closed asks inner ends nested
              simpa using block
          | @switch _ first second rest switching closing firstInner switches secondInner ends
              later =>
              have block := later.prepend
                (chunk :: (first ++ switching :: (second ++ [closing]))) fun nested => by
                  simpa using WellNested.switched asks firstInner switches secondInner ends nested
              simpa using block
      | switch =>
          cases closes with
          | close inner ends later => exact .switch .nil asks inner ends later
      | close => exact .close .nil asks closes

theorem wellNested_iff {chunks : List Chunk} :
    WellNested chunks ↔ openAfter? [] chunks = some [] := by
  constructor
  · intro nested
    exact nested.openAfter? []
  · intro scanned
    cases closes_of_openAfter scanned with
    | done nested => exact nested

instance : DecidablePred WellNested :=
  fun _ => decidable_of_iff _ wellNested_iff.symm

/-- A conditional that switches twice is not well nested. -/
example : ¬ WellNested [⟨0x63, none⟩, ⟨0x67, none⟩, ⟨0x67, none⟩, ⟨0x68, none⟩] := by decide

end BitcoinSpend.Spend
