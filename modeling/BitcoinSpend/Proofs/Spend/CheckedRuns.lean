import Mathlib.Data.List.Basic
import BitcoinSpend.Proofs.Chunk.Splitting
import BitcoinSpend.Proofs.Spend.CheckedQuery
import BitcoinSpend.Proofs.Spend.RelaxedRules
import BitcoinSpend.Proofs.Spend.Visits

/-!
# No unchecked signature is asked about

Under replay protection every question of every run has passed the checks, and a
single signature check asks about the bytes of the running script that follow the
last separator run in it. The separator is read off the visits; that the state holds
the same one is part of the invariant.
-/

set_option autoImplicit false

namespace BitcoinSpend

/-- The script after the first chunks of another, byte for byte. -/
def Script.IsRestAfter (rest : Script) (count : Nat) (script : Script) : Prop :=
  ∃ chunks, script.chunks = .ok chunks ∧
    script.bytes = Chunk.encodeAll (chunks.take count) ++ rest.bytes

private theorem Script.isRestAfter_drop {script : Script} {chunks : List Chunk}
    (decoded : script.chunks = .ok chunks) (count : Nat) :
    (Script.ofChunks (chunks.drop count)).IsRestAfter count script := by
  have encoded : Chunk.encodeAll chunks = script.bytes := (Chunk.inOrder_of_decodeFrom decoded).2
  refine ⟨chunks, decoded, ?_⟩
  rw [← encoded, ofChunks, Chunk.encodeAll, Chunk.encodeAll, Chunk.encodeAll, ← List.flatMap_append,
    List.take_append_drop]

namespace Spend

def Request.script (request : Request) : Phase → Script
  | .unlocking => request.unlocking
  | .locking => request.locking

/-- Whether a separator of a script was run. -/
def Visit.separates (phase : Phase) (visit : Visit) : Bool :=
  visit.phase = phase && (visit.executed && visit.chunk.op = Opcode.codeSeparator)

/-- The place of the last separator that was run in a script. -/
def lastSeparator (log : List Visit) (phase : Phase) : Option Nat :=
  (log.filter (Visit.separates phase)).getLast?.map Visit.position

/-- A visit is to the chunk that stands at its place in its script. -/
def Request.Locates (request : Request) (visit : Visit) : Prop :=
  ∃ chunks, (request.script visit.phase).chunks = .ok chunks ∧
    chunks[visit.position]? = some visit.chunk

/-- What holds of a question that is asked at a visit after earlier ones. -/
structure Request.Vouches (request : Request) (earlier : List Visit) (visit : Visit)
    (query : SignatureQuery) : Prop where
  checked : query.Checked (request.flags.has Flags.lowS) request.inputIndex
  subScript : visit.chunk.op ∈ [Opcode.checkSig, 0xad] →
    query.subScript.IsRestAfter (afterSeparator (lastSeparator earlier visit.phase))
      (request.script visit.phase)

/-! ## One chunk -/

private theorem Instruction.eq_codeSeparator_of_ofOpcode {op : Opcode}
    (separates : ofOpcode op = .codeSeparator) : op = Opcode.codeSeparator := by
  unfold ofOpcode at separates
  split at separates
  · cases separates
  · split at separates
    · cases separates
    · split at separates <;> first | rfl | cases separates

/-- What the questions of a chunk at a place have in common. -/
def Frame.Permits (frame : Frame) (op : Opcode) (separator : Option Nat)
    (query : SignatureQuery) : Prop :=
  query.Checked (frame.setup.flags.has Flags.lowS) frame.setup.inputIndex ∧
    (op ∈ [Opcode.checkSig, 0xad] →
      query.subScript = Script.ofChunks (frame.script.drop (afterSeparator separator)))

namespace Exec

variable {frame : Frame}

private theorem asks_run_permitted (strict : frame.setup.flags.has Flags.strictEncoding = true)
    (forkId : frame.setup.flags.has Flags.enableForkId = true) {chunk : Chunk}
    (other : chunk.op ≠ Opcode.codeSeparator) (separator : Option Nat)
    (earlier : List SignatureQuery) :
    Asks (frame.Permits chunk.op separator) separator earlier frame
      (run (Instruction.ofOpcode chunk.op) chunk) := by
  refine asks_run (mt Instruction.eq_codeSeparator_of_ofOpcode other) ?_ ?_ chunk
  · intro verifies isSingle
    exact asks_checkSig strict forkId fun query checked signed => ⟨checked, fun _ => signed⟩
  · intro verifies isMultiple
    refine asks_checkMultiSig fun context signature key script => ?_
    refine asks_checkOne strict forkId fun query checked _ _ => ⟨checked, fun isSingle => ?_⟩
    rcases List.mem_pair.mp isSingle with same | same
    · rw [same] at isMultiple
      cases isMultiple
    · rw [same] at isMultiple
      cases isMultiple

/-- Where the separator is and what has been asked after a chunk, also after one that failed. -/
private theorem left_chunk (strict : frame.setup.flags.has Flags.strictEncoding = true)
    (forkId : frame.setup.flags.has Flags.enableForkId = true) (chunk : Chunk) (state : State) :
    let left := Outcome.left (Exec.chunk chunk frame state)
    left.separator =
        (if runs chunk frame state && chunk.op = Opcode.codeSeparator then some frame.position
        else state.separator) ∧
      ∃ asked, left.queries = state.queries ++ asked ∧
        ∀ query ∈ asked, frame.Permits chunk.op state.separator query := by
  have prechecked : Outcome.Keeps
      (State.Asked (frame.Permits chunk.op state.separator) state.separator state.queries)
      (fun _ => True) (precheck (Instruction.ofOpcode chunk.op) chunk frame state) :=
    asks_precheck _ chunk state (.refl _ state)
  cases ran : precheck (Instruction.ofOpcode chunk.op) chunk frame state with
  | error fault next =>
      have refused : runs chunk frame state = false := by simp only [runs, ran]
      rw [ran] at prechecked
      rw [refused, chunk_of_refused ran]
      exact ⟨prechecked.1.separator, prechecked.1.queries⟩
  | ok _ middle =>
      have left : Exec.chunk chunk frame state =
          (if runs chunk frame state then run (Instruction.ofOpcode chunk.op) chunk
          else pure .next) frame middle := by
        simp only [chunk_of_passed ran, runs, ran]
      rw [ran] at prechecked
      rw [left]
      cases runs chunk frame state with
      | false => exact ⟨prechecked.separator, prechecked.queries⟩
      | true =>
          by_cases separates : chunk.op = Opcode.codeSeparator
          · rw [separates] at prechecked ⊢
            exact ⟨rfl, prechecked.queries⟩
          · have asked := Outcome.left_of_keeps
              (asks_run_permitted strict forkId separates _ _ middle prechecked)
            simp only [separates, decide_false, Bool.and_false, Bool.false_eq_true, if_false]
            exact ⟨asked.separator, asked.queries⟩

end Exec

/-! ## Runs -/

/-- What every step keeps of the machine and the visits that led to it. -/
structure Request.Traced (request : Request) (log : List Visit) (machine : Machine) : Prop where
  setup : ∃ unlocking locking, request.unlocking.chunks = .ok unlocking ∧
    request.locking.chunks = .ok locking ∧ machine.setup = request.setup unlocking locking
  begun : machine.phase = .unlocking → ∀ visit ∈ log, visit.phase = .unlocking
  separator : machine.state.separator = lastSeparator log machine.phase
  queries : machine.state.queries = log.flatMap Visit.asked
  located : ∀ visit ∈ log, request.Locates visit
  vouched : ∀ earlier visit later, log = earlier ++ visit :: later →
    ∀ query ∈ visit.asked, request.Vouches earlier visit query

private theorem lastSeparator_concat (log : List Visit) (visit : Visit) (phase : Phase) :
    lastSeparator (log ++ [visit]) phase =
      if visit.separates phase then some visit.position else lastSeparator log phase := by
  cases separates : visit.separates phase <;> simp [lastSeparator, separates]

private theorem lastSeparator_locking {log : List Visit}
    (before : ∀ visit ∈ log, visit.phase = .unlocking) : lastSeparator log .locking = none := by
  have none : log.filter (Visit.separates .locking) = [] := by
    refine List.filter_eq_nil_iff.mpr fun visit member => ?_
    simp [Visit.separates, before visit member]
  rw [lastSeparator, none]
  rfl

namespace Request

variable {request : Request}

private theorem effectiveFlags_strict (forkId : request.flags.has Flags.enableForkId = true) :
    request.effectiveFlags.has Flags.strictEncoding = true ∧
      request.effectiveFlags.has Flags.enableForkId = true ∧
      request.effectiveFlags.has Flags.lowS = request.flags.has Flags.lowS := by
  rw [effectiveFlags, if_pos forkId]
  refine ⟨?_, ?_, ?_⟩
  · rw [Flags.has_iff]
    intro position member
    simp [Flags.union, member]
  · rw [Flags.has_union_of_disjoint (by decide)]
    exact forkId
  · exact Flags.has_union_of_disjoint (by decide) request.flags

private theorem traced_start {machine : Machine} (started : request.start = .ok machine) :
    request.Traced [] machine := by
  obtain ⟨unlocking, locking, readUnlocking, readLocking, rfl⟩ := eq_initial_of_start started
  refine ⟨⟨unlocking, locking, chunks_of_readScript readUnlocking,
    chunks_of_readScript readLocking, rfl⟩, fun _ => List.forall_mem_nil _, rfl, rfl,
    List.forall_mem_nil _, ?_⟩
  intro earlier visit later same
  simp at same

theorem Traced.decoded {log : List Visit} {machine : Machine}
    (traced : request.Traced log machine) :
    (request.script machine.phase).chunks = .ok machine.script := by
  obtain ⟨unlocking, locking, readUnlocking, readLocking, same⟩ := traced.setup
  rw [Machine.script, same]
  cases machine.phase with
  | unlocking => exact readUnlocking
  | locking => exact readLocking

/-- A question about the rest of the running chunks is one about the rest of the script. -/
private theorem Traced.vouches {log : List Visit} {machine : Machine}
    (traced : request.Traced log machine)
    {visit : Visit} (samePhase : visit.phase = machine.phase) {query : SignatureQuery}
    (permitted : machine.frame.Permits visit.chunk.op machine.state.separator query)
    (lowS : machine.setup.flags.has Flags.lowS = request.flags.has Flags.lowS) :
    request.Vouches log visit query := by
  obtain ⟨checked, signed⟩ := permitted
  refine ⟨?_, fun isSingle => ?_⟩
  · have index : machine.frame.setup.inputIndex = request.inputIndex := by
      obtain ⟨unlocking, locking, -, -, same⟩ := traced.setup
      rw [Machine.frame, same]
      rfl
    rwa [index, Machine.frame, lowS] at checked
  · rw [signed isSingle, samePhase, ← traced.separator]
    exact Script.isRestAfter_drop traced.decoded _

/-- A record that ends with one more visit is split there or before. -/
private theorem split_concat {log earlier later : List Visit} {last visit : Visit}
    (same : log ++ [last] = earlier ++ visit :: later) :
    (earlier = log ∧ visit = last) ∨ ∃ between, log = earlier ++ visit :: between := by
  rcases List.eq_nil_or_concat later with rfl | ⟨between, final, rfl⟩
  · obtain ⟨sameLog, sameVisit⟩ := List.append_inj' same rfl
    simp only [List.cons.injEq, and_true] at sameVisit
    exact Or.inl ⟨sameLog.symm, sameVisit.symm⟩
  · rw [List.concat_eq_append, ← List.cons_append, ← List.append_assoc] at same
    exact Or.inr ⟨between, (List.append_inj' same rfl).1⟩

private theorem Traced.visitHere {log : List Visit} {machine : Machine}
    (traced : request.Traced log machine)
    (forkId : request.flags.has Flags.enableForkId = true) :
    request.Traced (log ++ machine.visitHere?.toList)
      (Outcome.left (Machine.runCurrent machine)) := by
  simp only [Machine.visitHere?]
  cases finished : machine.isFinished with
  | true => simpa [Machine.runCurrent, finished, Outcome.left] using traced
  | false =>
      cases here : machine.script[machine.position]? with
      | none => simpa [Machine.runCurrent, finished, here, Outcome.left] using traced
      | some chunk =>
          have flags : machine.frame.setup.flags = request.effectiveFlags := by
            obtain ⟨unlocking, locking, -, -, same⟩ := traced.setup
            rw [Machine.frame, same]
            rfl
          obtain ⟨strict, replayProtected, lowS⟩ := effectiveFlags_strict forkId
          rw [← flags] at strict replayProtected lowS
          obtain ⟨sameSetup, samePhase, sameState⟩ := Machine.left_runCurrent here
          obtain ⟨separator, asked, queries, permitted⟩ :=
            Exec.left_chunk strict replayProtected chunk machine.state
          rw [← sameState] at separator queries
          simp only [Bool.false_eq_true, if_false, Option.map_some, Option.toList_some, queries,
            List.drop_left]
          refine ⟨?_, ?_, ?_, ?_, ?_, ?_⟩
          · rw [sameSetup]
            exact traced.setup
          · rw [samePhase]
            intro unlocking visit member
            rcases List.mem_append.mp member with before | last
            · exact traced.begun unlocking visit before
            · rw [List.mem_singleton.mp last]
              exact unlocking
          · rw [separator, samePhase, lastSeparator_concat, traced.separator]
            simp [Visit.separates, Machine.frame]
          · rw [queries, traced.queries]
            simp
          · intro visit member
            rcases List.mem_append.mp member with before | last
            · exact traced.located visit before
            · rw [List.mem_singleton.mp last]
              exact ⟨machine.script, traced.decoded, here⟩
          · intro earlier visit later same query member
            rcases split_concat same with ⟨rfl, rfl⟩ | ⟨between, inside⟩
            · exact traced.vouches rfl (permitted query member) lowS
            · exact traced.vouched earlier visit between inside query member

theorem Traced.enterLocking {log : List Visit} {machine entered : Machine}
    (traced : request.Traced log machine) (isUnlocking : machine.phase = .unlocking)
    (enters : Machine.enterLocking machine = .ok () entered) : request.Traced log entered := by
  simp only [Machine.enterLocking] at enters
  split at enters
  · cases enters
    refine ⟨traced.setup, ?_, (lastSeparator_locking (traced.begun isUnlocking)).symm,
      traced.queries, traced.located, traced.vouched⟩
    intro unlocking
    cases unlocking
  · cases enters

theorem Traced.step {log : List Visit} {machine : Machine} (traced : request.Traced log machine)
    (forkId : request.flags.has Flags.enableForkId = true) :
    request.Traced (log ++ machine.visit?.toList) (Outcome.left (Machine.step machine)) := by
  rw [Machine.step, Machine.left_reporting, Machine.advance_eq, Machine.visit?]
  cases between : machine.isBetween with
  | false => exact traced.visitHere forkId
  | true =>
      have isUnlocking : machine.phase = .unlocking := by
        simp only [Machine.isBetween, Bool.and_eq_true, decide_eq_true_eq] at between
        exact between.1
      simp only [if_true, bind, EStateM.bind]
      cases enters : Machine.enterLocking machine with
      | ok _ entered => exact (traced.enterLocking isUnlocking enters).visitHere forkId
      | error fault next =>
          have same : next = machine := by
            simp only [Machine.enterLocking] at enters
            split at enters
            · cases enters
            · cases enters
              rfl
          simpa [same, Outcome.left] using traced

/-- The record holds every question of the calls, in order, and each has passed the checks. -/
theorem vouches_of_reachesBy {log : List Visit} {machine : Machine}
    (forkId : request.flags.has Flags.enableForkId = true)
    (reached : request.ReachesBy log machine) :
    machine.state.queries = log.flatMap Visit.asked ∧ (∀ visit ∈ log, request.Locates visit) ∧
      ∀ earlier visit later, log = earlier ++ visit :: later →
        ∀ query ∈ visit.asked, request.Vouches earlier visit query := by
  have traced : request.Traced log machine :=
    reached.induction (fun _ started => traced_start started) fun _ _ traced => traced.step forkId
  exact ⟨traced.queries, traced.located, traced.vouched⟩

/-- A signature and a key, a separator and a check. -/
def separatorThenCheck : Request where
  sourceTxid := Hash32.zero
  sourceIndex := 0
  unlocking := ⟨[0x09, 0x30, 0x06, 0x02, 0x01, 0x01, 0x02, 0x01, 0x01, 0x41] ++
    0x21 :: 0x02 :: List.replicate 32 0x00⟩
  locking := ⟨[0xab, 0xac]⟩
  context := some ⟨fun _ _ => .ok true, 0, 1, fun _ => 0⟩
  inputIndex := 3
  flags := Flags.enableForkId
  memoryLimit := 100

theorem separatorThenCheck_vouches : ∃ log machine,
    separatorThenCheck.ReachesBy log machine ∧
      machine.state.queries.map (·.subScript) = [⟨[0xac]⟩] ∧
      machine.state.queries = log.flatMap Visit.asked ∧
      (∀ visit ∈ log, separatorThenCheck.Locates visit) ∧
      ∀ earlier visit later, log = earlier ++ visit :: later →
        ∀ query ∈ visit.asked, separatorThenCheck.Vouches earlier visit query := by
  have started : separatorThenCheck.start = .ok (Machine.initial (separatorThenCheck.setup
      [⟨0x09, some [0x30, 0x06, 0x02, 0x01, 0x01, 0x02, 0x01, 0x01, 0x41]⟩,
        ⟨0x21, some (0x02 :: List.replicate 32 0x00)⟩]
      [⟨0xab, none⟩, ⟨0xac, none⟩])) := by cbv
  have reached := (ReachesBy.start started).call .validate
  exact ⟨_, _, reached, by cbv, vouches_of_reachesBy (by cbv) reached⟩

end Request

end Spend

end BitcoinSpend
