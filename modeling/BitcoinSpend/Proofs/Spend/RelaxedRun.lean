import Mathlib.Data.List.Basic
import BitcoinSpend.Proofs.Spend.RelaxedInstructions

/-!
# Acceptance under relaxed rules

What is accepted under some flags and a limit of memory stays accepted when
restrictive flags are taken away and the limit is raised, and the run leaves the
same items on both stacks. The two runs are in step: they stand at one place
after every chunk.
-/

set_option autoImplicit false

namespace BitcoinSpend.Spend

/-- Two machines at one place, the second under relaxed rules. -/
structure Machine.Relaxes (strict lax : Machine) : Prop where
  setup : strict.setup.Relaxes lax.setup
  phase : lax.phase = strict.phase
  position : lax.position = strict.position
  state : strict.state.Relaxes lax.state

namespace Machine

theorem Relaxes.frame {strict lax : Machine} (related : strict.Relaxes lax) :
    Frame.Relaxes ⟨strict.setup, strict.phase, strict.position⟩
      ⟨lax.setup, lax.phase, lax.position⟩ :=
  ⟨related.setup, related.phase, related.position⟩

theorem Relaxes.script {strict lax : Machine} (related : strict.Relaxes lax) :
    lax.script = strict.script := by
  simp only [Machine.script, related.phase, related.setup.script]

theorem Relaxes.isFinished {strict lax : Machine} (related : strict.Relaxes lax) :
    lax.isFinished = strict.isFinished := by
  simp only [Machine.isFinished, related.phase, related.position, related.setup.locking]

theorem Relaxes.isBetween {strict lax : Machine} (related : strict.Relaxes lax) :
    lax.isBetween = strict.isBetween := by
  simp only [Machine.isBetween, related.phase, related.position, related.setup.unlocking]

private theorem follows_enterLocking : Follows Relaxes enterLocking enterLocking := by
  intro strict lax related value next ran
  simp only [enterLocking, related.state.branches] at ran ⊢
  split at ran
  · next closed =>
      cases ran
      rw [if_pos closed]
      refine ⟨_, rfl, ⟨related.setup, rfl, rfl, ?_⟩⟩
      exact { related.state with
        branches := rfl
        separator := rfl
        opCount := rfl
        returned := rfl }
  · cases ran

private theorem follows_runChunk (chunk : Chunk) :
    Follows Relaxes (runChunk chunk) (runChunk chunk) := by
  intro strict lax related value next ran
  simp only [runChunk] at ran ⊢
  split at ran
  · next state ranChunk =>
      cases ran
      obtain ⟨state', ranChunk', agreed⟩ :=
        Exec.follows_chunk chunk related.frame related.state ranChunk
      rw [ranChunk']
      exact ⟨_, rfl, ⟨related.setup, related.phase, congrArg (· + 1) related.position, agreed⟩⟩
  · next state ranChunk =>
      cases ran
      obtain ⟨state', ranChunk', agreed⟩ :=
        Exec.follows_chunk chunk related.frame related.state ranChunk
      rw [ranChunk']
      exact ⟨_, rfl, ⟨related.setup, related.phase, congrArg List.length related.script, agreed⟩⟩
  · cases ran

private theorem follows_checkLimits : Follows Relaxes checkLimits checkLimits := by
  intro strict lax related value next ran
  have depths : lax.state.stack.depth + lax.state.alt.depth =
      strict.state.stack.depth + strict.state.alt.depth := by
    rw [related.state.stack.depth, related.state.alt.depth]
  have held : lax.state.stack.held + lax.state.alt.held =
      strict.state.stack.held + strict.state.alt.held := by
    rw [related.state.stack.held, related.state.alt.held]
  have enough := related.setup.memoryLimit
  simp only [checkLimits, related.setup.limits, depths, held] at ran ⊢
  split at ran
  · cases ran
  · next shallow =>
      split at ran
      · cases ran
      · next light =>
          cases ran
          rw [if_neg shallow, if_neg (by omega)]
          exact ⟨lax, rfl, related⟩

private theorem follows_runCurrent : Follows Relaxes runCurrent runCurrent := by
  intro strict lax related value next ran
  simp only [runCurrent, related.isFinished, related.script, related.position] at ran ⊢
  split at ran
  · next finished =>
      cases ran
      rw [if_pos finished]
      exact ⟨lax, rfl, related⟩
  · next unfinished =>
      rw [if_neg unfinished]
      cases found : strict.script[strict.position]? with
      | none =>
          rw [found] at ran
          cases ran
      | some chunk =>
          rw [found] at ran
          exact (follows_runChunk chunk).bind (fun _ => follows_checkLimits) related ran

private theorem follows_advance : Follows Relaxes advance advance := by
  refine .get_bind fun strict lax related => ?_
  rw [related.isBetween]
  split
  · exact follows_enterLocking.bind fun _ => follows_runCurrent
  · exact follows_runCurrent

private theorem follows_reporting {move : Move Unit} (follows : Follows Relaxes move move) :
    Follows Relaxes (reporting move) (reporting move) := by
  intro strict lax related value next ran
  simp only [reporting] at ran ⊢
  split at ran
  · next moved =>
      cases ran
      obtain ⟨next', moved', agreed⟩ := follows related moved
      rw [moved']
      exact ⟨next', rfl, agreed⟩
  · cases ran

private theorem follows_step : Follows Relaxes step step :=
  follows_reporting follows_advance

private theorem follows_runToEnd : Follows Relaxes runToEnd runToEnd := by
  intro strict
  -- The induction is on the first run, and the second takes the same steps.
  induction strict using runToEnd.induct with
  | case1 strict finished =>
      intro lax related value final ran
      rw [runToEnd_of_finished finished] at ran
      cases ran
      exact ⟨lax, runToEnd_of_finished (related.isFinished.trans finished), related⟩
  | case2 strict unfinished next stepped _ ih =>
      intro lax related value final ran
      obtain ⟨next', stepped', agreed⟩ := follows_step related stepped
      rw [runToEnd_of_step unfinished stepped] at ran
      rw [runToEnd_of_step (by rwa [related.isFinished]) stepped']
      exact ih agreed ran
  | case3 strict unfinished failure next stepped =>
      intro lax related value final ran
      rw [runToEnd_of_failed_step unfinished stepped] at ran
      cases ran

private theorem checkResult_of_relaxes {strict lax : State} {flags flags' : Flags}
    (related : strict.Relaxes lax) (relaxes : flags.Relaxes flags')
    (passed : checkResult strict flags = .ok ()) : checkResult lax flags' = .ok () := by
  simp only [checkResult, related.branches, related.stack.items] at passed ⊢
  split at passed
  · cases passed
  · next closed =>
      rw [if_neg closed]
      split at passed
      · cases passed
      · next top below items =>
          split at passed
          · cases passed
          · next clean =>
              have clean' : ¬(flags'.has Flags.cleanStack && !below.isEmpty) = true := by
                simp only [Bool.and_eq_true, not_and] at clean ⊢
                intro required
                exact clean (relaxes.fewer _ required)
              rw [if_neg clean']
              exact passed

private theorem follows_requireResult : Follows Relaxes requireResult requireResult := by
  intro strict lax related value next ran
  simp only [requireResult] at ran ⊢
  split at ran
  · next passed =>
      cases ran
      rw [checkResult_of_relaxes related.state related.setup.flags passed]
      exact ⟨lax, rfl, related⟩
  · cases ran

private theorem follows_validate : Follows Relaxes validate validate :=
  follows_runToEnd.bind fun _ => follows_reporting follows_requireResult

end Machine

/-! ## Requests -/

namespace Request

/-- The request starts a machine whose validation succeeds and leaves the final machine. -/
def Accepts (request : Request) (final : Machine) : Prop :=
  ∃ machine, request.start = .ok machine ∧ machine.validate = .ok () final

theorem validate_eq_ok_iff {request : Request} :
    request.validate = .ok () ↔ ∃ final, request.Accepts final := by
  constructor
  · intro valid
    simp only [validate] at valid
    split at valid
    · cases valid
    · next machine started =>
        split at valid
        · next final validated => exact ⟨final, machine, started, validated⟩
        · cases valid
  · intro ⟨final, machine, started, validated⟩
    simp only [validate, started, validated]

/-- The request with some flags taken away and another limit of memory. -/
def relaxed (request : Request) (removed : Flags) (limit : Nat) : Request :=
  { request with flags := request.flags.without removed, memoryLimit := limit }

variable {request : Request} {removed : Flags} {limit : Nat}

private theorem effectiveFlags_relaxes
    (allowed : (Flags.restrictive (request.flags.without removed)).has removed = true) :
    request.effectiveFlags.Relaxes (request.relaxed removed limit).effectiveFlags := by
  have relaxes := Flags.relaxes_without allowed
  simp only [effectiveFlags, relaxed, relaxes.forkId]
  split
  · exact relaxes.union_strictEncoding
  · exact relaxes

private theorem setup_relaxes
    (allowed : (Flags.restrictive (request.flags.without removed)).has removed = true)
    (enough : request.memoryLimit ≤ limit) (unlocking locking : List Chunk) :
    (request.setup unlocking locking).Relaxes
      ((request.relaxed removed limit).setup unlocking locking) where
  unlocking := rfl
  locking := rfl
  context := rfl
  inputIndex := rfl
  flags := effectiveFlags_relaxes allowed
  memoryLimit := enough

private theorem readScript_relaxed
    (allowed : (Flags.restrictive (request.flags.without removed)).has removed = true)
    (phase : Phase) (script : Script) :
    (request.relaxed removed limit).readScript phase script = request.readScript phase script := by
  have relaxes : request.effectiveFlags.Relaxes (request.relaxed removed limit).effectiveFlags :=
    effectiveFlags_relaxes allowed
  have limits : Limits.ofFlags (request.relaxed removed limit).effectiveFlags =
      Limits.ofFlags request.effectiveFlags := by
    simp only [Limits.ofFlags, relaxes.genesis]
  simp only [readScript, limits]

private theorem start_relaxed
    (allowed : (Flags.restrictive (request.flags.without removed)).has removed = true)
    (enough : request.memoryLimit ≤ limit) {machine : Machine}
    (started : request.start = .ok machine) :
    ∃ machine', (request.relaxed removed limit).start = .ok machine' ∧
      machine.Relaxes machine' := by
  have unlockingSame : (request.relaxed removed limit).unlocking = request.unlocking := rfl
  have lockingSame : (request.relaxed removed limit).locking = request.locking := rfl
  simp only [start, readScript_relaxed allowed, unlockingSame, lockingSame] at started ⊢
  split at started
  · cases started
  · next unlocking readUnlocking =>
      split at started
      · cases started
      · next locking readLocking =>
          have setups := setup_relaxes allowed enough unlocking locking
          split at started
          · cases started
          · next pushes =>
              cases started
              have pushes' : ¬((request.relaxed removed limit).effectiveFlags.has
                  Flags.signaturePushOnly && !unlocking.all Chunk.isPush) = true :=
                fun refused => pushes (setups.refuses_less refused)
              rw [if_neg pushes']
              exact ⟨_, rfl, ⟨setups, rfl, rfl, State.relaxes_initial setups⟩⟩

theorem accepts_relaxed {final : Machine} (accepted : request.Accepts final)
    (allowed : (Flags.restrictive (request.flags.without removed)).has removed = true)
    (enough : request.memoryLimit ≤ limit) :
    ∃ final', (request.relaxed removed limit).Accepts final' ∧
      final'.stack = final.stack ∧ final'.alt = final.alt := by
  obtain ⟨machine, started, validated⟩ := accepted
  obtain ⟨machine', started', related⟩ := start_relaxed allowed enough started
  obtain ⟨final', validated', agreed⟩ := Machine.follows_validate related validated
  refine ⟨final', ⟨machine', started', validated'⟩, ?_, ?_⟩
  · exact congrArg List.reverse agreed.state.stack.items
  · exact congrArg List.reverse agreed.state.alt.items

/-- A lock time check that holds and drops its operand, under flags that make it run. -/
def lockTimeHolds : Request where
  sourceTxid := Hash32.zero
  sourceIndex := 0
  unlocking := ⟨[0x52]⟩
  locking := ⟨[0x51, 0xb1, 0x75]⟩
  context := some ⟨fun _ _ => .ok false, 5, 2, fun _ => 0⟩
  inputIndex := 0
  flags := (Flags.checkLockTime.union Flags.minimalData).union Flags.cleanStack
  memoryLimit := 100

private def lockTimeStart : Machine :=
  Machine.initial
    (lockTimeHolds.setup [⟨0x52, none⟩] [⟨0x51, none⟩, ⟨0xb1, none⟩, ⟨0x75, none⟩])

private def lockTimeEnd : Machine :=
  { lockTimeStart with
    phase := .locking
    position := 3
    state := { lockTimeStart.state with stack := ⟨[[2]], 1, ⟨4, true⟩⟩, opCount := 2 } }

theorem lockTimeHolds_accepted_relaxed : ∃ final final' : Machine, lockTimeHolds.Accepts final ∧
    (lockTimeHolds.relaxed (Flags.checkLockTime.union Flags.cleanStack) 200).Accepts final' ∧
      final'.stack = final.stack ∧ final'.alt = final.alt := by
  have started : lockTimeHolds.start = .ok lockTimeStart := by cbv
  have validated : lockTimeStart.validate = .ok () lockTimeEnd := by cbv
  have accepted : lockTimeHolds.Accepts lockTimeEnd := ⟨lockTimeStart, started, validated⟩
  have allowed : (Flags.restrictive (lockTimeHolds.flags.without
      (Flags.checkLockTime.union Flags.cleanStack))).has
        (Flags.checkLockTime.union Flags.cleanStack) = true := by decide
  have enough : lockTimeHolds.memoryLimit ≤ 200 := by decide
  obtain ⟨final', accepted', same⟩ := accepts_relaxed accepted allowed enough
  exact ⟨lockTimeEnd, final', accepted, accepted', same⟩

end Request

end BitcoinSpend.Spend
