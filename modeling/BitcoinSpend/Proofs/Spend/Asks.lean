import BitcoinSpend.Proofs.Spend.Keeps
import BitcoinSpend.Proofs.Spend.KeySearch

/-!
# What instructions ask

Only the signature checks ask the transaction context about signatures, and only a
separator moves the separator. So the questions that an instruction asks, also one
that fails, can be judged by those of its signature checks.
-/

set_option autoImplicit false

namespace BitcoinSpend.Spend

/-- The separator has not moved, and the questions asked since have a property. -/
structure State.Asked (property : SignatureQuery → Prop) (separator : Option Nat)
    (earlier : List SignatureQuery) (state : State) : Prop where
  separator : state.separator = separator
  queries : ∃ asked, state.queries = earlier ++ asked ∧ ∀ query ∈ asked, property query

/-- A part of an instruction leaves the separator and asks only questions with a property. -/
abbrev Exec.Asks {α : Type} (property : SignatureQuery → Prop) (separator : Option Nat)
    (earlier : List SignatureQuery) (frame : Frame) (op : Exec α) : Prop :=
  Exec.Keeps (State.Asked property separator earlier) (fun _ => True) frame op

theorem State.Asked.refl (property : SignatureQuery → Prop) (state : State) :
    state.Asked property state.separator state.queries where
  separator := rfl
  queries := ⟨[], (List.append_nil _).symm, nofun⟩

/-- A change of anything else is not seen. -/
theorem State.Asked.congr {property : SignatureQuery → Prop} {separator : Option Nat}
    {earlier : List SignatureQuery} {state next : State}
    (asked : state.Asked property separator earlier)
    (sameSeparator : next.separator = state.separator)
    (sameQueries : next.queries = state.queries) : next.Asked property separator earlier where
  separator := sameSeparator.trans asked.separator
  queries := sameQueries ▸ asked.queries

namespace Exec

variable {property : SignatureQuery → Prop} {separator : Option Nat}
  {earlier : List SignatureQuery} {frame : Frame}

theorem asks_onStack {α : Type} (op : StackM α) :
    Asks property separator earlier frame (onStack op) := by
  intro state asked
  simp only [onStack]
  cases op state.stack with
  | ok value stack => exact asked.congr rfl rfl
  | error fault stack => exact ⟨asked.congr rfl rfl, trivial⟩

private theorem asks_onAlt {α : Type} (op : StackM α) :
    Asks property separator earlier frame (onAlt op) := by
  intro state asked
  simp only [onAlt]
  cases op state.alt with
  | ok value stack => exact asked.congr rfl rfl
  | error fault stack => exact ⟨asked.congr rfl rfl, trivial⟩

theorem asks_refuse (condition : Bool) (fault : Fault) :
    Asks property separator earlier frame (refuse condition fault) :=
  .refuse fun _ => trivial

private theorem asks_ofExcept {α : Type} (result : Except Fault α) :
    Asks property separator earlier frame (MonadExcept.ofExcept result) :=
  .ofExcept fun _ _ => trivial

private theorem asks_get : Asks property separator earlier frame (get : Exec State) := by
  intro state asked
  exact asked

private theorem asks_setup : Asks property separator earlier frame setup :=
  .setup_bind (.pure _)

private theorem asks_hasFlag (flag : Flags) :
    Asks property separator earlier frame (hasFlag flag) :=
  asks_setup.bind fun _ => .pure _

theorem asks_requireContext (instruction : String) :
    Asks property separator earlier frame (requireContext instruction) := by
  refine .setup_bind ?_
  split
  · exact .pure _
  · exact .throw trivial

/-! ## Conditionals -/

private theorem asks_isExecuting : Asks property separator earlier frame isExecuting :=
  asks_setup.bind fun _ => asks_get.bind fun _ => .pure _

private theorem asks_popCondition : Asks property separator earlier frame popCondition := by
  refine (asks_hasFlag _).bind fun minimal => .ite (fun _ => ?_) fun _ => asks_onStack _
  refine (asks_onStack _).bind fun item => ?_
  split
  · exact .pure false
  · exact .ite (fun _ => .pure true) fun _ => .throw trivial
  · exact .throw trivial

private theorem asks_beginIf (negated : Bool) :
    Asks property separator earlier frame (beginIf negated) := by
  have chosen : Asks property separator earlier frame (chooseBranch negated) :=
    asks_isExecuting.bind fun _ =>
      .ite (fun _ => asks_popCondition.bind fun _ => .pure _) fun _ => .pure _
  exact chosen.bind fun taken => .modify fun state asked => asked.congr rfl rfl

private theorem asks_switchBranch : Asks property separator earlier frame switchBranch := by
  refine .get_run fun state asked => ?_
  cases state.branches with
  | nil => exact ⟨asked, trivial⟩
  | cons taken outer =>
      cases state.switched with
      | nil => exact ⟨asked, trivial⟩
      | cons switched outerSwitched =>
          cases switched with
          | true => exact ⟨asked, trivial⟩
          | false => exact asked.congr rfl rfl

private theorem asks_endIf : Asks property separator earlier frame endIf := by
  refine .get_run fun state asked => ?_
  cases state.branches with
  | nil => exact ⟨asked, trivial⟩
  | cons taken outer => exact asked.congr rfl rfl

private theorem asks_verify (kind : VerifyKind) (op : Opcode) :
    Asks property separator earlier frame (verify kind op) :=
  (asks_onStack _).bind fun _ => asks_refuse _ _

private theorem asks_upgradableNop (op : Opcode) :
    Asks property separator earlier frame (upgradableNop op) :=
  (asks_hasFlag _).bind fun _ => asks_refuse _ _

private theorem asks_returnEarly : Asks property separator earlier frame returnEarly := by
  refine asks_setup.bind fun _ => (asks_refuse _ _).bind fun _ => ?_
  refine .bind (.modify fun state asked => asked.congr rfl rfl) fun _ => ?_
  exact asks_get.bind fun _ => .pure _

/-! ## Numbers, strings and lock times -/

private theorem asks_unary (op : Unary) : Asks property separator earlier frame (unary op) :=
  (asks_onStack _).bind fun _ => asks_onStack _

private theorem asks_binary (op : Binary) : Asks property separator earlier frame (binary op) := by
  refine (asks_onStack _).bind fun right => (asks_onStack _).bind fun left => ?_
  exact (asks_ofExcept _).bind fun value => asks_onStack _

private theorem asks_relation (op : Relation) :
    Asks property separator earlier frame (relation op) :=
  (asks_onStack _).bind fun _ => (asks_onStack _).bind fun _ => asks_onStack _

private theorem asks_within : Asks property separator earlier frame within := by
  refine (asks_onStack _).bind fun upper => (asks_onStack _).bind fun lower => ?_
  exact (asks_onStack _).bind fun value => asks_onStack _

private theorem asks_shift (direction : Direction) :
    Asks property separator earlier frame (shift direction) := by
  refine (asks_onStack _).bind fun amount => (asks_onStack _).bind fun bytes => ?_
  refine (asks_refuse _ _).bind fun _ => .ite (fun _ => asks_onStack _) fun _ => ?_
  exact (asks_ofExcept _).bind fun shifted => asks_onStack _

private theorem asks_toAlt : Asks property separator earlier frame toAlt :=
  (asks_onStack _).bind fun _ => asks_onAlt _

private theorem asks_fromAlt : Asks property separator earlier frame fromAlt :=
  (asks_onAlt _).bind fun _ => asks_onStack _

private theorem asks_dupIfTrue : Asks property separator earlier frame dupIfTrue :=
  (asks_onStack _).bind fun _ => .ite (fun _ => asks_onStack _) fun _ => .pure ()

private theorem asks_depth : Asks property separator earlier frame depth :=
  asks_get.bind fun _ => asks_onStack _

private theorem asks_popIndex : Asks property separator earlier frame popIndex := by
  refine (asks_onStack _).bind fun index => asks_get.bind fun state => ?_
  exact (asks_refuse _ _).bind fun _ => .pure _

private theorem asks_pick : Asks property separator earlier frame pick :=
  asks_popIndex.bind fun _ => asks_onStack _

private theorem asks_roll : Asks property separator earlier frame roll :=
  asks_popIndex.bind fun _ => asks_onStack _

private theorem asks_nip : Asks property separator earlier frame nip :=
  (asks_onStack _).bind fun _ => .pure ()

private theorem asks_cat : Asks property separator earlier frame cat := by
  refine asks_setup.bind fun _ => (asks_onStack _).bind fun right => ?_
  refine (asks_onStack _).bind fun left => ?_
  exact (asks_refuse _ _).bind fun _ => asks_onStack _

private theorem asks_split : Asks property separator earlier frame split := by
  refine (asks_onStack _).bind fun position => (asks_onStack _).bind fun bytes => ?_
  refine (asks_refuse _ _).bind fun _ => (asks_refuse _ _).bind fun _ => ?_
  refine (asks_ofExcept _).bind fun tail => ?_
  exact (asks_onStack _).bind fun _ => asks_onStack _

private theorem asks_numToBin : Asks property separator earlier frame numToBin := by
  refine asks_setup.bind fun _ => (asks_onStack _).bind fun size => ?_
  refine (asks_onStack _).bind fun bytes => (asks_refuse _ _).bind fun _ => ?_
  refine (asks_refuse _ _).bind fun _ => asks_get.bind fun state => ?_
  refine (asks_refuse _ _).bind fun _ => (asks_refuse _ _).bind fun _ => ?_
  refine .ite (fun _ => asks_onStack _) fun _ => ?_
  exact (asks_ofExcept _).bind fun widened => asks_onStack _

private theorem asks_binToNum : Asks property separator earlier frame binToNum := by
  refine asks_setup.bind fun _ => (asks_onStack _).bind fun bytes => ?_
  exact (asks_refuse _ _).bind fun _ => asks_onStack _

private theorem asks_size : Asks property separator earlier frame size :=
  (asks_onStack _).bind fun _ => asks_onStack _

private theorem asks_invert : Asks property separator earlier frame invert :=
  (asks_onStack _).bind fun _ => asks_onStack _

private theorem asks_bitwise (op : Bitwise) :
    Asks property separator earlier frame (bitwise op) := by
  refine (asks_onStack _).bind fun right => (asks_onStack _).bind fun left => ?_
  exact (asks_refuse _ _).bind fun _ => asks_onStack _

private theorem asks_equal : Asks property separator earlier frame equal :=
  (asks_onStack _).bind fun _ => (asks_onStack _).bind fun _ => asks_onStack _

private theorem asks_peekLockTime (operand : String) :
    Asks property separator earlier frame (peekLockTime operand) := by
  refine (asks_onStack _).bind fun item => (asks_onStack _).bind fun value => ?_
  exact (asks_refuse _ _).bind fun _ => .pure _

private theorem asks_checkLockTime : Asks property separator earlier frame checkLockTime := by
  refine asks_setup.bind fun _ => .ite (fun _ => asks_upgradableNop _) fun _ => ?_
  refine asks_setup.bind fun _ => (asks_requireContext _).bind fun context => ?_
  refine (asks_peekLockTime _).bind fun required => ?_
  exact (asks_ofExcept _).bind fun _ => asks_refuse _ _

private theorem asks_checkSequence : Asks property separator earlier frame checkSequence := by
  refine asks_setup.bind fun _ => .ite (fun _ => asks_upgradableNop _) fun _ => ?_
  refine asks_setup.bind fun _ => (asks_requireContext _).bind fun context => ?_
  refine (asks_peekLockTime _).bind fun required => .ite (fun _ => ?_) fun _ => .pure ()
  refine (asks_refuse _ _).bind fun _ => (asks_refuse _ _).bind fun _ => ?_
  exact asks_ofExcept _

/-! ## Digests, counting and pushes -/

private theorem asks_digest (algorithm : Digest.Algorithm) :
    Asks property separator earlier frame (digest algorithm) :=
  (asks_onStack _).bind fun _ => asks_onStack _

private theorem asks_countOps (count : Nat) :
    Asks property separator earlier frame (countOps count) := by
  refine asks_setup.bind fun _ => .bind (.modify fun state asked => asked.congr rfl rfl) fun _ => ?_
  exact asks_get.bind fun _ => asks_refuse _ _

private theorem asks_popKeys : Asks property separator earlier frame popKeys := by
  refine asks_setup.bind fun _ => (asks_onStack _).bind fun count => ?_
  refine (asks_refuse _ _).bind fun _ => asks_get.bind fun state => ?_
  refine (asks_refuse _ _).bind fun _ => (asks_countOps _).bind fun _ => ?_
  exact asks_onStack _

private theorem asks_popSignatures (keyCount : Nat) :
    Asks property separator earlier frame (popSignatures keyCount) := by
  refine (asks_onStack _).bind fun count => (asks_refuse _ _).bind fun _ => ?_
  exact asks_onStack _

private theorem asks_pushChunk (chunk : Chunk) :
    Asks property separator earlier frame (pushChunk chunk) := by
  refine (asks_hasFlag _).bind fun minimal => (asks_refuse _ _).bind fun _ => ?_
  split
  · exact asks_onStack _
  · exact .pure ()

theorem asks_precheck (instruction : Instruction) (chunk : Chunk) :
    Asks property separator earlier frame (precheck instruction chunk) := by
  refine asks_setup.bind fun _ => (asks_refuse _ _).bind fun _ => asks_isExecuting.bind fun _ => ?_
  refine (asks_refuse _ _).bind fun _ => (asks_refuse _ _).bind fun _ => ?_
  exact .ite (fun _ => asks_countOps 1) fun _ => .pure ()

/-! ## Signature checks -/

private theorem asks_then_verify {op : Exec Unit} (asks : Asks property separator earlier frame op)
    (verifies : Bool) (kind : VerifyKind) (opcode : Opcode) :
    Asks property separator earlier frame (do op; if verifies then verify kind opcode) :=
  asks.bind fun _ => .ite (fun _ => asks_verify kind opcode) fun _ => .pure ()

theorem asks_ask {context : TxContext} {query : SignatureQuery} (permitted : property query) :
    Asks property separator earlier frame (ask context query) := by
  intro state asked
  obtain ⟨since, queries, permittedSince⟩ := asked.queries
  refine ⟨asked.separator, since ++ [query], ?_, ?_⟩
  · rw [← List.append_assoc, ← queries]
  · intro other member
    rcases List.mem_append.mp member with before | last
    · exact permittedSince other before
    · cases List.mem_singleton.mp last
      exact permitted

/-- The search asks what its checks of one signature ask. -/
private theorem asks_matchSignatures {context : TxContext} {script : Script}
    (one : ∀ signature key, Asks property separator earlier frame
      (checkOne context signature key script)) (keys signatures : List Bytes) :
    Asks property separator earlier frame (matchSignatures context script keys signatures) :=
  matchSignatures_of_closed (Asks property separator earlier frame) .pure
    (fun signature key _ asks => (one signature key).bind asks) keys signatures

theorem asks_checkMultiSig
    (one : ∀ context signature key script, Asks property separator earlier frame
      (checkOne context signature key script)) :
    Asks property separator earlier frame checkMultiSig := by
  refine asks_setup.bind fun setup => asks_popKeys.bind fun keys => ?_
  refine (asks_popSignatures _).bind fun signatures => (asks_onStack _).bind fun dummy => ?_
  refine (asks_refuse _ _).bind fun _ => .ite (fun _ => asks_onStack _) fun _ => ?_
  refine (asks_requireContext _).bind fun context => ?_
  refine .bind (.read_bind (asks_get.bind fun state => asks_ofExcept _)) fun script => ?_
  refine (asks_matchSignatures (one context · · script) keys signatures).bind fun valid => ?_
  exact (asks_refuse _ _).bind fun _ => asks_onStack _

/-- An instruction asks what its signature check asks. -/
private theorem asks_runStraight {instruction : Instruction} (other : instruction ≠ .codeSeparator)
    (single : ∀ verifies, instruction = .checkSig verifies →
      Asks property separator earlier frame checkSig)
    (multiple : ∀ verifies, instruction = .checkMultiSig verifies →
      Asks property separator earlier frame checkMultiSig) (chunk : Chunk) :
    Asks property separator earlier frame (runStraight instruction chunk) := by
  cases instruction with
  | push => exact asks_pushChunk chunk
  | nop | returnEarly => exact .pure ()
  | upgradableNop => exact asks_upgradableNop _
  | beginIf negated => exact asks_beginIf negated
  | switchBranch => exact asks_switchBranch
  | endIf => exact asks_endIf
  | verify => exact asks_verify _ _
  | checkLockTime => exact asks_checkLockTime
  | checkSequence => exact asks_checkSequence
  | toAlt => exact asks_toAlt
  | fromAlt => exact asks_fromAlt
  | dropBlock | dupBlock | overBlock | rotBlock | swapBlock | tuck => exact asks_onStack _
  | dupIfTrue => exact asks_dupIfTrue
  | depth => exact asks_depth
  | nip => exact asks_nip
  | pick => exact asks_pick
  | roll => exact asks_roll
  | cat => exact asks_cat
  | split => exact asks_split
  | numToBin => exact asks_numToBin
  | binToNum => exact asks_binToNum
  | size => exact asks_size
  | invert => exact asks_invert
  | bitwise operation => exact asks_bitwise operation
  | equal verifies => exact asks_then_verify asks_equal verifies _ _
  | unary operation => exact asks_unary operation
  | binary operation => exact asks_binary operation
  | relation operation => exact asks_relation operation
  | numEqualVerify => exact (asks_relation .equal).bind fun _ => asks_verify _ _
  | within => exact asks_within
  | shift direction => exact asks_shift direction
  | digest algorithm => exact asks_digest algorithm
  | codeSeparator => exact absurd rfl other
  | checkSig verifies => exact asks_then_verify (single verifies rfl) verifies _ _
  | checkMultiSig verifies => exact asks_then_verify (multiple verifies rfl) verifies _ _
  | disabled | reservedConditional | reserved | unassigned => exact .throw trivial

theorem asks_run {instruction : Instruction} (other : instruction ≠ .codeSeparator)
    (single : ∀ verifies, instruction = .checkSig verifies →
      Asks property separator earlier frame checkSig)
    (multiple : ∀ verifies, instruction = .checkMultiSig verifies →
      Asks property separator earlier frame checkMultiSig) (chunk : Chunk) :
    Asks property separator earlier frame (run instruction chunk) :=
  .ite (fun _ => asks_returnEarly) fun _ =>
    (asks_runStraight other single multiple chunk).bind fun _ => .pure Flow.next

end Exec

end BitcoinSpend.Spend
