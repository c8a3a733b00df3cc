import BitcoinSpend.Proofs.ExceptProperties
import BitcoinSpend.Proofs.Spend.StandardSpend
import BitcoinSpend.Transaction.Verify

/-!
# Verification of an ancestry

Verification succeeds where a list of transactions, one for each identifier met,
is justified: each is anchored, or passes its own checks and has all its sources
in the list. The walk finds such a list or a transaction without justification.
A spend of two outputs of a mined transaction shows both halves.
-/

set_option autoImplicit false

namespace BitcoinSpend.Transaction

open Merkle (Tracker)

/-! ## Inputs evaluated apart -/

theorem evaluateApart_eq (tx : Transaction) (options : VerifyOptions) :
    tx.evaluateApart options = tx.evaluateInOrder options := by
  simp only [evaluateApart, evaluateInOrder]
  induction tx.inputs.zipIdx with
  | nil => rfl
  | cons input rest ih =>
      simp only [List.map_cons, List.forM, ih]
      rfl

theorem evaluateInputs_eq (tx : Transaction) (options : VerifyOptions) :
    tx.evaluateInputs options = tx.evaluateInOrder options := by
  simp only [evaluateInputs, evaluateApart_eq, ite_self]

private theorem checkUnanchored_parallel (tx : Transaction) (options : VerifyOptions)
    (parallel : Bool) :
    tx.checkUnanchored { options with parallel := parallel } = tx.checkUnanchored options := by
  simp only [checkUnanchored, evaluateInputs_eq]
  rfl

private theorem verifyQueue_parallel {m : Type → Type} [Monad m] (tracker : Tracker m)
    (options : VerifyOptions) (parallel : Bool) (visited : List Hash32) (queue : List Transaction) :
    verifyQueue tracker { options with parallel := parallel } visited queue =
      verifyQueue tracker options visited queue := by
  induction visited, queue using verifyQueue.induct with
  | case1 visited => rw [verifyQueue, verifyQueue]
  | case2 visited tx rest member ih =>
      rw [verifyQueue, verifyQueue]
      simp only [if_pos member, ih]
  | case3 visited tx rest fresh ih1 ih2 =>
      rw [verifyQueue, verifyQueue]
      simp only [if_neg fresh, checkUnanchored_parallel, ih1, ih2]
      rfl

/-! ## One transaction -/

/-- The transaction has a Merkle path that is trusted, or whose root is the chain's. -/
def Anchored (tx : Transaction) (tracker : Tracker Id) (options : VerifyOptions) : Prop :=
  ∃ path, tx.path = some path ∧ (options.scriptsOnly = true ∨
    ∃ root, path.root (some tx.txid) = .ok root ∧
      tracker.isRoot root path.blockHeight = .ok true)

/-- The scripts of an input succeed. -/
def InputPasses (tx : Transaction) (options : VerifyOptions) (input : Input) (index : Nat) : Prop :=
  ∃ spent unlocking, input.sourceOutput index = .ok spent ∧ input.unlocking = some unlocking ∧
    (tx.spendRequest index input spent unlocking options.flags options.memoryLimit).validate =
      .ok ()

/-- The transaction's own checks: known sources, no more made than taken, and scripts that
succeed. -/
structure Passes (tx : Transaction) (options : VerifyOptions) : Prop where
  resolved : ∀ (index : Nat) (input : Input), tx.inputs[index]? = some input →
    ∃ spent, input.sourceOutput index = .ok spent
  fee : ∃ fee, tx.paidFee = .ok fee
  scripts : ∀ (index : Nat) (input : Input), tx.inputs[index]? = some input →
    tx.InputPasses options input index

private theorem isAnchored_asked {tx : Transaction} {path : Merkle.Path} {options : VerifyOptions}
    (carried : tx.path = some path) (asked : options.scriptsOnly = false) (tracker : Tracker Id) :
    (tx.isAnchored tracker options).run =
      match path.root (some tx.txid) with
      | .error _ => .ok false
      | .ok root => Except.mapError .merkle (tracker.isRoot root path.blockHeight) := by
  simp only [isAnchored, carried, asked, Merkle.Path.verify]
  cases path.root (some tx.txid) with
  | error cause => rfl
  | ok root => rfl

theorem isAnchored_eq_true_iff {tx : Transaction} {tracker : Tracker Id} {options : VerifyOptions} :
    (tx.isAnchored tracker options).run = .ok true ↔ tx.Anchored tracker options := by
  cases carried : tx.path with
  | none =>
      constructor
      · intro anchored
        simp only [isAnchored, carried] at anchored
        cases anchored
      · rintro ⟨path, found, _⟩
        rw [carried] at found
        cases found
  | some path =>
      cases trusted : options.scriptsOnly with
      | true =>
          constructor
          · intro _
            exact ⟨path, carried, Or.inl trusted⟩
          · intro _
            simp only [isAnchored, carried, trusted]
            rfl
      | false =>
          rw [isAnchored_asked carried trusted]
          simp only [Anchored, carried, Option.some.injEq, exists_eq_left', trusted,
            Bool.false_eq_true, false_or]
          cases path.root (some tx.txid) with
          | error cause =>
              constructor
              · intro anchored
                cases anchored
              · rintro ⟨root, climbed, _⟩
                cases climbed
          | ok root =>
              simp only [Except.ok.injEq, exists_eq_left']
              exact mapError_eq_ok_iff

/-- A tracker that never fails says of every transaction whether it is anchored. -/
private theorem isAnchored_of_answers {tracker : Tracker Id}
    (answers : ∀ root height, ∃ known, tracker.isRoot root height = .ok known)
    (tx : Transaction) (options : VerifyOptions) :
    ∃ anchored, (tx.isAnchored tracker options).run = .ok anchored := by
  cases carried : tx.path with
  | none => exact ⟨false, by simp only [isAnchored, carried]; rfl⟩
  | some path =>
      cases trusted : options.scriptsOnly with
      | true => exact ⟨true, by simp only [isAnchored, carried, trusted]; rfl⟩
      | false =>
          rw [isAnchored_asked carried trusted]
          cases path.root (some tx.txid) with
          | error cause => exact ⟨false, rfl⟩
          | ok root =>
              obtain ⟨known, answered⟩ := answers root path.blockHeight
              exact ⟨known, mapError_eq_ok_iff.mpr answered⟩

theorem requireSource_eq_ok_iff {tx : Transaction} {input : Input} {index : Nat} :
    tx.requireSource input index = .ok () ↔ ∃ spent, input.sourceOutput index = .ok spent := by
  simp only [requireSource]
  split
  · next spent found => exact ⟨fun _ => ⟨spent, found⟩, fun _ => rfl⟩
  · next failed => simp [failed]
  · next failed => simp [failed]

theorem evaluateInput_eq_ok_iff {tx : Transaction} {options : VerifyOptions} {input : Input}
    {index : Nat} : tx.evaluateInput options.flags options.memoryLimit input index = .ok () ↔
      tx.InputPasses options input index := by
  simp only [evaluateInput, bind_eq_ok_iff, InputPasses]
  refine exists_congr fun spent => ?_
  cases input.unlocking with
  | none => simp
  | some unlocking => simp [mapError_eq_ok_iff]

theorem checkUnanchored_eq_ok_iff {tx : Transaction} {options : VerifyOptions} :
    tx.checkUnanchored options = .ok () ↔ tx.Passes options := by
  simp only [checkUnanchored, evaluateInputs_eq, evaluateInOrder, bind_eq_ok_iff, forM_eq_ok_iff,
    forall_mem_zipIdx_iff, requireSource_eq_ok_iff, evaluateInput_eq_ok_iff]
  constructor
  · rintro ⟨_, resolved, fee, paid, scripts⟩
    exact ⟨resolved, ⟨fee, paid⟩, scripts⟩
  · rintro ⟨resolved, ⟨fee, paid⟩, scripts⟩
    exact ⟨(), resolved, fee, paid, scripts⟩

/-! ## The walk -/

section Walk

variable {tracker : Tracker Id} {options : VerifyOptions} {seen : List Hash32} {tx : Transaction}
  {rest : List Transaction}

private theorem verifyQueue_nil : (verifyQueue tracker options seen []).run = .ok () := by
  rw [verifyQueue]
  rfl

private theorem verifyQueue_of_mem (member : tx.txid ∈ seen) :
    verifyQueue tracker options seen (tx :: rest) = verifyQueue tracker options seen rest := by
  rw [verifyQueue, if_pos member]

private theorem verifyQueue_of_not_mem (fresh : tx.txid ∉ seen) :
    (verifyQueue tracker options seen (tx :: rest)).run =
      match (tx.isAnchored tracker options).run with
      | .error cause => .error cause
      | .ok true => (verifyQueue tracker options (tx.txid :: seen) rest).run
      | .ok false =>
          (tx.checkUnanchored options).bind fun _ =>
            (verifyQueue tracker options (tx.txid :: seen) (rest ++ tx.sources)).run := by
  rw [verifyQueue, if_neg fresh]
  simp only [ExceptT.run_bind]
  cases (tx.isAnchored tracker options).run with
  | error cause => rfl
  | ok anchored =>
      cases anchored with
      | true => rfl
      | false =>
          cases tx.checkUnanchored options with
          | error cause => rfl
          | ok passed => rfl

/-- A transaction that succeeds where the walk meets it first is anchored, or passes its own checks
and has its sources follow. -/
private theorem verifyQueue_of_not_mem_eq_ok (fresh : tx.txid ∉ seen)
    (verified : (verifyQueue tracker options seen (tx :: rest)).run = .ok ()) :
    (tx.Anchored tracker options ∧
      (verifyQueue tracker options (tx.txid :: seen) rest).run = .ok ()) ∨
    (tx.Passes options ∧
      (verifyQueue tracker options (tx.txid :: seen) (rest ++ tx.sources)).run = .ok ()) := by
  rw [verifyQueue_of_not_mem fresh] at verified
  split at verified
  · cases verified
  · next anchored => exact Or.inl ⟨isAnchored_eq_true_iff.mp anchored, verified⟩
  · obtain ⟨_, passed, later⟩ := bind_eq_ok_iff.mp verified
    exact Or.inr ⟨checkUnanchored_eq_ok_iff.mp passed, later⟩

/-- The transactions that a walk over a queue finds, where it succeeds: one for each identifier that
it had not seen, each justified by the chain or by what was found and seen. -/
structure Findings (tracker : Tracker Id) (options : VerifyOptions) (seen : List Hash32)
    (queue found : List Transaction) : Prop where
  distinct : (found.map txid).Nodup
  fresh : ∀ t ∈ found, t.txid ∉ seen
  covers : ∀ t ∈ queue, t.txid ∈ seen ∨ t.txid ∈ found.map txid
  justified : ∀ t ∈ found, t.Anchored tracker options ∨
    (t.Passes options ∧ ∀ source ∈ t.sources, source.txid ∈ seen ∨ source.txid ∈ found.map txid)

theorem Findings.nil : Findings tracker options seen [] [] := by
  constructor <;> simp

theorem Findings.skip {found : List Transaction}
    (findings : Findings tracker options seen rest found) (member : tx.txid ∈ seen) :
    Findings tracker options seen (tx :: rest) found where
  distinct := findings.distinct
  fresh := findings.fresh
  covers := List.forall_mem_cons.mpr ⟨Or.inl member, findings.covers⟩
  justified := findings.justified

/-- What was seen or found after a transaction was seen or found before, or is that transaction. -/
private theorem mem_of_mem_cons {found : List Transaction} {id : Hash32}
    (member : id ∈ tx.txid :: seen ∨ id ∈ found.map txid) :
    id ∈ seen ∨ id ∈ (tx :: found).map txid := by
  rw [List.map_cons, List.mem_cons]
  rcases member with before | after
  · rcases List.mem_cons.mp before with same | before
    · exact Or.inr (Or.inl same)
    · exact Or.inl before
  · exact Or.inr (Or.inr after)

theorem Findings.cons {queue found : List Transaction}
    (findings : Findings tracker options (tx.txid :: seen) queue found) (fresh : tx.txid ∉ seen)
    (included : rest ⊆ queue)
    (justified : tx.Anchored tracker options ∨ (tx.Passes options ∧ tx.sources ⊆ queue)) :
    Findings tracker options seen (tx :: rest) (tx :: found) where
  distinct := by
    refine List.nodup_cons.mpr ⟨?_, findings.distinct⟩
    intro again
    obtain ⟨t, member, same⟩ := List.mem_map.mp again
    refine findings.fresh t member ?_
    rw [same]
    exact List.mem_cons_self
  fresh := by
    intro t member before
    rcases List.mem_cons.mp member with rfl | later
    · exact fresh before
    · exact findings.fresh t later (List.mem_cons_of_mem _ before)
  covers := by
    intro t member
    rcases List.mem_cons.mp member with rfl | later
    · exact Or.inr List.mem_cons_self
    · exact mem_of_mem_cons (findings.covers t (included later))
  justified := by
    intro t member
    rcases List.mem_cons.mp member with rfl | later
    · exact justified.imp id fun ⟨passes, sources⟩ =>
        ⟨passes, fun source inside => mem_of_mem_cons (findings.covers source (sources inside))⟩
    · exact (findings.justified t later).imp id fun ⟨passes, sources⟩ =>
        ⟨passes, fun source inside => mem_of_mem_cons (sources source inside)⟩

private theorem findings_of_verifyQueue {queue : List Transaction}
    (verified : (verifyQueue tracker options seen queue).run = .ok ()) :
    ∃ found, Findings tracker options seen queue found := by
  -- Along the walk: what the rest of it finds, with the transaction in front where that is new.
  induction seen, queue using verifyQueue.induct with
  | case1 seen => exact ⟨[], .nil⟩
  | case2 seen tx rest member ih =>
      rw [verifyQueue_of_mem member] at verified
      obtain ⟨found, findings⟩ := ih verified
      exact ⟨found, findings.skip member⟩
  | case3 seen tx rest fresh anchoredIh passedIh =>
      rcases verifyQueue_of_not_mem_eq_ok fresh verified with ⟨anchored, later⟩ | ⟨passes, later⟩
      · obtain ⟨found, findings⟩ := anchoredIh later
        exact ⟨tx :: found, findings.cons fresh (List.Subset.refl _) (Or.inl anchored)⟩
      · obtain ⟨found, findings⟩ := passedIh later
        exact ⟨tx :: found, findings.cons fresh (List.subset_append_left _ _)
          (Or.inr ⟨passes, List.subset_append_right _ _⟩)⟩

/-- A transaction or one that its inputs lead to through their sources. -/
inductive Ancestor (tx : Transaction) : Transaction → Prop where
  | self : Ancestor tx tx
  | source {t source : Transaction} (ancestor : Ancestor tx t) (member : source ∈ t.sources) :
      Ancestor tx source

private theorem Ancestor.of_source {source t : Transaction} (member : source ∈ tx.sources)
    (ancestor : source.Ancestor t) : tx.Ancestor t := by
  induction ancestor with
  | self => exact .source .self member
  | source _ inside ih => exact .source ih inside

private theorem verifyQueue_of_ancestors {queue : List Transaction}
    (answers : ∀ root height, ∃ known, tracker.isRoot root height = .ok known)
    (checked : ∀ start ∈ queue, ∀ t, start.Ancestor t →
      t.Anchored tracker options ∨ t.Passes options) :
    (verifyQueue tracker options seen queue).run = .ok () := by
  -- Nothing is known of the identifiers seen: a transaction that is skipped needs no check.
  induction seen, queue using verifyQueue.induct with
  | case1 seen => exact verifyQueue_nil
  | case2 seen tx rest member ih =>
      rw [verifyQueue_of_mem member]
      exact ih fun start inside => checked start (List.mem_cons_of_mem _ inside)
  | case3 seen tx rest fresh anchoredIh passedIh =>
      have later : ∀ start ∈ rest, ∀ t, start.Ancestor t →
          t.Anchored tracker options ∨ t.Passes options :=
        fun start inside => checked start (List.mem_cons_of_mem _ inside)
      obtain ⟨anchored, asked⟩ := isAnchored_of_answers answers tx options
      rw [verifyQueue_of_not_mem fresh, asked]
      cases anchored with
      | true => exact anchoredIh later
      | false =>
          have passes : tx.Passes options := by
            refine (checked tx List.mem_cons_self tx .self).resolve_left fun anchored => ?_
            rw [isAnchored_eq_true_iff.mpr anchored] at asked
            cases asked
          have sourcesChecked : ∀ start ∈ tx.sources, ∀ t, start.Ancestor t →
              t.Anchored tracker options ∨ t.Passes options :=
            fun start inside t ancestor =>
              checked tx List.mem_cons_self t (ancestor.of_source inside)
          rw [checkUnanchored_eq_ok_iff.mpr passes]
          refine passedIh fun start inside => ?_
          rcases List.mem_append.mp inside with before | source
          · exact later start before
          · exact sourcesChecked start source

private theorem Findings.justified_of_start {found : List Transaction}
    (findings : Findings tracker options [] [tx] (tx :: found)) :
    ∀ t ∈ tx :: found, t.Anchored tracker options ∨
      (t.Passes options ∧ ∀ source ∈ t.sources, source.txid ∈ (tx :: found).map txid) := by
  intro t member
  rcases findings.justified t member with anchored | ⟨passes, sources⟩
  · exact Or.inl anchored
  · refine Or.inr ⟨passes, fun source inside => ?_⟩
    exact (sources source inside).resolve_left List.not_mem_nil

private theorem findings_of_verify (verified : (tx.verify tracker options).run = .ok ()) :
    ∃ others, Findings tracker options [] [tx] (tx :: others) := by
  have unseen : tx.txid ∉ ([] : List Hash32) := List.not_mem_nil
  rcases verifyQueue_of_not_mem_eq_ok unseen verified with ⟨anchored, later⟩ | ⟨passes, later⟩
  · obtain ⟨others, findings⟩ := findings_of_verifyQueue later
    exact ⟨others, findings.cons unseen (List.Subset.refl _) (Or.inl anchored)⟩
  · obtain ⟨others, findings⟩ := findings_of_verifyQueue later
    exact ⟨others, findings.cons unseen (List.nil_subset _)
      (Or.inr ⟨passes, List.subset_append_right _ _⟩)⟩

end Walk

theorem verify_sound_complete (tx : Transaction) (tracker : Tracker Id) (options : VerifyOptions) :
    ((tx.verify tracker options).run = .ok () →
      ∃ others, ((tx :: others).map txid).Nodup ∧ ∀ t ∈ tx :: others,
        t.Anchored tracker options ∨
          (t.Passes options ∧ ∀ source ∈ t.sources, source.txid ∈ (tx :: others).map txid)) ∧
    ((∀ root height, ∃ known, tracker.isRoot root height = .ok known) →
      (∀ t, tx.Ancestor t → t.Anchored tracker options ∨ t.Passes options) →
      (tx.verify tracker options).run = .ok ()) ∧
    ∀ parallel, tx.verify tracker { options with parallel := parallel } =
      tx.verify tracker options := by
  refine ⟨?_, ?_, ?_⟩
  · intro verified
    obtain ⟨others, findings⟩ := findings_of_verify verified
    exact ⟨others, findings.distinct, findings.justified_of_start⟩
  · intro answers checked
    refine verifyQueue_of_ancestors answers fun start member => ?_
    rw [List.mem_singleton.mp member]
    exact checked
  · intro parallel
    exact verifyQueue_parallel tracker options parallel [] [tx]

/-! ## A spend of two mined coins -/

/-- Pushes a true item and one number twice. -/
def twins : Script :=
  ⟨[0x51, 0x53, 0x53]⟩

/-- Is unlocked by two equal items above a true one. -/
def twinsLock : Script :=
  ⟨[0x88]⟩

/-- Makes two outputs of five satoshis each. -/
def coins : Transaction :=
  ⟨1, [], List.replicate 2 ⟨5, twinsLock, false⟩, 0, none⟩

/-- The other transaction in the block of `coins`. -/
def coinsNeighbour : Hash32 :=
  Hash32.hash256 []

/-- The transaction `coins` with its path, which has two leaves on one level. -/
def minedCoins : Transaction :=
  { coins with path := some ⟨7, [[.leaf 0 coins.txid, .leaf 1 coinsNeighbour]]⟩ }

/-- Spends both outputs of `minedCoins` and leaves a satoshi for the fee. -/
def coinsSpend : Transaction :=
  let input (index : UInt32) : Input :=
    { Input.ofSource minedCoins index with unlocking := some twins }
  ⟨1, [input 0, input 1], [⟨9, twinsLock, false⟩], 0, none⟩

/-- A tracker that knows one block, the one of `coins`. -/
def coinsTracker : Tracker Id :=
  ⟨fun root height => .ok (root == Merkle.parent coins.txid coinsNeighbour && height == 7)⟩

/-- The standard flags, inputs in order, and the tracker asked about every path. -/
def coinsOptions : VerifyOptions :=
  ⟨Spend.Flags.standard, 100, false, false⟩

private theorem anchored_minedCoins : minedCoins.Anchored coinsTracker coinsOptions := by
  have climbed : Merkle.Path.root ⟨7, [[.leaf 0 coins.txid, .leaf 1 coinsNeighbour]]⟩
      (some minedCoins.txid) = .ok (Merkle.parent coins.txid coinsNeighbour) := by
    have same : minedCoins.txid = coins.txid := rfl
    have found : [Merkle.Element.leaf 0 coins.txid, .leaf 1 coinsNeighbour].find?
        (fun element => element.hash == some coins.txid) = some (.leaf 0 coins.txid) :=
      List.find?_cons_of_pos (beq_self_eq_true _)
    rw [same]
    simp only [Merkle.Path.root, Merkle.Path.rootFrom, found]
    rfl
  refine ⟨_, rfl, Or.inr ⟨_, climbed, ?_⟩⟩
  simp [coinsTracker]

private theorem resolved_coinsSpend {input : Input} (member : input ∈ coinsSpend.inputs)
    (index : Nat) :
    input.sourceOutput index = .ok ⟨5, twinsLock⟩ ∧ input.unlocking = some twins := by
  have resolved : ∀ place : UInt32, coins.outputs[place.toNat]? = some ⟨5, twinsLock, false⟩ →
      { Input.ofSource minedCoins place with unlocking := some twins }.sourceOutput index =
        .ok ⟨5, twinsLock⟩ := by
    intro place made
    have same : minedCoins.outputs = coins.outputs := rfl
    simp [Input.sourceOutput, Input.ofSource, Input.ofOutpoint, Input.statedSource?, same, made,
      Output.spent]
  simp only [coinsSpend, List.mem_cons, List.not_mem_nil, or_false] at member
  rcases member with rfl | rfl
  · exact ⟨resolved 0 rfl, rfl⟩
  · exact ⟨resolved 1 rfl, rfl⟩

private theorem paidFee_coinsSpend : coinsSpend.paidFee = .ok 1 := by
  have resolved : ∀ input ∈ coinsSpend.inputs, ∀ index,
      input.sourceOutput index = .ok ⟨5, twinsLock⟩ :=
    fun _ member index => (resolved_coinsSpend member index).1
  simp only [coinsSpend, List.forall_mem_cons] at resolved
  obtain ⟨first, second, -⟩ := resolved
  simp only [paidFee, totalInput, coinsSpend, List.zipIdx, List.foldlM, addSpent, first, second]
  rfl

section Scripts

open Spend

private theorem chunks_twinsLock : twinsLock.chunks = .ok [⟨Opcode.equalVerify, none⟩] := by
  have inOrder : Chunk.InOrder 0 [⟨Opcode.equalVerify, none⟩] :=
    .cons (.bare rfl) (by decide) .nil
  exact Chunk.decodeFrom_encodeAll inOrder 0

private theorem runToEnd_twins {setup : Setup} (standard : setup.flags = Flags.standard)
    (locks : setup.locking = [⟨Opcode.equalVerify, none⟩]) (light : 3 ≤ setup.memoryLimit) :
    Machine.runToEnd (Machine.plain setup .locking 0 [[3], [3], [1]] 0 []) =
      Machine.runToEnd (Machine.plain setup .locking 1 [[1]] 1 []) := by
  have here : (setup.script .locking)[0]? = some ⟨Opcode.equalVerify, none⟩ := by
    rw [Setup.script, locks]
    rfl
  exact Machine.runToEnd_equalVerify (Setup.limits_of_standard standard) here (by decide)
    (by decide) (Nat.le_trans (by decide) light)

private theorem validate_twinsLock {request : Request}
    (standard : request.flags = Flags.standard) (unlocks : request.unlocking = twins)
    (locks : request.locking = twinsLock) (light : 3 ≤ request.memoryLimit) :
    request.validate = .ok () := by
  have made : Script.ofPushes [[1], [3], [3]] = .ok request.unlocking := by
    rw [unlocks]
    rfl
  have splits : request.locking.chunks = .ok [⟨Opcode.equalVerify, none⟩] := by
    rw [locks]
    exact chunks_twinsLock
  have short : request.locking.size ≤ Limits.unbounded := by
    rw [locks]
    decide
  exact Request.validate_eq_ok_iff.mpr ⟨_, Request.accepts_of_pushes standard made splits
    (by decide) (by decide) short light
    (runToEnd_twins (Request.effectiveFlags_standard standard) rfl light) (by decide)⟩

end Scripts

private theorem passes_coinsSpend : coinsSpend.Passes coinsOptions where
  resolved := fun index _ here => ⟨_, (resolved_coinsSpend (List.mem_of_getElem? here) index).1⟩
  fee := ⟨1, paidFee_coinsSpend⟩
  scripts := by
    intro index input here
    obtain ⟨spent, unlocked⟩ := resolved_coinsSpend (List.mem_of_getElem? here) index
    exact ⟨_, _, spent, unlocked, validate_twinsLock rfl rfl rfl (show 3 ≤ 100 by decide)⟩

private theorem ancestors_coinsSpend {t : Transaction} (ancestor : coinsSpend.Ancestor t) :
    t = coinsSpend ∨ t = minedCoins := by
  induction ancestor with
  | self => exact Or.inl rfl
  | @source child source _ member ih =>
      rcases ih with rfl | rfl
      · have sources : coinsSpend.sources = [minedCoins, minedCoins] := rfl
        simp only [sources, List.mem_cons, List.not_mem_nil, or_false, or_self] at member
        exact Or.inr member
      · cases member

theorem verify_coinsSpend_justified :
    (coinsSpend.verify coinsTracker coinsOptions).run = .ok () ∧
    (coinsSpend.verify coinsTracker { coinsOptions with parallel := true }).run = .ok () ∧
    ∃ others, ((coinsSpend :: others).map txid).Nodup ∧
      minedCoins.txid ∈ (coinsSpend :: others).map txid ∧
      ∀ t ∈ coinsSpend :: others, t.Anchored coinsTracker coinsOptions ∨
        (t.Passes coinsOptions ∧
          ∀ source ∈ t.sources, source.txid ∈ (coinsSpend :: others).map txid) := by
  obtain ⟨sound, complete, parallel⟩ := verify_sound_complete coinsSpend coinsTracker coinsOptions
  have answers : ∀ root height, ∃ known, coinsTracker.isRoot root height = .ok known :=
    fun _ _ => ⟨_, rfl⟩
  have checked : ∀ t, coinsSpend.Ancestor t →
      t.Anchored coinsTracker coinsOptions ∨ t.Passes coinsOptions := by
    intro t ancestor
    rcases ancestors_coinsSpend ancestor with rfl | rfl
    · exact Or.inr passes_coinsSpend
    · exact Or.inl anchored_minedCoins
  have verified := complete answers checked
  obtain ⟨others, distinct, justified⟩ := sound verified
  refine ⟨verified, (congrArg ExceptT.run (parallel true)).trans verified, others, distinct, ?_,
    justified⟩
  rcases justified coinsSpend List.mem_cons_self with ⟨_, carried, _⟩ | ⟨_, sources⟩
  · cases carried
  · exact sources minedCoins List.mem_cons_self

end BitcoinSpend.Transaction
