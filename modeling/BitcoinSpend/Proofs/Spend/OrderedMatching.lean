import Mathlib.Data.List.Forall2
import Mathlib.Data.List.NodupEquivFin
import BitcoinSpend.Proofs.Spend.CheckedQuery
import BitcoinSpend.Proofs.Spend.KeySearch
import BitcoinSpend.Proofs.Spend.PlainRun

/-!
# Signatures matched with keys in order

The search for keys gives each signature the first key that will do and never goes
back. It finds a key for every signature whenever the keys can be chosen in order at
all, since a signature that has an earlier key leaves more keys to the later ones.
-/

set_option autoImplicit false

namespace BitcoinSpend.Spend

open List (SublistForall₂ Forall₂)

/-! ## Partners in order -/

section Partners

variable {α β : Type} {related : α → β → Prop}

private theorem length_le_of_partners {items : List α} {others : List β}
    (partners : SublistForall₂ related items others) : items.length ≤ others.length := by
  induction partners with
  | nil => exact Nat.zero_le _
  | cons _ _ ih => exact Nat.succ_le_succ ih
  | cons_right _ ih => exact Nat.le_succ_of_le ih

private theorem partners_tail {item : α} {items : List α} {others : List β}
    (partners : SublistForall₂ related (item :: items) others) :
    SublistForall₂ related items others := by
  generalize whole : item :: items = list at partners
  induction partners with
  | nil => cases whole
  | cons _ rest _ =>
      cases whole
      exact .cons_right rest
  | cons_right _ ih => exact .cons_right (ih whole)

/-- Whoever can have the first partner may as well take it. -/
private theorem partners_cons_of_related {item : α} {other : β} (fits : related item other)
    {items : List α} {others : List β} :
    SublistForall₂ related (item :: items) (other :: others) ↔
      SublistForall₂ related items others := by
  constructor
  · intro partners
    cases partners with
    | cons _ rest => exact rest
    | cons_right rest => exact partners_tail rest
  · exact .cons fits

private theorem partners_cons_of_not_related {item : α} {other : β} (unfit : ¬related item other)
    {items : List α} {others : List β} :
    SublistForall₂ related (item :: items) (other :: others) ↔
      SublistForall₂ related (item :: items) others := by
  constructor
  · intro partners
    cases partners with
    | cons fits _ => exact absurd fits unfit
    | cons_right rest => exact rest
  · exact .cons_right

theorem partners_reverse {items : List α} {others : List β} :
    SublistForall₂ related items.reverse others.reverse ↔ SublistForall₂ related items others := by
  rw [List.sublistForall₂_iff, List.sublistForall₂_iff]
  constructor
  · rintro ⟨chosen, all, inside⟩
    refine ⟨chosen.reverse, ?_, List.reverse_sublist.mp ?_⟩
    · rwa [← List.forall₂_reverse_iff, List.reverse_reverse]
    · rwa [List.reverse_reverse]
  · rintro ⟨chosen, all, inside⟩
    exact ⟨chosen.reverse, List.forall₂_reverse_iff.mpr all, List.reverse_sublist.mpr inside⟩

/-- Partners in order are an increasing choice of places. -/
theorem partners_iff_strictMono {items : List α} {others : List β} :
    SublistForall₂ related items others ↔
      ∃ place : Fin items.length → Fin others.length, StrictMono place ∧
        ∀ index, related items[index] others[place index] := by
  rw [List.sublistForall₂_iff]
  constructor
  · rintro ⟨chosen, all, inside⟩
    obtain ⟨sameLength, pairs⟩ := List.forall₂_iff_get.mp all
    obtain ⟨place, found⟩ := List.sublist_iff_exists_fin_orderEmbedding_get_eq.mp inside
    refine ⟨fun index => place (index.cast sameLength), ?_, ?_⟩
    · intro first second before
      exact place.strictMono before
    · intro index
      have here := pairs index index.isLt (sameLength ▸ index.isLt)
      have there : chosen.get (index.cast sameLength) = others[place (index.cast sameLength)] :=
        found (index.cast sameLength)
      rw [← there]
      exact here
  · rintro ⟨place, increasing, pairs⟩
    refine ⟨List.ofFn fun index => others[place index], ?_, ?_⟩
    · rw [List.forall₂_iff_get]
      refine ⟨List.length_ofFn.symm, fun index inside _ => ?_⟩
      simpa using pairs ⟨index, inside⟩
    · rw [List.sublist_iff_exists_fin_orderEmbedding_get_eq]
      refine ⟨OrderEmbedding.ofStrictMono (fun index => place (index.cast List.length_ofFn)) ?_, ?_⟩
      · intro first second before
        exact increasing before
      · exact List.get_ofFn _

end Partners

/-! ## The search for keys -/

/-- The transaction context holds a signature valid for a key: asked about the two under the hash
type at the signature's end, it says so. -/
def Frame.Confirms (frame : Frame) (script : Script) (signature key : Bytes) : Prop :=
  ∃ context hashType, frame.setup.context = some context ∧
    signature.getLast? = some hashType ∧
    context.verifySignature []
      ⟨signature, key, script, frame.setup.inputIndex, hashType.toUInt32⟩ = .ok true

private theorem Frame.not_confirms_nil {frame : Frame} {script : Script} {key : Bytes} :
    ¬frame.Confirms script [] key := by
  rintro ⟨context, hashType, -, last, -⟩
  cases last

namespace Exec

variable {frame : Frame} {context : TxContext} {script : Script}

/-- The check of a signature against a key comes to an answer. -/
def Answers (frame : Frame) (state : State) (context : TxContext) (script : Script)
    (signature key : Bytes) : Prop :=
  ∃ valid next, checkOne context signature key script frame state = .ok valid next

private theorem ofExcept_bind_eq_ok {α β : Type} {result : Except Fault α} {rest : α → Exec β}
    {state next : State} {value : β}
    (ran : (MonadExcept.ofExcept result >>= rest) frame state = .ok value next) :
    ∃ found, result = .ok found ∧ rest found frame state = .ok value next := by
  cases result with
  | error fault => cases ran
  | ok found => exact ⟨found, rfl, ran⟩

private theorem ask_memoryless (memoryless : context.IsMemoryless) (query : SignatureQuery)
    (frame : Frame) (state : State) :
    ∃ valid, (valid = true ↔ context.verifySignature [] query = .ok true) ∧
      ask context query frame state =
        .ok valid { state with queries := state.queries ++ [query] } := by
  rw [ask, memoryless state.queries [] query]
  cases context.verifySignature [] query with
  | ok valid => exact ⟨valid, by simp, rfl⟩
  | error fault => exact ⟨false, by simp, rfl⟩

/-- A check that came to an answer once comes to the same one after any other questions, and asks
one question at most. -/
private theorem checkOne_of_answers (memoryless : context.IsMemoryless)
    (known : frame.setup.context = some context) {signature key : Bytes} {before : State}
    (answers : Answers frame before context script signature key) (state : State) :
    ∃ valid asked, (valid = true ↔ frame.Confirms script signature key) ∧ asked.length ≤ 1 ∧
      checkOne context signature key script frame state =
        .ok valid { state with queries := state.queries ++ asked } := by
  obtain ⟨answer, after, ran⟩ := answers
  cases last : signature.getLast? with
  | none =>
      refine ⟨false, [], ?_, Nat.zero_le _, ?_⟩
      · constructor
        · nofun
        · rintro ⟨_, _, _, found, _⟩
          rw [last] at found
          cases found
      · rw [checkOne, last, List.append_nil]
        rfl
  | some hashType =>
      simp only [checkOne, last] at ran
      rw [bind_setup] at ran
      obtain ⟨_, knownType, ran⟩ := ofExcept_bind_eq_ok ran
      obtain ⟨_, layout, ran⟩ := ofExcept_bind_eq_ok ran
      obtain ⟨_, encoding, ran⟩ := ofExcept_bind_eq_ok ran
      obtain ⟨valid, iff, asked⟩ := ask_memoryless memoryless
        ⟨signature, key, script, frame.setup.inputIndex, hashType.toUInt32⟩ frame state
      have checked :=
        (checkOne_of_allowed last knownType layout encoding context script state).trans asked
      refine ⟨valid, _, iff.trans ?_, ?_, checked⟩
      · constructor
        · intro confirmed
          exact ⟨context, hashType, known, last, confirmed⟩
        · rintro ⟨other, lastByte, sameContext, sameLast, confirmed⟩
          cases known.symm.trans sameContext
          cases last.symm.trans sameLast
          exact confirmed
      · exact Nat.le_refl 1

/-- The operation answers whether the signatures have partners in order among the keys, and asks at
most one question for each key. -/
def Decides (frame : Frame) (script : Script) (signatures keys : List Bytes) (op : Exec Bool)
    (state : State) : Prop :=
  ∃ valid asked,
    (valid = true ↔ SublistForall₂ (frame.Confirms script) signatures keys) ∧
    asked.length ≤ keys.length ∧
    op frame state = .ok valid { state with queries := state.queries ++ asked }

namespace Decides

variable {signatures keys : List Bytes} {state : State}

theorem pure {valid : Bool}
    (iff : valid = true ↔ SublistForall₂ (frame.Confirms script) signatures keys) :
    Decides frame script signatures keys (Pure.pure valid) state := by
  refine ⟨valid, [], iff, Nat.zero_le _, ?_⟩
  rw [List.append_nil]
  rfl

/-- A key that is of no use is passed over without a question. -/
theorem skip {signature key : Bytes} (unfit : ¬frame.Confirms script signature key)
    {op : Exec Bool} (decides : Decides frame script (signature :: signatures) keys op state) :
    Decides frame script (signature :: signatures) (key :: keys) op state := by
  obtain ⟨valid, asked, iff, count, ran⟩ := decides
  refine ⟨valid, asked, ?_, Nat.le_succ_of_le count, ran⟩
  exact iff.trans (partners_cons_of_not_related unfit).symm

/-- After a check of the first signature against the first key that one goes on with the other
keys, for the same signatures or without the first. -/
theorem check {signature key : Bytes} {fits : Bool} {first : List SignatureQuery}
    {op : Exec Bool} {rest : Bool → Exec Bool}
    (confirmed : fits = true ↔ frame.Confirms script signature key) (one : first.length ≤ 1)
    (ran : op frame state = .ok fits { state with queries := state.queries ++ first })
    (decides : Decides frame script (if fits then signatures else signature :: signatures) keys
      (rest fits) { state with queries := state.queries ++ first }) :
    Decides frame script (signature :: signatures) (key :: keys) (op >>= rest) state := by
  obtain ⟨valid, asked, iff, count, went⟩ := decides
  refine ⟨valid, first ++ asked, iff.trans ?_, ?_, ?_⟩
  · cases fits with
    | true => exact (partners_cons_of_related (confirmed.mp rfl)).symm
    | false =>
        have unfit : ¬frame.Confirms script signature key := by
          intro confirms
          cases confirmed.mpr confirms
        exact (partners_cons_of_not_related unfit).symm
  · rw [List.length_append, List.length_cons]
    omega
  · rw [bind_of_ok ran, went, List.append_assoc]

end Decides

/-- The search finds keys for the signatures exactly when there are partners in order. -/
theorem decides_matchSignatures (memoryless : context.IsMemoryless)
    (known : frame.setup.context = some context) {before : State} {signatures keys : List Bytes}
    (answers : ∀ signature ∈ signatures, ∀ key ∈ keys,
      Answers frame before context script signature key) (state : State) :
    Decides frame script signatures keys (matchSignatures context script keys signatures)
      state := by
  induction keys generalizing signatures state with
  | nil =>
      cases signatures with
      | nil =>
          rw [matchSignatures_nil]
          exact .pure ⟨fun _ => .nil, fun _ => rfl⟩
      | cons signature signatures =>
          rw [matchSignatures_nil_cons]
          exact .pure ⟨nofun, nofun⟩
  | cons key keys ih =>
      cases signatures with
      | nil =>
          rw [matchSignatures_nil]
          exact .pure ⟨fun _ => .nil, fun _ => rfl⟩
      | cons signature signatures =>
          have later : ∀ other ∈ signature :: signatures, ∀ key ∈ keys,
              Answers frame before context script other key := fun other member key inside =>
            answers other member key (List.mem_cons_of_mem _ inside)
          rw [matchSignatures_cons_cons]
          by_cases few : keys.length < signatures.length
          · rw [if_pos few]
            refine .pure ⟨nofun, fun partners => ?_⟩
            have enough := length_le_of_partners partners
            simp only [List.length_cons] at enough
            omega
          · rw [if_neg few]
            cases signature with
            | nil => exact .skip Frame.not_confirms_nil (ih later state)
            | cons byte bytes =>
                have here := answers (byte :: bytes) List.mem_cons_self key List.mem_cons_self
                obtain ⟨fits, first, confirmed, one, ran⟩ :=
                  checkOne_of_answers memoryless known here state
                rw [List.isEmpty_cons, if_neg Bool.false_ne_true]
                refine .check confirmed one ran ?_
                cases fits with
                | true => exact ih (fun other member => later other (.tail _ member)) _
                | false => exact ih later _

end Exec

end BitcoinSpend.Spend
