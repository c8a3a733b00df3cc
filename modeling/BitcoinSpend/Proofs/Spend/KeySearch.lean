import BitcoinSpend.Spend.SignatureCheck

/-!
# The search for keys

The search reads keys and signatures by their indices. What it comes to depends only on
those that are left, so it goes down the two lists, and no index is out of range.
-/

set_option autoImplicit false

namespace BitcoinSpend.Spend.Exec

open MonadExcept (ofExcept)

variable {context : TxContext} {script : Script}

private theorem difference_add_add (before left right : Nat) :
    difference (before + left) (before + right) = difference left right := by
  simp only [difference, Nat.add_le_add_iff_left, Nat.add_sub_add_left]

private theorem itemAt_append {α : Type} (before items : List α) (index : Nat) :
    itemAt (before ++ items) (before.length + index) = itemAt items index := by
  rw [itemAt, itemAt, List.getElem?_append_right (Nat.le_add_right _ _), Nat.add_sub_cancel_left]

/-- One turn of the search. -/
theorem matchFrom_eq (keys signatures : List Bytes) (keyIndex signatureIndex : Nat) :
    matchFrom context script keys signatures keyIndex signatureIndex =
      if signatures.length ≤ signatureIndex then pure true
      else (do
        let unmatched ← ofExcept (difference signatures.length signatureIndex)
        let untried ← ofExcept (difference keys.length keyIndex)
        if untried < unmatched then pure false
        else
          let signature ← ofExcept (itemAt signatures signatureIndex)
          let key ← ofExcept (itemAt keys keyIndex)
          if signature.isEmpty then
            matchFrom context script keys signatures (keyIndex + 1) signatureIndex
          else
            let valid ← checkOne context signature key script
            let nextIndex := if valid then signatureIndex + 1 else signatureIndex
            matchFrom context script keys signatures (keyIndex + 1) nextIndex) := by
  rw [matchFrom]
  cases itemAt keys keyIndex <;> rfl

/-- Keys and signatures before the indices have no part in the search. -/
private theorem matchFrom_append (tried keys matched signatures : List Bytes)
    (keyIndex signatureIndex : Nat) :
    matchFrom context script (tried ++ keys) (matched ++ signatures) (tried.length + keyIndex)
        (matched.length + signatureIndex) =
      matchFrom context script keys signatures keyIndex signatureIndex := by
  induction left : keys.length - keyIndex using Nat.strongRecOn
    generalizing keyIndex signatureIndex with
  | ind left ih =>
      rw [matchFrom_eq, matchFrom_eq keys signatures, List.length_append, List.length_append,
        difference_add_add, difference_add_add, itemAt_append, itemAt_append]
      cases found : itemAt keys keyIndex with
      | error fault =>
          simp only [Nat.add_le_add_iff_left]
          rfl
      | ok key =>
          have inside := lt_of_itemAt found
          have later : ∀ next, matchFrom context script (tried ++ keys) (matched ++ signatures)
              (tried.length + keyIndex + 1) (matched.length + next) =
                matchFrom context script keys signatures (keyIndex + 1) next := fun next =>
            ih (keys.length - (keyIndex + 1)) (by omega) (keyIndex + 1) next rfl
          have step : ∀ valid : Bool,
              (if valid then matched.length + signatureIndex + 1
                else matched.length + signatureIndex) =
                matched.length + if valid then signatureIndex + 1 else signatureIndex := by
            intro valid
            cases valid <;> rfl
          simp only [Nat.add_le_add_iff_left, step, later]

theorem matchSignatures_nil (keys : List Bytes) :
    matchSignatures context script keys [] = pure true := by
  rw [matchSignatures, matchFrom_eq]
  rfl

theorem matchSignatures_nil_cons (signature : Bytes) (signatures : List Bytes) :
    matchSignatures context script [] (signature :: signatures) = pure false := by
  rw [matchSignatures, matchFrom_eq]
  rfl

theorem matchSignatures_cons_cons (key signature : Bytes) (keys signatures : List Bytes) :
    matchSignatures context script (key :: keys) (signature :: signatures) =
      if keys.length < signatures.length then pure false
      else if signature.isEmpty then matchSignatures context script keys (signature :: signatures)
      else (do
        let valid ← checkOne context signature key script
        matchSignatures context script keys
          (if valid then signatures else signature :: signatures)) := by
  have whole : ∀ count : Nat, difference (count + 1) 0 = .ok (count + 1) := fun count =>
    difference_of_le (Nat.zero_le _)
  have first : ∀ (item : Bytes) items, itemAt (item :: items) 0 = .ok item := fun _ _ => rfl
  have same : matchFrom context script (key :: keys) (signature :: signatures) 1 0 =
      matchFrom context script keys (signature :: signatures) 0 0 :=
    matchFrom_append [key] keys [] (signature :: signatures) 0 0
  have next : ∀ valid : Bool,
      matchFrom context script (key :: keys) (signature :: signatures) 1
          (if valid then 1 else 0) =
        matchFrom context script keys (if valid then signatures else signature :: signatures)
          0 0 := by
    intro valid
    cases valid with
    | true => exact matchFrom_append [key] keys [signature] signatures 0 0
    | false => exact same
  have goesOn : ¬(signature :: signatures).length ≤ 0 := Nat.not_succ_le_zero _
  rw [matchSignatures, matchFrom_eq, if_neg goesOn]
  simp only [List.length_cons, whole, first, ofExcept, pure_bind, Nat.add_lt_add_iff_right,
    Nat.zero_add, same, next, matchSignatures]

/-- The search gives an answer at once or checks one signature against one key and goes on. -/
theorem matchSignatures_of_closed (property : Exec Bool → Prop)
    (answer : ∀ valid, property (pure valid))
    (check : ∀ signature key (rest : Bool → Exec Bool), (∀ valid, property (rest valid)) →
      property (checkOne context signature key script >>= rest)) (keys signatures : List Bytes) :
    property (matchSignatures context script keys signatures) := by
  induction keys generalizing signatures with
  | nil =>
      cases signatures with
      | nil =>
          rw [matchSignatures_nil]
          exact answer true
      | cons signature signatures =>
          rw [matchSignatures_nil_cons]
          exact answer false
  | cons key keys ih =>
      cases signatures with
      | nil =>
          rw [matchSignatures_nil]
          exact answer true
      | cons signature signatures =>
          rw [matchSignatures_cons_cons]
          split
          · exact answer false
          · split
            · exact ih _
            · exact check signature key _ fun valid => ih _

end BitcoinSpend.Spend.Exec
