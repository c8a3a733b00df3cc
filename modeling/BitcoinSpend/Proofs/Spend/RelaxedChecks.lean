import BitcoinSpend.Proofs.Spend.Follows

/-!
# Stacks and encodings under relaxed rules

A stack that reads longer forms of numbers reads the shortest ones alike, and a
check of an encoding that a flag asked for passes without the flag.
-/

set_option autoImplicit false

namespace BitcoinSpend.Spend

open MonadExcept (ofExcept)

namespace Stack

theorem Relaxes.cons {strict lax : Stack} (relaxes : strict.Relaxes lax) (item : Bytes) :
    (strict.cons item).Relaxes (lax.cons item) where
  items := congrArg (item :: ·) relaxes.items
  held := congrArg (· + item.length) relaxes.held
  maxLength := relaxes.maxLength
  requireMinimal := relaxes.requireMinimal

theorem follows_push (item : Bytes) : Follows Relaxes (push item) (push item) := by
  intro strict lax related value next ran
  cases ran
  exact ⟨lax.cons item, rfl, related.cons item⟩

theorem follows_pushNumber (value : Int) :
    Follows Relaxes (pushNumber value) (pushNumber value) :=
  follows_push _

theorem follows_pushBool (value : Bool) : Follows Relaxes (pushBool value) (pushBool value) :=
  follows_push _

theorem Relaxes.itemBelow {strict lax : Stack} (relaxes : strict.Relaxes lax) :
    lax.itemBelow = strict.itemBelow := by
  funext index
  simp only [Stack.itemBelow, relaxes.depth, relaxes.items]

theorem follows_peek (index : Nat) : Follows Relaxes (peek index) (peek index) := by
  refine .get_bind fun strict lax related => ?_
  rw [related.itemBelow]
  exact .ofExcept fun _ same => same

theorem follows_remove (index : Nat) : Follows Relaxes (remove index) (remove index) := by
  refine .get_bind fun strict lax related => ?_
  rw [related.itemBelow, related.items, related.held]
  refine .ofExcept_bind (fun _ same => same) fun item => ?_
  refine .ofExcept_bind (fun _ same => same) fun held => ?_
  exact .bind (.set { related with items := rfl, held := rfl }) fun _ => .pure item

theorem follows_pop : Follows Relaxes pop pop :=
  follows_remove 0

/-- A number that is read in shortest form only is read in every form as well. -/
theorem follows_readNumber (maxLength : Nat) (item : Bytes) :
    Follows Relaxes (readNumber maxLength item) (readNumber maxLength item) := by
  intro strict lax related value next ran
  simp only [readNumber, ScriptNumber.decodeWithin] at ran ⊢
  split at ran
  · next decoded =>
      cases ran
      split at decoded
      · cases decoded
      · next short =>
          split at decoded
          · cases decoded
          · next minimal =>
              have minimal' :
                  ¬(lax.rule.requireMinimal && !ScriptNumber.isMinimal item) = true := by
                simp only [Bool.and_eq_true, not_and] at minimal ⊢
                intro required
                exact minimal (related.requireMinimal required)
              simp only [if_neg short, if_neg minimal']
              cases decoded
              exact ⟨lax, rfl, related⟩
  · cases ran

theorem follows_popNumber : Follows Relaxes popNumber popNumber := by
  refine follows_pop.bind fun item => .get_bind fun strict lax related => ?_
  rw [related.maxLength]
  exact follows_readNumber _ item

theorem follows_popBool : Follows Relaxes popBool popBool :=
  follows_pop.bind fun _ => .pure _

theorem follows_popMany (count : Nat) : Follows Relaxes (popMany count) (popMany count) := by
  induction count with
  | zero => exact .pure []
  | succ count ih => exact follows_pop.bind fun item => ih.bind fun items => .pure (item :: items)

private theorem follows_repeatOp {op : StackM Unit} (follows : Follows Relaxes op op)
    (count : Nat) :
    Follows Relaxes (repeatOp op count) (repeatOp op count) := by
  induction count with
  | zero => exact .pure ()
  | succ count ih => exact follows.bind fun _ => ih

theorem follows_pick (index : Nat) : Follows Relaxes (pick index) (pick index) :=
  (follows_peek index).bind follows_push

theorem follows_roll (index : Nat) : Follows Relaxes (roll index) (roll index) :=
  (follows_remove index).bind follows_push

theorem follows_tuck : Follows Relaxes tuck tuck := by
  refine follows_pop.bind fun top => follows_pop.bind fun below => ?_
  refine (follows_push top).bind fun _ => (follows_push below).bind fun _ => ?_
  exact follows_push top

theorem follows_dropBlock (count : Nat) : Follows Relaxes (dropBlock count) (dropBlock count) := by
  refine .get_bind fun strict lax related => ?_
  rw [related.depth]
  split
  · exact .ofExcept_bind (fun _ same => same) fun _ => .throw _ _
  · exact (follows_popMany count).bind fun _ => .pure ()

theorem follows_dupBlock (count : Nat) : Follows Relaxes (dupBlock count) (dupBlock count) :=
  follows_repeatOp (.ofExcept_bind (fun _ same => same) follows_pick) count

theorem follows_rotBlock (count : Nat) : Follows Relaxes (rotBlock count) (rotBlock count) :=
  .ofExcept_bind (fun _ same => same) fun last => follows_repeatOp (follows_roll last) count

theorem follows_swapBlock (count : Nat) : Follows Relaxes (swapBlock count) (swapBlock count) :=
  .ofExcept_bind (fun _ same => same) fun last => follows_repeatOp (follows_roll last) count

theorem follows_overBlock (count : Nat) : Follows Relaxes (overBlock count) (overBlock count) :=
  .ofExcept_bind (fun _ same => same) fun last => follows_repeatOp (follows_pick last) count

end Stack

/-! ## Encodings -/

private theorem ok_bind_of_ok {α β : Type} {result : Except Fault α}
    {next next' : α → Except Fault β} {value : β}
    (rest : ∀ middle, next middle = .ok value → next' middle = .ok value)
    (passed : (result >>= next) = .ok value) : (result >>= next') = .ok value := by
  cases result with
  | error fault => cases passed
  | ok middle => exact rest middle passed

private theorem checkLayout_of_lowS {bytes : Bytes} (passed : checkLayout true bytes = .ok ()) :
    checkLayout false bytes = .ok () := by
  revert passed
  simp only [checkLayout]
  refine ok_bind_of_ok fun _ => ok_bind_of_ok fun _ => ok_bind_of_ok fun tag => ?_
  refine ok_bind_of_ok fun _ => ok_bind_of_ok fun announced => ok_bind_of_ok fun actual => ?_
  refine ok_bind_of_ok fun _ => ok_bind_of_ok fun lengthR => ok_bind_of_ok fun _ => ?_
  refine ok_bind_of_ok fun _ => ok_bind_of_ok fun lengthS => ok_bind_of_ok fun _ => ?_
  refine ok_bind_of_ok fun _ => ok_bind_of_ok fun _ => ?_
  intro _
  rfl

namespace Flags.Relaxes

variable {strict lax : Flags}

theorem hasAny (relaxes : strict.Relaxes lax) {choices : List Flags}
    (chosen : lax.hasAny choices = true) : strict.hasAny choices = true := by
  simp only [Flags.hasAny, List.any_eq_true] at chosen ⊢
  obtain ⟨flag, member, found⟩ := chosen
  exact ⟨flag, member, relaxes.fewer flag found⟩

theorem usesForkId (relaxes : strict.Relaxes lax) :
    Spend.usesForkId lax = Spend.usesForkId strict := by
  funext hashType
  simp only [Spend.usesForkId, relaxes.forkId]

theorem checkHashType (relaxes : strict.Relaxes lax) {hashType : UInt8} {value : Unit}
    (passed : Spend.checkHashType strict hashType = .ok value) :
    Spend.checkHashType lax hashType = .ok value := by
  simp only [Spend.checkHashType] at passed ⊢
  cases encoded : lax.has strictEncoding with
  | false => rfl
  | true =>
      rw [relaxes.fewer _ encoded] at passed
      rw [relaxes.forkId]
      exact passed

theorem checkSignatureEncoding (relaxes : strict.Relaxes lax) {bytes : Bytes} {value : Unit}
    (passed : Spend.checkSignatureEncoding strict bytes = .ok value) :
    Spend.checkSignatureEncoding lax bytes = .ok value := by
  simp only [Spend.checkSignatureEncoding] at passed ⊢
  split
  · next wanted =>
      simp only [Bool.and_eq_true] at wanted
      rw [relaxes.hasAny wanted.1, wanted.2] at passed
      simp only [Bool.and_self, if_true] at passed
      cases low : lax.has lowS with
      | true =>
          rw [relaxes.fewer _ low] at passed
          exact passed
      | false =>
          cases strictLow : strict.has lowS with
          | false =>
              rw [strictLow] at passed
              exact passed
          | true =>
              rw [strictLow] at passed
              exact checkLayout_of_lowS passed
  · rfl

theorem checkKeyEncoding (relaxes : strict.Relaxes lax) {bytes : Bytes} {value : Unit}
    (passed : Spend.checkKeyEncoding strict bytes = .ok value) :
    Spend.checkKeyEncoding lax bytes = .ok value := by
  simp only [Spend.checkKeyEncoding] at passed ⊢
  cases encoded : lax.has strictEncoding with
  | false => rfl
  | true =>
      rw [relaxes.fewer _ encoded] at passed
      exact passed

end Flags.Relaxes

end BitcoinSpend.Spend
