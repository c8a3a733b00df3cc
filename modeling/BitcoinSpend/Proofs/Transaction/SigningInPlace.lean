import Mathlib.Data.List.Perm.Basic
import BitcoinSpend.Proofs.SignatureHash.Blindness

/-!
# Signing in place

Signing fills in unlocking scripts, which no digest looks at. So the inputs of a
transaction may be signed one after the other as well, in any order, and signing
again makes the same scripts.
-/

set_option autoImplicit false

namespace BitcoinSpend

namespace Transaction

def unlockerAt? (tx : Transaction) (index : Nat) : Option Unlocker :=
  tx.inputs[index]?.bind Input.unlocker

/-- The indices of the inputs that have an unlocker. -/
def unlockable (tx : Transaction) : List Nat :=
  tx.unlockers.map Prod.fst

/-- The transaction after one of its inputs is signed, which stays as it is without an unlocker. -/
def signAt (tx : Transaction) (index : Nat) : Except TransactionError Transaction :=
  match tx.unlockerAt? index with
  | none => .ok tx
  | some unlocker => do
      let script ← unlocker.unlock tx index
      pure (tx.withUnlocking index script)

/-- The unlocker at an index makes the script. -/
def Unlocks (tx : Transaction) (index : Nat) (script : Script) : Prop :=
  ∃ unlocker, tx.unlockerAt? index = some unlocker ∧ unlocker.unlock tx index = .ok script

/-- The transaction with unlocking scripts at some of its inputs. -/
def withAll (tx : Transaction) (scripts : List (Nat × Script)) : Transaction :=
  scripts.foldl (fun tx entry => tx.withUnlocking entry.1 entry.2) tx

variable {tx tx' : Transaction} {index : Nat} {script : Script} {scripts : List (Nat × Script)}

/-! ## One script put in place -/

private theorem withUnlocking_twice (tx : Transaction) (index : Nat) (script : Script) :
    (tx.withUnlocking index script).withUnlocking index script = tx.withUnlocking index script := by
  unfold withUnlocking
  congr 1
  rw [List.modify_modify_eq]
  rfl

private theorem withUnlocking_comm (tx : Transaction) {index index' : Nat} {script script' : Script}
    (agree : index = index' → script = script') :
    (tx.withUnlocking index script).withUnlocking index' script' =
      (tx.withUnlocking index' script').withUnlocking index script := by
  by_cases here : index = index'
  · cases agree here
    cases here
    rfl
  · unfold withUnlocking
    congr 1
    exact List.modify_modify_ne _ _ _ here

/-! ## What is not seen of unlocking scripts -/

private theorem unlockerAt?_unsigned : tx.unsigned.unlockerAt? index = tx.unlockerAt? index := by
  unfold unlockerAt? unsigned
  rw [List.getElem?_map, Option.bind_map]
  rfl

private theorem unlockers_unsigned : tx.unsigned.unlockers = tx.unlockers := by
  unfold unlockers unsigned
  rw [List.zipIdx_map, List.filterMap_map]
  rfl

private theorem unlockingScripts_unsigned : tx.unsigned.unlockingScripts = tx.unlockingScripts := by
  unfold unlockingScripts
  simp only [unlockers_unsigned, Unlocker.unlock_unsigned]

private theorem unlocks_unsigned : tx.unsigned.Unlocks index script ↔ tx.Unlocks index script := by
  unfold Unlocks
  simp only [unlockerAt?_unsigned, Unlocker.unlock_unsigned]

private theorem unlocks_of_unsigned (same : tx'.unsigned = tx.unsigned) :
    tx'.Unlocks index script ↔ tx.Unlocks index script := by
  rw [← unlocks_unsigned, same, unlocks_unsigned]

theorem Unlocks.unique {script' : Script} (first : tx.Unlocks index script)
    (second : tx.Unlocks index script') : script = script' := by
  obtain ⟨unlocker, here, made⟩ := first
  obtain ⟨unlocker', here', made'⟩ := second
  cases here.symm.trans here'
  cases made.symm.trans made'
  rfl

/-! ## Scripts put in place one after the other -/

theorem unsigned_withAll (tx : Transaction) (scripts : List (Nat × Script)) :
    (tx.withAll scripts).unsigned = tx.unsigned := by
  induction scripts generalizing tx with
  | nil => rfl
  | cons entry rest ih => exact (ih _).trans (unsigned_withUnlocking tx entry.1 entry.2)

private theorem withAll_concat (tx : Transaction) (scripts : List (Nat × Script))
    (entry : Nat × Script) :
    tx.withAll (scripts ++ [entry]) = (tx.withAll scripts).withUnlocking entry.1 entry.2 :=
  List.foldl_concat ..

theorem getElem?_withAll (apart : ∀ entry ∈ scripts, entry.1 ≠ index) :
    (tx.withAll scripts).inputs[index]? = tx.inputs[index]? := by
  induction scripts generalizing tx with
  | nil => rfl
  | cons entry rest ih =>
      obtain ⟨here, later⟩ := List.forall_mem_cons.mp apart
      exact (ih later).trans (List.getElem?_modify_ne _ _ here)

/-- No index has two scripts. -/
def Agree (scripts : List (Nat × Script)) : Prop :=
  ∀ entry ∈ scripts, ∀ entry' ∈ scripts, entry.1 = entry'.1 → entry.2 = entry'.2

private theorem withAll_perm {scripts' : List (Nat × Script)} (perm : scripts.Perm scripts')
    (agree : Agree scripts) (tx : Transaction) : tx.withAll scripts = tx.withAll scripts' := by
  apply perm.foldl_eq'
  intro entry member entry' member' tx
  exact tx.withUnlocking_comm (agree entry member entry' member')

/-- A script that is in place already changes nothing. -/
theorem withUnlocking_withAll (agree : Agree scripts) {entry : Nat × Script}
    (member : entry ∈ scripts) (tx : Transaction) :
    (tx.withAll scripts).withUnlocking entry.1 entry.2 = tx.withAll scripts := by
  obtain ⟨before, after, rfl⟩ := List.append_of_mem member
  have last : (before ++ entry :: after).Perm (before ++ after ++ [entry]) :=
    List.perm_middle.trans (List.perm_append_singleton entry (before ++ after)).symm
  rw [withAll_perm last agree, withAll_concat, withUnlocking_twice]

private theorem withAll_withAll (agree : Agree scripts) (tx : Transaction) :
    (tx.withAll scripts).withAll scripts = tx.withAll scripts := by
  have again : ∀ part : List (Nat × Script), (∀ entry ∈ part, entry ∈ scripts) →
      (tx.withAll scripts).withAll part = tx.withAll scripts := by
    intro part
    induction part with
    | nil => exact fun _ => rfl
    | cons entry rest ih =>
        intro among
        obtain ⟨here, later⟩ := List.forall_mem_cons.mp among
        have same := ih later
        rw [withAll, List.foldl_cons, withUnlocking_withAll agree here]
        exact same
  exact again scripts fun _ member => member

/-! ## Scripts that are made -/

private theorem signAt_of_unlocks (unlocks : tx.Unlocks index script) :
    tx.signAt index = .ok (tx.withUnlocking index script) := by
  obtain ⟨unlocker, here, made⟩ := unlocks
  simp only [signAt, here, made]
  rfl

/-- Scripts that were made for the transaction as it was are made again as the others are put in
place. -/
private theorem foldlM_signAt (all : ∀ entry ∈ scripts, tx.Unlocks entry.1 entry.2) :
    (scripts.map Prod.fst).foldlM signAt tx = .ok (tx.withAll scripts) := by
  induction scripts generalizing tx with
  | nil => rfl
  | cons entry rest ih =>
      obtain ⟨here, later⟩ := List.forall_mem_cons.mp all
      rw [List.map_cons, List.foldlM_cons, signAt_of_unlocks here]
      apply ih
      intro other member
      exact (unlocks_of_unsigned (unsigned_withUnlocking tx entry.1 entry.2)).mpr
        (later other member)

private theorem unlockerAt?_of_mem {unlocker : Unlocker}
    (member : (index, unlocker) ∈ tx.unlockers) :
    tx.unlockerAt? index = some unlocker := by
  obtain ⟨⟨input, place⟩, listed, found⟩ := List.mem_filterMap.mp member
  obtain ⟨own, isOwn, same⟩ := Option.map_eq_some_iff.mp found
  cases same
  rw [unlockerAt?, List.mk_mem_zipIdx_iff_getElem?.mp listed]
  exact isOwn

private theorem unlocks_of_mapM {entries : List (Nat × Unlocker)}
    (known : ∀ entry ∈ entries, tx.unlockerAt? entry.1 = some entry.2)
    (made : (entries.mapM fun (index, unlocker) => do
      let script ← unlocker.unlock tx index
      pure (index, script)) = .ok scripts) :
    scripts.map Prod.fst = entries.map Prod.fst ∧
      ∀ entry ∈ scripts, tx.Unlocks entry.1 entry.2 := by
  induction entries generalizing scripts with
  | nil =>
      cases made
      exact ⟨rfl, nofun⟩
  | cons entry rest ih =>
      obtain ⟨here, later⟩ := List.forall_mem_cons.mp known
      simp only [List.mapM_cons, bind_eq_ok_iff] at made
      obtain ⟨_, ⟨script, unlocked, same⟩, others, madeOthers, whole⟩ := made
      cases same
      cases whole
      obtain ⟨indices, unlocks⟩ := ih later madeOthers
      constructor
      · rw [List.map_cons, List.map_cons, indices]
      · exact List.forall_mem_cons.mpr ⟨⟨entry.2, here, unlocked⟩, unlocks⟩

theorem unlocks_of_unlockingScripts (made : tx.unlockingScripts = .ok scripts) :
    scripts.map Prod.fst = tx.unlockable ∧ ∀ entry ∈ scripts, tx.Unlocks entry.1 entry.2 :=
  unlocks_of_mapM (fun _ member => unlockerAt?_of_mem member) made

theorem agree_of_unlocks (all : ∀ entry ∈ scripts, tx.Unlocks entry.1 entry.2) :
    Agree scripts := by
  rintro ⟨index, script⟩ member ⟨index', script'⟩ member' same
  cases same
  exact (all _ member).unique (all _ member')

/-! ## Signing -/

private theorem forM_withUnlocking (scripts : List (Nat × Script)) (tx : Transaction) :
    (scripts.forM fun (index, script) => modify fun tx => tx.withUnlocking index script :
      EStateM TransactionError Transaction Unit) tx = .ok () (tx.withAll scripts) := by
  induction scripts generalizing tx with
  | nil => rfl
  | cons entry rest ih => exact ih _

private theorem signInPlace_run (tx : Transaction) :
    signInPlace tx = (do
      let scripts ← MonadExcept.ofExcept tx.unlockingScripts
      scripts.forM fun (index, script) => modify fun tx => tx.withUnlocking index script :
      EStateM TransactionError Transaction Unit) tx := rfl

theorem signInPlace_of_made (made : tx.unlockingScripts = .ok scripts) :
    signInPlace tx = .ok () (tx.withAll scripts) := by
  rw [signInPlace_run, made]
  exact forM_withUnlocking scripts tx

theorem signInPlace_of_refused {cause : TransactionError}
    (refused : tx.unlockingScripts = .error cause) : signInPlace tx = .error cause tx := by
  rw [signInPlace_run, refused]
  rfl

/-- Any order of the indices is an order of the scripts. -/
private theorem foldlM_signAt_perm (unlocks : ∀ entry ∈ scripts, tx.Unlocks entry.1 entry.2)
    {order : List Nat} (perm : order.Perm (scripts.map Prod.fst)) :
    order.foldlM signAt tx = .ok (tx.withAll scripts) := by
  obtain ⟨scripts', rfl, ordered⟩ :=
    (congrFun₂ (List.eq_map_comp_perm Prod.fst) order scripts).mpr perm
  have unlocks' : ∀ entry ∈ scripts', tx.Unlocks entry.1 entry.2 :=
    fun entry member => unlocks entry (ordered.mem_iff.mp member)
  rw [foldlM_signAt unlocks', withAll_perm ordered (agree_of_unlocks unlocks')]

/-- Signing that fails leaves the transaction as it was. Signing that succeeds fills in unlocking
scripts where there is an unlocker, once and for all, and the order of the inputs does not
matter. -/
theorem signInPlace_atomic_idempotent (tx : Transaction) :
    match signInPlace tx with
    | .error _ left => left = tx
    | .ok () signed =>
        signed.unsigned = tx.unsigned ∧
          (∀ (index : Nat) (input : Input), tx.inputs[index]? = some input →
            input.unlocker = none → signed.inputs[index]? = some input) ∧
          signInPlace signed = .ok () signed ∧
          ∀ order : List Nat, order.Perm tx.unlockable → order.foldlM signAt tx = .ok signed := by
  cases made : tx.unlockingScripts with
  | error cause => rw [signInPlace_of_refused made]
  | ok scripts =>
      rw [signInPlace_of_made made]
      obtain ⟨indices, unlocks⟩ := unlocks_of_unlockingScripts made
      have same := unsigned_withAll tx scripts
      refine ⟨same, ?_, ?_, ?_⟩
      · intro index input found absent
        rw [getElem?_withAll, found]
        rintro entry member rfl
        obtain ⟨unlocker, here, -⟩ := unlocks entry member
        rw [unlockerAt?, found, Option.bind_some, absent] at here
        cases here
      · have again : (tx.withAll scripts).unlockingScripts = .ok scripts := by
          rw [← unlockingScripts_unsigned, same, unlockingScripts_unsigned, made]
        rw [signInPlace_of_made again, withAll_withAll (agree_of_unlocks unlocks)]
      · intro order perm
        rw [← indices] at perm
        exact foldlM_signAt_perm unlocks perm

end Transaction

end BitcoinSpend
