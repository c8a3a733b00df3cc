import BitcoinSpend.Proofs.Transaction.RPuzzleSpend
import BitcoinSpend.Proofs.Transaction.SigningInPlace
import BitcoinSpend.Proofs.Transaction.SizeEstimates

/-!
# Sizes of signed transactions

An unlocker makes a script that is not empty and not longer than its estimate, whatever
signature goes into it. So a signed transaction is no larger than was estimated for it,
and from then on its estimate is its size.
-/

set_option autoImplicit false

namespace BitcoinSpend

/-! ## The scripts that unlockers make -/

private theorem Chunk.length_encode_push_of_short {data : Bytes} (short : data.length ≤ 75) :
    (push data).encode.length ≤ data.length + 1 := by
  rcases push_cases data with ⟨-, same⟩ | ⟨byte, -, -, -, same⟩ | ⟨-, same⟩ | ⟨plain, same⟩
  · rw [same]
    exact Nat.le_add_left _ _
  · rw [same]
    exact Nat.le_add_left _ _
  · rw [same]
    exact Nat.le_add_left _ _
  · have positive := length_pos_of_bareOpcode? plain
    have isLength : (pushOpcode data.length).toNat = data.length := by
      rcases pushOpcode_cases positive with ⟨-, isLength⟩ | ⟨long, -, -⟩ | ⟨long, -, -⟩ | ⟨long, -⟩
      · exact isLength
      all_goals omega
    have direct : Opcode.isDirectPush (pushOpcode data.length) = true := by
      simp only [Opcode.isDirectPush, UInt8.le_iff_toNat_le, isLength, Bool.and_eq_true,
        decide_eq_true_eq]
      exact ⟨positive, short⟩
    simp only [same, encode, lengthWidth_of_direct direct, Bytes.ofNatLE, List.nil_append,
      List.length_cons, Nat.le_refl]

private theorem Script.size_ofPushes_le {items : List Bytes} {script : Script}
    (short : ∀ item ∈ items, item.length ≤ 75) (made : ofPushes items = .ok script) :
    script.size ≤ (items.map fun item => item.length + 1).sum := by
  obtain ⟨-, rfl⟩ := ofPushes_eq_ok_iff.mp made
  rw [size, ofChunks, Chunk.encodeAll, List.length_flatMap, List.map_map]
  exact List.sum_le_sum fun item member => Chunk.length_encode_push_of_short (short item member)

private theorem Script.bytes_ofPushes_ne_nil {item : Bytes} {items : List Bytes} {script : Script}
    (made : ofPushes (item :: items) = .ok script) : script.bytes ≠ [] := by
  obtain ⟨-, rfl⟩ := ofPushes_eq_ok_iff.mp made
  have counted := Chunk.length_le_size_ofChunks ((item :: items).map Chunk.push)
  exact List.ne_nil_of_length_pos (Nat.lt_of_lt_of_le (Nat.zero_lt_succ _) counted)

namespace Unlocker

variable {unlocker : Unlocker} {tx : Transaction} {index : Nat} {script : Script}

/-- The keys that the script of an unlocker shows. -/
def shownKeys : Unlocker → List PublicKey
  | payToKeyHash key _ => [key.publicKey]
  | pushDrop _ _ => []
  | rPuzzle _ key _ => [key.publicKey]

/-- Whatever its kind, an unlocker pushes a signature with a hash type and the keys it shows. -/
private theorem exists_pushes_of_unlock (made : unlocker.unlock tx index = .ok script) :
    ∃ (signature : Signature) (type : UInt8),
      Script.ofPushes ((signature.toDer ++ [type]) ::
        unlocker.shownKeys.map PublicKey.compressed) = .ok script := by
  cases unlocker with
  | payToKeyHash key type | pushDrop key type | rPuzzle nonce key type =>
      obtain ⟨-, signature, -, -, pushed⟩ := Transaction.signInput_bind_eq_ok_iff.mp made
      exact ⟨signature, type.byte, pushed⟩

theorem estimatedLength_eq (unlocker : Unlocker) :
    unlocker.estimatedLength = 74 + 34 * unlocker.shownKeys.length := by
  cases unlocker <;> rfl

private theorem estimatedLength_le (unlocker : Unlocker) : unlocker.estimatedLength ≤ 108 := by
  cases unlocker <;> simp [estimatedLength]

private theorem bytes_unlock_ne_nil (made : unlocker.unlock tx index = .ok script) :
    script.bytes ≠ [] := by
  obtain ⟨signature, type, pushed⟩ := exists_pushes_of_unlock made
  exact Script.bytes_ofPushes_ne_nil pushed

private theorem size_unlock_le (made : unlocker.unlock tx index = .ok script) :
    script.size ≤ unlocker.estimatedLength := by
  obtain ⟨signature, type, pushed⟩ := exists_pushes_of_unlock made
  have sizeDer := signature.length_toDer_le
  have short : ∀ item ∈ (signature.toDer ++ [type]) ::
      unlocker.shownKeys.map PublicKey.compressed, item.length ≤ 75 := by
    simp only [List.forall_mem_cons, List.length_append, List.length_singleton, List.forall_mem_map,
      PublicKey.length_compressed]
    exact ⟨by omega, fun _ _ => by decide⟩
  have bound := Script.size_ofPushes_le short pushed
  simp only [List.map_cons, List.map_map, Function.comp_def, PublicKey.length_compressed,
    List.map_const', List.sum_cons, List.sum_replicate, List.length_append,
    List.length_singleton, smul_eq_mul] at bound
  rw [estimatedLength_eq]
  omega

end Unlocker

/-! ## The inputs of a signed transaction -/

/-- An input as it is after signing. -/
inductive Input.SignedAs : Input → Input → Prop where
  | untouched {input : Input} (plain : input.unlocker = none) : SignedAs input input
  | signed {input : Input} {unlocker : Unlocker} {script : Script}
      (own : input.unlocker = some unlocker) (nonempty : script.bytes ≠ [])
      (short : script.size ≤ unlocker.estimatedLength) :
      SignedAs input (input.withUnlocking script)

/-- An input that waits for its unlocker has no unlocking script yet, or the empty one. -/
def Input.AwaitsUnlocker (input : Input) : Prop :=
  input.unlocker ≠ none → input.unlockingBytes = []

/-- After signing an input counts as its unlocking script, which is not larger than it counted
before. -/
private theorem Input.SignedAs.countsAs {input next : Input} {length : Nat}
    (signedAs : input.SignedAs next)
    (awaits : input.AwaitsUnlocker) (counts : input.CountsAs length) :
    next.CountsAs next.unlockingBytes.length ∧
      sizeWith next.unlockingBytes.length ≤ sizeWith length := by
  cases signedAs with
  | untouched plain =>
      obtain ⟨script, found, rfl⟩ := unlocking_of_countsAs counts plain
      have bytes : input.unlockingBytes = script.bytes := by rw [unlockingBytes, found]
      rw [bytes]
      exact ⟨counts, Nat.le_refl _⟩
  | @signed unlocker script own nonempty short =>
      have waited : input.unlocker ≠ none := by simp [own]
      obtain rfl := counts.unique (countsAs_of_unlocker own (awaits waited))
      have small : unlocker.estimatedLength < UInt64.size :=
        Nat.lt_of_le_of_lt unlocker.estimatedLength_le (by decide)
      exact ⟨countsAs_of_script rfl (.inr nonempty), sizeWith_mono short small⟩

namespace Transaction

variable {tx signed : Transaction} {index : Nat} {input : Input} {script : Script}
  {scripts : List (Nat × Script)}

private theorem getElem?_withAll_of_mem (agree : Agree scripts) (member : (index, script) ∈ scripts)
    (found : tx.inputs[index]? = some input) :
    (tx.withAll scripts).inputs[index]? = some (input.withUnlocking script) := by
  -- What is known of the input there is what it has without an unlocking script.
  have same : (tx.withAll scripts).inputs[index]?.map Input.unsigned =
      tx.inputs[index]?.map Input.unsigned := by
    rw [← List.getElem?_map, ← List.getElem?_map]
    exact congrArg (·.inputs[index]?) (unsigned_withAll tx scripts)
  rw [found, Option.map_some] at same
  obtain ⟨there, isThere, unsigned⟩ := Option.map_eq_some_iff.mp same
  have again := getElem?_withUnlocking isThere script
  rw [withUnlocking_withAll agree member tx] at again
  have whole : there.withUnlocking script = input.withUnlocking script :=
    congrArg (·.withUnlocking script) unsigned
  rw [again, whole]

private theorem mem_unlockable {unlocker : Unlocker} (found : tx.inputs[index]? = some input)
    (own : input.unlocker = some unlocker) : index ∈ tx.unlockable := by
  refine List.mem_map.mpr ⟨(index, unlocker), List.mem_filterMap.mpr ⟨(input, index), ?_, ?_⟩, rfl⟩
  · exact List.mk_mem_zipIdx_iff_getElem?.mpr found
  · simp [own]

private theorem signedAs_of_getElem? (made : tx.unlockingScripts = .ok scripts)
    (found : tx.inputs[index]? = some input) :
    ∃ next, (tx.withAll scripts).inputs[index]? = some next ∧ input.SignedAs next := by
  obtain ⟨indices, unlocks⟩ := unlocks_of_unlockingScripts made
  cases own : input.unlocker with
  | none =>
      have apart : ∀ entry ∈ scripts, entry.1 ≠ index := by
        rintro entry member rfl
        obtain ⟨unlocker, here, -⟩ := unlocks entry member
        rw [unlockerAt?, found, Option.bind_some, own] at here
        cases here
      exact ⟨input, (getElem?_withAll apart).trans found, .untouched own⟩
  | some unlocker =>
      have listed : index ∈ scripts.map Prod.fst := indices ▸ mem_unlockable found own
      obtain ⟨⟨_, script⟩, member, rfl⟩ := List.mem_map.mp listed
      obtain ⟨unlocker', here, unlocked⟩ := unlocks _ member
      rw [unlockerAt?, found, Option.bind_some] at here
      exact ⟨_, getElem?_withAll_of_mem (agree_of_unlocks unlocks) member found,
        .signed here (Unlocker.bytes_unlock_ne_nil unlocked) (Unlocker.size_unlock_le unlocked)⟩

private theorem length_inputs_withAll (tx : Transaction) (scripts : List (Nat × Script)) :
    (tx.withAll scripts).inputs.length = tx.inputs.length := by
  have same := congrArg (·.inputs.length) (unsigned_withAll tx scripts)
  simpa only [unsigned, List.length_map] using same

/-- Signing changes the inputs only. -/
private theorem signedAs_of_signInPlace (done : signInPlace tx = .ok () signed) :
    signed.outputs = tx.outputs ∧ List.Forall₂ Input.SignedAs tx.inputs signed.inputs := by
  cases made : tx.unlockingScripts with
  | error cause =>
      rw [signInPlace_of_refused made] at done
      cases done
  | ok scripts =>
      rw [signInPlace_of_made made] at done
      cases done
      have outputs := congrArg Transaction.outputs (unsigned_withAll tx scripts)
      refine ⟨outputs, List.forall₂_iff_get.mpr ⟨(length_inputs_withAll tx scripts).symm, ?_⟩⟩
      intro index inside inside'
      obtain ⟨next, here, signedAs⟩ :=
        signedAs_of_getElem? made (List.getElem?_eq_getElem inside)
      rw [List.getElem?_eq_getElem inside'] at here
      cases here
      exact signedAs

/-! ## Estimates before and after -/

private theorem sum_sizeWith_le {inputs signed : List Input} {lengths : List Nat}
    (signedAs : List.Forall₂ Input.SignedAs inputs signed)
    (awaits : ∀ input ∈ inputs, input.AwaitsUnlocker)
    (counts : List.Forall₂ Input.CountsAs inputs lengths) :
    (∀ input ∈ signed, input.CountsAs input.unlockingBytes.length) ∧
      ((signed.map fun input => input.unlockingBytes.length).map Input.sizeWith).sum ≤
        (lengths.map Input.sizeWith).sum := by
  induction signedAs generalizing lengths with
  | nil => exact ⟨nofun, Nat.zero_le _⟩
  | cons here _ ih =>
      cases counts with
      | cons counted counts =>
          obtain ⟨awaitsHere, awaits⟩ := List.forall_mem_cons.mp awaits
          obtain ⟨countsAs, le⟩ := here.countsAs awaitsHere counted
          obtain ⟨later, sum⟩ := ih awaits counts
          exact ⟨List.forall_mem_cons.mpr ⟨countsAs, later⟩, Nat.add_le_add le sum⟩

/-- A transaction that is signed is no larger than was estimated, is estimated as it is, and is
asked for no larger fee. A transaction without empty unlocking scripts is estimated as it is. -/
theorem estimatedSize_bounds_signed :
    (∀ (tx signed : Transaction) (estimate : Nat), (∀ input ∈ tx.inputs, input.AwaitsUnlocker) →
      tx.estimatedSize = .ok estimate → signInPlace tx = .ok () signed →
        signed.size ≤ estimate ∧ signed.estimatedSize = .ok signed.size ∧
          ∀ rate, ∃ before after, Fee.atRate rate tx = .ok before ∧
            Fee.atRate rate signed = .ok after ∧ after ≤ before) ∧
    ∀ tx : Transaction, (∀ input ∈ tx.inputs, input.unlockingBytes ≠ []) →
      tx.estimatedSize = .ok tx.encode.length := by
  constructor
  · intro tx signed estimate awaits estimated done
    obtain ⟨lengths, counts, rfl⟩ := estimatedSize_eq_ok_iff.mp estimated
    obtain ⟨outputs, signedAs⟩ := signedAs_of_signInPlace done
    obtain ⟨countsAs, sum⟩ := sum_sizeWith_le signedAs awaits counts
    have smaller : signed.size ≤ tx.sizeWith lengths := by
      rw [size_eq_sizeWith, sizeWith, sizeWith, outputs, ← signedAs.length_eq]
      omega
    have settled := estimatedSize_of_countsAs countsAs
    refine ⟨smaller, settled, fun rate => ⟨_, _, ?_, ?_, Fee.forSize_mono smaller rate⟩⟩
    · exact Fee.atRate_eq_ok_iff.mpr ⟨_, estimated, rfl⟩
    · exact Fee.atRate_eq_ok_iff.mpr ⟨_, settled, rfl⟩
  · intro tx nonempty
    exact estimatedSize_of_countsAs fun input member =>
      Input.countsAs_of_unlockingBytes (nonempty input member)

/-- An input with an unlocking script of one opcode. -/
def openInput : Input :=
  { Input.ofOutpoint ⟨Hash32.zero, 1⟩ with unlocking := some ⟨[0x51]⟩ }

/-- An input that waits for a signature made with a given nonce, beside one that is unlocked. -/
def awaitingPuzzle : Transaction where
  version := 1
  inputs := [{ (Input.ofOutpoint ⟨Hash32.zero, 0⟩).withSource ⟨1000, ⟨[0x51]⟩⟩ with
      unlocking := some ⟨[]⟩
      unlocker := some (.rPuzzle nonceTwo PrivateKey.one ⟨0x41⟩) },
    openInput]
  outputs := [⟨900, ⟨[0x51]⟩, false⟩]
  lockTime := 0
  path := none

theorem awaitingPuzzle_bounds_signed :
    (∀ input ∈ awaitingPuzzle.inputs, input.AwaitsUnlocker) ∧
    awaitingPuzzle.estimatedSize = .ok 211 ∧
    (∃ signed, signInPlace awaitingPuzzle = .ok () signed ∧
      signed.size ≤ 211 ∧ signed.estimatedSize = .ok signed.size) ∧
    (∀ input ∈ { awaitingPuzzle with inputs := [openInput] }.inputs, input.unlockingBytes ≠ []) ∧
    ({ awaitingPuzzle with inputs := [openInput] } : Transaction).estimatedSize =
      .ok ({ awaitingPuzzle with inputs := [openInput] } : Transaction).encode.length := by
  have awaits : ∀ input ∈ awaitingPuzzle.inputs, input.AwaitsUnlocker := by
    simp only [awaitingPuzzle, List.forall_mem_cons, List.not_mem_nil, false_implies, implies_true,
      and_true]
    exact ⟨fun _ => rfl, fun waits => absurd rfl waits⟩
  have estimated : awaitingPuzzle.estimatedSize = .ok 211 := by rfl
  have evaluated : awaitingPuzzle.unlockingScripts.toOption.isSome = true := by decide +kernel
  obtain ⟨scripts, made⟩ := Option.isSome_iff_exists.mp evaluated
  have done := signInPlace_of_made (toOption_eq_some_iff.mp made)
  have nonempty : ∀ input ∈ [openInput], input.unlockingBytes ≠ [] := by
    refine List.forall_mem_singleton.mpr ?_
    exact List.cons_ne_nil _ _
  obtain ⟨smaller, settled, -⟩ := estimatedSize_bounds_signed.1 _ _ _ awaits estimated done
  exact ⟨awaits, estimated, ⟨_, done, smaller, settled⟩, nonempty,
    estimatedSize_bounds_signed.2 _ nonempty⟩

end Transaction

end BitcoinSpend
