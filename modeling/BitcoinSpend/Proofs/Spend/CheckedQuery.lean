import BitcoinSpend.Proofs.Spend.Asks
import BitcoinSpend.Proofs.Spend.StrictSignature

/-!
# Checked questions

Where replay protection is enabled and strict encodings are asked for, a signature
and a key pass every check of their encodings before the transaction context is
asked about them. A single signature check then asks about the script after the
separator, as it stands.
-/

set_option autoImplicit false

namespace BitcoinSpend.Spend

open MonadExcept (ofExcept)

/-- An encoded public key, compressed or not, going by its length and first byte. -/
def IsKeyEncoding (bytes : Bytes) : Prop :=
  (bytes.length = 33 ∧ (bytes.head? = some 0x02 ∨ bytes.head? = some 0x03)) ∨
    (bytes.length = 65 ∧ bytes.head? = some 0x04)

/-- A question whose parts have passed the checks that replay protection brings. -/
structure SignatureQuery.Checked (lowS : Bool) (inputIndex : Nat) (query : SignatureQuery) :
    Prop where
  hashType : ∃ last, query.signature.getLast? = some last ∧ query.hashType = last.toUInt32
  forkId : query.hashType &&& 0x40 ≠ 0
  base : query.hashType &&& 0x3f ∈ [1, 2, 3]
  signature : query.signature.dropLast = [] ∨ IsStrict lowS query.signature.dropLast
  publicKey : IsKeyEncoding query.publicKey
  inputIndex : query.inputIndex = inputIndex

/-- The index of the first chunk that signatures commit to. -/
def afterSeparator : Option Nat → Nat
  | some index => index + 1
  | none => 0

/-! ## The checks of encodings -/

/-- The bit for replay protection is the same one in the byte and in the word. -/
theorem forkIdBit_toUInt32_iff {hashType : UInt8} :
    hashType.toUInt32 &&& 0x40 = 0 ↔ hashType &&& hashTypeForkId = 0 := by
  have same : (hashType &&& hashTypeForkId).toUInt32 = hashType.toUInt32 &&& 0x40 :=
    UInt8.toUInt32_and _ _
  rw [← same]
  exact UInt8.toUInt32_inj (b := 0)

theorem checkHashType_eq_ok_iff {flags : Flags} (strict : flags.has Flags.strictEncoding = true)
    (forkId : flags.has Flags.enableForkId = true) {hashType : UInt8} :
    checkHashType flags hashType = .ok () ↔
      hashType &&& hashTypeForkId ≠ 0 ∧ hashType &&& 0x3f ∈ [1, 2, 3] := by
  have mask : ~~~(hashTypeForkId ||| hashTypeAnyoneCanPay) = 0x3f := by decide
  have known : ∀ base : UInt8, base ∈ [1, 2, 3] ↔ ¬(base < 1 ∨ 3 < base) := by
    intro base
    simp only [List.mem_cons, List.not_mem_nil, or_false, UInt8.lt_iff_toNat_lt,
      ← UInt8.toNat_inj]
    simp
    omega
  simp only [checkHashType, strict, forkId, mask, known, Bool.not_true, Bool.false_eq_true,
    if_false, Bool.and_false, Bool.and_true]
  split
  · next unknown => exact ⟨nofun, fun both => absurd unknown both.2⟩
  · next base =>
      by_cases bit : hashType &&& hashTypeForkId = 0
      · simp [bit]
      · exact ⟨fun _ => ⟨bit, base⟩, fun _ => by simp [bit]⟩

theorem checkKeyEncoding_eq_ok_iff {flags : Flags}
    (strict : flags.has Flags.strictEncoding = true) {bytes : Bytes} :
    checkKeyEncoding flags bytes = .ok () ↔ IsKeyEncoding bytes := by
  cases bytes with
  | nil => simp [checkKeyEncoding, strict, IsKeyEncoding]
  | cons first rest =>
      simp only [checkKeyEncoding, strict, Bool.not_true, Bool.false_eq_true, if_false,
        IsKeyEncoding, List.length_cons, List.head?_cons, Option.some.injEq,
        Nat.reduceEqDiff]
      split
      · next compressed => simp [compressed]
      · next notCompressed =>
          split
          · next uncompressed => simp [uncompressed]
          · next notUncompressed =>
              simp only [reduceCtorEq, false_iff]
              rintro (⟨length, first⟩ | ⟨length, first⟩)
              · exact notCompressed ⟨first, length⟩
              · exact notUncompressed ⟨first, length⟩

/-- A part of a script that replay-protected signatures commit to is the rest of it, unchanged. -/
private theorem signedScript_forkId {chunks : List Chunk} {separator : Option Nat}
    {signatures : List Bytes} {script : Script}
    (signed : signedScript chunks separator signatures true = .ok script) :
    script = Script.ofChunks (chunks.drop (afterSeparator separator)) := by
  obtain ⟨rest, suffix, made⟩ := bind_eq_ok_iff.mp signed
  obtain ⟨-, rfl⟩ := suffixFrom_eq_ok_iff.mp suffix
  cases made
  cases separator with
  | none => rfl
  | some index => rfl

/-! ## The questions of the signature checks -/

namespace Exec

variable {property : SignatureQuery → Prop} {separator : Option Nat}
  {earlier : List SignatureQuery} {frame : Frame}

theorem asks_checkOne (strict : frame.setup.flags.has Flags.strictEncoding = true)
    (forkId : frame.setup.flags.has Flags.enableForkId = true) {context : TxContext}
    {signature key : Bytes} {script : Script}
    (permits : ∀ query : SignatureQuery,
      query.Checked (frame.setup.flags.has Flags.lowS) frame.setup.inputIndex →
      query.signature = signature → query.subScript = script → property query) :
    Asks property separator earlier frame (checkOne context signature key script) := by
  simp only [checkOne]
  split
  · exact .pure false
  · next hashType last =>
      refine .setup_bind (.ofExcept_bind (fun _ _ => trivial) fun _ knownType => ?_)
      refine .ofExcept_bind (fun _ _ => trivial) fun _ layout => ?_
      refine .ofExcept_bind (fun _ _ => trivial) fun _ encoding => asks_ask ?_
      obtain ⟨bit, base⟩ := (checkHashType_eq_ok_iff strict forkId).mp knownType
      refine permits _ ⟨⟨hashType, last, rfl⟩, ?_, ?_, ?_, ?_, rfl⟩ rfl rfl
      · exact fun absent => bit (forkIdBit_toUInt32_iff.mp absent)
      · have widened := List.mem_map_of_mem (f := UInt8.toUInt32) base
        rwa [UInt8.toUInt32_and] at widened
      · have asked := Flags.asksForLayout_of_strictEncoding strict
        exact (checkSignatureEncoding_eq_ok_iff asked).mp layout
      · exact (checkKeyEncoding_eq_ok_iff strict).mp encoding

/-- What follows the choice of the signed script may rely on where it starts. -/
private theorem asks_signingScript_bind {signatures : List Bytes} {isForkId : Bool} {β : Type}
    {next : Script → Exec β}
    (rest : ∀ script, signedScript frame.script separator signatures isForkId = .ok script →
      Asks property separator earlier frame (next script)) :
    Asks property separator earlier frame (signingScript signatures isForkId >>= next) := by
  intro state asked
  have same : (signingScript signatures isForkId >>= next) frame state =
      (ofExcept (signedScript frame.script state.separator signatures isForkId) >>= next)
        frame state := rfl
  rw [same, asked.separator]
  exact Keeps.ofExcept_bind (fun _ _ => trivial) rest state asked

theorem asks_checkSig (strict : frame.setup.flags.has Flags.strictEncoding = true)
    (forkId : frame.setup.flags.has Flags.enableForkId = true)
    (permits : ∀ query : SignatureQuery,
      query.Checked (frame.setup.flags.has Flags.lowS) frame.setup.inputIndex →
      query.subScript = Script.ofChunks (frame.script.drop (afterSeparator separator)) →
      property query) :
    Asks property separator earlier frame checkSig := by
  refine (asks_onStack _).bind fun key => (asks_onStack _).bind fun signature => ?_
  refine .ite (fun _ => asks_onStack _) fun _ => ?_
  refine (asks_requireContext _).bind fun context => .setup_bind ?_
  refine .ofExcept_bind (fun _ _ => trivial) fun last isLast => ?_
  refine .ofExcept_bind (fun _ _ => trivial) fun hashType atLast => ?_
  refine asks_signingScript_bind fun script signed => ?_
  refine (asks_checkOne strict forkId ?_).bind fun valid => ?_
  · rintro query checked rfl rfl
    refine permits query checked ?_
    -- The script was chosen by a bit of the last byte, which the check has found set.
    have found : query.signature.getLast? = some hashType := by
      obtain ⟨-, rfl⟩ := difference_eq_ok_iff.mp isLast
      rw [List.getLast?_eq_getElem?]
      exact getElem?_of_itemAt atLast
    obtain ⟨last, isLast, same⟩ := checked.hashType
    cases found.symm.trans isLast
    have bit : hashType &&& hashTypeForkId ≠ 0 := by
      intro absent
      refine checked.forkId ?_
      rw [same]
      exact forkIdBit_toUInt32_iff.mpr absent
    have replayProtected : usesForkId frame.setup.flags hashType = true := by
      simp [usesForkId, forkId, bit]
    rw [replayProtected] at signed
    exact signedScript_forkId signed
  · exact (asks_refuse _ _).bind fun _ => asks_onStack _

end Exec

end BitcoinSpend.Spend
