import BitcoinSpend.Address
import BitcoinSpend.Proofs.Signature.Der
import BitcoinSpend.Proofs.Text.Base58Digits

/-!
# Addresses and private keys as texts

The checked text of a payload is the only text that gives the payload. An address and a key with
the mark of a compressed public key are payloads of one length, and the first byte tells their
networks. So each of them has one text on each network.
-/

set_option autoImplicit false

namespace BitcoinSpend

/-! ## Addresses -/

theorem Network.ofVersion?_eq_some_iff {version : UInt8} {network : Network} :
    Network.ofVersion? version = some network ↔ version = network.version := by
  constructor
  · intro found
    rw [Network.ofVersion?] at found
    split at found
    · next isMain =>
        cases found
        exact isMain
    · split at found
      · next isTest =>
          cases found
          exact isTest
      · cases found
  · rintro rfl
    cases network <;> rfl

theorem KeyHash.ofBytes?_eq_some_iff {bytes : Bytes} {hash : KeyHash} :
    KeyHash.ofBytes? bytes = some hash ↔ bytes = hash.bytes := by
  constructor
  · intro found
    rw [KeyHash.ofBytes?] at found
    split at found
    · cases found
      rfl
    · cases found
  · rintro rfl
    exact dif_pos hash.length_bytes

theorem Address.ofText_eq_ok_iff {text : String} {address : Address} :
    Address.ofText text = .ok address ↔ text = address.display := by
  rw [Address.display, ← Base58.decodeChecked_eq_ok_iff]
  constructor
  · intro read
    rw [Address.ofText] at read
    split at read
    · cases read
    · next payload decoded =>
        rw [decoded]
        split at read
        · cases read
        · next version body =>
            split at read
            · cases read
            · next hash isHash =>
                split at read
                · next network isNetwork =>
                    cases read
                    rw [Network.ofVersion?_eq_some_iff.mp isNetwork,
                      KeyHash.ofBytes?_eq_some_iff.mp isHash]
                · cases read
  · intro decoded
    have isHash : KeyHash.ofBytes? address.keyHash.bytes = some address.keyHash :=
      KeyHash.ofBytes?_eq_some_iff.mpr rfl
    have isNetwork : Network.ofVersion? address.network.version = some address.network :=
      Network.ofVersion?_eq_some_iff.mpr rfl
    simp only [Address.ofText, decoded, isHash, isNetwork]

/-! ## Private keys -/

namespace PrivateKey

private theorem ofScalar?_scalar (key : PrivateKey) : ofScalar? key.scalar = some key := by
  obtain ⟨scalar, publicKey, positive, below, isPoint⟩ := key
  rw [ofScalar?, dif_pos ⟨positive, below⟩]
  split
  · next found same =>
      cases isPoint.symm.trans same
      rfl
  · next none =>
      rw [none] at isPoint
      cases isPoint

private theorem length_toBytes (key : PrivateKey) : key.toBytes.length = 32 :=
  Bytes.length_ofNatBE 32 key.scalar

private theorem toNatBE_toBytes (key : PrivateKey) : key.toBytes.toNatBE = key.scalar := by
  have range : Curve.order < Bytes.capacity 32 := by decide
  exact Bytes.toNatBE_ofNatBE (Nat.lt_trans key.scalar_lt range)

theorem ofBytes_eq_ok_iff {bytes : Bytes} {key : PrivateKey} :
    ofBytes bytes = .ok key ↔ bytes = key.toBytes := by
  constructor
  · intro read
    have scalar := scalar_of_ofBytes read
    rw [ofBytes] at read
    split at read
    · cases read
    · next whole =>
        have length : bytes.length = 32 := not_not.mp whole
        rw [toBytes, scalar, ← length, Bytes.ofNatBE_toNatBE]
  · rintro rfl
    have length : ¬key.toBytes.length ≠ 32 := not_not.mpr key.length_toBytes
    rw [ofBytes, if_neg length, toNatBE_toBytes, ofScalar?_scalar]

private theorem readWifPayload_marked {keyBytes : Bytes} (length : keyBytes.length = 32)
    (version : UInt8) : readWifPayload (version :: (keyBytes ++ [0x01])) =
      if version = mainVersion ∨ version = testVersion then .ok keyBytes
      else .error (.unknownVersion version) := by
  have long : (keyBytes ++ [0x01]).length = 33 := by rw [List.length_append, length]; rfl
  have notShort : ¬(keyBytes ++ [0x01]).length = 32 := by omega
  have tail : (keyBytes ++ [0x01]).drop 32 = [0x01] := by rw [← length, List.drop_left]
  have head : (keyBytes ++ [0x01]).take 32 = keyBytes := by rw [← length, List.take_left]
  simp only [readWifPayload, if_neg notShort, if_pos long, tail, head, if_true]

/-- A payload of 34 bytes is a version, a key and the mark of a compressed public key. -/
theorem readWifPayload_eq_ok_iff {version : UInt8} {body keyBytes : Bytes}
    (long : body.length = 33) :
    readWifPayload (version :: body) = .ok keyBytes ↔
      (version = mainVersion ∨ version = testVersion) ∧ body = keyBytes ++ [0x01] := by
  constructor
  · intro read
    obtain ⟨flag, isFlag⟩ : ∃ flag, body.drop 32 = [flag] := by
      apply List.length_eq_one_iff.mp
      rw [List.length_drop, long]
    have parts : body.take 32 ++ [flag] = body := by
      rw [← isFlag, List.take_append_drop]
    have notShort : ¬body.length = 32 := by omega
    simp only [readWifPayload, if_neg notShort, if_pos long, isFlag] at read
    split at read
    · next isMark =>
        split at read
        · next known =>
            cases read
            rw [isMark] at parts
            exact ⟨known, parts.symm⟩
        · cases read
    · cases read
  · rintro ⟨known, rfl⟩
    have length : keyBytes.length = 32 := by simpa using long
    rw [readWifPayload_marked length, if_pos known]

private theorem ofWif_of_decoded {text : String} {payload : Bytes}
    (decoded : Base58.decodeChecked text = .ok payload) :
    ofWif text = (readWifPayload payload).mapError .wif >>= ofBytes := by
  simp only [ofWif, decoded]
  cases readWifPayload payload with
  | error cause => rfl
  | ok bytes => rfl

private theorem ofWif_toWif (key : PrivateKey) (version : UInt8) :
    ofWif (key.toWif version) =
      if version = 0x80 ∨ version = 0xef then .ok key
      else .error (.wif (.unknownVersion version)) := by
  have decoded := Base58.decodeChecked_eq_ok_iff.mpr (Eq.refl (key.toWif version))
  have isKey : ofBytes key.toBytes = .ok key := ofBytes_eq_ok_iff.mpr rfl
  have opened := readWifPayload_marked key.length_toBytes version
  rw [mainVersion, testVersion] at opened
  rw [ofWif_of_decoded decoded, opened]
  split
  · exact bind_eq_ok_iff.mpr ⟨key.toBytes, mapError_eq_ok_iff.mpr rfl, isKey⟩
  · rfl

/-- The keys of the form of 34 bytes, each with the version that its text begins with. -/
theorem ofWif_long_iff {text : String} {version : UInt8} {key : PrivateKey} :
    (∃ body, body.length = 33 ∧ Base58.decodeChecked text = .ok (version :: body)) ∧
        ofWif text = .ok key ↔
      (version = 0x80 ∨ version = 0xef) ∧ text = key.toWif version := by
  constructor
  · rintro ⟨⟨body, long, decoded⟩, read⟩
    rw [ofWif_of_decoded decoded] at read
    obtain ⟨keyBytes, opened, made⟩ := bind_eq_ok_iff.mp read
    obtain ⟨known, rfl⟩ := (readWifPayload_eq_ok_iff long).mp (mapError_eq_ok_iff.mp opened)
    rw [ofBytes_eq_ok_iff.mp made] at decoded
    exact ⟨known, Base58.decodeChecked_eq_ok_iff.mp decoded⟩
  · rintro ⟨known, rfl⟩
    have decoded := Base58.decodeChecked_eq_ok_iff.mpr (Eq.refl (key.toWif version))
    have long : (key.toBytes ++ [0x01]).length = 33 := by
      rw [List.length_append, length_toBytes]
      rfl
    exact ⟨⟨_, long, decoded⟩, (ofWif_toWif key version).trans (if_pos known)⟩

end PrivateKey

/-- Checked texts are canonical: a text is accepted exactly as what it is the text of, be it a
payload, an address, or a private key in the form of 34 bytes. -/
theorem checkedTexts_canonical :
    (∀ (text : String) (payload : Bytes),
      Base58.decodeChecked text = .ok payload ↔ text = Base58.encodeChecked payload) ∧
    (∀ (text : String) (address : Address),
      Address.ofText text = .ok address ↔ text = address.display) ∧
    (∀ (key : PrivateKey) (version : UInt8),
      PrivateKey.ofWif (key.toWif version) =
        if version = 0x80 ∨ version = 0xef then .ok key
        else .error (.wif (.unknownVersion version))) ∧
    ∀ (text : String) (version : UInt8) (key : PrivateKey),
      (∃ body, body.length = 33 ∧ Base58.decodeChecked text = .ok (version :: body)) ∧
          PrivateKey.ofWif text = .ok key ↔
        (version = 0x80 ∨ version = 0xef) ∧ text = key.toWif version := by
  refine ⟨?_, ?_, PrivateKey.ofWif_toWif, ?_⟩
  · intro text payload
    exact Base58.decodeChecked_eq_ok_iff
  · intro text address
    exact Address.ofText_eq_ok_iff
  · intro text version key
    exact PrivateKey.ofWif_long_iff

end BitcoinSpend
