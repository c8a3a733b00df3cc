import BitcoinSpend.Base58
import BitcoinSpend.Digest.Hmac
import BitcoinSpend.Signature

/-!
# Private keys

Scalars with their public key, the wallet import format, and signing with a
nonce that is derived from key and digest or chosen by the caller. Both ways of
signing give the smaller of the two values that `s` can take.
-/

set_option autoImplicit false

namespace BitcoinSpend

/-- A scalar together with the multiple of the generator that it makes. -/
structure PrivateKey where
  scalar : Nat
  publicKey : PublicKey
  scalar_pos : 0 < scalar
  scalar_lt : scalar < Curve.order
  ofPoint?_scalar : PublicKey.ofPoint? (Curve.mulGenerator scalar) = some publicKey

namespace PrivateKey

def ofScalar? (scalar : Nat) : Option PrivateKey :=
  if range : 0 < scalar ∧ scalar < Curve.order then
    match found : PublicKey.ofPoint? (Curve.mulGenerator scalar) with
    | some publicKey => some ⟨scalar, publicKey, range.1, range.2, found⟩
    | none => none
  else none

/-- Reads 32 big-endian bytes of a positive number below the order of the group. -/
def ofBytes (bytes : Bytes) : Except EncodingError PrivateKey :=
  if bytes.length ≠ 32 then .error (.privateKey (.wrongLength bytes.length))
  else
    match ofScalar? bytes.toNatBE with
    | some key => .ok key
    | none => .error (.privateKey .outOfRange)

def ofHex (text : String) : Except EncodingError PrivateKey :=
  match Hex.decode text with
  | .error cause => .error (.hex cause)
  | .ok bytes => ofBytes bytes

def toBytes (key : PrivateKey) : Bytes :=
  Bytes.ofNatBE 32 key.scalar

/-- The version byte of the main network's wallet import format. -/
def mainVersion : UInt8 := 0x80

/-- The version byte of the test network's wallet import format. -/
def testVersion : UInt8 := 0xef

/-- The wallet import text with a version byte and the mark of a compressed public key. -/
def toWif (key : PrivateKey) (version : UInt8) : String :=
  Base58.encodeChecked (version :: (key.toBytes ++ [0x01]))

/-- The key bytes in a wallet import payload: with the mark of a compressed key, or without it in
the older form. The length and the mark are checked before the version. -/
def readWifPayload (payload : Bytes) : Except WifError Bytes :=
  match payload with
  | [] => .error (.payloadLength 0)
  | version :: body =>
      let checkVersion (keyBytes : Bytes) : Except WifError Bytes :=
        if version = mainVersion ∨ version = testVersion then .ok keyBytes
        else .error (.unknownVersion version)
      if body.length = 32 then checkVersion body
      else if body.length = 33 then
        match body.drop 32 with
        | [flag] => if flag = 0x01 then checkVersion (body.take 32) else .error (.unknownFlag flag)
        | _ => .error (.payloadLength payload.length)
      else .error (.payloadLength payload.length)

def ofWif (text : String) : Except EncodingError PrivateKey :=
  match Base58.decodeChecked text with
  | .error (.base58 cause) => .error (.wif (.base58 cause))
  | .error cause => .error cause
  | .ok payload =>
      match readWifPayload payload with
      | .error cause => .error (.wif cause)
      | .ok bytes => ofBytes bytes

/-- A signature over a digest with a nonce in `1 .. order - 1`, `s` made low. -/
def signWithNonce (key : PrivateKey) (digest : Hash32) (nonce : Nat) :
    Except SignatureError Signature :=
  let r :=
    match Curve.mulGenerator nonce with
    | .infinity => 0
    | .affine x _ => x % Curve.order
  if r = 0 then .error .zeroR
  else
    let s := Curve.invMod Curve.order nonce *
      ((digest.bytes.toNatBE + r * key.scalar) % Curve.order) % Curve.order
    if s = 0 then .error .zeroS
    else
      let low := if Curve.halfOrder < s then Curve.order - s else s
      .ok ⟨BitVec.ofNat 256 r, BitVec.ofNat 256 low⟩

/-- The state of the deterministic nonce generator of RFC 6979. -/
structure NonceState where
  key : Bytes
  value : Bytes

/-- Mixes a separator byte and further input into the generator. -/
def NonceState.mix (state : NonceState) (input : Bytes) : NonceState :=
  let key := Digest.hmacSha256 state.key (state.value ++ input)
  ⟨key, Digest.hmacSha256 key state.value⟩

/-- The first candidate in range among `attempts` ones. -/
def NonceState.search : (attempts : Nat) → NonceState → Option Nat
  | 0, _ => none
  | attempts + 1, state =>
      let value := Digest.hmacSha256 state.key state.value
      let candidate := Bytes.toNatBE value
      if 0 < candidate ∧ candidate < Curve.order then some candidate
      else search attempts (NonceState.mix ⟨state.key, value⟩ [0x00])

def nonceSeed (key : PrivateKey) (digest : Hash32) : NonceState :=
  let start : NonceState := ⟨List.replicate 32 0x00, List.replicate 32 0x01⟩
  let input := key.toBytes ++ digest.bytes
  (start.mix (0x00 :: input)).mix (0x01 :: input)

/-- The nonce that key and digest determine. A candidate is out of range with a chance of about
one in `2 ^ 128`, so the bound on attempts is never met. -/
def nonce? (key : PrivateKey) (digest : Hash32) : Option Nat :=
  (nonceSeed key digest).search 100

/-- Signs a digest with the nonce that key and digest determine. -/
def sign (key : PrivateKey) (digest : Hash32) : Except EncodingError Signature :=
  match nonce? key digest with
  | none => .error (.signature .noNonce)
  | some nonce => (signWithNonce key digest nonce).mapError fun _ => .signature .noNonce

/-- Signs a digest with a nonce given as big-endian bytes and taken modulo the order. Every
signature made with one nonce has the same `r`. -/
def signWithK (key : PrivateKey) (digest : Hash32) (k : Bytes) :
    Except EncodingError Signature :=
  let nonce := k.toNatBE % Curve.order
  if nonce = 0 then .error (.signature .zeroNonce)
  else (signWithNonce key digest nonce).mapError .signature

end PrivateKey

end BitcoinSpend
