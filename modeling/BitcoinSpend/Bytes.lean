/-!
# Byte strings

Byte strings and the two fixed-width readings of them as natural numbers.
Little-endian is the primary form; the big-endian form is its reversal.
-/

set_option autoImplicit false

namespace BitcoinSpend

/-- A byte string, first byte first. -/
abbrev Bytes := List UInt8

namespace Bytes

/-- The value of a little-endian byte string of any length. -/
def toNatLE : Bytes → Nat
  | [] => 0
  | byte :: rest => byte.toNat + 256 * toNatLE rest

/-- The `width` low bytes of `value`, least significant first. -/
def ofNatLE : (width : Nat) → (value : Nat) → Bytes
  | 0, _ => []
  | width + 1, value => UInt8.ofNat value :: ofNatLE width (value / 256)

/-- The value of a big-endian byte string of any length. -/
def toNatBE (bytes : Bytes) : Nat :=
  toNatLE bytes.reverse

/-- The `width` low bytes of `value`, most significant first. -/
def ofNatBE (width value : Nat) : Bytes :=
  (ofNatLE width value).reverse

/-- The number of bytes in the shortest form of `value`; zero needs none. -/
def widthOf (value : Nat) : Nat :=
  if value = 0 then 0 else value.log2 / 8 + 1

/-- The shortest little-endian form of `value`. -/
def ofNatLEShortest (value : Nat) : Bytes :=
  ofNatLE (widthOf value) value

/-- The shortest big-endian form of `value`. -/
def ofNatBEShortest (value : Nat) : Bytes :=
  (ofNatLEShortest value).reverse

/-- The number of byte strings of a given length. -/
def capacity : (width : Nat) → Nat
  | 0 => 1
  | width + 1 => 256 * capacity width

@[simp] theorem length_ofNatLE (width value : Nat) : (ofNatLE width value).length = width := by
  induction width generalizing value with
  | zero => rfl
  | succ width ih => simp [ofNatLE, ih]

@[simp] theorem length_ofNatBE (width value : Nat) : (ofNatBE width value).length = width := by
  simp [ofNatBE]

theorem toNatLE_ofNatLE (width value : Nat) :
    toNatLE (ofNatLE width value) = value % capacity width := by
  induction width generalizing value with
  | zero => simp [ofNatLE, toNatLE, capacity, Nat.mod_one]
  | succ width ih =>
      have splitting := @Nat.mod_mul 256 (capacity width) value
      have low : (UInt8.ofNat value).toNat = value % 256 := by simp
      rw [ofNatLE, toNatLE, ih, low, capacity, splitting]

theorem toNatLE_lt (bytes : Bytes) : toNatLE bytes < capacity bytes.length := by
  induction bytes with
  | nil => simp [toNatLE, capacity]
  | cons byte rest ih =>
      have byteBound := byte.toNat_lt
      simp only [toNatLE, List.length_cons, capacity]
      omega

theorem ofNatLE_toNatLE (bytes : Bytes) : ofNatLE bytes.length (toNatLE bytes) = bytes := by
  induction bytes with
  | nil => rfl
  | cons byte rest ih =>
      have byteBound := byte.toNat_lt
      have quotient : (byte.toNat + 256 * toNatLE rest) / 256 = toNatLE rest := by omega
      have low : UInt8.ofNat (byte.toNat + 256 * toNatLE rest) = byte := by
        apply UInt8.toNat_inj.mp
        simp only [UInt8.toNat_ofNat']
        omega
      simp only [toNatLE, List.length_cons, ofNatLE, quotient, low, ih]

end Bytes

end BitcoinSpend
