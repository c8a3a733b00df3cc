import BitcoinSpend.Proofs.Spend.ShiftedBytes
import BitcoinSpend.Proofs.Spend.StrictSignature
import BitcoinSpend.Spend.Execute

/-!
# Lengths of results

What a push, a shift, a cut, a resizing or a digest puts is as long as its operands
say, whatever bytes they hold.
-/

set_option autoImplicit false

namespace BitcoinSpend.Spend

theorem length_of_suffixFrom {α : Type} {items tail : List α} {start : Nat}
    (computed : suffixFrom items start = .ok tail) : tail.length = items.length - start := by
  obtain ⟨-, rfl⟩ := suffixFrom_eq_ok_iff.mp computed
  exact List.length_drop

private theorem length_shiftBitsLeft (bits spare : Nat) (bytes : Bytes) :
    (shiftBitsLeft bits spare bytes).length = bytes.length := by
  induction bytes with
  | nil => rfl
  | cons byte rest ih => simp only [shiftBitsLeft, List.length_cons, ih]

private theorem length_shiftBitsRight (bits spare : Nat) (previous : UInt8) (bytes : Bytes) :
    (shiftBitsRight bits spare previous bytes).length = bytes.length := by
  induction bytes generalizing previous with
  | nil => rfl
  | cons byte rest ih => simp only [shiftBitsRight, List.length_cons, ih]

/-- As many zero bytes come in at one end as bytes go out at the other. -/
theorem length_of_shiftBytes {direction : Direction} {amount : Nat} {bytes shifted : Bytes}
    (inside : amount < 8 * bytes.length)
    (computed : shiftBytes direction amount bytes = .ok shifted) :
    shifted.length = bytes.length := by
  cases direction with
  | left =>
      rw [shiftBytes_left_eq inside] at computed
      cases computed
      simp only [length_shiftBitsLeft, List.length_append, List.length_drop, List.length_replicate]
      omega
  | right =>
      rw [shiftBytes_right_eq inside] at computed
      cases computed
      simp only [length_shiftBitsRight, List.length_append, List.length_take, List.length_replicate]
      omega

theorem length_of_widen {size : Nat} {form widened : Bytes} (shorter : form.length < size)
    (computed : widen size form = .ok widened) : widened.length = size := by
  simp only [widen, bind_eq_ok_iff, difference_eq_ok_iff] at computed
  obtain ⟨filled, ⟨-, rfl⟩, computed⟩ := computed
  split at computed
  · next none =>
      cases computed
      rw [List.getLast?_eq_none_iff.mp none]
      simp only [List.length_append, List.length_replicate, List.length_nil, List.length_cons]
      omega
  · next last found =>
      cases computed
      have filled : 0 < form.length := List.length_pos_of_mem (List.mem_of_getLast? found)
      simp only [List.length_append, List.length_dropLast, List.length_replicate, List.length_cons,
        List.length_nil]
      omega

theorem length_digest_le (algorithm : Digest.Algorithm) (bytes : Bytes) :
    (algorithm.digest bytes).length ≤ 32 := by
  cases algorithm <;> simp [Digest.Algorithm.digest]

/-- An opcode that pushes without an operand pushes at most one byte. -/
theorem length_pushValue_le {chunk : Chunk} {value : Bytes}
    (found : chunk.pushValue? = some value) :
    value.length ≤ 1 ∨ (chunk.op ≤ Opcode.pushData4 ∧ value = chunk.operand) := by
  simp only [Chunk.pushValue?] at found
  split at found
  · cases found
    exact Or.inl (Nat.zero_le _)
  · split at found
    · cases found
      exact Or.inl (Nat.le_refl _)
    · split at found
      · cases found
      · split at found
        · cases found
          exact Or.inl (Nat.le_refl _)
        · split at found
          · next pushes =>
              cases found
              exact Or.inr ⟨pushes, rfl⟩
          · cases found

end BitcoinSpend.Spend
