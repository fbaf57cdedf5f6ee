import Mathlib.Data.List.Induction
import Mathlib.Order.Bounds.Defs
import RatchetSession.Padding
set_option autoImplicit false

namespace RatchetSession.Padding

theorem length_pad (plaintext : Bytes) :
    (pad plaintext).length = blockSize * (plaintext.length / blockSize + 1) := by
  have block : (plaintext.length + 1 + (160 - 1)) / 160 = plaintext.length / 160 + 1 := by omega
  simp only [pad, paddedLength, blockSize, List.length_append, List.length_cons,
    List.length_replicate, block]
  omega

theorem length_lt_pad (plaintext : Bytes) : plaintext.length < (pad plaintext).length := by
  simp only [pad, List.length_append, List.length_cons]
  omega

/-- The induction takes zeros off the end until another byte stands there. -/
theorem zeros_or_last (bytes : Bytes) :
    (∃ zeros, bytes = List.replicate zeros 0) ∨
      ∃ front last zeros, last ≠ 0 ∧ bytes = front ++ last :: List.replicate zeros 0 := by
  induction bytes using List.reverseRecOn with
  | nil => exact .inl ⟨0, rfl⟩
  | append_singleton rest final ih =>
    by_cases zero : final = 0
    · subst zero
      rcases ih with ⟨zeros, rfl⟩ | ⟨front, last, zeros, nonzero, rfl⟩
      · exact .inl ⟨zeros + 1, List.replicate_succ'.symm⟩
      · refine .inr ⟨front, last, zeros + 1, nonzero, ?_⟩
        rw [List.replicate_succ', List.append_assoc, List.cons_append]
    · exact .inr ⟨rest, final, 0, zero, rfl⟩

theorem unpad_zeros (zeros : Nat) : unpad (List.replicate zeros 0) = .error .invalidPadding := by
  simp [unpad]

theorem unpad_last {last : UInt8} (nonzero : last ≠ 0) (front : Bytes) (zeros : Nat) :
    unpad (front ++ last :: List.replicate zeros 0) =
      if last = marker then .ok front else .error .invalidPadding := by
  simp [unpad, nonzero]

theorem unpad_eq_ok_iff {padded plaintext : Bytes} : unpad padded = .ok plaintext ↔
    ∃ zeros, padded = plaintext ++ marker :: List.replicate zeros 0 := by
  constructor
  · intro opened
    rcases zeros_or_last padded with ⟨zeros, rfl⟩ | ⟨front, last, zeros, nonzero, rfl⟩
    · rw [unpad_zeros] at opened
      cases opened
    · rw [unpad_last nonzero] at opened
      split at opened
      · rename_i marked
        cases opened
        exact ⟨zeros, by rw [marked]⟩
      · cases opened
  · rintro ⟨zeros, rfl⟩
    rw [unpad_last (by decide), if_pos rfl]

theorem unpad_error {padded : Bytes} {error : SessionError} (h : unpad padded = .error error) :
    error = .invalidPadding := by
  unfold unpad at h
  repeat' split at h
  all_goals cases h
  all_goals rfl

/-- Padded plaintexts fill the fewest whole blocks that leave room for the marker, as many for all
plaintexts that fill as many, and are read back whatever they end with. What is read without its
padding is what stands before a marker and zeros; all else has no padding. -/
theorem reads_back :
    (∀ plaintext, IsLeast {length | 160 ∣ length ∧ plaintext.length < length}
        (pad plaintext).length ∧
      unpad (pad plaintext) = .ok plaintext) ∧
    (∀ plaintext other, (pad plaintext).length = (pad other).length ↔
      plaintext.length / 160 = other.length / 160) ∧
    (∀ padded plaintext, unpad padded = .ok plaintext ↔
      ∃ zeros, padded = plaintext ++ [0x80] ++ List.replicate zeros 0) ∧
    ∀ padded, unpad padded = .error .invalidPadding ↔
      ∀ plaintext zeros, padded ≠ plaintext ++ [0x80] ++ List.replicate zeros 0 := by
  have marked : ∀ padded plaintext, unpad padded = .ok plaintext ↔
      ∃ zeros, padded = plaintext ++ [0x80] ++ List.replicate zeros 0 := by
    intro padded plaintext
    simp only [unpad_eq_ok_iff, List.append_assoc, List.singleton_append, marker]
  refine ⟨fun plaintext => ⟨⟨⟨?_, length_lt_pad plaintext⟩, ?_⟩, unpad_pad plaintext⟩, ?_, marked,
    fun padded => ⟨?_, ?_⟩⟩
  · rw [length_pad]
    exact Nat.dvd_mul_right _ _
  · rintro _ ⟨⟨blocks, rfl⟩, longer⟩
    rw [length_pad]
    refine Nat.mul_le_mul_left _ ((Nat.div_lt_iff_lt_mul (by decide)).2 ?_)
    rwa [Nat.mul_comm]
  · intro plaintext other
    simp only [length_pad, blockSize]
    omega
  · intro refused plaintext zeros is
    rw [(marked padded plaintext).2 ⟨zeros, is⟩] at refused
    cases refused
  · intro unmarked
    cases opened : unpad padded with
    | ok plaintext =>
      obtain ⟨zeros, is⟩ := (marked padded plaintext).1 opened
      exact absurd is (unmarked plaintext zeros)
    | error error => rw [unpad_error opened]

end RatchetSession.Padding
