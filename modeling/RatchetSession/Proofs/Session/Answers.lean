import RatchetSession.Proofs.Session.Spent
set_option autoImplicit false

namespace RatchetSession

open RatchetSession.Computation (bind_of_ok bind_of_error)

variable {P : Suite} {limits : Limits}

namespace ChainKey

theorem advance_parts {key next : ChainKey} {used : MessageKey}
    (h : key.advance P = .ok (next, used)) :
    key.index ≠ lastIndex ∧ next = key.next P ∧ used = key.messageKey P := by
  unfold advance at h
  split at h
  · cases h
  · rename_i room
    cases h
    exact ⟨room, rfl, rfl⟩

theorem advance_of_ne {key : ChainKey} (room : key.index ≠ lastIndex) :
    key.advance P = .ok (key.next P, key.messageKey P) := if_neg room

theorem le_lastIndex (counter : UInt32) : counter ≤ lastIndex :=
  UInt32.le_iff_toNat_le.2 (Nat.le_of_lt_succ counter.toNat_lt)

theorem lt_lastIndex {counter : UInt32} : counter < lastIndex ↔ counter ≠ lastIndex :=
  ⟨UInt32.ne_of_lt, UInt32.lt_of_le_of_ne (le_lastIndex counter)⟩

theorem lt_lastIndex_of_lt {counter bound : UInt32} (h : counter < bound) : counter < lastIndex :=
  UInt32.lt_of_lt_of_le h (le_lastIndex bound)

theorem next_index {key : ChainKey} (room : key.index ≠ lastIndex) :
    (key.next P).index.toNat = key.index.toNat + 1 :=
  (advance_eq_ok (advance_of_ne (P := P) room)).1

theorem ne_lastIndex {key : ChainKey} {n : Nat} (room : key.index.toNat + (n + 1) ≤ lastIndex.toNat) :
    key.index ≠ lastIndex := by
  intro last
  rw [last] at room
  omega

end ChainKey

namespace SkippedKeys

theorem contains_iff {keys : SkippedKeys} {counter : UInt32} :
    keys.contains counter = true ↔ counter ∈ keys.counters := by
  simp [contains, find?, counters, List.lookup_isSome_iff]

end SkippedKeys

namespace ReceivingChain

variable {chain chain' : ReceivingChain} {counter : UInt32}

theorem fileNext_of_room {count : Nat} (room : chain.index.toNat + count ≤ lastIndex.toNat) :
    ∃ chain', fileNext P limits count chain = .ok () chain' := by
  induction count generalizing chain with
  | zero => exact ⟨chain, rfl⟩
  | succ count ih =>
    have inside : chain.chainKey.index ≠ lastIndex := ChainKey.ne_lastIndex room
    have step := ChainKey.next_index (P := P) inside
    simp only [fileNext, ChainKey.advance_of_ne inside]
    exact ih (by simp only [index] at room ⊢; omega)

inductive Jumped (P : Suite) (limits : Limits) (chain : ReceivingChain) (target : UInt32) :
    EStateM.Result SessionError ReceivingChain Unit → Prop
  | done {chain' : ReceivingChain}
      (near : target ≤ chain.index ∨ target - chain.index ≤ limits.maxSkip)
      (ok : chain.skipTo P limits target = .ok () chain') : Jumped P limits chain target (.ok () chain')
  | far (ahead : chain.index ≤ target) (far : limits.maxSkip < target - chain.index) :
      Jumped P limits chain target
        (.error (.tooManySkipped chain.index target limits.maxSkip) chain)

theorem skipTo_jumped (P : Suite) (limits : Limits) (chain : ReceivingChain) (target : UInt32) :
    Jumped P limits chain target (chain.skipTo P limits target) := by
  by_cases behind : target ≤ chain.index
  · have stays : chain.skipTo P limits target = .ok () chain := if_pos behind
    rw [stays]
    exact .done (.inl behind) stays
  · have ahead := UInt32.le_of_lt (UInt32.not_le.1 behind)
    by_cases far : limits.maxSkip < target - chain.index
    · have refused : chain.skipTo P limits target =
          .error (.tooManySkipped chain.index target limits.maxSkip) chain := by
        rw [skipTo, if_neg behind, if_pos far]
      rw [refused]
      exact .far ahead far
    · have last : target.toNat ≤ lastIndex.toNat :=
        UInt32.le_iff_toNat_le.1 (ChainKey.le_lastIndex target)
      have le := UInt32.le_iff_toNat_le.1 ahead
      have jump := UInt32.toNat_sub_of_le _ _ ahead
      obtain ⟨chain', ok⟩ : ∃ chain',
          fileNext P limits (target - chain.index).toNat chain = .ok () chain' :=
        fileNext_of_room (by omega)
      have moves : chain.skipTo P limits target = .ok () chain' := by
        rw [skipTo, if_neg behind, if_neg far, ok]
      rw [moves]
      exact .done (.inr (UInt32.not_lt.1 far)) moves

inductive Answered (P : Suite) (limits : Limits) (chain : ReceivingChain) (counter : UInt32) :
    EStateM.Result SessionError ReceivingChain MessageKey → Prop
  | kept {key : MessageKey} (behind : counter < chain.index)
      (found : chain.skipped.find? counter = some key) :
      Answered P limits chain counter
        (.ok key { chain with skipped := chain.skipped.erase counter })
  | duplicate (behind : counter < chain.index) (gone : chain.skipped.find? counter = none) :
      Answered P limits chain counter (.error (.duplicateMessage counter) chain)
  | far (ahead : chain.index ≤ counter) (far : limits.maxSkip < counter - chain.index) :
      Answered P limits chain counter
        (.error (.tooManySkipped chain.index counter limits.maxSkip) chain)
  | exhausted {mid : ReceivingChain} (ahead : chain.index ≤ counter)
      (near : counter - chain.index ≤ limits.maxSkip) (last : counter = lastIndex)
      (skipped : chain.skipTo P limits counter = .ok () mid) :
      Answered P limits chain counter (.error (.ofCrypto (.chainExhausted lastIndex)) mid)
  | next {mid : ReceivingChain} (ahead : chain.index ≤ counter)
      (near : counter - chain.index ≤ limits.maxSkip) (short : counter < lastIndex)
      (skipped : chain.skipTo P limits counter = .ok () mid) (there : mid.index = counter) :
      Answered P limits chain counter
        (.ok (mid.chainKey.messageKey P) { mid with chainKey := mid.chainKey.next P })

theorem messageKey_answered (P : Suite) (limits : Limits) (chain : ReceivingChain)
    (counter : UInt32) : Answered P limits chain counter (chain.messageKey P limits counter) := by
  by_cases behind : counter < chain.index
  · rw [messageKey, if_pos behind]
    cases found : chain.skipped.find? counter with
    | some key => exact .kept behind found
    | none => exact .duplicate behind found
  · have ahead := UInt32.not_lt.1 behind
    rw [messageKey, if_neg behind]
    have jumped := skipTo_jumped P limits chain counter
    generalize reached : chain.skipTo P limits counter = r at jumped
    cases jumped with
    | far _ far =>
      rw [bind_of_error reached]
      exact .far ahead far
    | @done mid near _ =>
      rw [bind_of_ok reached]
      have index := skipTo_index reached
      have le := UInt32.le_iff_toNat_le.1 ahead
      have there : mid.index = counter := UInt32.toNat.inj (by omega)
      have close : counter - chain.index ≤ limits.maxSkip := by
        refine near.elim (fun back => ?_) id
        rw [UInt32.le_antisymm back ahead, UInt32.sub_self]
        exact UInt32.zero_le
      by_cases last : counter = lastIndex
      · have stuck : mid.chainKey.index = lastIndex := there.trans last
        simp only [takeNext, ChainKey.advance, stuck]
        exact .exhausted ahead close last reached
      · have moves : mid.chainKey.index ≠ lastIndex := fun is => last (there.symm.trans is)
        simp only [takeNext, ChainKey.advance_of_ne moves]
        exact .next ahead close (ChainKey.lt_lastIndex.2 last) reached there

/-- Behind the chain a key has to be kept; otherwise the position must be within reach, and not the
last one. -/
def Accepts (limits : Limits) (chain : ReceivingChain) (counter : UInt32) : Prop :=
  (counter < chain.index ∧ chain.skipped.contains counter = true) ∨
    (chain.index ≤ counter ∧ counter - chain.index ≤ limits.maxSkip ∧ counter < lastIndex)

theorem messageKey_ok_iff : (∃ key chain', chain.messageKey P limits counter = .ok key chain') ↔
    chain.Accepts limits counter := by
  have answered := messageKey_answered P limits chain counter
  generalize chain.messageKey P limits counter = answer at answered ⊢
  unfold Accepts
  cases answered with
  | kept behind found => simp [behind, SkippedKeys.contains, found]
  | duplicate behind gone => simp [SkippedKeys.contains, gone, UInt32.not_le.2 behind]
  | far ahead far => simp [UInt32.not_lt.2 ahead, UInt32.not_le.2 far]
  | exhausted ahead _ last => subst last; simp [UInt32.not_lt.2 ahead]
  | next ahead near short => simp [ahead, near, short]

theorem messageKey_duplicate_iff :
    (∃ chain', chain.messageKey P limits counter = .error (.duplicateMessage counter) chain') ↔
      counter < chain.index ∧ chain.skipped.contains counter = false := by
  have answered := messageKey_answered P limits chain counter
  generalize chain.messageKey P limits counter = answer at answered ⊢
  cases answered with
  | kept behind found => simp [SkippedKeys.contains, found]
  | duplicate behind gone => simp [behind, SkippedKeys.contains, gone]
  | far ahead | exhausted ahead | next ahead =>
    simp [UInt32.not_lt.2 ahead, SessionError.ofCrypto]

theorem messageKey_far_iff :
    (∃ chain', chain.messageKey P limits counter =
        .error (.tooManySkipped chain.index counter limits.maxSkip) chain') ↔
      chain.index ≤ counter ∧ limits.maxSkip < counter - chain.index := by
  have answered := messageKey_answered P limits chain counter
  generalize chain.messageKey P limits counter = answer at answered ⊢
  cases answered with
  | kept behind | duplicate behind => simp [UInt32.not_le.2 behind]
  | far ahead far => simp [ahead, far]
  | exhausted _ near | next _ near => simp [UInt32.not_lt.2 near, SessionError.ofCrypto]

/-- A request that fails changes the chain only when the chain has run out. -/
theorem messageKey_error {error : SessionError}
    (failed : chain.messageKey P limits counter = .error error chain') :
    ((error = .duplicateMessage counter ∨
        error = .tooManySkipped chain.index counter limits.maxSkip) ∧ chain' = chain) ∨
      (error = .ofCrypto (.chainExhausted lastIndex) ∧ counter = lastIndex) := by
  have answered := messageKey_answered P limits chain counter
  rw [failed] at answered
  cases answered with
  | duplicate => exact .inl ⟨.inl rfl, rfl⟩
  | far => exact .inl ⟨.inr rfl, rfl⟩
  | exhausted _ _ last => exact .inr ⟨rfl, last⟩

theorem skipTo_refused {target : UInt32} {error : SessionError}
    (failed : chain.skipTo P limits target = .error error chain') :
    error = .tooManySkipped chain.index target limits.maxSkip ∧ chain.index ≤ target ∧
      limits.maxSkip < target - chain.index ∧ chain' = chain := by
  have jumped := skipTo_jumped P limits chain target
  rw [failed] at jumped
  cases jumped with
  | far ahead far => exact ⟨rfl, ahead, far, rfl⟩

end ReceivingChain

end RatchetSession
