import RatchetSession.Proofs.Session.Binding
set_option autoImplicit false

namespace RatchetSession

open RatchetSession.Computation (bind_eq_ok pure_eq_ok ofExcept_eq_ok adaptExcept_eq_ok)

variable {P : Suite} {limits : Limits}

namespace Session

variable {s s' : Session P} {plaintext : Bytes}

def sendingKey (s : Session P) : PublicKey := s.sending.ratchetKey.publicKey

/-- The session after it has sent one more message. -/
def advanced (s : Session P) : Session P :=
  { s with sending := { s.sending with chainKey := s.sending.chainKey.next P } }

/-- A message as it goes out: with what the session was started with, as long as that is pending. -/
def wrap (s : Session P) (message : RatchetMessage) : Message :=
  match s.pending with
  | some first =>
    .initial ⟨s.localIdentity.bytes, first.baseKey, first.signedPreKeyId, first.preKeyId, message⟩
  | none => .ratchet message

theorem inner_wrap (s : Session P) (message : RatchetMessage) : (s.wrap message).inner = message := by
  unfold wrap
  cases s.pending <;> rfl

theorem encrypt_eq (s : Session P) (plaintext : Bytes) :
    s.encrypt plaintext =
      if s.sending.index = lastIndex then .error (.ofCrypto (.chainExhausted lastIndex))
      else if P.maxPlaintext < plaintext.length then .error (.ofCrypto .encryption)
      else .ok (s.wrap ⟨s.sendingKey, s.sending.index, s.previousCounter,
        (s.sending.chainKey.messageKey P).encrypt P s.sealing.toBytes plaintext⟩, s.advanced) := by
  unfold encrypt SendingChain.next ChainKey.advance MessageKey.tryEncrypt SendingChain.index
  by_cases last : s.sending.chainKey.index = lastIndex
  · simp only [last, if_true]
  · by_cases long : P.maxPlaintext < plaintext.length
    · simp only [if_neg last, if_pos long]
    · simp only [if_neg last, if_neg long]
      rfl

theorem encrypt_run {message : Message} (h : s.encrypt plaintext = .ok (message, s')) :
    s.sending.index ≠ lastIndex ∧ s' = s.advanced ∧
      ∃ key : MessageKey, message = s.wrap ⟨s.sendingKey, s.sending.index, s.previousCounter,
        key.encrypt P s.sealing.toBytes plaintext⟩ := by
  rw [encrypt_eq] at h
  split at h
  · cases h
  · rename_i room
    split at h
    · cases h
    · cases h
      exact ⟨room, rfl, s.sending.chainKey.messageKey P, rfl⟩

theorem fits_of_encrypt {message : Message} (h : s.encrypt plaintext = .ok (message, s')) :
    plaintext.length ≤ P.maxPlaintext := by
  rw [encrypt_eq] at h
  split at h
  · cases h
  · split at h
    · cases h
    · exact Nat.le_of_not_lt ‹_›

theorem encrypt_eq_ok {message : Message} (h : s.encrypt plaintext = .ok (message, s')) :
    s.sending.index ≠ lastIndex ∧ message.inner.ratchetKey = s.sendingKey ∧
      message.inner.counter = s.sending.index ∧
      message.inner.previousCounter = s.previousCounter ∧ s' = s.advanced := by
  obtain ⟨room, after, key, rfl⟩ := encrypt_run h
  rw [inner_wrap]
  exact ⟨room, rfl, rfl, rfl, after⟩

theorem encrypt_initial {message : InitialMessage}
    (h : s.encrypt plaintext = .ok (.initial message, s')) :
    ∃ pending, s.pending = some pending ∧ message.baseKey = pending.baseKey ∧
      message.preKeyId = pending.preKeyId := by
  obtain ⟨-, -, key, is⟩ := encrypt_run h
  unfold wrap at is
  split at is
  · rename_i first pending
    cases is
    exact ⟨first, pending, rfl, rfl⟩
  · cases is

theorem encrypt_exhausted (last : s.sending.index = lastIndex) (plaintext : Bytes) :
    s.encrypt plaintext = .error (.ofCrypto (.chainExhausted lastIndex)) := by
  rw [encrypt_eq, if_pos last]

theorem encrypt_oversized (room : s.sending.index ≠ lastIndex)
    (long : P.maxPlaintext < plaintext.length) :
    s.encrypt plaintext = .error (.ofCrypto .encryption) := by
  rw [encrypt_eq, if_neg room, if_pos long]

theorem encrypt_succeeds (room : s.sending.index ≠ lastIndex)
    (fits : plaintext.length ≤ P.maxPlaintext) :
    ∃ message, s.encrypt plaintext = .ok (message, s.advanced) :=
  ⟨_, by rw [encrypt_eq, if_neg room, if_neg (Nat.not_lt.2 fits)]⟩

variable {E : Type} [Randomness E] {source source' : E}

theorem ratchet_eq_ok {key : PublicKey} (h : s.ratchet limits key source = .ok s' source') :
    ∃ seed rootKey receivingKey sendingKey, Randomness.draw 32 source = .ok seed source' ∧
      receivingKey.index = 0 ∧ sendingKey.index = 0 ∧
      s' = { s with
        rootKey := rootKey
        receiving := addChain limits s.receiving (.new key s.sendingKey receivingKey)
        previousCounter := s.sending.index
        sending := ⟨.ofSeed P seed, key, sendingKey⟩ } := by
  obtain ⟨received, _, agreed, h⟩ := bind_eq_ok h
  obtain ⟨-, rfl⟩ := ofExcept_eq_ok agreed
  obtain ⟨fresh, _, drawn, h⟩ := bind_eq_ok h
  obtain ⟨seed, _, draw, made⟩ := bind_eq_ok drawn
  obtain ⟨rfl, rfl⟩ := pure_eq_ok made
  obtain ⟨sent, _, agreed, h⟩ := bind_eq_ok h
  obtain ⟨-, rfl⟩ := ofExcept_eq_ok agreed
  obtain ⟨rfl, rfl⟩ := pure_eq_ok h
  exact ⟨seed, _, _, _, draw, rfl, rfl, rfl⟩

theorem closeChain_eq_ok {previousCounter : UInt32}
    (h : s.closeChain limits previousCounter = .ok s') :
    s' = s ∨ ∃ prior after, s.chain? s.sending.remoteKey = some prior ∧
      prior.skipTo P limits previousCounter = .ok () after ∧
      s' = s.setChain s.sending.remoteKey after := by
  unfold closeChain at h
  split at h
  · cases h
    exact .inl rfl
  · rename_i prior found
    split at h
    · rename_i after skipped
      cases h
      exact .inr ⟨prior, after, found, skipped, rfl⟩
    · cases h

theorem follow_eq_ok {message : RatchetMessage}
    (h : s.follow limits message source = .ok s' source') :
    ((s.chain? message.ratchetKey).isSome = true ∧ s' = s ∧ source' = source) ∨
      (s.chain? message.ratchetKey = none ∧ ∃ closed,
        s.closeChain limits message.previousCounter = .ok closed ∧
        closed.ratchet limits message.ratchetKey source = .ok s' source') := by
  unfold follow at h
  split at h
  · rename_i known
    obtain ⟨rfl, rfl⟩ := pure_eq_ok h
    exact .inl ⟨known, rfl, rfl⟩
  · rename_i unknown
    obtain ⟨closed, _, first, second⟩ := bind_eq_ok h
    obtain ⟨closes, rfl⟩ := ofExcept_eq_ok first
    exact .inr ⟨by simpa using unknown, closed, closes, adaptExcept_eq_ok second⟩

theorem receive_eq_ok {message : RatchetMessage}
    (h : s.receive limits message = .ok (plaintext, s')) :
    ∃ chain key after, s.chain? message.ratchetKey = some chain ∧
      chain.messageKey P limits message.counter = .ok key after ∧
      s' = { s.setChain message.ratchetKey after with pending := none } := by
  simp only [receive] at h
  split at h
  · cases h
  · rename_i chain found
    split at h
    · cases h
    · rename_i key after taken
      split at h
      · cases h
      · cases h
        exact ⟨chain, key, after, found, taken, rfl⟩

theorem decrypt_parts {message : RatchetMessage}
    (h : s.decrypt limits message source = .ok (plaintext, s') source') :
    ∃ ready, s.follow limits message source = .ok ready source' ∧
      ready.receive limits message = .ok (plaintext, s') := by
  obtain ⟨ready, _, first, second⟩ := bind_eq_ok h
  obtain ⟨received, rfl⟩ := ofExcept_eq_ok second
  exact ⟨ready, first, received⟩

/-- The session sends as before. -/
structure SameSending (s s' : Session P) : Prop where
  sending : s'.sending = s.sending
  previousCounter : s'.previousCounter = s.previousCounter

/-- The session sends on a fresh chain, made from a pair just drawn. -/
structure NewSending (s s' : Session P) (seed : Octets 32) : Prop where
  ratchetKey : s'.sending.ratchetKey = .ofSeed P seed
  index : s'.sending.index = 0
  previousCounter : s'.previousCounter = s.sending.index

theorem decrypt_sending {message : RatchetMessage}
    (h : s.decrypt limits message source = .ok (plaintext, s') source') :
    ((s.chain? message.ratchetKey).isSome = true ∧ source' = source ∧ s.SameSending s') ∨
      (s.chain? message.ratchetKey = none ∧ ∃ seed,
        Randomness.draw 32 source = .ok seed source' ∧ s.NewSending s' seed) := by
  obtain ⟨ready, followed, received⟩ := decrypt_parts h
  obtain ⟨_, _, after, -, -, rfl⟩ := receive_eq_ok received
  rcases follow_eq_ok followed with ⟨known, rfl, same⟩ | ⟨unknown, closed, closes, stepped⟩
  · exact .inl ⟨known, same, rfl, rfl⟩
  · obtain ⟨seed, _, _, _, draw, -, first, rfl⟩ := ratchet_eq_ok stepped
    have sending : closed.sending = s.sending := by
      rcases closeChain_eq_ok closes with rfl | ⟨_, _, -, -, rfl⟩ <;> rfl
    exact .inr ⟨unknown, seed, draw, rfl, first, congrArg SendingChain.index sending⟩

end Session

end RatchetSession
