import RatchetSession.Proofs.Session.Opener
import RatchetSession.Proofs.Session.Chains
import RatchetSession.Proofs.Handshake.Start
set_option autoImplicit false

namespace RatchetSession

variable {P : Suite} {E : Type} [Randomness E]

namespace Session

/-- The two kinds of new sessions. An initiator's first ratchet key is its base key. -/
inductive Made : Session P → Prop
  | initiator (localIdentity remoteIdentity : IdentityKey P) (rootKey : RootKey)
      (sending : SendingChain) (pending : PendingPreKey)
      (first : sending.ratchetKey.publicKey = pending.baseKey) :
      Made (.initiator localIdentity remoteIdentity rootKey sending pending)
  | responder (localIdentity remoteIdentity : IdentityKey P) (baseKey : PublicKey)
      (rootKey : RootKey) (receiving : ReceivingChain) (sending : SendingChain) :
      Made (.responder localIdentity remoteIdentity baseKey rootKey receiving sending)

/-- What has become of a session since it was made, when it has accepted these messages. -/
structure Since (first : Session P) (heard : List RatchetMessage) (s : Session P) : Prop where
  start : first.SameStart s
  waiting : heard = [] → s.pending = first.pending ∧ s.receiving = first.receiving ∧
    s.sendingKey = first.sendingKey ∧ s.previousCounter = first.previousCounter
  answered : heard ≠ [] → s.pending = none ∧ s.receiving ≠ []

variable {first s s' : Session P} {heard : List RatchetMessage} {plaintext : Bytes}

theorem Since.refl (first : Session P) : first.Since [] first :=
  ⟨.refl first, fun _ => ⟨rfl, rfl, rfl, rfl⟩, fun some => absurd rfl some⟩

theorem Since.encrypt (h : first.Since heard s) {message : Message}
    (sealed : s.encrypt plaintext = .ok (message, s')) : first.Since heard s' := by
  obtain ⟨-, -, -, -, rfl⟩ := encrypt_eq_ok sealed
  exact ⟨h.start.trans ⟨rfl, rfl, rfl, rfl, rfl⟩, h.waiting, h.answered⟩

theorem receive_answered {limits : Limits} {message : RatchetMessage}
    (h : s.receive limits message = .ok (plaintext, s')) :
    s'.pending = none ∧ s'.receiving ≠ [] := by
  obtain ⟨chain, key, after, found, -, rfl⟩ := receive_eq_ok h
  refine ⟨rfl, fun none => ?_⟩
  have same := congrArg List.length none
  rw [setChain, length_replaceChain, List.length_nil] at same
  rw [chain?, List.eq_nil_of_length_eq_zero same] at found
  cases found

theorem Since.decrypt (h : first.Since heard s) {limits : Limits} {message : RatchetMessage}
    {source source' : E} (opens : s.decrypt limits message source = .ok (plaintext, s') source') :
    first.Since (heard ++ [message]) s' := by
  obtain ⟨ready, -, received⟩ := decrypt_parts opens
  exact ⟨h.start.trans (decrypt_start opens), fun none => absurd none (by simp),
    fun _ => receive_answered received⟩

section

variable (made : first.Made) (since : first.Since heard s)
include made since

/-- The fields of initial messages are there until the first message is accepted. -/
theorem pending_iff_unheard : s.pending.isSome = true ↔ s.origin = .initiator ∧ heard = [] := by
  rw [since.start.origin]
  by_cases unheard : heard = []
  · rw [(since.waiting unheard).1]
    cases made <;> simp [initiator, responder, unheard]
  · simp [(since.answered unheard).1, unheard]

theorem pending_iff_deaf : s.pending.isSome = true ↔ s.origin = .initiator ∧ s.receiving = [] := by
  rw [since.start.origin]
  by_cases unheard : heard = []
  · obtain ⟨pending, receiving, -⟩ := since.waiting unheard
    rw [pending, receiving]
    cases made <;> simp [initiator, responder]
  · simp [since.answered unheard]

theorem pending_parts {pending : PendingPreKey} (is : s.pending = some pending) :
    first.pending = some pending ∧ pending.baseKey = s.baseKey ∧ s.sendingKey = s.baseKey ∧
      s.previousCounter = 0 := by
  by_cases unheard : heard = []
  · obtain ⟨same, -, key, counter⟩ := since.waiting unheard
    rw [same] at is
    rw [key, counter, since.start.baseKey]
    cases made with
    | initiator _ _ _ _ held own =>
      obtain rfl : held = pending := Option.some.inj is
      exact ⟨rfl, rfl, own, rfl⟩
    | responder => cases is
  · rw [(since.answered unheard).1] at is
    cases is

end

theorem encrypt_pending {message : Message} (h : s.encrypt plaintext = .ok (message, s')) :
    ((∃ initial, message = .initial initial) ↔ s.pending.isSome = true) ∧
      ∀ initial, message = .initial initial → ∃ pending, s.pending = some pending ∧
        initial.identityKey = s.localIdentity.bytes ∧ initial.baseKey = pending.baseKey ∧
        initial.signedPreKeyId = pending.signedPreKeyId ∧ initial.preKeyId = pending.preKeyId ∧
        initial.message.ratchetKey = s.sendingKey := by
  obtain ⟨-, -, key, rfl⟩ := encrypt_run h
  unfold wrap
  cases s.pending with
  | none => simp
  | some pending => simp

end Session

namespace Handshake

theorem made_of_outgoing {bundle : Bundle P} {identity : Identity} {s : Session P}
    {source source' : E} (h : outgoing bundle identity source = .ok s source') : s.Made := by
  obtain ⟨_, _, _, -, -, rfl⟩ := outgoing_eq_ok h
  exact .initiator _ _ _ _ _ rfl

theorem made_of_incoming {message : InitialMessage} {remote : IdentityKey P}
    {identity : Identity} {signed : SignedPreKey} {oneTime : Option PreKey} {s : Session P}
    {source source' : E} (h : incoming message remote identity signed oneTime source = .ok s source') :
    s.Made := by
  obtain ⟨_, _, _, _, -, -, rfl⟩ := incoming_eq_ok h
  exact .responder _ _ _ _ _ _

end Handshake

theorem Record.opens_of_opener? {limits : Limits} {message : RatchetMessage}
    {sessions : List (Session P)} {source : E} {s next : Session P}
    (found : opener? limits message sessions source = some (s, next)) :
    ∃ (state : E) (plaintext : Bytes) (after : E),
      s.decrypt limits message state = .ok (plaintext, next) after := by
  induction sessions generalizing source with
  | nil => cases found
  | cons t rest ih =>
    unfold opener? at found
    split at found
    · rename_i opened
      cases found
      exact ⟨_, _, _, opened⟩
    · exact ih found

end RatchetSession
