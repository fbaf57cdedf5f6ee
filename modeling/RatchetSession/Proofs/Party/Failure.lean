import RatchetSession.Party
import RatchetSession.Proofs.Conversation.Delivery
import RatchetSession.Proofs.Conversation.Movement
import RatchetSession.Proofs.Party.Capacity
import RatchetSession.Simulation.Network
set_option autoImplicit false

/-!
What a party's store keeps of a call that fails. The session is stored before the message
is put into an envelope, and before the padding is taken off what was opened; so a
message that turns out too long has used up its position, and one without padding is gone.
All other failures leave the store as it was.
-/

namespace RatchetSession

open RatchetSession.Computation (bind_eq_ok bind_of_ok bind_of_error mapError_eq_ok)

variable {P : Suite} {E : Type}

namespace Party

variable (party : Party) (remote : Address) (ctx ctx' : Context P E)

/-- The message was encrypted, and the session stored that has used up a position for it, when the
message turned out to be too long for an envelope. -/
def Oversized (plaintext : Bytes) (error : SessionError) : Prop :=
  ∃ message r s,
    (party.conversation remote).encrypt (Padding.pad plaintext) ctx = .ok message ctx' ∧
    Envelope.maxPayload < message.toCbor.length ∧
    error = .wire (.payloadTooLarge message.toCbor.length Envelope.maxPayload) ∧
    ctx.store.loadRecord remote = .ok (some r) ∧ r.current = some s ∧
    ctx'.store.loadRecord remote = .ok (some { r with current := some s.advanced })

/-- The message was opened, and the record stored that has used up its key, when what had been
opened turned out to have no padding. -/
def Unmarked [Randomness E] (bytes : Bytes) (error : SessionError) : Prop :=
  ∃ padded, (party.conversation remote).decryptBytes bytes ctx = .ok padded ctx' ∧
    Padding.unpad padded = .error .invalidPadding ∧ error = .invalidPadding

variable {party remote ctx ctx'}

theorem oversized_of_encrypt {plaintext : Bytes} {message : Message}
    (sealed : (party.conversation remote).encrypt (Padding.pad plaintext) ctx = .ok message ctx')
    (long : Envelope.maxPayload < message.toCbor.length) :
    party.Oversized remote ctx ctx' plaintext
      (.wire (.payloadTooLarge message.toCbor.length Envelope.maxPayload)) := by
  obtain ⟨r, s, next, loaded, current, encrypted, stored, -⟩ :=
    (party.conversation remote).encrypt_eq_ok sealed
  obtain ⟨-, -, -, -, rfl⟩ := Session.encrypt_eq_ok encrypted
  exact ⟨message, r, s, sealed, long, rfl, loaded, current, stored⟩

section Long

variable {r : Record P} {s : Session P} {plaintext : Bytes}

theorem oversized_of_long (laws : P.Lawful) (quiet : ctx.Quiet)
    (loaded : ctx.store.loadRecord remote = .ok (some r)) (current : r.current = some s)
    (trusted : ctx.store.trusts remote s.remoteIdentity = true)
    (room : s.sending.index ≠ lastIndex) (long : Envelope.maxPayload ≤ plaintext.length)
    (fits : (Padding.pad plaintext).length ≤ P.maxPlaintext) :
    ∃ error ctx', party.Oversized remote ctx ctx' plaintext error := by
  obtain ⟨inner, ctx', sealed⟩ := (party.conversation remote).encrypt_succeeds quiet loaded current
    trusted room fits
  refine ⟨_, ctx', oversized_of_encrypt sealed ?_⟩
  have ciphertext := (party.conversation remote).encrypt_length laws.overhead sealed
  have padded := Padding.length_lt_pad plaintext
  have body := (s.wrap inner).lt_size
  rw [(s.wrap inner).length_toCbor]
  omega

end Long

theorem receive_of_decrypt [Randomness E] {bytes padded : Bytes}
    (opened : (party.conversation remote).decryptBytes bytes ctx = .ok padded ctx') :
    party.receive remote bytes ctx =
      (MonadExcept.ofExcept (Padding.unpad padded) : Action P E Bytes) ctx' :=
  bind_of_ok opened

theorem send_moves_iff (quiet : ctx.Quiet) (plaintext : Bytes) (error : SessionError) :
    (party.send remote plaintext ctx = .error error ctx' ∧ ctx'.store ≠ ctx.store) ↔
      party.Oversized remote ctx ctx' plaintext error := by
  constructor
  · rintro ⟨failed, moved⟩
    cases sealed : (party.conversation remote).encrypt (Padding.pad plaintext) ctx with
    | error e mid =>
      have same := (party.conversation remote).encrypt_harmless _ ctx quiet e mid sealed
      rw [send, bind_of_error sealed] at failed
      cases failed
      exact absurd same moved
    | ok message mid =>
      rw [send_of_encrypt sealed] at failed
      cases coded : Envelope.encode message with
      | ok bytes =>
        rw [coded] at failed
        cases failed
      | error fault =>
        rw [coded] at failed
        cases failed
        obtain ⟨long, rfl⟩ := Envelope.encode_error_iff.1 coded
        exact oversized_of_encrypt sealed long
  · rintro ⟨message, _, _, sealed, long, rfl, -⟩
    have coded := Envelope.encode_error_iff.2 ⟨long, rfl⟩
    refine ⟨?_, (party.conversation remote).encrypt_moves sealed⟩
    rw [send_of_encrypt sealed, coded]
    rfl

theorem receive_moves_iff [Randomness E] (quiet : ctx.Quiet) (bytes : Bytes)
    (error : SessionError) :
    (party.receive remote bytes ctx = .error error ctx' ∧ ctx'.store ≠ ctx.store) ↔
      party.Unmarked remote ctx ctx' bytes error := by
  constructor
  · rintro ⟨failed, moved⟩
    cases opened : (party.conversation remote).decryptBytes bytes ctx with
    | error e mid =>
      have same := (party.conversation remote).decryptBytes_harmless _ ctx quiet e mid opened
      rw [receive, bind_of_error opened] at failed
      cases failed
      exact absurd same moved
    | ok padded mid =>
      rw [receive_of_decrypt opened] at failed
      cases bare : Padding.unpad padded with
      | ok plaintext =>
        rw [bare] at failed
        cases failed
      | error fault =>
        rw [bare] at failed
        cases failed
        cases Padding.unpad_error bare
        exact ⟨padded, opened, bare, rfl⟩
  · rintro ⟨padded, opened, bare, rfl⟩
    refine ⟨?_, (party.conversation remote).decryptBytes_moves opened⟩
    rw [receive_of_decrypt opened, bare]
    rfl

/-- Where no store call fails, a call that fails has changed the store just when it fails for one of
these two reasons. -/
theorem failed_call_moves_iff [Randomness E] (party : Party) (remote : Address) (ctx : Context P E)
    (quiet : ∀ n kind, ctx.faults.plan n kind = none) :
    (∀ plaintext error ctx',
      (party.send remote plaintext ctx = .error error ctx' ∧ ctx'.store ≠ ctx.store) ↔
        party.Oversized remote ctx ctx' plaintext error) ∧
    ∀ bytes error ctx',
      (party.receive remote bytes ctx = .error error ctx' ∧ ctx'.store ≠ ctx.store) ↔
        party.Unmarked remote ctx ctx' bytes error :=
  ⟨fun _ _ _ => send_moves_iff quiet _ _, fun _ _ _ => receive_moves_iff quiet _ _⟩

end Party

open Network in
def sendBare : Network.Step Suite.plain Ticker Bytes := do
  let bundle ← perform 1 fun party => party.publish (some 5)
  let second ← address 1
  perform 0 fun party => party.start second bundle
  perform 0 fun party => do
    let message ← (party.conversation second).encrypt [1]
    MonadExcept.ofExcept ((Envelope.encode message).mapError .wire)

def bare : Option (Member Suite.plain × Member Suite.plain × Ticker × Bytes) := do
  let net ← (Network.create Suite.plain [("alice", {}), ("bob", {})] (⟨0⟩ : Ticker)).toOption
  match sendBare net with
  | .error _ _ => none
  | .ok bytes net => return (← net.members[0]?, ← net.members[1]?, net.source, bytes)

def Member.context {P : Suite} {E : Type} (member : Member P) (source : E) : Context P E :=
  ⟨member.store, .none, source⟩

/-- Whether the sender has a session in which it can send, and the recipient opens the bytes but
finds no padding. -/
def loses (sender recipient : Member Suite.plain) (source : Ticker) (bytes : Bytes) : Bool :=
  (match sender.store.loadRecord recipient.party.address with
    | .ok (some ⟨some s, _⟩) =>
      sender.store.trusts recipient.party.address s.remoteIdentity && s.sending.index != lastIndex
    | _ => false) &&
  match (recipient.party.conversation sender.party.address).decryptBytes bytes
      (recipient.context source) with
  | .ok padded _ => Padding.unpad padded == .error .invalidPadding
  | .error _ _ => false

set_option maxRecDepth 100000 in
theorem bare_loses :
    (bare.any fun (sender, recipient, source, bytes) => loses sender recipient source bytes) =
      true := by
  decide +kernel

/-- A plaintext that is too long fails to be sent, and one without padding to be received. Both
failures change what is stored. -/
theorem lost_messages :
    ∃ sender recipient source bytes, bare = some (sender, recipient, source, bytes) ∧
      (∀ n kind, (sender.context source).faults.plan n kind = none) ∧
      (∃ error ctx', sender.party.send recipient.party.address
          (List.replicate Envelope.maxPayload 0) (sender.context source) = .error error ctx' ∧
        ctx'.store ≠ sender.store) ∧
      ∃ ctx', recipient.party.receive sender.party.address bytes (recipient.context source) =
          .error .invalidPadding ctx' ∧ ctx'.store ≠ recipient.store := by
  obtain ⟨⟨sender, recipient, source, bytes⟩, is, lost⟩ := (Option.any_eq_true _ _).1 bare_loses
  simp only [loses, Bool.and_eq_true] at lost
  obtain ⟨speaks, opens⟩ := lost
  refine ⟨sender, recipient, source, bytes, is, fun _ _ => rfl, ?_, ?_⟩
  · split at speaks
    · rename_i s archived loaded
      simp only [Bool.and_eq_true, bne_iff_ne] at speaks
      have long : Envelope.maxPayload ≤
          (List.replicate Envelope.maxPayload (0 : UInt8)).length := by
        rw [List.length_replicate]
      have fits : (Padding.pad (List.replicate Envelope.maxPayload (0 : UInt8))).length ≤
          Suite.plain.maxPlaintext := by
        rw [Padding.length_pad, List.length_replicate]
        decide
      have oversized : ∃ error ctx', sender.party.Oversized recipient.party.address
          (sender.context source) ctx' (List.replicate Envelope.maxPayload 0) error :=
        Party.oversized_of_long Suite.plain_lawful (fun _ _ => rfl) loaded rfl speaks.1 speaks.2
          long fits
      obtain ⟨error, ctx', lost⟩ := oversized
      exact ⟨error, ctx', ((Party.failed_call_moves_iff sender.party recipient.party.address
        (sender.context source) fun _ _ => rfl).1 _ error ctx').2 lost⟩
    · cases speaks
  · split at opens
    · rename_i padded ctx' opened
      have unmarked : recipient.party.Unmarked sender.party.address (recipient.context source) ctx'
          bytes .invalidPadding := ⟨padded, opened, by simpa using opens, rfl⟩
      exact ⟨ctx', ((Party.failed_call_moves_iff recipient.party sender.party.address
        (recipient.context source) fun _ _ => rfl).2 bytes _ ctx').2 unmarked⟩
    · cases opens

end RatchetSession
