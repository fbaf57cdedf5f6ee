import RatchetSession.Party
import RatchetSession.Proofs.Conversation.Delivery
import RatchetSession.Proofs.Conversation.Effect
import RatchetSession.Proofs.Crypto.Aead
import RatchetSession.Proofs.Message.Size
import RatchetSession.Proofs.Padding
import RatchetSession.Proofs.Session.Framing
import RatchetSession.Proofs.Session.Step
import RatchetSession.Suite.Standard
set_option autoImplicit false

namespace RatchetSession

open RatchetSession.Computation (FailsAs bind_of_ok bind_of_error)

variable {P : Suite} {E α : Type}

/-- A failure that is not about an envelope. -/
def SessionError.Unwired (error : SessionError) : Prop := ∀ fault, error ≠ .wire fault

theorem SessionError.ofCrypto_unwired (error : CryptoError) : (ofCrypto error).Unwired := by
  cases error <;> nofun

namespace Action

theorem call_unwired (kind : StoreCall) (run : Store P → Except StoreError (α × Store P)) :
    FailsAs SessionError.Unwired (call kind run : Action P E α) := by
  intro ctx error ctx' failed
  rcases call_cases kind run ctx with ⟨e, refused⟩ | ⟨a, store, -, done⟩
  · rw [refused] at failed
    cases failed
    nofun
  · rw [done] at failed
    cases failed

theorem query_unwired (kind : StoreCall) (value : Store P → Except StoreError α) :
    FailsAs SessionError.Unwired (query kind value : Action P E α) :=
  call_unwired _ _

theorem write_unwired (kind : StoreCall) (change : Store P → Store P) :
    FailsAs SessionError.Unwired (write kind change : Action P E Unit) :=
  call_unwired _ _

end Action

section Encrypt

variable {plaintext : Bytes} {error : SessionError}

theorem Session.encrypt_unwired {s : Session P} (failed : s.encrypt plaintext = .error error) :
    error.Unwired := by
  rw [encrypt_eq] at failed
  split at failed
  · cases failed
    exact SessionError.ofCrypto_unwired _
  · split at failed
    · cases failed
      exact SessionError.ofCrypto_unwired _
    · cases failed

theorem Record.encrypt_unwired {r : Record P} (failed : r.encrypt plaintext = .error error) :
    error.Unwired := by
  unfold encrypt at failed
  split at failed
  · cases failed
    nofun
  · split at failed
    · cases failed
    · rename_i refused
      cases failed
      exact Session.encrypt_unwired refused

end Encrypt

namespace Conversation

variable (c : Conversation)

theorem checkTrust_unwired (key : IdentityKey P) :
    FailsAs SessionError.Unwired (c.checkTrust key : Action P E Unit) := by
  refine .bind (Action.query_unwired _ _) fun trusted => ?_
  split
  · exact .pure ()
  · exact .throw nofun

theorem checkCurrent_unwired (record : Record P) :
    FailsAs SessionError.Unwired (c.checkCurrent record : Action P E Unit) := by
  unfold checkCurrent
  split
  · exact c.checkTrust_unwired _
  · exact .pure ()

theorem encrypt_unwired (plaintext : Bytes) :
    FailsAs SessionError.Unwired (c.encrypt plaintext : Action P E Message) := by
  refine .bind (Action.query_unwired _ _) fun found => ?_
  cases found with
  | none => exact .throw nofun
  | some record =>
    dsimp only
    split
    · exact .throw_bind nofun _
    · refine .bind (c.checkCurrent_unwired record) fun _ => ?_
      refine .bind (.ofExcept fun _ => Record.encrypt_unwired) fun sealed => ?_
      exact .bind (Action.write_unwired _ _) fun _ => .pure _

end Conversation

theorem Padding.length_pad_le {plaintext : Bytes} (short : plaintext.length ≤ 523999) :
    (pad plaintext).length ≤ 524000 := by
  simp only [length_pad, blockSize]
  omega

namespace Conversation

variable (c : Conversation) {ctx ctx' : Context P E}

theorem encrypt_length {plaintext : Bytes} {message : Message}
    (overhead : ∀ key nonce associated plaintext,
      (P.encrypt key nonce associated plaintext).length = plaintext.length + tagSize)
    (sealed : c.encrypt plaintext ctx = .ok message ctx') :
    message.inner.ciphertext.length = plaintext.length + tagSize := by
  obtain ⟨_, s, next, -, -, encrypted, -⟩ := c.encrypt_eq_ok sealed
  obtain ⟨-, -, key, is⟩ := Session.encrypt_run encrypted
  rw [is, Session.inner_wrap]
  exact overhead _ _ _ _

theorem encrypt_succeeds {r : Record P} {s : Session P} (quiet : ctx.Quiet)
    (loaded : ctx.store.loadRecord c.remote = .ok (some r)) (current : r.current = some s)
    (trusted : ctx.store.trusts c.remote s.remoteIdentity = true)
    (room : s.sending.index ≠ lastIndex) {plaintext : Bytes}
    (fits : plaintext.length ≤ P.maxPlaintext) :
    ∃ inner ctx', c.encrypt plaintext ctx = .ok (s.wrap inner) ctx' := by
  obtain ⟨message, encrypted⟩ := Session.encrypt_succeeds room fits
  obtain ⟨ctx', sealed, -⟩ := (c.encrypt_does loaded current trusted encrypted).run quiet
  obtain ⟨-, -, key, rfl⟩ := Session.encrypt_run encrypted
  exact ⟨_, ctx', sealed⟩

end Conversation

namespace Party

variable {party : Party} {remote : Address} {ctx ctx' : Context P E} {plaintext : Bytes}
  {message : Message}

theorem send_of_encrypt
    (sealed : (party.conversation remote).encrypt (Padding.pad plaintext) ctx = .ok message ctx') :
    party.send remote plaintext ctx =
      (MonadExcept.ofExcept ((Envelope.encode message).mapError .wire) : Action P E Bytes) ctx' :=
  bind_of_ok sealed

section Short

variable (overhead : ∀ key nonce associated plaintext,
  (P.encrypt key nonce associated plaintext).length = plaintext.length + tagSize)
  (short : plaintext.length ≤ 523999)

include overhead short

theorem encode_of_short
    (sealed : (party.conversation remote).encrypt (Padding.pad plaintext) ctx = .ok message ctx') :
    ∃ bytes, Envelope.encode message = .ok bytes := by
  have ciphertext := (party.conversation remote).encrypt_length overhead sealed
  have padded := Padding.length_pad_le short
  refine Envelope.encode_of_le_capacity ?_
  simp only [ciphertext, tagSize, Envelope.capacity]
  omega

theorem send_of_short :
    (∀ message ctx', (party.conversation remote).encrypt (Padding.pad plaintext) ctx = .ok message ctx' →
      ∃ bytes, Envelope.encode message = .ok bytes ∧
        party.send remote plaintext ctx = .ok bytes ctx') ∧
    ∀ size max ctx',
      party.send remote plaintext ctx ≠ .error (.wire (.payloadTooLarge size max)) ctx' := by
  have sent : ∀ message ctx',
      (party.conversation remote).encrypt (Padding.pad plaintext) ctx = .ok message ctx' →
      ∃ bytes, Envelope.encode message = .ok bytes ∧
        party.send remote plaintext ctx = .ok bytes ctx' := by
    intro message ctx' sealed
    obtain ⟨bytes, written⟩ := encode_of_short overhead short sealed
    refine ⟨bytes, written, ?_⟩
    rw [send_of_encrypt sealed, written]
    rfl
  refine ⟨sent, fun size max ctx' failed => ?_⟩
  cases sealed : (party.conversation remote).encrypt (Padding.pad plaintext) ctx with
  | ok message mid =>
    obtain ⟨bytes, -, done⟩ := sent message mid sealed
    rw [done] at failed
    cases failed
  | error error mid =>
    rw [send, bind_of_error sealed] at failed
    cases failed
    exact (party.conversation remote).encrypt_unwired _ _ _ _ sealed _ rfl

end Short

/-- A message is written unless its CBOR form is longer than a mebibyte, and that is the size then
reported. All messages are written whose ciphertext has up to 524122 bytes, and not all of those
with one byte more; so a plaintext of up to 523999 bytes is never too long to be sent. -/
theorem sends_within_capacity (P : Suite)
    (overhead : ∀ key nonce associated plaintext,
      (P.encrypt key nonce associated plaintext).length = plaintext.length + tagSize) :
    (∀ m, (∃ bytes, Envelope.encode m = .ok bytes) ↔ m.toCbor.length ≤ 1048576) ∧
    (∀ m fault, Envelope.encode m = .error fault ↔
      1048576 < m.toCbor.length ∧ fault = .payloadTooLarge m.toCbor.length 1048576) ∧
    (∀ m : Message, m.inner.ciphertext.length ≤ 524122 → ∃ bytes, Envelope.encode m = .ok bytes) ∧
    (∃ m : Message, m.inner.ciphertext.length = 524123 ∧
      Envelope.encode m = .error (.payloadTooLarge 1048578 1048576)) ∧
    ∀ (E : Type) (party : Party) (remote : Address) (ctx : Context P E) (plaintext : Bytes),
      plaintext.length ≤ 523999 →
      (∀ message ctx',
        (party.conversation remote).encrypt (Padding.pad plaintext) ctx = .ok message ctx' →
        ∃ bytes, Envelope.encode message = .ok bytes ∧
          party.send remote plaintext ctx = .ok bytes ctx') ∧
      ∀ size max ctx',
        party.send remote plaintext ctx ≠ .error (.wire (.payloadTooLarge size max)) ctx' := by
  refine ⟨fun m => ⟨?_, fun small => ⟨_, Envelope.encode_eq_ok_iff.2 ⟨small, rfl⟩⟩⟩,
    fun _ _ => Envelope.encode_error_iff, fun _ short => Envelope.encode_of_le_capacity short,
    ⟨.fullest 524123, List.length_replicate, Envelope.encode_fullest⟩,
    fun _ _ _ _ _ short => send_of_short overhead short⟩
  rintro ⟨bytes, written⟩
  exact (Envelope.encode_eq_ok_iff.1 written).1

def speaker : Party where
  address := ⟨"alice", 1⟩
  limits := {}
  limits_valid := Limits.validate_default
  signedPreKey := ⟨signedPreKeyId, .ofSeed Suite.standard (.replicate 32 3), .replicate 64 0⟩

def listener : Address := ⟨"bob", 1⟩

def opening : PendingPreKey := ⟨some 0xffffffff, 0xffffffff, ⟨.replicate 32 5⟩⟩

/-- The speaker's session before its first message, which goes out as an initial one while that is
pending. -/
def unspoken (pending : Option PendingPreKey) : Session Suite.standard :=
  { Session.initiator (Identity.key _ ⟨.replicate 32 1⟩) (Identity.key _ ⟨.replicate 32 2⟩)
      ⟨.replicate 32 0⟩
      ⟨.ofSeed Suite.standard (.replicate 32 4), ⟨.replicate 32 6⟩, ⟨.replicate 32 7, 0⟩⟩ opening with
    pending := pending }

def speaking (pending : Option PendingPreKey) : Context Suite.standard Unit :=
  ⟨(Store.ofIdentity ⟨.replicate 32 1⟩).saveRecord listener (.ofSession (unspoken pending)), .none, ()⟩

/-- The longest plaintext is encrypted in a message of some kind, and sent. -/
def Spoken (pending : Option PendingPreKey) (kind : MessageKind) : Prop :=
  ∃ message bytes ctx', message.kind = kind ∧
    (speaker.conversation listener).encrypt (Padding.pad (List.replicate 523999 0))
      (speaking pending) = .ok message ctx' ∧
    Envelope.encode message = .ok bytes ∧
    speaker.send listener (List.replicate 523999 0) (speaking pending) = .ok bytes ctx'

theorem longest_plaintext_spoken :
    (∃ bytes, Envelope.encode (.fullest 524122) = .ok bytes) ∧
      Spoken none .ratchet ∧ Spoken (some opening) .initial := by
  obtain ⟨-, -, within, -, sent⟩ := sends_within_capacity Suite.standard Aead.length_encrypt
  have spoken : ∀ pending, Spoken pending (if pending.isSome then .initial else .ratchet) := by
    intro pending
    have loaded : (speaking pending).store.loadRecord listener =
        .ok (some (.ofSession (unspoken pending))) := Store.loadRecord_saveRecord _ _ _
    have trusted : (speaking pending).store.trusts listener (unspoken pending).remoteIdentity = true :=
      rfl
    have room : (unspoken pending).sending.index ≠ lastIndex :=
      show (0 : UInt32) ≠ lastIndex by decide
    have fits : (Padding.pad (List.replicate 523999 0)).length ≤ Suite.standard.maxPlaintext :=
      Nat.le_trans (Padding.length_pad_le (Nat.le_of_eq List.length_replicate)) (by decide)
    obtain ⟨inner, ctx', sealed⟩ := (speaker.conversation listener).encrypt_succeeds
      (fun _ _ => rfl) loaded rfl trusted room fits
    obtain ⟨bytes, written, done⟩ := (sent Unit speaker listener (speaking pending) _
      (Nat.le_of_eq List.length_replicate)).1 _ ctx' sealed
    exact ⟨_, bytes, ctx', by cases pending <;> rfl, sealed, written, done⟩
  exact ⟨within _ (Nat.le_of_eq List.length_replicate), spoken none, spoken (some opening)⟩

end Party

end RatchetSession
