import RatchetSession.Proofs.Exchange.Mail
import RatchetSession.Proofs.Message.Size
set_option autoImplicit false

namespace RatchetSession

variable {P : Suite} {E : Type}

namespace Conversation

variable [Randomness E] (c : Conversation) {st : Store P} {source source' : E} {bytes : Bytes}
  {message : Message}

theorem decryptBytes_does (decoded : Envelope.decode bytes = .ok message) {plaintext : Bytes}
    {store : Store P} (does : Does (c.decrypt message) st source plaintext store source') :
    Does (c.decryptBytes bytes) st source plaintext store source' :=
  .bind (.ofExcept (by rw [decoded]; rfl)) does

theorem decryptBytes_fails (decoded : Envelope.decode bytes = .ok message) {error : SessionError}
    {store : Store P} (fails : Fails (c.decrypt message) st source error store source') :
    Fails (c.decryptBytes bytes) st source error store source' :=
  .after (.ofExcept (by rw [decoded]; rfl)) fails

end Conversation

namespace Ledger

variable {couple : Couple P} {l l' : Ledger P} {base : PublicKey} {t t' : Talk P} {e : Epoch}
  {st : Side → Store P} {side : Side} {store : Store P} {item : Dispatch} {sent : List Dispatch}

def Knows (l : Ledger P) (side : Side) : Prop := ∃ base t, l.talks base = some t ∧ t.Known side

theorem Knows.grow (h : l.Knows side) (grows : l.Grows l') : l'.Knows side := by
  obtain ⟨base, t, found, known⟩ := h
  obtain ⟨t', there, later⟩ := grows base t found
  refine ⟨base, t', there, known.imp later.starter.trans fun two => ?_⟩
  exact Nat.le_trans two later.epochs.length_le

theorem Agrees.knows_of_opened (h : l.Agrees couple st) {letter : Letter} (opened : l.Opened letter)
    (side : Side) : l.Knows side := by
  obtain ⟨t, found, member⟩ := opened
  have heard := (h.covers _ t found).sound.heard _ _ member
  exact ⟨_, t, found, .inr (by omega)⟩

theorem Written.sender_knows (h : l.Written item t e) : l.Knows item.sender := by
  refine ⟨_, t, h.talk, ?_⟩
  rw [← h.own]
  obtain ⟨inside, -⟩ := List.getElem?_eq_some_iff.1 h.epoch
  cases place : item.letter.epoch with
  | zero => exact .inl rfl
  | succ k => exact .inr (by omega)

/-- One ledger comes after the other: these keys were drawn, and so much was sent and delivered. -/
structure Continues (l l' : Ledger P) (fresh : List PublicKey) (sends deliveries : Nat) :
    Prop where
  bases : l'.bases = l.bases
  spare : l'.spare = l.spare
  ids : l'.ids = l.ids
  keys : l'.keys = l.keys ++ fresh
  sends : l'.sends = l.sends + sends
  deliveries : l'.deliveries = l.deliveries + deliveries
  grows : l.Grows l'

theorem continues_put (found : l.talks base = some t) (later : t.Later t') (fresh : List PublicKey)
    (sends deliveries : Nat) :
    l.Continues ((l.pass fresh sends deliveries).put base t') fresh sends deliveries :=
  ⟨rfl, rfl, rfl, rfl, rfl, rfl, grows_put found later fresh sends deliveries⟩

theorem continues_pass (l : Ledger P) (fresh : List PublicKey) (sends deliveries : Nat) :
    l.Continues (l.pass fresh sends deliveries) fresh sends deliveries :=
  ⟨rfl, rfl, rfl, rfl, rfl, rfl, .of_talks rfl⟩

theorem Continues.trail [Randomness E] {source now later : E} {seeds : List (Octets 32)}
    {sends deliveries : Nat} (h : l.Continues l' (publicKeys P seeds) sends deliveries)
    (trail : Trail P source l.keys now) (drawn : Drawn now seeds later) :
    Trail P source l'.keys later := by
  rw [h.keys]
  exact trail.draw drawn

theorem Sends.send_does {source : E} {letter : Letter}
    (h : Sends couple l st side source letter t e store) {plaintext bytes : Bytes}
    (padded : letter.plaintext = Padding.pad plaintext)
    (encoded : Envelope.encode (t.write e letter) = .ok bytes) :
    Does ((couple.party side).send (couple.address side.other) plaintext) (st side) source bytes
      store source := by
  have does := h.does
  rw [padded] at does
  exact .bind does (.ofExcept (by rw [encoded]; rfl))

theorem Sends.send_fails {source : E} {letter : Letter}
    (h : Sends couple l st side source letter t e store) {plaintext : Bytes}
    (padded : letter.plaintext = Padding.pad plaintext) {error : WireError}
    (encoded : Envelope.encode (t.write e letter) = .error error) :
    Fails ((couple.party side).send (couple.address side.other) plaintext) (st side) source
      (.wire error) store source := by
  have does := h.does
  rw [padded] at does
  exact .after does (.ofExcept (by rw [encoded]; rfl))

theorem Agrees.send_unknown (h : l.Agrees couple st) (unknown : ¬ l.Knows side) (plaintext : Bytes)
    (source : E) :
    Fails ((couple.party side).send (couple.address side.other) plaintext) (st side) source
      (.noSession (couple.address side.other)) (st side) source :=
  .bind (h.send_none (fun base t there known => unknown ⟨base, t, there, known⟩)
    (Padding.pad plaintext) source)

theorem Agrees.send_refused (h : l.Agrees couple st) (knows : l.Knows side)
    (room : l.sends < (couple.limits side).maxSkip.toNat) {plaintext : Bytes}
    (long : P.maxPlaintext < (Padding.pad plaintext).length) (source : E) :
    Fails ((couple.party side).send (couple.address side.other) plaintext) (st side) source
      (.ofCrypto .encryption) (st side) source :=
  .bind (h.send_oversized knows room long source)

variable (couple l st side) in
/-- What a party does that sends: it posts a new letter, or one that no envelope can hold is lost,
or the cipher refuses it. -/
inductive Dispatched (sent : List Dispatch) (plaintext : Bytes) (source : E) : Prop where
  | posted (item : Dispatch) {store : Store P} {l' : Ledger P}
      (does : Does ((couple.party side).send (couple.address side.other) plaintext) (st side) source
        item.bytes store source)
      (sender : item.sender = side) (spoken : item.plaintext = plaintext)
      (sealing : ∃ r s, (st side).loadRecord (couple.address side.other) = .ok (some r) ∧
        r.current = some s ∧ s.sealing.toBytes = item.sealed)
      (follows : l.Continues l' [] 1 0) (agrees : l'.Agrees couple (setStore st side store))
      (mail : l'.Mail (sent ++ [item])) (unopened : ¬ l'.Opened item.letter)
      (opened : ∀ letter, l'.Opened letter ↔ l.Opened letter)
      (knows : ∀ any, l'.Knows any ↔ l.Knows any)
  | lost {error : WireError} {store : Store P} {l' : Ledger P}
      (large : Envelope.maxPayload < 2 * ((Padding.pad plaintext).length + tagSize) + 500)
      (fails : Fails ((couple.party side).send (couple.address side.other) plaintext) (st side)
        source (.wire error) store source)
      (follows : l.Continues l' [] 1 0) (agrees : l'.Agrees couple (setStore st side store))
      (mail : l'.Mail sent) (opened : ∀ letter, l'.Opened letter ↔ l.Opened letter)
      (knows : ∀ any, l'.Knows any ↔ l.Knows any)
  | refused (long : P.maxPlaintext < (Padding.pad plaintext).length)
      (fails : Fails ((couple.party side).send (couple.address side.other) plaintext) (st side)
        source (.ofCrypto .encryption) (st side) source)

theorem knows_put (found : l.talks base = some t) (t' : Talk P) (starter : t'.starter = t.starter)
    (epochs : t'.dialogue.epochs = t.dialogue.epochs) (fresh : List PublicKey)
    (sends deliveries : Nat) (any : Side) :
    ((l.pass fresh sends deliveries).put base t').Knows any ↔ l.Knows any := by
  have same : t'.Known any ↔ t.Known any := by simp only [Talk.Known, starter, epochs]
  refine ⟨fun ⟨other, t₁, there, known⟩ => ?_, fun ⟨other, t₁, there, known⟩ => ?_⟩
  · rcases put_eq_some there with ⟨-, rfl⟩ | ⟨-, there⟩
    · exact ⟨base, t, found, same.1 known⟩
    · exact ⟨other, t₁, there, known⟩
  · by_cases here : other = base
    · subst here
      cases found.symm.trans there
      exact ⟨other, t', put_self _ _ t', same.2 known⟩
    · exact ⟨other, t₁, (put_of_ne _ t' here).trans there, known⟩

theorem Agrees.dispatch (laws : P.Lawful) (h : l.Agrees couple st) (mail : l.Mail sent)
    (knows : l.Knows side) (room : l.sends < (couple.limits side).maxSkip.toNat)
    (plaintext : Bytes) (source : E) : Dispatched couple l st side sent plaintext source := by
  by_cases long : P.maxPlaintext < (Padding.pad plaintext).length
  · exact .refused long (h.send_refused knows room long source)
  obtain ⟨letter, t, e, store, padded, sends⟩ := h.send knows room (Nat.le_of_not_lt long) source
  have later := t.later_send letter.epoch
  have follows := continues_put sends.talk later [] 1 0
  have opened := opened_put_same sends.talk (t.withDialogue (t.dialogue.send letter.epoch)) rfl [] 1 0
  have known := knows_put sends.talk (t.withDialogue (t.dialogue.send letter.epoch)) rfl rfl [] 1 0
  cases encoded : Envelope.encode (t.write e letter) with
  | error error =>
    refine .lost (Nat.lt_of_not_le fun short => ?_) (sends.send_fails padded encoded) follows
      sends.agrees (mail.grow follows.grows) opened known
    have length : (t.write e letter).inner.ciphertext.length =
        (Padding.pad plaintext).length + tagSize := by
      rw [t.write_inner, ← padded]
      exact laws.overhead _ _ _ _
    obtain ⟨bytes, fits⟩ := Envelope.encode_of_le (m := t.write e letter) (by rw [length]; exact short)
    rw [encoded] at fits
    cases fits
  | ok bytes =>
    have covers := h.covers _ t sends.talk
    let item : Dispatch := ⟨side, plaintext, letter, bytes,
      (t.dialogue.binding letter.epoch e letter.counter).toBytes⟩
    obtain ⟨r, s, held, is, sealing⟩ := sends.sealing
    refine .posted item (sends.send_does padded encoded) rfl rfl
      ⟨r, s, held, is, by rw [sealing]⟩ follows sends.agrees (sends.post mail item rfl ?_) ?_ opened
      known
    · refine ⟨put_self _ _ _, sends.epoch, ?_, sends.own, sends.fits, padded, ?_, ?_⟩
      · simp only [Talk.withDialogue, Dialogue.send, item, if_true, sends.counter]
        exact Nat.lt_succ_self _
      · rw [later.write]
        exact encoded
      · rw [later.binding]
    · rw [opened, opened_iff sends.talk]
      intro old
      have lt := covers.sound.was _ _ old
      rw [sends.counter] at lt
      exact Nat.lt_irrefl _ lt

section Receive

variable [Randomness E]

variable (couple l st side) in
/-- What a party does that receives: it says what was said, once. -/
inductive Collected (item : Dispatch) (source : E) : Prop where
  | used {seeds : List (Octets 32)} {source' : E} {l' : Ledger P} (drawn : Drawn source seeds source')
      (old : l.Opened item.letter)
      (fails : Fails ((couple.party side).receive (couple.address side.other) item.bytes) (st side)
        source (.duplicateMessage item.letter.counter) (st side) source')
      (follows : l.Continues l' (publicKeys P seeds) 0 1) (agrees : l'.Agrees couple st)
      (opened : ∀ letter, l'.Opened letter ↔ l.Opened letter)
      (knows : ∀ any, l'.Knows any ↔ l.Knows any)
  | opened {seeds : List (Octets 32)} {source' : E} {store : Store P} {l' : Ledger P}
      (drawn : Drawn source seeds source') (new : ¬ l.Opened item.letter)
      (does : Does ((couple.party side).receive (couple.address side.other) item.bytes) (st side)
        source item.plaintext store source')
      (follows : l.Continues l' (publicKeys P seeds) 0 1)
      (agrees : (∀ key ∈ l.keys, key ∉ publicKeys P seeds) →
        l'.Agrees couple (setStore st side store))
      (opened : ∀ letter, l'.Opened letter ↔ l.Opened letter ∨ letter.Same item.letter)

theorem Agrees.collect (laws : P.Lawful) (h : l.Agrees couple st) (within : l.Within couple)
    (written : l.Written item t e) (recipient : item.sender = side.other) {source : E}
    (steady : Steady source) (honest : ¬ Strays couple l t st side e item.letter source) :
    Collected couple l st side item source := by
  have decoded := Envelope.decode_encode written.encoded
  rcases h.receive laws within written.talk written.epoch written.was written.fits
    (written.own.trans recipient) steady with
    strays | ⟨drawn, old, fails⟩ | ⟨drawn, new, does, later, heard, agrees⟩
  · exact absurd strays honest
  · have refused := (couple.conversation side).decryptBytes_fails decoded fails
    exact .used drawn ((opened_iff written.talk).2 old) (.bind refused) (l.continues_pass _ 0 1)
      (h.pass _ 0 1) (fun _ => Iff.rfl) fun _ => Iff.rfl
  · have answered := (couple.conversation side).decryptBytes_does decoded does
    refine .opened drawn (fun old => new ((opened_iff written.talk).1 old))
      (.bind answered (.ofExcept ?_)) (continues_put written.talk later _ 0 1) agrees
      (opened_put_hear written.talk heard _ 0 1)
    rw [written.padded]
    exact Padding.unpad_pad item.plaintext

end Receive

end Ledger

end RatchetSession
