import RatchetSession.Proofs.Conversation.Delivery
import RatchetSession.Proofs.Conversation.Journal
import RatchetSession.Proofs.Handshake.Agreement
set_option autoImplicit false

namespace RatchetSession

open RatchetSession.Computation (bind_of_ok)

variable {P : Suite}

def Record.encryptEach : Record P → List Bytes → Except SessionError (List Message × Record P)
  | r, [] => .ok ([], r)
  | r, plaintext :: rest => do
    let (message, r) ← r.encrypt plaintext
    let (messages, r) ← encryptEach r rest
    return (message :: messages, r)

/-- The responder's session is the initiator's seen from the other side: the identities are swapped,
and it receives on the chain that the initiator sends on. -/
structure Session.Answers (t s : Session P) : Prop where
  localIdentity : t.localIdentity = s.remoteIdentity
  remoteIdentity : t.remoteIdentity = s.localIdentity
  baseKey : t.baseKey = s.baseKey
  receiving : ∃ chain, t.receiving = [chain] ∧ chain.chainKey = s.sending.chainKey ∧
    chain.remoteKey = s.sending.ratchetKey.publicKey ∧ chain.localKey = s.sending.remoteKey

/-- However much more it sends until then, the record opens an answer if the key that is drawn for it
gives a secret. -/
def Record.TakesAnswer (E : Type) [Randomness E] (limits : Limits) (r : Record P)
    (answer : RatchetMessage) (reply : Bytes) : Prop :=
  ∀ more later r', r.encryptEach more = .ok (later, r') →
    ∀ (now now' : E) (seed secret : Octets 32), Randomness.draw 32 now = .ok seed now' →
      PrivateKey.agree P ⟨seed⟩ answer.ratchetKey = .ok secret →
      ∃ r'', decrypt limits answer (r', now) = .ok reply (r'', now')

def Dialogue.sendMany (d : Dialogue P) (k count : Nat) : Dialogue P :=
  { d with sent := fun j => if j = k then d.sent j + count else d.sent j }

theorem Dialogue.sendMany_zero (d : Dialogue P) (k : Nat) : d.sendMany k 0 = d := by
  simp [sendMany]

theorem Dialogue.send_sendMany (d : Dialogue P) (k count : Nat) :
    (d.send k).sendMany k count = d.sendMany k (count + 1) := by
  simp only [send, sendMany, mk.injEq, true_and, and_true]
  funext j
  split
  · omega
  · rfl

theorem Dialogue.sendMany_send (d : Dialogue P) (k count : Nat) :
    (d.sendMany k count).send k = d.sendMany k (count + 1) := by
  simp only [send, sendMany, mk.injEq, true_and, and_true]
  funext j
  split
  · omega
  · rfl

theorem Dialogue.Sound.sendMany {d : Dialogue P} (h : d.Sound) {k : Nat}
    (old : k < d.epochs.length) (count : Nat) : (d.sendMany k count).Sound := by
  induction count with
  | zero => rwa [sendMany_zero]
  | succ count ih =>
    rw [← sendMany_send]
    exact ih.send old

theorem Record.encrypt_ofSession {s s' : Session P} {plaintext : Bytes} {message : Message}
    (h : s.encrypt plaintext = .ok (message, s')) :
    (ofSession s).encrypt plaintext = .ok (message, ofSession s') :=
  encrypt_of_ok rfl h

theorem Attends.encryptEach {d : Dialogue P} {k : Nat} {e : Epoch} {s : Session P}
    (h : Attends d k e s) (whole : d.sent k ≤ lastIndex.toNat) (texts : List Bytes) :
    (d.sent k + texts.length ≤ lastIndex.toNat ∧
      ∃ sent s', (Record.ofSession s).encryptEach texts = .ok (sent, .ofSession s') ∧
        Attends (d.sendMany k texts.length) k e s') ∨
    (lastIndex.toNat < d.sent k + texts.length ∧
      (Record.ofSession s).encryptEach texts = .error (.ofCrypto (.chainExhausted lastIndex))) ∨
    ((∃ text ∈ texts, P.maxPlaintext < text.length) ∧
      (Record.ofSession s).encryptEach texts = .error (.ofCrypto .encryption)) := by
  induction texts generalizing d s with
  | nil => exact .inl ⟨whole, [], s, rfl, by rwa [List.length_nil, Dialogue.sendMany_zero]⟩
  | cons plaintext rest ih =>
    rw [List.length_cons]
    by_cases last : d.sent k = lastIndex.toNat
    · refine .inr (.inl ⟨by omega, ?_⟩)
      rw [Record.encryptEach, Record.encrypt_of_error rfl (h.encrypt_exhausted last plaintext)]
      rfl
    by_cases long : P.maxPlaintext < plaintext.length
    · refine .inr (.inr ⟨⟨plaintext, List.mem_cons_self, long⟩, ?_⟩)
      rw [Record.encryptEach, Record.encrypt_of_error rfl (h.encrypt_oversized (by omega) long)]
      rfl
    · obtain ⟨s₁, sealed, h₁, -⟩ := h.encrypt (by omega) (Nat.le_of_not_lt long)
      generalize d.wrap k _ = message at sealed
      have one : (d.send k).sent k = d.sent k + 1 := if_pos rfl
      rw [Record.encryptEach, Record.encrypt_ofSession sealed]
      rcases ih h₁ (by omega) with
        ⟨room, sent, s', others, h'⟩ | ⟨beyond, failed⟩ | ⟨⟨text, member, long⟩, failed⟩
      · rw [Dialogue.send_sendMany] at h'
        refine .inl ⟨by omega, message :: sent, s', ?_, h'⟩
        simp only [bind, Except.bind, others]
        rfl
      · refine .inr (.inl ⟨by omega, ?_⟩)
        simp only [bind, Except.bind, failed]
      · refine .inr (.inr ⟨⟨text, List.mem_cons_of_mem _ member, long⟩, ?_⟩)
        simp only [bind, Except.bind, failed]

namespace Handshake

variable {E F : Type} [Randomness E] [Randomness F]

theorem receive_first (limits : Limits) (laws : P.Commutes) {d : Dialogue P} {e e₁ : Epoch}
    {t : Session P} (speaks : Speaks (d.grow e₁) 1 e₁ t)
    (chains : t.receiving = [.new (e.key P) e.peer ⟨e.start, 0⟩]) {counter : UInt32}
    (near : counter ≤ limits.maxSkip) (short : counter.toNat < lastIndex.toNat)
    {plaintext : Bytes} (fits : plaintext.length ≤ P.maxPlaintext) (source : F) :
    ∃ t', t.decrypt limits (d.message 0 e counter plaintext) source = .ok (plaintext, t') source ∧
      Speaks (d.grow e₁) 1 e₁ t' := by
  have found : t.chain? (e.key P) = some (.new (e.key P) e.peer ⟨e.start, 0⟩) := by
    simp [Session.chain?, chains, ReceivingChain.new]
  obtain ⟨after, taken⟩ :=
    ReceivingChain.messageKey_new (P := P) (e.key P) e.peer e.start near short
  have binding : (⟨t.version, t.remoteIdentity, t.localIdentity, e.key P, e.peer, counter,
      e.previous⟩ : Binding P) = d.binding 0 e counter := by
    rw [speaks.version, speaks.remoteIdentity, speaks.localIdentity]
    rfl
  have opened : (keyAt P e.start counter).decrypt P (d.binding 0 e counter).toBytes
      ((keyAt P e.start counter).encrypt P (d.binding 0 e counter).toBytes plaintext) =
        .ok plaintext := by
    simp only [MessageKey.decrypt, MessageKey.encrypt, laws.opens _ _ _ _ fits]
  have received : t.receive limits (d.message 0 e counter plaintext) =
      .ok (plaintext, { t.setChain (e.key P) after with pending := none }) := by
    have own : (ReceivingChain.new (e.key P) e.peer ⟨e.start, 0⟩).localKey = e.peer := rfl
    simp only [Session.receive, Dialogue.message, found, taken, own, binding, opened]
  refine ⟨{ t.setChain (e.key P) after with pending := none }, ?_, { speaks with pending := rfl }⟩
  unfold Session.decrypt
  rw [bind_of_ok (Attends.follow_heard found 0 counter plaintext source), received]
  rfl

theorem receive_answer (laws : P.Commutes) {limits : Limits} (room : 0 < limits.maxReceiverChains)
    {d : Dialogue P} {e e₁ : Epoch} {s : Session P} (sound : d.Sound) (attends : Attends d 0 e s)
    (whole : d.sent 0 ≤ lastIndex.toNat) (one : d.epochs.length = 1) (next : e.Next P e₁)
    {reply : Bytes} (fits : reply.length ≤ P.maxPlaintext) {source source' : F}
    {seed fresh : Octets 32}
    (draw : Randomness.draw 32 source = .ok seed source')
    (contributes : P.agree? seed (P.publicKey e₁.seed) = some fresh) :
    ∃ s', s.decrypt limits (d.message 1 e₁ 0 reply) source = .ok (reply, s') source' := by
  have there : (d.grow e₁).epochs[1]? = some e₁ := getElem?_concat_eq_some.2 (.inr ⟨one.symm, rfl⟩)
  have last : ((d.grow e₁).send 1).epochs.length = 2 := by simp [Dialogue.send, Dialogue.grow, one]
  have sound' : ((d.grow e₁).send 1).Sound := by
    refine (sound.grow one attends.epoch next (fun j e₂ turns held => ?_)
      fun i same => absurd same (Nat.succ_ne_zero i).symm).send (last ▸ Nat.lt_succ_self 1)
    obtain ⟨inside, -⟩ := List.getElem?_eq_some_iff.1 held
    obtain rfl : j = 0 := by omega
    exact absurd turns (by decide)
  have attends' : Attends ((d.grow e₁).send 1) 0 e s :=
    (attends.of_grow one e₁).of_send (by decide)
  have was : (0 : UInt32).toNat < ((d.grow e₁).send 1).sent 1 := Nat.succ_pos _
  have reaches : ∀ chain, s.chain? e.peer = some chain → chain.Reaches limits e₁.previous := by
    intro chain found
    obtain ⟨j, _, lt, -⟩ := attends.chains chain (List.mem_of_find?_eq_some found)
    exact absurd lt (Nat.not_lt_zero j)
  have own : ((d.grow e₁).send 1).sent 0 < 2 ^ 32 :=
    Nat.lt_of_le_of_lt whole lastIndex.toNat_lt
  obtain ⟨s', _, opened, -⟩ := attends'.decrypt_next laws sound' last there was reaches
    (Nat.zero_le _) (Nat.zero_le _) room own (by decide) fits draw contributes
  exact ⟨s', opened⟩

theorem takesAnswer (laws : P.Commutes) {limits : Limits} (room : 0 < limits.maxReceiverChains)
    {d : Dialogue P} {e e₁ : Epoch} {s : Session P} (sound : d.Sound) (attends : Attends d 0 e s)
    (whole : d.sent 0 ≤ lastIndex.toNat) (one : d.epochs.length = 1) (next : e.Next P e₁)
    {reply : Bytes} (fits : reply.length ≤ P.maxPlaintext) :
    (Record.ofSession s).TakesAnswer E limits (d.message 1 e₁ 0 reply) reply := by
  intro more later r ok now now' seed secret draw contributes
  rcases attends.encryptEach whole more with
    ⟨within, later', s', ok', attends'⟩ | ⟨-, failed⟩ | ⟨-, failed⟩
  · cases ok.symm.trans ok'
    have sound' := sound.sendMany (one ▸ Nat.zero_lt_one) more.length
    have whole' : (d.sendMany 0 more.length).sent 0 ≤ lastIndex.toNat := by
      simpa [Dialogue.sendMany] using within
    obtain ⟨s'', taken⟩ := receive_answer laws room sound' attends' whole' one next fits draw
      (agree?_of_agree contributes)
    exact ⟨.ofSession s'', Record.decrypt_of_ok rfl taken⟩
  all_goals
    rw [failed] at ok
    cases ok

theorem accept_first (laws : P.Commutes) {identity responder : Identity} {signed : SignedPreKey}
    {oneTime : Option PreKey} {e : Epoch} {s : Session P}
    (holds : Holds (opening P identity responder signed oneTime e) 0 e s)
    (awaits : Awaits (opening P identity responder signed oneTime e) e responder signed oneTime)
    {store : Store P} (signedHeld : store.signedPreKeys.find? signed.id = some signed)
    (oneTimeHeld : ∀ key ∈ oneTime, store.preKeys.find? key.id = some key) (limits : Limits)
    {counter : UInt32} (near : counter ≤ limits.maxSkip)
    (short : counter.toNat < lastIndex.toNat) {plaintext : Bytes}
    (fits : plaintext.length ≤ P.maxPlaintext) {message : InitialMessage}
    (is : message = ⟨(identity.key P).bytes, e.key P, signed.id, oneTime.map (·.id),
      (opening P identity responder signed oneTime e).message 0 e counter plaintext⟩)
    {source source' : F} {seed secret : Octets 32}
    (draw : Randomness.draw 32 source = .ok seed source')
    (shared : P.agree? seed (P.publicKey e.seed) = some secret) :
    ∃ t e₁ t', Does (accept message responder : Action P F _) store source
        (t, oneTime.map (·.id)) store source' ∧
      t.Answers s ∧ t.decrypt limits message.message source' = .ok (plaintext, t') source' ∧
      e.Next P e₁ ∧ Speaks ((opening P identity responder signed oneTime e).grow e₁) 1 e₁ t' := by
  have base : message.baseKey = e.key P := congrArg InitialMessage.baseKey is
  obtain ⟨t, e₁, built, -, -, next, attends, chains⟩ :=
    incoming_holds (opening_sound identity responder signed oneTime e) awaits rfl base draw shared
  rw [← awaits.peer] at chains
  subst is
  obtain ⟨t', opened, speaks⟩ :=
    receive_first limits laws attends.toSpeaks chains near short fits source'
  refine ⟨t, e₁, t', accept_does rfl rfl signedHeld rfl oneTimeHeld built, ⟨?_, ?_, ?_, ?_⟩, opened,
    next, speaks⟩
  · exact attends.localIdentity.trans holds.remoteIdentity.symm
  · exact attends.remoteIdentity.trans holds.localIdentity.symm
  · exact attends.baseKey.trans holds.baseKey.symm
  · exact ⟨_, chains, by rw [holds.sending]; rfl, by rw [holds.sending]; rfl,
      by rw [holds.sending]; rfl⟩

theorem answer_first (laws : P.Commutes) {d d' : Dialogue P} {e e₁ : Epoch} {s t : Session P}
    (sound : d.Sound) (attends : Attends d 0 e s) (whole : d.sent 0 ≤ lastIndex.toNat)
    (one : d.epochs.length = 1) (next : e.Next P e₁) (speaks : Speaks d' 1 e₁ t)
    (unsent : d'.sent 1 = 0)
    (same : ∀ reply, d'.message 1 e₁ 0 reply = d.message 1 e₁ 0 reply) (reply : Bytes) :
    (P.maxPlaintext < reply.length ∧
      (Record.ofSession t).encrypt reply = .error (.ofCrypto .encryption)) ∨
    ∃ answer r, (Record.ofSession t).encrypt reply = .ok (.ratchet answer, r) ∧
      ∀ limits : Limits, 0 < limits.maxReceiverChains →
        (Record.ofSession s).TakesAnswer E limits answer reply := by
  have begins : d'.sent 1 < lastIndex.toNat := by
    rw [unsent]
    decide
  by_cases long : P.maxPlaintext < reply.length
  · exact .inl ⟨long, Record.encrypt_of_error rfl (speaks.encrypt_oversized begins long)⟩
  have fits := Nat.le_of_not_lt long
  obtain ⟨sending, answered, -⟩ := speaks.encrypt begins fits
  rw [unsent] at answered
  refine .inr ⟨d'.message 1 e₁ 0 reply, _, Record.encrypt_ofSession answered, fun limits room => ?_⟩
  rw [same]
  exact takesAnswer laws room sound attends whole one next fits

/-- Both sides of a handshake build the same session. Of an initiator's messages any one that is no
further ahead than the responder's longest jump lets the responder build its session and is opened by
it; the responder's first answer is opened by the initiator, however much that has sent by then. The
keys drawn on the way have to give secrets. Nothing is sent at the last position of a chain, or when
a text is too long for the cipher. -/
theorem first_contact (laws : P.Commutes) {identity responder : Identity} {signed : SignedPreKey}
    {oneTime : Option PreKey} (signedValid : signed.keyPair.Valid P)
    (oneTimeValid : ∀ key ∈ oneTime, key.keyPair.Valid P) {store : Store P}
    (signedHeld : store.signedPreKeys.find? signed.id = some signed)
    (oneTimeHeld : ∀ key ∈ oneTime, store.preKeys.find? key.id = some key) {source source' : E}
    {s : Session P}
    (made : outgoing (.ofKeys (responder.key P) signed oneTime) identity source = .ok s source')
    {limits : Limits} (before : List Bytes) (near : before.length ≤ limits.maxSkip.toNat)
    (plaintext : Bytes) {start start' : F} {seed secret : Octets 32}
    (draw : Randomness.draw 32 start = .ok seed start')
    (contributes : PrivateKey.agree P ⟨seed⟩ s.baseKey = .ok secret) :
    ((∃ text ∈ before, P.maxPlaintext < text.length) ∧
      (Record.ofSession s).encryptEach before = .error (.ofCrypto .encryption)) ∨
    ∃ earlier r, (Record.ofSession s).encryptEach before = .ok (earlier, r) ∧
      ((before.length = lastIndex.toNat ∧
          r.encrypt plaintext = .error (.ofCrypto (.chainExhausted lastIndex))) ∨
        (P.maxPlaintext < plaintext.length ∧
          r.encrypt plaintext = .error (.ofCrypto .encryption)) ∨
        ∃ message r₁ t r₂, r.encrypt plaintext = .ok (.initial message, r₁) ∧
          Does (accept message responder : Action P F _) store start (t, oneTime.map (·.id)) store
            start' ∧
          t.Answers s ∧
          Record.decrypt limits message.message (.ofSession t, start') =
            .ok plaintext (r₂, start') ∧
          ∀ reply, (P.maxPlaintext < reply.length ∧
              r₂.encrypt reply = .error (.ofCrypto .encryption)) ∨
            ∃ answer r₃, r₂.encrypt reply = .ok (.ratchet answer, r₃) ∧
              ∀ limits' : Limits, 0 < limits'.maxReceiverChains →
                r₁.TakesAnswer E limits' answer reply) := by
  obtain ⟨e, -, holds, awaits⟩ := outgoing_holds laws signedValid oneTimeValid made
  let d := opening P identity responder signed oneTime e
  have sound : d.Sound := opening_sound identity responder signed oneTime e
  have most : limits.maxSkip.toNat ≤ lastIndex.toNat := Nat.le_of_lt_succ limits.maxSkip.toNat_lt
  have none : d.sent 0 = 0 := rfl
  have base : s.baseKey = e.key P := holds.baseKey
  rcases holds.toAttends.encryptEach (Nat.zero_le _) before with
    ⟨-, earlier, s₁, sent, h₁⟩ | ⟨beyond, -⟩ | oversized
  case inr.inl => exact absurd beyond (by rw [none]; omega)
  case inr.inr => exact .inl oversized
  have sent₁ : (d.sendMany 0 before.length).sent 0 = before.length := by
    simp only [Dialogue.sendMany, if_true, none, Nat.zero_add]
  refine .inr ⟨earlier, .ofSession s₁, sent, ?_⟩
  by_cases last : before.length = lastIndex.toNat
  · exact .inl ⟨last,
      Record.encrypt_of_error rfl (h₁.encrypt_exhausted (sent₁.trans last) plaintext)⟩
  have room : (d.sendMany 0 before.length).sent 0 < lastIndex.toNat := by
    rw [sent₁]
    omega
  by_cases long : P.maxPlaintext < plaintext.length
  · exact .inr (.inl ⟨long, Record.encrypt_of_error rfl (h₁.encrypt_oversized room long)⟩)
  obtain ⟨s₂, sealed, h₂, -⟩ := h₁.encrypt room (Nat.le_of_not_lt long)
  rw [sent₁] at sealed
  let counter : UInt32 := .ofNat before.length
  have index : counter.toNat = before.length := by
    have bound : lastIndex.toNat < 2 ^ 32 := by decide
    rw [UInt32.toNat_ofNat']
    omega
  have shared := agree?_of_agree contributes
  rw [base] at shared
  obtain ⟨t, e₁, t', accepted, answers, opened, next, speaks⟩ :=
    accept_first laws holds awaits signedHeld oneTimeHeld limits
      (UInt32.le_iff_toNat_le.2 (by rw [index]; exact near)) (by rw [index]; omega)
      (Nat.le_of_not_lt long) rfl draw shared
  have sound₂ : ((d.sendMany 0 before.length).send 0).Sound :=
    (sound.sendMany Nat.zero_lt_one _).send (show 0 < _ from Nat.zero_lt_one)
  have whole : ((d.sendMany 0 before.length).send 0).sent 0 ≤ lastIndex.toNat := by
    simp only [Dialogue.send, if_true, sent₁]
    omega
  exact .inr (.inr ⟨_, .ofSession s₂, t, .ofSession t', Record.encrypt_ofSession sealed, accepted,
    answers, Record.decrypt_of_ok rfl opened,
    answer_first laws sound₂ h₂ whole rfl next speaks rfl fun _ => rfl⟩)

/-- One newcomer uses the other's bundle, and its third message is the first that arrives. -/
theorem first_contact_newcomers :
    ∃ s, outgoing (newcomerBundle 1000 true) ⟨Ticker.seed 32 0⟩ (⟨3⟩ : Ticker) = .ok s ⟨4⟩ ∧
      ∃ earlier r message r₁ t r₂,
        (Record.ofSession s).encryptEach [[1], [2]] = .ok (earlier, r) ∧
        r.encrypt [3] = .ok (.initial message, r₁) ∧
        Does (accept message ⟨Ticker.seed 32 1000⟩) (newcomer 1000).store (newcomer 1000).source
          (t, some 7) (newcomer 1000).store ⟨1004⟩ ∧
        t.Answers s ∧
        Record.decrypt {} message.message (.ofSession t, (⟨1004⟩ : Ticker)) =
          .ok [3] (r₂, ⟨1004⟩) ∧
        ∀ reply, reply.length ≤ 2 ^ 38 → ∃ answer r₃, r₂.encrypt reply = .ok (.ratchet answer, r₃) ∧
          r₁.TakesAnswer Ticker {} answer reply := by
  have draw : Randomness.draw 32 (⟨3⟩ : Ticker) = .ok (Ticker.seed 32 3) ⟨4⟩ := rfl
  have valid : (newcomerSigned 1000).Valid Suite.plain ⟨Ticker.seed 32 1000⟩ := ⟨rfl, rfl⟩
  have oneTimeValid : ∀ key ∈ some (newcomerOneTime 1000), key.keyPair.Valid Suite.plain := by
    rintro key ⟨⟩
    rfl
  obtain ⟨s, made⟩ :=
    outgoing_total Suite.plain_lawful ⟨Ticker.seed 32 0⟩ valid oneTimeValid draw
  have signedHeld : (newcomer 1000).store.signedPreKeys.find? (newcomerSigned 1000).id =
      some (newcomerSigned 1000) := rfl
  have oneTimeHeld : ∀ key ∈ some (newcomerOneTime 1000),
      (newcomer 1000).store.preKeys.find? key.id = some key := by
    rintro key ⟨⟩
    rfl
  have near : ([[1], [2]] : List Bytes).length ≤ ({} : Limits).maxSkip.toNat := by decide
  have next : Randomness.draw 32 (newcomer 1000).source = .ok (Ticker.seed 32 1003) ⟨1004⟩ := rfl
  obtain ⟨long, -⟩ | ⟨earlier, r, sent, each⟩ := first_contact Suite.plain_lawful.commutes
    valid.keyPair oneTimeValid signedHeld oneTimeHeld made [[1], [2]] near [3] next rfl
  · exact absurd long (by decide)
  obtain ⟨last, -⟩ | ⟨long, -⟩ | ⟨message, r₁, t, r₂, sealed, accepted, answers, opened, replies⟩ :=
    each
  · exact absurd last (by decide)
  · exact absurd long (by decide)
  refine ⟨s, made, earlier, r, message, r₁, t, r₂, sent, sealed, accepted, answers, opened,
    fun reply short => ?_⟩
  obtain ⟨long, -⟩ | ⟨answer, r₃, answered, takes⟩ := replies reply
  · exact absurd short (Nat.not_le.2 long)
  · exact ⟨answer, r₃, answered, takes {} (by decide)⟩

end Handshake

end RatchetSession
