import RatchetSession.Proofs.Exchange.Progress
import RatchetSession.Proofs.Session.Binding
set_option autoImplicit false

namespace RatchetSession

variable {P : Suite}

/-- One message of a dialogue: where it stands and what it says. -/
structure Letter where
  base : PublicKey
  epoch : Nat
  counter : UInt32
  plaintext : Bytes

namespace Talk

def write (t : Talk P) (e : Epoch) (letter : Letter) : Message :=
  t.dialogue.wrap letter.epoch
    (t.dialogue.message letter.epoch e letter.counter letter.plaintext)

theorem write_inner (t : Talk P) (e : Epoch) (letter : Letter) :
    (t.write e letter).inner =
      t.dialogue.message letter.epoch e letter.counter letter.plaintext := by
  unfold write Dialogue.wrap
  split <;> rfl

theorem Later.binding {t t' : Talk P} (h : t.Later t') (k : Nat) (e : Epoch) (counter : UInt32) :
    t'.dialogue.binding k e counter = t.dialogue.binding k e counter := by
  have identity : ∀ origin, t'.dialogue.identity origin = t.dialogue.identity origin := by
    intro origin
    cases origin
    · exact h.initiator
    · exact h.responder
  simp only [Dialogue.binding, identity]

theorem Later.write {t t' : Talk P} (h : t.Later t') (e : Epoch) (letter : Letter) :
    t'.write e letter = t.write e letter := by
  simp only [Talk.write, Dialogue.wrap, Dialogue.message, h.binding, h.initiator, h.pending]

theorem Later.refl (t : Talk P) : t.Later t :=
  ⟨rfl, rfl, rfl, rfl, rfl, List.prefix_rfl, fun _ => Nat.le_refl _⟩

theorem Later.trans {a b c : Talk P} (first : a.Later b) (second : b.Later c) : a.Later c :=
  ⟨second.starter.trans first.starter, second.oneTime.trans first.oneTime,
    second.initiator.trans first.initiator, second.responder.trans first.responder,
    second.pending.trans first.pending, first.epochs.trans second.epochs,
    fun k => Nat.le_trans (first.sent k) (second.sent k)⟩

theorem later_send (t : Talk P) (k : Nat) : t.Later (t.withDialogue (t.dialogue.send k)) := by
  refine ⟨rfl, rfl, rfl, rfl, rfl, List.prefix_rfl, fun j => ?_⟩
  simp only [withDialogue, Dialogue.send]
  split
  · exact Nat.le_succ _
  · exact Nat.le_refl _

theorem later_hear (t : Talk P) (k : Nat) (counter : UInt32) :
    t.Later (t.withDialogue (t.dialogue.hear k counter)) :=
  ⟨rfl, rfl, rfl, rfl, rfl, List.prefix_rfl, fun _ => Nat.le_refl _⟩

theorem later_grow (t : Talk P) (e : Epoch) : t.Later (t.withDialogue (t.dialogue.grow e)) :=
  ⟨rfl, rfl, rfl, rfl, rfl, List.prefix_append _ _, fun _ => Nat.le_refl _⟩

end Talk

namespace Couple

variable (couple : Couple P)

def limits (side : Side) : Limits := (couple.party side).limits

def address (side : Side) : Address := (couple.party side).address

theorem maxSkip_le_maxMessageKeys (side : Side) :
    (couple.limits side).maxSkip.toNat ≤ (couple.limits side).maxMessageKeys :=
  (Limits.validate_eq_ok (couple.party side).limits_valid).2

def conversation (side : Side) : Conversation :=
  (couple.party side).conversation (couple.address side.other)

end Couple

namespace Ledger

variable {couple : Couple P} {l : Ledger P} {base : PublicKey} {t t' : Talk P}
  {st : Side → Store P} {side : Side} {store : Store P}

theorem Describes.saveRecord (h : l.Describes couple side store) (found : l.talks base = some t)
    (later : t.Later t') (waits : t'.dialogue.epochs.length = 1 → t.dialogue.epochs.length = 1)
    {fresh : List PublicKey} {sends deliveries : Nat} {r : Record P}
    (current : r.current.isSome = true)
    (files : ((l.pass fresh sends deliveries).put base t').Files side r.sessions) :
    ((l.pass fresh sends deliveries).put base t').Describes couple side
      (store.saveRecord (couple.address side.other) r) where
  identity := h.identity
  signed := h.signed
  trusted := h.trusted
  record := by
    refine ⟨some r, Store.loadRecord_saveRecord store _ r, fun r' is => ?_, files⟩
    cases is
    exact current
  oneTime b t₁ there starter one := by
    rcases put_eq_some there with ⟨rfl, rfl⟩ | ⟨-, there⟩
    · have kept := h.oneTime b t found (later.starter.symm.trans starter) (waits one)
      rwa [later.oneTime]
    · exact h.oneTime b t₁ there starter one
  spare := h.spare

theorem identities (covers : l.Covers couple base t) {k : Nat} {e : Epoch} {s : Session P}
    (holds : Holds t.dialogue k e s) (turns : t.side (turn k) = side) :
    s.localIdentity = (couple.identity side).key P ∧
      s.remoteIdentity = (couple.identity side.other).key P := by
  rw [holds.localIdentity, holds.remoteIdentity, ← turns]
  cases turn k
  · exact ⟨covers.initiator, covers.responder⟩
  · refine ⟨covers.responder, ?_⟩
    rw [Talk.side, Side.other_other]
    exact covers.initiator

theorem Describes.trusts (h : l.Describes couple side store) {s : Session P}
    (covers : l.Covers couple base t) {k : Nat} {e : Epoch} (holds : Holds t.dialogue k e s)
    (turns : t.side (turn k) = side) :
    store.trusts (couple.address side.other) s.remoteIdentity = true := by
  rw [(identities covers holds turns).2]
  exact h.trusted

theorem Agrees.send_none (h : l.Agrees couple st) {E : Type}
    (unknown : ∀ base t, l.talks base = some t → ¬ t.Known side) (plaintext : Bytes) (source : E) :
    Fails ((couple.conversation side).encrypt plaintext) (st side) source
      (.noSession (couple.address side.other)) (st side) source := by
  obtain ⟨stored, held, current, files⟩ := (h.describes side).record
  cases stored with
  | none => exact (couple.conversation side).encrypt_fails held
  | some r =>
    obtain ⟨s, is⟩ := Option.isSome_iff_exists.1 (current r rfl)
    obtain ⟨t, k, e, there, turns, holds⟩ := files.tracked s (by simp [Record.sessions, is])
    exact absurd (turns ▸ known_of_holds holds) (unknown _ t there)

variable (couple l st side) in
/-- The side sends a letter of a dialogue in its last epoch. -/
structure Sends {E : Type} (source : E) (letter : Letter) (t : Talk P) (e : Epoch)
    (store : Store P) : Prop where
  talk : l.talks letter.base = some t
  epoch : t.dialogue.epochs[letter.epoch]? = some e
  own : t.side (turn letter.epoch) = side
  fits : letter.plaintext.length ≤ P.maxPlaintext
  counter : letter.counter.toNat = t.dialogue.sent letter.epoch
  sealing : ∃ r s, (st side).loadRecord (couple.address side.other) = .ok (some r) ∧
    r.current = some s ∧ s.sealing = t.dialogue.binding letter.epoch e letter.counter
  does : Does ((couple.conversation side).encrypt letter.plaintext) (st side) source
    (t.write e letter) store source
  agrees : ((l.pass [] 1 0).put letter.base
    (t.withDialogue (t.dialogue.send letter.epoch))).Agrees couple (setStore st side store)

theorem Agrees.current (h : l.Agrees couple st)
    (known : ∃ base t, l.talks base = some t ∧ t.Known side) :
    ∃ r s t k e, (st side).loadRecord (couple.address side.other) = .ok (some r) ∧
      r.current = some s ∧ l.Files side (s :: r.archived) ∧ l.talks s.baseKey = some t ∧
      t.side (turn k) = side ∧ Holds t.dialogue k e s := by
  obtain ⟨stored, held, current, files⟩ := (h.describes side).record
  obtain ⟨r, is⟩ : ∃ r, stored = some r := by
    cases stored with
    | some r => exact ⟨r, rfl⟩
    | none =>
      obtain ⟨base, t, there, knows⟩ := known
      obtain ⟨s, member, -⟩ := files.complete base t there knows
      cases member
  subst is
  obtain ⟨s, is⟩ := Option.isSome_iff_exists.1 (current r rfl)
  have sessions : r.sessions = s :: r.archived := by simp [Record.sessions, is]
  have files' : l.Files side (s :: r.archived) := sessions ▸ files
  obtain ⟨t, k, e, found, turns, holds⟩ := files'.tracked s List.mem_cons_self
  exact ⟨r, s, t, k, e, held, is, files', found, turns, holds⟩

theorem Covers.sent_lt_last (h : l.Covers couple base t) {limits : Limits}
    (room : l.sends < limits.maxSkip.toNat) (k : Nat) : t.dialogue.sent k < lastIndex.toNat := by
  have le := h.sent k
  have most : limits.maxSkip.toNat ≤ lastIndex.toNat := Nat.le_of_lt_succ limits.maxSkip.toNat_lt
  omega

theorem Agrees.send_oversized (h : l.Agrees couple st) {E : Type}
    (known : ∃ base t, l.talks base = some t ∧ t.Known side)
    (room : l.sends < (couple.limits side).maxSkip.toNat) {plaintext : Bytes}
    (long : P.maxPlaintext < plaintext.length) (source : E) :
    Fails ((couple.conversation side).encrypt plaintext) (st side) source (.ofCrypto .encryption)
      (st side) source := by
  obtain ⟨r, s, t, k, e, held, is, -, found, turns, holds⟩ := h.current known
  have covers := h.covers _ t found
  exact (couple.conversation side).encrypt_refused held is
    ((h.describes side).trusts covers holds turns)
    (holds.encrypt_oversized (covers.sent_lt_last room k) long)

theorem Agrees.send (h : l.Agrees couple st) {E : Type}
    (known : ∃ base t, l.talks base = some t ∧ t.Known side)
    (room : l.sends < (couple.limits side).maxSkip.toNat) {plaintext : Bytes}
    (fits : plaintext.length ≤ P.maxPlaintext) (source : E) :
    ∃ letter t e store, letter.plaintext = plaintext ∧
      Sends couple l st side source letter t e store := by
  have describes := h.describes side
  obtain ⟨r, s, t, k, e, held, is, files', found, turns, holds⟩ := h.current known
  have covers := h.covers _ t found
  have short := covers.sent_lt_last room k
  have bound : lastIndex.toNat < 2 ^ 32 := by decide
  obtain ⟨s', encrypted, holds'⟩ := holds.encrypt short fits
  have inside : k < t.dialogue.epochs.length := (List.getElem?_eq_some_iff.1 holds.epoch).1
  have counted : (UInt32.ofNat (t.dialogue.sent k)).toNat = t.dialogue.sent k := by
    rw [UInt32.toNat_ofNat']
    omega
  have later := t.later_send k
  have base : s'.baseKey = s.baseKey := holds'.baseKey.trans holds.baseKey.symm
  have moved : ((l.pass [] 1 0).put s.baseKey (t.withDialogue (t.dialogue.send k))).Files side
      (s' :: r.archived) :=
    Files.put (t := t.withDialogue _) [] (files'.of_talks rfl) rfl base turns holds'
  refine ⟨⟨s.baseKey, k, .ofNat (t.dialogue.sent k), plaintext⟩, t, e,
    (st side).saveRecord (couple.address side.other) { r with current := some s' }, rfl, found,
    holds.epoch, turns, fits, counted, ⟨r, s, held, is, holds.sealing (by omega)⟩, ?_, ?_⟩
  · exact (couple.conversation side).encrypt_does held is (describes.trusts covers holds turns)
      encrypted
  · have more := l.bounds_pass [] 1 0
    refine h.put found later (covers.send inside more (Nat.le_refl _)) (fun e₁ member => .inl member)
      (fun _ _ => List.not_mem_nil) ?_ (fun others filed => ?_) (fun one => one)
    · exact describes.saveRecord found later (fun one => one) rfl
        (by simpa [Record.sessions] using moved)
    · refine filed.of_keeps found (put_self _ _ _) (fun other away => put_of_ne _ _ away)
        (fun knows => knows) fun j e₁ s₁ turns₁ holds₁ => ⟨turns₁, holds₁.of_send ?_⟩
      rintro rfl
      exact side.other_ne (turns₁.symm.trans turns)

end Ledger

end RatchetSession
