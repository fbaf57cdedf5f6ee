import RatchetSession.Simulation.Correspondence
import RatchetSession.Proofs.Conversation.Establish
import RatchetSession.Proofs.Correspondence.Outbox
import RatchetSession.Proofs.Entropy.Recorder
import RatchetSession.Proofs.Handshake.Agreement
import RatchetSession.Proofs.Session.Genuine
set_option autoImplicit false

/-!
A correspondence follows a dialogue: each side attends it, or waits for its first message,
and what was sent and opened are the dialogue's messages. Every move keeps it so.
-/

namespace RatchetSession

open Handshake (Awaits)

variable {P : Suite}

/-- The keys that were drawn belong together, the responder has them, and the limits leave room. -/
structure Meeting.Valid (c : Meeting P) : Prop where
  signed : c.signed.keyPair.Valid P
  oneTime : ∀ key ∈ c.oneTime, key.keyPair.Valid P
  signedHeld : c.store.signedPreKeys.find? c.signed.id = some c.signed
  oneTimeHeld : ∀ key ∈ c.oneTime, c.store.preKeys.find? key.id = some key
  limits : ∀ side, (c.limits side).validate = .ok ()

def Dialogue.HeardBefore (d : Dialogue P) (k : Nat) (key : PublicKey) : Prop :=
  ∃ (j : Nat) (e : Epoch), j < k ∧ turn j ≠ turn k ∧ d.epochs[j]? = some e ∧ e.key P = key

theorem Dialogue.heardBefore_grow {d : Dialogue P} {k : Nat} {e' : Epoch}
    (last : d.epochs.length = k + 2) (there : d.epochs[k + 1]? = some e') (e₂ : Epoch)
    (key : PublicKey) :
    (d.grow e₂).HeardBefore (k + 2) key ↔ d.HeardBefore k key ∨ key = e'.key P := by
  have old : ∀ {j : Nat}, j < k + 2 → (d.grow e₂).epochs[j]? = d.epochs[j]? := fun lt =>
    List.getElem?_append_left (by omega)
  constructor
  · rintro ⟨j, e, lt, turns, held, rfl⟩
    rw [old lt] at held
    rw [turn_add_two] at turns
    have away : j ≠ k := fun same => turns (congrArg turn same)
    rcases Nat.lt_or_ge j k with before | after
    · exact .inl ⟨j, e, before, turns, held, rfl⟩
    · obtain rfl : j = k + 1 := by omega
      cases held.symm.trans there
      exact .inr rfl
  · rintro (⟨j, e, lt, turns, held, is⟩ | rfl)
    · exact ⟨j, e, by omega, by rwa [turn_add_two], (old (by omega)).trans held, is⟩
    · exact ⟨k + 1, e', by omega, turn_ne_succ (k + 1), (old (by omega)).trans there, rfl⟩

structure Meeting.Proceeds (c : Meeting P) (d : Dialogue P) : Prop where
  initiator : d.initiator = c.initiator.key P
  responder : d.responder = c.responder.key P
  sound : d.Sound
  settled : ∀ (k : Nat) (e : Epoch), d.epochs[k + 2]? = some e → e.previous.toNat = d.sent k
  first : ∀ (k : Nat) (e : Epoch), k < 2 → d.epochs[k]? = some e → e.previous = 0
  whole : ∀ k, d.sent k ≤ lastIndex.toNat
  signed : ∀ e, d.epochs[0]? = some e → e.peer = c.signed.keyPair.publicKey

namespace Meeting.Proceeds

variable {c : Meeting P} {d : Dialogue P} {k : Nat} {e : Epoch}

theorem sent_lt (h : c.Proceeds d) (k : Nat) : d.sent k < 2 ^ 32 :=
  Nat.lt_of_le_of_lt (h.whole k) lastIndex.toNat_lt

theorem send (h : c.Proceeds d) (inside : k < d.epochs.length) (latest : d.epochs.length ≤ k + 2)
    (room : d.sent k < lastIndex.toNat) : c.Proceeds (d.send k) := by
  refine { h with sound := h.sound.send inside, settled := fun j e there => ?_, whole := fun j => ?_ }
  · have before := (List.getElem?_eq_some_iff.1 there).1
    have away : j ≠ k := fun same => absurd before (by subst same; exact Nat.not_lt.2 latest)
    simp only [Dialogue.send, if_neg away]
    exact h.settled j e there
  · have whole := h.whole j
    simp only [Dialogue.send]
    split
    · rename_i same
      subst same
      exact room
    · exact whole

theorem hear (h : c.Proceeds d) (followed : k + 1 < d.epochs.length) {counter : UInt32}
    (was : counter.toNat < d.sent k) : c.Proceeds (d.hear k counter) :=
  { h with sound := h.sound.hear followed was }

theorem grow (h : c.Proceeds d) {e' : Epoch} (last : d.epochs.length = k + 1)
    (there : d.epochs[k]? = some e) (next : e.Next P e')
    (fresh : ∀ j e₁, turn j = turn (k + 1) → d.epochs[j]? = some e₁ → e₁.key P ≠ e'.key P)
    (previous : ∀ i, k = i + 1 → e'.previous = .ofNat (d.sent i)) (first : k = 0 → e'.previous = 0) :
    c.Proceeds (d.grow e') := by
  have announced : ∀ i, k = i + 1 → e'.previous.toNat = d.sent i := by
    intro i same
    rw [previous i same, UInt32.toNat_ofNat']
    exact Nat.mod_eq_of_lt (h.sent_lt i)
  refine { h with
    sound := h.sound.grow last there next fresh fun i same => Nat.le_of_eq (announced i same)
    settled := fun j e₁ held => ?_
    first := fun j e₁ small held => ?_
    signed := fun e₁ held => ?_ }
  · rcases getElem?_concat_eq_some.1 held with held | ⟨at_end, rfl⟩
    · exact h.settled j e₁ held
    · exact announced j (by omega)
  · rcases getElem?_concat_eq_some.1 held with held | ⟨at_end, rfl⟩
    · exact h.first j e₁ small held
    · exact first (by omega)
  · rcases getElem?_concat_eq_some.1 held with held | ⟨at_end, rfl⟩
    · exact h.signed e₁ held
    · omega

end Meeting.Proceeds

structure Seated (d : Dialogue P) (k : Nat) (e : Epoch) (s : Session P) (station : Station P) :
    Prop where
  session : station.session = some s
  attends : Attends d k e s
  heard : ∀ key, key ∈ station.heard ↔ d.HeardBefore k key
  newest : 0 < k → s.remoteKeys.getLast? = some e.peer

/-- A side attends the dialogue in one of its own epochs, or it is the responder and has not opened
anything yet. -/
inductive Sits (c : Meeting P) (d : Dialogue P) (side : Origin) (station : Station P) : Prop where
  | waits {e : Epoch} (responder : side = .responder) (none : station.session = none)
      (deaf : station.heard = []) (awaits : Awaits d e c.responder c.signed c.oneTime)
  | seated {k : Nat} {e : Epoch} {s : Session P} (own : turn k = side)
      (seated : Seated d k e s station)

namespace Seated

variable {d d' : Dialogue P} {k : Nat} {e : Epoch} {s : Session P} {station : Station P}

theorem of_attends (h : Seated d k e s station) (attends : Attends d' k e s)
    (epochs : ∀ j, j < k → d'.epochs[j]? = d.epochs[j]?) : Seated d' k e s station := by
  refine ⟨h.session, attends, fun key => (h.heard key).trans ?_, h.newest⟩
  constructor
  · rintro ⟨j, e', lt, turns, there, is⟩
    exact ⟨j, e', lt, turns, (epochs j lt).trans there, is⟩
  · rintro ⟨j, e', lt, turns, there, is⟩
    exact ⟨j, e', lt, turns, (epochs j lt).symm.trans there, is⟩

theorem of_put {d : Dialogue P} {k : Nat} {e : Epoch} {s : Session P} {station station' : Station P}
    (session : station'.session = some s) (heard : station'.heard = station.heard ++ s.remoteKeys)
    (attends : Attends d k e s) (past : ∀ key ∈ station.heard, d.HeardBefore k key)
    (all : ∀ key, d.HeardBefore k key → key ∈ station.heard ∨ key ∈ s.remoteKeys)
    (newest : 0 < k → s.remoteKeys.getLast? = some e.peer) : Seated d k e s station' := by
  refine ⟨session, attends, fun key => ?_, newest⟩
  rw [heard, List.mem_append]
  refine ⟨fun either => either.elim (past key) fun member => ?_, all key⟩
  obtain ⟨chain, held, rfl⟩ := List.mem_map.1 member
  obtain ⟨j, e', lt, turns, there, remote, -⟩ := attends.chains chain held
  exact ⟨j, e', lt, turns, there, remote.symm⟩

end Seated

theorem Sits.of_send {c : Meeting P} {d : Dialogue P} {side : Origin} {station : Station P}
    (h : Sits c d side station) {i : Nat} (other : turn i ≠ side) : Sits c (d.send i) side station := by
  cases h with
  | waits responder none deaf awaits =>
    exact .waits responder none deaf
      ⟨awaits.epochs, awaits.peer, awaits.signedPreKeyId, awaits.preKeyId, awaits.derived⟩
  | seated own seated =>
    have away : i ≠ _ := fun same => other ((congrArg turn same).trans own)
    exact .seated own (seated.of_attends (seated.attends.of_send away) fun _ _ => rfl)

theorem Sits.of_hear {c : Meeting P} {d : Dialogue P} {side : Origin} {station : Station P}
    (h : Sits c d side station) {i : Nat} (own : turn i = side) (counter : UInt32) :
    Sits c (d.hear i counter) side station := by
  cases h with
  | waits responder none deaf awaits =>
    exact .waits responder none deaf
      ⟨awaits.epochs, awaits.peer, awaits.signedPreKeyId, awaits.preKeyId, awaits.derived⟩
  | seated turns seated =>
    exact .seated turns
      (seated.of_attends (seated.attends.of_hear (own.trans turns.symm) counter) fun _ _ => rfl)

theorem Sits.of_grow {c : Meeting P} {d : Dialogue P} {side : Origin} {station : Station P}
    (h : Sits c d side station) (other : turn d.epochs.length ≠ side) (e' : Epoch) :
    Sits c (d.grow e') side station := by
  cases h with
  | waits responder none deaf awaits =>
    rw [awaits.epochs, responder] at other
    exact absurd rfl other
  | @seated k e s own seated =>
    have inside := (List.getElem?_eq_some_iff.1 seated.attends.epoch).1
    have latest := seated.attends.latest
    have away : d.epochs.length ≠ k + 2 := fun same => other (by rw [same, turn_add_two, own])
    exact .seated own (seated.of_attends (seated.attends.of_grow (by omega) e') fun i lt =>
      List.getElem?_append_left (by omega))

theorem Attends.fits_of_hasRoom {d : Dialogue P} {k : Nat} {e e₁ : Epoch} {s : Session P}
    {limits : Limits} {heard : List PublicKey} {counter : UInt32} {plaintext : Bytes}
    (h : Attends d k e s) (sound : d.Sound) (there : d.epochs[k + 1]? = some e₁)
    (room : s.hasRoom limits heard (d.message (k + 1) e₁ counter plaintext) = true) :
    ∀ prior, s.chain? e.peer = some prior →
      prior.skipped.size + (e₁.previous.toNat - prior.index.toNat) ≤ limits.maxMessageKeys := by
  intro prior found
  have peer : s.sending.remoteKey = e.peer := by rw [h.sending]
  simp only [Session.hasRoom, Dialogue.message, h.unheard_next sound there, peer, found,
    Option.all_some, Bool.and_eq_true] at room
  exact of_decide_eq_true room.2

variable {E : Type}

/-- The correspondence follows the dialogue. -/
structure Corresponds (c : Meeting P) (d : Dialogue P) (x : Correspondence P (Recorder E)) :
    Prop where
  proceeds : c.Proceeds d
  drawn : ∀ e ∈ d.epochs, e.key P ∈ x.source.keys P
  sits : ∀ side, Sits c d side (x.station side)
  outbox : ∀ side, Outbox d side (x.station side).sent (x.station side.other).opened

namespace Corresponds

variable {c : Meeting P} {d d' : Dialogue P} {x : Correspondence P (Recorder E)} {side : Origin}
  {k : Nat} {e : Epoch} {s s' : Session P}

theorem of_source (h : Corresponds c d x) {source : Recorder E} (grew : x.source.Grew source) :
    Corresponds c d { x with source := source } :=
  { h with drawn := fun e member => grew.keys.subset (h.drawn e member) }

theorem of_set {station : Station P} {source : Recorder E} (proceeds : c.Proceeds d')
    (drawn : ∀ e ∈ d'.epochs, e.key P ∈ source.keys P) (own : Sits c d' side station)
    (their : Sits c d' side.other (x.station side.other))
    (sent : Outbox d' side station.sent (x.station side.other).opened)
    (opened : Outbox d' side.other (x.station side.other).sent station.opened) :
    Corresponds c d' { x.set side station with source := source } := by
  have here : (x.set side station).station side = station := Function.update_self _ _ _
  have there : (x.set side station).station side.other = x.station side.other :=
    Function.update_of_ne side.other_ne _ _
  refine ⟨proceeds, drawn, fun other => ?_, fun other => ?_⟩
  all_goals
    by_cases same : other = side
    · subst same
      dsimp only
      rw [here]
      first | exact own | exact there.symm ▸ sent
    · obtain rfl : other = side.other := Origin.eq_other same
      dsimp only
      rw [there]
      first | exact their | (rw [side.other_other, here]; exact opened)

theorem outbox_other (h : Corresponds c d x) (side : Origin) :
    Outbox d side.other (x.station side.other).sent (x.station side).opened := by
  have their := h.outbox side.other
  rwa [side.other_other] at their

theorem send (h : Corresponds c d x) (own : turn k = side)
    (seated : Seated d k e s (x.station side)) {plaintext : Bytes} {message : Message}
    (ok : s.encrypt plaintext = .ok (message, s')) :
    Corresponds c (d.send k) (x.set side ((x.station side).post (plaintext, message) s')) := by
  have attends := seated.attends
  have room : d.sent k < lastIndex.toNat := by
    refine Nat.lt_of_le_of_ne (h.proceeds.whole k) fun last => ?_
    rw [attends.encrypt_exhausted last] at ok
    cases ok
  have fits := Session.fits_of_encrypt ok
  obtain ⟨s₁, sealed, attends', receiving⟩ := attends.encrypt room fits
  cases ok.symm.trans sealed
  have keys : s'.remoteKeys = s.remoteKeys := by rw [Session.remoteKeys, receiving, Session.remoteKeys]
  have inside := (List.getElem?_eq_some_iff.1 attends.epoch).1
  have other : turn k ≠ side.other := own ▸ side.other_ne.symm
  refine of_set (h.proceeds.send inside attends.latest room) h.drawn (.seated own (.of_put rfl rfl
    attends' (fun key => (seated.heard key).1) (fun key heard => .inl ((seated.heard key).2 heard))
    ?_)) ((h.sits _).of_send other) ?_ ((h.outbox_other side).of_send other)
  · rw [keys]
    exact seated.newest
  · exact (h.outbox side).send h.proceeds.sound own attends.epoch (h.proceeds.sent_lt k) fits

section Deliver

variable {e' : Epoch} {j n : Nat} {item : Bytes × Message} {counter : UInt32} {opened : Bytes}
  {source : Recorder E}

variable [Randomness E]

theorem hear (laws : P.Lawful) (h : Corresponds c d x) (own : turn k = side)
    (seated : Seated d k e s (x.station side))
    (held : (x.station side.other).sent[n]? = some item) (their : turn j = side.other)
    (letter : Missive d item j e' counter) (lt : j < k)
    (room : s.hasRoom (c.limits side) (x.station side).heard item.2.inner = true)
    (ok : s.decrypt (c.limits side) item.2.inner x.source = .ok (opened, s') source) :
    Corresponds c (d.hear j counter)
      { x.set side ((x.station side).collect n s') with source := source } := by
  have attends := seated.attends
  have turns : turn j ≠ turn k := by
    rw [their, own]
    exact side.other_ne
  rw [letter.inner_eq] at ok room
  have heard : e'.key P ∈ (x.station side).heard :=
    (seated.heard _).2 ⟨j, e', lt, turns, letter.epoch, rfl⟩
  cases found : s.chain? (e'.key P) with
  | none =>
    simp only [Session.hasRoom, Dialogue.message, found, Bool.and_eq_true, Bool.not_eq_true',
      List.contains_eq_mem, decide_eq_false_iff_not] at room
    exact absurd heard room.1
  | some chain =>
    simp only [Session.hasRoom, Dialogue.message, found] at room
    obtain ⟨-, -, rfl, attends', keys⟩ := attends.of_decrypt laws.commutes
      (h.proceeds.sound.distinctBefore k) lt turns letter.epoch found letter.was letter.fits
      (of_decide_eq_true room) ok
    have inside := (List.getElem?_eq_some_iff.1 attends.epoch).1
    refine of_set (h.proceeds.hear (by omega) letter.was) h.drawn (.seated own (.of_put rfl rfl
      attends' (fun key => (seated.heard key).1) (fun key heard => .inl ((seated.heard key).2 heard))
      ?_)) ((h.sits _).of_hear their counter)
      ((h.outbox side).of_hear (by rw [their]; exact side.other_ne) counter)
      ((h.outbox_other side).hear h.proceeds.sound held their letter)
    rw [keys]
    exact seated.newest

theorem collect_grown (h : Corresponds c d x) (own : turn d.epochs.length = side)
    (held : (x.station side.other).sent[n]? = some item) (their : turn j = side.other)
    (letter : Missive d item j e' counter) {e₂ : Epoch} (proceeds : c.Proceeds (d.grow e₂))
    (draw : Randomness.draw 32 x.source = .ok e₂.seed source)
    (seated : Seated ((d.grow e₂).hear j counter) d.epochs.length e₂ s'
      ((x.station side).collect n s')) :
    Corresponds c ((d.grow e₂).hear j counter)
      { x.set side ((x.station side).collect n s') with source := source } := by
  have unsent : d.sent d.epochs.length = 0 := h.proceeds.sound.unsent _ (Nat.le_refl _)
  have inside := (List.getElem?_eq_some_iff.1 letter.epoch).1
  have length : (d.grow e₂).epochs.length = d.epochs.length + 1 := by simp [Dialogue.grow]
  have away : turn d.epochs.length ≠ side.other := own ▸ side.other_ne.symm
  have fresh : ∀ i e₁, turn i = turn d.epochs.length → d.epochs[i]? = some e₁ →
      e₁.key P ≠ e₂.key P := by
    intro i e₁ turns there same
    have before := (List.getElem?_eq_some_iff.1 there).1
    have place := proceeds.sound.distinct i d.epochs.length e₁ e₂ turns
      (getElem?_concat_eq_some.2 (.inl there)) (getElem?_concat_eq_some.2 (.inr ⟨rfl, rfl⟩)) same
    omega
  refine of_set (proceeds.hear (by omega) letter.was) (fun e₁ member => ?_) (.seated own seated)
    (((h.sits _).of_grow away e₂).of_hear their counter)
    (((h.outbox side).grow unsent fresh own).of_hear (by rw [their]; exact side.other_ne) counter)
    (((h.outbox_other side).of_grow away).hear proceeds.sound held their (letter.of_grow e₂))
  rcases List.mem_append.1 member with old | new
  · rw [Recorder.keys_of_draw draw]
    exact List.mem_append_left _ (h.drawn e₁ old)
  · cases List.mem_singleton.1 new
    exact Recorder.mem_keys_of_draw draw

theorem grow (laws : P.Lawful) (valid : c.Valid) (h : Corresponds c d x) (own : turn k = side)
    (seated : Seated d k e s (x.station side))
    (held : (x.station side.other).sent[n]? = some item) (letter : Missive d item (k + 1) e' counter)
    (room : s.hasRoom (c.limits side) (x.station side).heard item.2.inner = true)
    (ok : s.decrypt (c.limits side) item.2.inner x.source = .ok (opened, s') source)
    (distinct : (source.keys P).Nodup) :
    ∃ e₂, Corresponds c ((d.grow e₂).hear (k + 1) counter)
      { x.set side ((x.station side).collect n s') with source := source } := by
  have attends := seated.attends
  have last := attends.length_of_next letter.epoch
  have their : turn (k + 1) = side.other := by rw [turn_succ, own]
  rw [letter.inner_eq] at ok room
  have space := attends.fits_of_hasRoom h.proceeds.sound letter.epoch room
  obtain ⟨e₂, draw, next, previous, -, attends', keys, -⟩ := attends.of_decrypt_next laws
    (valid.limits side) h.proceeds.sound last letter.epoch letter.was letter.fits space
    (h.proceeds.sent_lt k) ok
  have fresh : ∀ j e₁, turn j = turn (k + 2) → d.epochs[j]? = some e₁ → e₁.key P ≠ e₂.key P := by
    intro j e₁ _ there same
    have drawn := h.drawn e₁ (List.mem_of_getElem? there)
    rw [same] at drawn
    exact Recorder.fresh_of_draw draw distinct drawn
  have proceeds : c.Proceeds (d.grow e₂) := by
    refine h.proceeds.grow last letter.epoch next fresh (fun i same => ?_) fun zero => by omega
    obtain rfl : k = i := by omega
    exact previous
  have heard := d.heardBefore_grow last letter.epoch e₂
  have newest : s'.remoteKeys.getLast? = some (e'.key P) := by
    obtain ⟨most, many⟩ := Nat.exists_eq_succ_of_ne_zero
      (Nat.ne_of_gt (Limits.validate_eq_ok (valid.limits side)).1)
    rw [keys, many, List.rtake_concat_succ, List.getLast?_concat]
  refine ⟨e₂, h.collect_grown (by rw [last, turn_add_two, own]) held their letter proceeds draw ?_⟩
  rw [last]
  refine .of_put rfl rfl attends' (fun key member => (heard key).2 (.inl ((seated.heard key).1 member)))
    (fun key before => ((heard key).1 before).imp (seated.heard key).2 ?_)
    fun _ => by rw [newest, next.peer]
  rintro rfl
  exact List.mem_of_getLast? newest

end Deliver

end Corresponds

end RatchetSession
