import RatchetSession.Proofs.Conversation.Establish
import RatchetSession.Proofs.Correspondence.Course
set_option autoImplicit false

namespace RatchetSession

open RatchetSession.Computation (Keeps)

variable {P : Suite} {E : Type} [Randomness E]

namespace Meeting

variable (c : Meeting P)

theorem receive_grew (x : Correspondence P (Recorder E)) (recipient : Origin) (message : Message) :
    x.source.Grew (Computation.endState (c.receive x recipient message)) := by
  unfold receive
  split
  · exact Recorder.decrypt_grew _ _ _ _
  · split
    · exact .refl _
    · rename_i initial
      have accepted := (Recorded.accept_alike (P := P) initial c.responder ⟨c.store, .none, x.source⟩ _
        ⟨.refl _, rfl⟩).related.onward.seeds
      split
      · rename_i t _ ctx made
        rw [made] at accepted
        exact accepted.trans (Recorder.decrypt_grew _ t _ _)
      · rename_i error ctx failed
        rw [failed] at accepted
        exact accepted

theorem step_grew (x : Correspondence P (Recorder E)) (move : Move) :
    x.source.Grew (c.step x move).source := by
  unfold step
  split
  · dsimp only
    split
    · exact .refl _
    · split <;> exact .refl _
  · dsimp only
    split
    · exact .refl _
    · rename_i recipient _ _ _ message _
      have grew := c.receive_grew x recipient message
      split <;> rename_i is <;> rw [is] at grew <;> exact grew

theorem run_grew (x : Correspondence P (Recorder E)) (moves : List Move) :
    x.source.Grew (c.run x moves).source := by
  induction moves generalizing x with
  | nil => exact .refl _
  | cons move rest ih => exact (c.step_grew x move).trans (ih _)

end Meeting

namespace Handshake

variable {d : Dialogue P} {e : Epoch} {responder : Identity} {signed : SignedPreKey}
  {oneTime : Option PreKey} {store : Store P} {source : E}

theorem accept_holds (sound : d.Sound) (awaits : Awaits d e responder signed oneTime)
    (own : d.responder = responder.key P)
    (signedHeld : store.signedPreKeys.find? signed.id = some signed)
    (oneTimeHeld : ∀ key ∈ oneTime, store.preKeys.find? key.id = some key)
    {message : InitialMessage} (sender : message.identityKey = d.initiator.bytes)
    (base : message.baseKey = e.key P) (signedId : message.signedPreKeyId = signed.id)
    (named : message.preKeyId = oneTime.map (·.id)) {t : Session P} {id : Option UInt32}
    {ctx : Context P E} (ok : accept message responder ⟨store, .none, source⟩ = .ok (t, id) ctx) :
    ∃ e₁, Randomness.draw 32 source = .ok e₁.seed ctx.source ∧ e₁.previous = 0 ∧ e.Next P e₁ ∧
      Holds (d.grow e₁) 1 e₁ t ∧
      t.receiving = [.new (e.key P) signed.keyPair.publicKey ⟨e.start, 0⟩] := by
  obtain ⟨remote, signed', oneTime', identified, -, held, there, built⟩ := accept_eq_ok ok
  obtain rfl : remote = d.initiator :=
    IdentityKey.ext ((senderIdentity_bytes identified).trans sender)
  rw [signedId] at held
  cases signedHeld.symm.trans held
  obtain rfl : oneTime = oneTime' := by
    rw [named] at there
    cases oneTime with
    | none => cases oneTime' <;> first | rfl | cases there
    | some key =>
      simp only [Option.map_some, oneTimeHeld key rfl] at there
      cases oneTime' <;> cases there
      rfl
  obtain ⟨seed, -, secret, draw, -, agreed, -⟩ := incoming_parts built
  rw [base] at agreed
  obtain ⟨s, e₁, made, rfl, previous, next, holds, chains⟩ :=
    incoming_holds sound awaits own base draw (agree?_of_agree agreed)
  cases built.symm.trans made
  exact ⟨e₁, draw, previous, next, holds, chains⟩

end Handshake

namespace Corresponds

variable {c : Meeting P} {d : Dialogue P} {x : Correspondence P (Recorder E)}

theorem exists_of_begin (laws : P.Lawful) (valid : c.Valid) {source : Recorder E}
    (begun : c.begin source = .ok x) : ∃ d, Corresponds c d x := by
  unfold Meeting.begin at begun
  split at begun
  · rename_i s source' made
    cases begun
    obtain ⟨e, draw, holds, awaits⟩ :=
      Handshake.outgoing_holds laws.commutes valid.signed valid.oneTime made
    have previous : s.previousCounter = 0 := by
      obtain ⟨_, _, -, -, rfl⟩ := Handshake.outgoing_parts made
      rfl
    have small : ∀ {k : Nat} {e' : Epoch}, [e][k]? = some e' → k = 0 ∧ e' = e := by
      intro k e' there
      obtain ⟨inside, is⟩ := List.getElem?_eq_some_iff.1 there
      obtain rfl : k = 0 := Nat.lt_one_iff.1 inside
      exact ⟨rfl, is.symm⟩
    refine ⟨_, of_set ⟨rfl, rfl, Handshake.opening_sound _ _ _ _ e,
        fun k e' there => absurd (small there).1 (Nat.succ_ne_zero _),
        fun k e' _ there => ?_, fun _ => Nat.zero_le _, fun e' there => ?_⟩
      (fun e' member => ?_) (.seated rfl (.of_put rfl rfl holds.toAttends
        (fun key member => nomatch member)
        (fun key ⟨j, _, lt, _⟩ => absurd lt (Nat.not_lt_zero j))
        fun positive => absurd positive (Nat.lt_irrefl 0)))
      (.waits rfl rfl rfl awaits) (.empty fun _ => rfl) (.empty fun _ => rfl)⟩
    · rw [(small there).2, ← holds.previous, previous]
    · rw [(small there).2, awaits.peer]
    · cases List.mem_singleton.1 member
      exact Recorder.mem_keys_of_draw draw
  · cases begun

theorem collect_first (laws : P.Lawful) (valid : c.Valid) (h : Corresponds c d x) {e : Epoch}
    (deaf : (x.station .responder).heard = [])
    (awaits : Handshake.Awaits d e c.responder c.signed c.oneTime) {n : Nat}
    {item : Bytes × Message} (held : (x.station .initiator).sent[n]? = some item)
    {t s' : Session P} {id : Option UInt32} {initial : InitialMessage} (is : item.2 = .initial initial)
    {ctx : Context P (Recorder E)}
    (accepted : Handshake.accept initial c.responder ⟨c.store, .none, x.source⟩ = .ok (t, id) ctx)
    {opened : Bytes} {source : Recorder E}
    (ok : t.decrypt (c.limits .responder) initial.message ctx.source = .ok (opened, s') source) :
    ∃ d', Corresponds c d'
      { x.set .responder ((x.station .responder).collect n s') with source := source } := by
  obtain ⟨k, e₀, counter, turns, letter, -⟩ := (h.outbox_other .responder).letters n item held
  have first : d.epochs[0]? = some e := by rw [awaits.epochs]; rfl
  have length : d.epochs.length = 1 := by rw [awaits.epochs]; rfl
  obtain rfl : k = 0 := by
    have inside := (List.getElem?_eq_some_iff.1 letter.epoch).1
    omega
  cases letter.epoch.symm.trans first
  obtain rfl : initial = ⟨d.initiator.bytes, d.pending.baseKey, d.pending.signedPreKeyId,
      d.pending.preKeyId, d.message 0 e counter item.1⟩ :=
    Message.initial.inj (is.symm.trans letter.is)
  have own : d.responder = c.responder.key P := h.proceeds.responder
  obtain ⟨e₁, draw, previous, next, holds, chains⟩ := Handshake.accept_holds h.proceeds.sound awaits
    own valid.signedHeld valid.oneTimeHeld rfl (h.proceeds.sound.base e first).symm
    awaits.signedPreKeyId awaits.preKeyId accepted
  have attends := holds.toAttends
  have found : t.chain? (e.key P) = some (.new (e.key P) c.signed.keyPair.publicKey ⟨e.start, 0⟩) := by
    simp [Session.chain?, chains, ReceivingChain.new]
  obtain ⟨ready, followed, received⟩ := Session.decrypt_parts ok
  cases followed.symm.trans (Attends.follow_heard found 0 counter item.1 ctx.source)
  have proceeds : c.Proceeds (d.grow e₁) :=
    h.proceeds.grow length first next
      (fun j e₂ turns there => by
        have inside := (List.getElem?_eq_some_iff.1 there).1
        obtain rfl : j = 0 := by omega
        exact absurd turns (by decide))
      (fun i same => absurd same (Nat.succ_ne_zero i).symm) fun _ => previous
  obtain ⟨-, -, attends', keys, -⟩ := attends.of_receive laws.commutes
    (proceeds.sound.distinctBefore 1) Nat.zero_lt_one (by decide) (letter.of_grow e₁).epoch found
    letter.was letter.fits (Session.fits_of_receive (valid.limits .responder) found rfl received)
    received
  have remote : s'.remoteKeys = [e.key P] := by
    rw [keys, Session.remoteKeys, chains]
    rfl
  refine ⟨_, h.collect_grown (by rw [length]; rfl) held rfl letter proceeds draw ?_⟩
  rw [length]
  refine .of_put rfl rfl attends' (by simp [deaf]) (fun key before => .inr ?_)
    fun _ => by rw [remote, next.peer]; rfl
  obtain ⟨j, e₂, lt, -, there, rfl⟩ := before
  obtain rfl : j = 0 := by omega
  cases there.symm.trans (letter.of_grow e₁).epoch
  rw [remote]
  exact List.mem_singleton_self _

theorem collect (laws : P.Lawful) (valid : c.Valid) (h : Corresponds c d x) {recipient : Origin}
    {number : Nat} {item : Bytes × Message}
    (held : (x.station recipient.other).sent[number]? = some item)
    (allowed : c.allows x (.deliver recipient number) = true) {opened : Bytes} {s' : Session P}
    {source : Recorder E} (ok : c.receive x recipient item.2 = .ok (opened, s') source)
    (distinct : (source.keys P).Nodup) :
    ∃ d', Corresponds c d'
      { x.set recipient ((x.station recipient).collect number s') with source := source } := by
  cases h.sits recipient with
  | waits responder none deaf awaits =>
    subst responder
    simp only [Meeting.receive, none] at ok
    split at ok
    · cases ok
    · rename_i initial is
      split at ok
      · rename_i accepted
        exact h.collect_first laws valid deaf awaits held is accepted ok
      · cases ok
  | @seated k e s own seated =>
    simp only [Meeting.receive, seated.session] at ok
    simp only [Meeting.allows, held, seated.session] at allowed
    obtain ⟨j, e', counter, their, letter, -⟩ := (h.outbox_other recipient).letters number _ held
    have inside := (List.getElem?_eq_some_iff.1 letter.epoch).1
    have latest := seated.attends.latest
    have away : j ≠ k := by
      rintro rfl
      exact recipient.other_ne (their.symm.trans own)
    rcases Nat.lt_or_ge j k with before | after
    · exact ⟨_, h.hear laws own seated held their letter before allowed ok⟩
    · obtain rfl : j = k + 1 := by omega
      obtain ⟨e₂, next⟩ := h.grow laws valid own seated held letter allowed ok distinct
      exact ⟨_, next⟩

theorem step (laws : P.Lawful) (valid : c.Valid) (h : Corresponds c d x) {move : Move}
    (allowed : c.allows x move = true) (distinct : ((c.step x move).source.keys P).Nodup) :
    ∃ d', Corresponds c d' (c.step x move) := by
  cases move with
  | send sender plaintext =>
    unfold Meeting.step
    dsimp only
    cases session : (x.station sender).session with
    | none => exact ⟨d, h⟩
    | some s =>
      dsimp only
      cases sealed : s.encrypt plaintext with
      | error error => exact ⟨d, h⟩
      | ok result =>
        cases h.sits sender with
        | waits _ none =>
          rw [session] at none
          cases none
        | seated own seated =>
          cases session.symm.trans seated.session
          exact ⟨_, h.send own seated sealed⟩
  | deliver recipient number =>
    have grew := c.step_grew x (.deliver recipient number)
    unfold Meeting.step at grew distinct ⊢
    dsimp only at grew distinct ⊢
    cases held : (x.station recipient.other).sent[number]? with
    | none => exact ⟨d, h⟩
    | some item =>
      obtain ⟨plaintext, message⟩ := item
      simp only [held] at grew distinct ⊢
      cases result : c.receive x recipient message with
      | error error source =>
        simp only [result] at grew
        exact ⟨d, h.of_source grew⟩
      | ok opened source =>
        simp only [result] at distinct ⊢
        exact h.collect laws valid held allowed result distinct

/-- A whole run does, when every move keeps the limits. -/
theorem run (laws : P.Lawful) (valid : c.Valid) (h : Corresponds c d x) {moves : List Move}
    (within : c.within x moves = true) (distinct : ((c.run x moves).source.keys P).Nodup) :
    ∃ d', Corresponds c d' (c.run x moves) := by
  induction moves generalizing d x with
  | nil => exact ⟨d, h⟩
  | cons move rest ih =>
    simp only [Meeting.within, Bool.and_eq_true] at within
    obtain ⟨d₁, h₁⟩ := h.step laws valid within.1
      ((c.run_grew (c.step x move) rest).keys.sublist.nodup distinct)
    exact ih h₁ within.2 distinct

end Corresponds

end RatchetSession
