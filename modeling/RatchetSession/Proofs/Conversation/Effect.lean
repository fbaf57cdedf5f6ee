import RatchetSession.Proofs.Conversation.Establish
import RatchetSession.Proofs.Handshake.Start
import RatchetSession.Proofs.Session.Opener
set_option autoImplicit false

namespace RatchetSession

open RatchetSession.Computation (bind_eq_ok bind_of_ok bind_of_error pure_eq_ok ofExcept_eq_ok)

variable {P : Suite} {E : Type} {ctx ctx' : Context P E} {plaintext : Bytes}

namespace Conversation

variable (c : Conversation)

theorem checkCurrent_eq_ok {record : Record P} {u : Unit}
    (h : c.checkCurrent record ctx = .ok u ctx') :
    ctx'.store = ctx.store ∧ ctx'.source = ctx.source := by
  unfold checkCurrent at h
  cases held : record.current with
  | none =>
    simp only [held] at h
    obtain ⟨-, rfl⟩ := pure_eq_ok h
    exact ⟨rfl, rfl⟩
  | some s =>
    simp only [held] at h
    rw [(checkTrust_eq_ok h).2]
    exact ⟨rfl, rfl⟩

theorem encrypt_eq_ok {message : Message} (h : c.encrypt plaintext ctx = .ok message ctx') :
    ∃ r s next, ctx.store.loadRecord c.remote = .ok (some r) ∧ r.current = some s ∧
      s.encrypt plaintext = .ok (message, next) ∧
      ctx'.store.loadRecord c.remote = .ok (some { r with current := some next }) ∧
      ctx'.store.identities = ctx.store.identities := by
  obtain ⟨stored, _, asked, h⟩ := bind_eq_ok h
  obtain ⟨loaded, rfl⟩ := Action.query_eq_ok asked
  cases stored with
  | none => cases h
  | some r =>
    dsimp only at h
    cases held : r.current with
    | none =>
      simp only [held, Option.isNone_none, if_true] at h
      obtain ⟨_, _, failed, -⟩ := bind_eq_ok h
      cases failed
    | some s =>
      simp only [held, Option.isNone_some, Bool.false_eq_true, if_false] at h
      obtain ⟨_, ctx₂, checked, h⟩ := bind_eq_ok h
      obtain ⟨store, -⟩ := c.checkCurrent_eq_ok checked
      have same := congrArg Store.identities store
      obtain ⟨⟨sent, after⟩, _, encrypted, h⟩ := bind_eq_ok h
      obtain ⟨run, rfl⟩ := ofExcept_eq_ok encrypted
      obtain ⟨_, _, written, h⟩ := bind_eq_ok h
      obtain rfl := Action.storeRecord_eq_ok written
      obtain ⟨rfl, rfl⟩ := pure_eq_ok h
      unfold Record.encrypt at run
      simp only [held] at run
      split at run
      · rename_i next sealed
        cases run
        exact ⟨r, s, _, loaded, held, sealed, Store.loadRecord_saveRecord _ c.remote _, same⟩
      · cases run

/-- Why a call may fail before anything was done: the store was made to fail, or it does not trust
the identity. -/
inductive Hindered (ctx : Context P E) (key : IdentityKey P) : SessionError → Prop
  | fault {cause : StoreError} (n : Nat) (kind : StoreCall)
      (planned : ctx.faults.plan n kind = some cause) : Hindered ctx key (.store cause)
  | untrusted (refused : ctx.store.trusts c.remote key = false) :
      Hindered ctx key (.untrustedIdentity c.remote)

theorem checkTrust_cases (key : IdentityKey P) (ctx : Context P E) :
    c.checkTrust key ctx = .ok () ctx.counted ∨
      ∃ error, c.Hindered ctx key error ∧ c.checkTrust key ctx = .error error ctx.counted := by
  have asks : Action.trusts c.remote key ctx = .ok (ctx.store.trusts c.remote key) ctx.counted ∨
      ∃ cause n, ctx.faults.plan n .isTrustedIdentity = some cause ∧
        Action.trusts c.remote key ctx = .error (.store cause) ctx.counted :=
    Action.query_of_found rfl
  rcases asks with answered | ⟨cause, n, planned, failed⟩
  · unfold checkTrust
    rw [bind_of_ok answered]
    cases trusted : ctx.store.trusts c.remote key with
    | true => exact .inl rfl
    | false => exact .inr ⟨_, .untrusted trusted, rfl⟩
  · exact .inr ⟨_, .fault n _ planned, bind_of_error failed⟩

theorem encrypt_exhausted {r : Record P} {s : Session P}
    (loaded : ctx.store.loadRecord c.remote = .ok (some r)) (current : r.current = some s)
    (last : s.sending.index = lastIndex) (plaintext : Bytes) :
    ∃ error ctx', c.encrypt plaintext ctx = .error error ctx' ∧
      (error = .ofCrypto (.chainExhausted lastIndex) ∨ c.Hindered ctx s.remoteIdentity error) := by
  have refused : r.encrypt plaintext = .error (.ofCrypto (.chainExhausted lastIndex)) :=
    Record.encrypt_of_error current (Session.encrypt_exhausted last plaintext)
  have held : ¬ r.current.isNone = true := by simp [current]
  unfold encrypt
  have reads : Action.loadRecord c.remote ctx = .ok (some r) ctx.counted ∨
      ∃ cause n, ctx.faults.plan n .loadSession = some cause ∧
        Action.loadRecord c.remote ctx = .error (.store cause) ctx.counted :=
    Action.query_of_found loaded
  rcases reads with found | ⟨cause, n, planned, failed⟩
  · rw [bind_of_ok found]
    simp only [if_neg held]
    have check : c.checkCurrent r ctx.counted = c.checkTrust s.remoteIdentity ctx.counted := by
      simp only [checkCurrent, current]
    rcases c.checkTrust_cases s.remoteIdentity ctx.counted with passed | ⟨error, hindered, failed⟩
    · rw [bind_of_ok (check.trans passed), refused]
      exact ⟨_, _, rfl, .inl rfl⟩
    · rw [bind_of_error (check.trans failed)]
      refine ⟨error, _, rfl, .inr ?_⟩
      cases hindered with
      | fault n kind planned => exact .fault n kind planned
      | untrusted refused => exact .untrusted refused
  · exact ⟨_, _, bind_of_error failed, .inr (.fault n _ planned)⟩

variable [Randomness E]

theorem start_eq_ok {bundle : Bundle P} {u : Unit} (h : c.start bundle ctx = .ok u ctx') :
    ∃ s stored, Handshake.outgoing bundle ctx.store.identity ctx.source = .ok s ctx'.source ∧
      ctx.store.loadRecord c.remote = .ok stored ∧
      ctx'.store.loadRecord c.remote =
        .ok (some ((stored.getD .empty).promote s c.limits.maxArchivedStates)) ∧
      ctx.store.trusts c.remote bundle.identityKey = true ∧
      ctx'.store.identities = ctx.store.identities.insert c.remote bundle.identityKey := by
  obtain ⟨_, _, verified, h⟩ := bind_eq_ok h
  obtain ⟨-, rfl⟩ := ofExcept_eq_ok verified
  obtain ⟨_, _, checked, h⟩ := bind_eq_ok h
  obtain ⟨trusted, rfl⟩ := checkTrust_eq_ok checked
  obtain ⟨identity, _, own, h⟩ := bind_eq_ok h
  obtain ⟨found, rfl⟩ := Action.query_eq_ok own
  cases found
  obtain ⟨s, ctx₄, made, h⟩ := bind_eq_ok h
  obtain ⟨run, moved⟩ := Action.onSource_eq_ok made
  obtain ⟨record, _, read, h⟩ := bind_eq_ok h
  obtain ⟨stored, loaded, rfl, rfl⟩ := c.record_eq_ok read
  obtain ⟨_, _, saved, h⟩ := bind_eq_ok h
  obtain rfl := Action.saveIdentity_eq_ok saved
  obtain rfl := Action.storeRecord_eq_ok h
  rw [moved] at loaded ⊢
  exact ⟨s, stored, run, loaded, Store.loadRecord_saveRecord _ c.remote _, trusted, rfl⟩

/-- The record on which a message is tried, and the source then. A message whose base key is
unknown brings a session along, which is put in front. -/
inductive Tried (ctx : Context P E) : Message → Record P → E → Prop
  | ratchet {message : RatchetMessage} {r : Record P}
      (loaded : ctx.store.loadRecord c.remote = .ok (some r)) :
      Tried ctx (.ratchet message) r ctx.source
  | known {message : InitialMessage} {r : Record P}
      (loaded : ctx.store.loadRecord c.remote = .ok (some r))
      (held : r.hasBaseKey message.baseKey = true) : Tried ctx (.initial message) r ctx.source
  | unknown {message : InitialMessage} {stored : Option (Record P)} {offered : Session P}
      {tried : E} (loaded : ctx.store.loadRecord c.remote = .ok stored)
      (lacking : (stored.getD .empty).hasBaseKey message.baseKey = false)
      (offers : Offered ctx message offered tried) :
      Tried ctx (.initial message)
        ((stored.getD .empty).promote offered c.limits.maxArchivedStates) tried

theorem Offered.eq_incoming {message : InitialMessage} {offered : Session P} {tried : E}
    (h : Offered ctx message offered tried) :
    ∃ remote signed oneTime,
      Handshake.senderIdentity message = .ok remote ∧
      message.message.ratchetKey = message.baseKey ∧
      ctx.store.signedPreKeys.find? message.signedPreKeyId = some signed ∧
      message.preKeyId.map ctx.store.preKeys.find? = oneTime.map some ∧
      Handshake.incoming message remote ctx.store.identity signed oneTime ctx.source =
        .ok offered tried := by
  obtain ⟨asked, built, reads, source, accepted, rfl⟩ := h
  obtain ⟨remote, signed, oneTime, sent, same, held, named, run⟩ := Handshake.accept_eq_ok accepted
  rw [reads.store] at held named
  rw [source] at run
  exact ⟨remote, signed, oneTime, sent, same, held, named, run⟩

theorem Offered.unique {message : InitialMessage} {offered offered' : Session P} {tried tried' : E}
    (h : Offered ctx message offered tried) (h' : Offered ctx message offered' tried') :
    offered = offered' ∧ tried = tried' := by
  obtain ⟨remote, signed, oneTime, sent, -, held, named, run⟩ := h.eq_incoming
  obtain ⟨remote', signed', oneTime', sent', -, held', named', run'⟩ := h'.eq_incoming
  cases sent.symm.trans sent'
  cases held.symm.trans held'
  have same : oneTime = oneTime' :=
    Option.map_injective (fun _ _ => Option.some.inj) (named.symm.trans named')
  subst same
  cases run.symm.trans run'
  exact ⟨rfl, rfl⟩

theorem Tried.unique {message : Message} {r r' : Record P} {tried tried' : E}
    (h : c.Tried ctx message r tried) (h' : c.Tried ctx message r' tried') :
    r = r' ∧ tried = tried' := by
  cases h with
  | ratchet loaded =>
    cases h' with
    | ratchet loaded' =>
      cases loaded.symm.trans loaded'
      exact ⟨rfl, rfl⟩
  | known loaded held =>
    cases h' with
    | known loaded' held' =>
      cases loaded.symm.trans loaded'
      exact ⟨rfl, rfl⟩
    | unknown loaded' lacking offers =>
      cases loaded.symm.trans loaded'
      simp [held] at lacking
  | unknown loaded lacking offers =>
    cases h' with
    | known loaded' held' =>
      cases loaded.symm.trans loaded'
      simp [held'] at lacking
    | unknown loaded' lacking' offers' =>
      cases loaded.symm.trans loaded'
      obtain ⟨rfl, rfl⟩ := offers.unique offers'
      exact ⟨rfl, rfl⟩

theorem decryptWith_eq_ok {record : Record P} {message : RatchetMessage}
    (h : c.decryptWith record message ctx = .ok plaintext ctx') :
    ∃ after, Record.decrypt c.limits message (record, ctx.source) =
        .ok plaintext (after, ctx'.source) ∧
      ctx'.store.loadRecord c.remote = .ok (some after) ∧
      ctx'.store.identities = ctx.store.identities := by
  obtain ⟨⟨opened, after⟩, ctx₁, searched, h⟩ := bind_eq_ok h
  obtain ⟨run, moved⟩ := Action.onSource_eq_ok searched
  obtain ⟨_, ctx₂, checked, h⟩ := bind_eq_ok h
  obtain ⟨store, source⟩ := c.checkCurrent_eq_ok checked
  rw [moved] at store
  have same := congrArg Store.identities store
  obtain ⟨_, _, written, h⟩ := bind_eq_ok h
  obtain rfl := Action.storeRecord_eq_ok written
  obtain ⟨rfl, rfl⟩ := pure_eq_ok h
  refine ⟨after, ?_, Store.loadRecord_saveRecord _ c.remote after, same⟩
  rw [← source] at run
  exact Record.edit_eq_ok.1 run

/-- No identity is saved but that of a session that a message brings along, and only if it was
trusted. -/
inductive Admits (ctx ctx' : Context P E) (r : Record P) : Prop
  | held (loaded : ctx.store.loadRecord c.remote = .ok (some r))
      (same : ctx'.store.identities = ctx.store.identities)
  | offered {stored : Option (Record P)} {offered : Session P}
      (loaded : ctx.store.loadRecord c.remote = .ok stored)
      (is : r = (stored.getD .empty).promote offered c.limits.maxArchivedStates)
      (own : offered.localIdentity = ctx.store.identity.key P)
      (trusted : ctx.store.trusts c.remote offered.remoteIdentity = true)
      (saved : ctx'.store.identities =
        ctx.store.identities.insert c.remote offered.remoteIdentity)

theorem decrypt_eq_ok {message : Message} (h : c.decrypt message ctx = .ok plaintext ctx') :
    ∃ r tried after, c.Tried ctx message r tried ∧
      Record.decrypt c.limits message.inner (r, tried) = .ok plaintext (after, ctx'.source) ∧
      ctx'.store.loadRecord c.remote = .ok (some after) ∧ c.Admits ctx ctx' r := by
  cases message with
  | ratchet message =>
    obtain ⟨stored, _, asked, h⟩ := bind_eq_ok h
    obtain ⟨loaded, rfl⟩ := Action.query_eq_ok asked
    cases stored with
    | none => cases h
    | some r =>
      obtain ⟨after, run, written, same⟩ := c.decryptWith_eq_ok h
      exact ⟨r, _, after, .ratchet loaded, run, written, .held loaded same⟩
  | initial message =>
    obtain ⟨r, _, read, h⟩ := bind_eq_ok h
    obtain ⟨stored, loaded, rfl, rfl⟩ := c.record_eq_ok read
    by_cases held : (stored.getD .empty).hasBaseKey message.baseKey = true
    · rw [if_pos held] at h
      cases stored with
      | none => cases held
      | some r =>
        obtain ⟨after, run, written, same⟩ := c.decryptWith_eq_ok h
        exact ⟨r, _, after, .known loaded held, run, written, .held loaded same⟩
    · rw [if_neg held] at h
      obtain ⟨offered, tried, after, ⟨asked, built, reads, source, accepted, made⟩, run, written,
        trusted, saved, -⟩ := c.establish_run h
      have offers : Offered ctx message offered tried :=
        ⟨asked, built, (Reads.counted ctx).trans reads, source, accepted, made⟩
      obtain ⟨_, _, _, -, -, -, -, incoming⟩ := offers.eq_incoming
      obtain ⟨_, _, _, _, -, -, own⟩ := Handshake.incoming_eq_ok incoming
      exact ⟨_, tried, after, .unknown loaded (Bool.eq_false_iff.2 held) offers, run, written,
        .offered loaded rfl (congrArg Session.localIdentity own) trusted saved⟩

theorem decrypt_preKey_gone {message : InitialMessage} {stored : Option (Record P)}
    (h : c.decrypt (.initial message) ctx = .ok plaintext ctx')
    (loaded : ctx.store.loadRecord c.remote = .ok stored)
    (lacking : (stored.getD .empty).hasBaseKey message.baseKey = false)
    (removes : ∀ n, ctx.faults.plan n .removePreKey = none) :
    ∀ id, message.preKeyId = some id → ctx'.store.preKeys.find? id = none := by
  obtain ⟨r, _, read, h⟩ := bind_eq_ok h
  obtain ⟨found, same, rfl, rfl⟩ := c.record_eq_ok read
  cases loaded.symm.trans same
  rw [if_neg (by simp [lacking])] at h
  obtain ⟨_, _, _, -, -, -, -, -, removed⟩ := c.establish_run h
  exact fun id named => removed id named removes

end Conversation

end RatchetSession
