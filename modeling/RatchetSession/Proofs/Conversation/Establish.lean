import RatchetSession.Proofs.Session.Framing
import RatchetSession.Proofs.Session.Search
import RatchetSession.Proofs.Store.Calls
import RatchetSession.Proofs.Suite.Laws
import RatchetSession.Simulation.Network
set_option autoImplicit false

/-!
What an initial message with an unknown base key leaves in the record. The session that
is built from it is made current before the message is tried, but the whole record is
searched; so an older session may be the one that opens the message. The session built
then stands in the archive without having opened anything, and the one-time pre-key it
names is gone as well.
-/

namespace RatchetSession

open RatchetSession.Computation (Keeps bind_eq_ok pure_eq_ok ofExcept_eq_ok bind_of_ok)

variable {P : Suite} {E : Type} [Randomness E]

namespace Handshake

theorem incoming_start {message : InitialMessage} {remote : IdentityKey P} {identity : Identity}
    {signed : SignedPreKey} {oneTime : Option PreKey} {s : Session P} {source source' : E}
    (h : incoming message remote identity signed oneTime source = .ok s source') :
    s.baseKey = message.baseKey ∧ s.remoteIdentity = remote := by
  obtain ⟨_, _, -, h⟩ := bind_eq_ok h
  obtain ⟨_, _, -, h⟩ := bind_eq_ok h
  obtain ⟨_, _, -, h⟩ := bind_eq_ok h
  obtain ⟨rfl, -⟩ := pure_eq_ok h
  exact ⟨rfl, rfl⟩

theorem senderIdentity_bytes {message : InitialMessage} {remote : IdentityKey P}
    (h : senderIdentity message = .ok remote) : remote.bytes = message.identityKey := by
  unfold senderIdentity at h
  cases read : IdentityKey.ofBytes P message.identityKey with
  | error e => rw [read] at h; cases h
  | ok key =>
    rw [read] at h
    cases h
    exact (IdentityKey.ofBytes_eq_ok.1 read).symm

theorem accept_start {message : InitialMessage} {identity : Identity} {ctx ctx' : Context P E}
    {built : Session P × Option UInt32} (h : accept message identity ctx = .ok built ctx') :
    built.1.baseKey = message.baseKey ∧ built.1.remoteIdentity.bytes = message.identityKey := by
  obtain ⟨remote, _, sender, h⟩ := bind_eq_ok h
  obtain ⟨named, rfl⟩ := ofExcept_eq_ok sender
  split at h
  · obtain ⟨_, _, failed, -⟩ := bind_eq_ok h
    cases failed
  · obtain ⟨signed, _, -, h⟩ := bind_eq_ok h
    obtain ⟨oneTime, _, -, h⟩ := bind_eq_ok h
    obtain ⟨s, _, made, h⟩ := bind_eq_ok h
    obtain ⟨rfl, -⟩ := pure_eq_ok h
    obtain ⟨run, -⟩ := Action.onSource_eq_ok made
    obtain ⟨base, rfl⟩ := incoming_start run
    exact ⟨base, senderIdentity_bytes named⟩

end Handshake

namespace Conversation

/-- The session that an initial message and the store's pre-keys make, and the source's state when
it is first tried. -/
def Offered (ctx : Context P E) (message : InitialMessage) (offered : Session P) (tried : E) :
    Prop :=
  ∃ asked built, Reads ctx asked ∧ asked.source = ctx.source ∧
    Handshake.accept message ctx.store.identity asked = .ok (offered, message.preKeyId) built ∧
    built.source = tried

/-- The session that the message names is current, and the archive is the sessions from before. If
one of them was current, only as many of them are kept as the archive may hold. -/
def Established (limits : Limits) (before after : Record P) (message : InitialMessage) : Prop :=
  ∃ s, after.current = some s ∧ s.baseKey = message.baseKey ∧
    s.remoteIdentity.bytes = message.identityKey ∧
    after.archived =
      match before.current with
      | some _ => before.sessions.take limits.maxArchivedStates
      | none => before.sessions

/-- A session from before opened the message and is current again; the one offered is archived. -/
def Displaced (limits : Limits) (before after : Record P) (message : InitialMessage)
    (plaintext : Bytes) (offered : Session P) : Prop :=
  ∃ place older next, ∃ tried opened : E,
    (before.promote offered limits.maxArchivedStates).archived[place]? = some older ∧
    older.decrypt limits message.message tried = .ok (plaintext, next) opened ∧
    after = (before.promote offered limits.maxArchivedStates).promoteArchived place next
      limits.maxArchivedStates

theorem baseKey_of_unknown {r : Record P} {baseKey : PublicKey} {s : Session P}
    (unknown : r.hasBaseKey baseKey = false) (held : s ∈ r.sessions) : s.baseKey ≠ baseKey := by
  unfold Record.hasBaseKey at unknown
  intro same
  have differs := List.any_eq_false.1 unknown s held
  simp [same] at differs

omit [Randomness E] in
theorem checkTrust_eq_ok {c : Conversation} {key : IdentityKey P} {ctx ctx' : Context P E}
    {u : Unit} (h : c.checkTrust key ctx = .ok u ctx') :
    ctx.store.trusts c.remote key = true ∧ ctx' = ctx.counted := by
  obtain ⟨trusted, mid, asked, rest⟩ := bind_eq_ok h
  obtain ⟨told, rfl⟩ := Action.query_eq_ok asked
  cases trusted with
  | true =>
    obtain ⟨-, rfl⟩ := pure_eq_ok rest
    exact ⟨Except.ok.inj told, rfl⟩
  | false => cases rest

omit [Randomness E] in
theorem remove_eq_ok {used : Option UInt32} {plaintext answered : Bytes} {ctx ctx' : Context P E}
    (h : (match used with
      | some id => do Action.attempt (Action.removePreKey id); return plaintext
      | none => pure plaintext : Action P E Bytes) ctx = .ok answered ctx') :
    answered = plaintext ∧ ctx'.source = ctx.source ∧ ctx'.store.records = ctx.store.records ∧
      ctx'.store.identities = ctx.store.identities ∧
      ∀ id, used = some id → (∀ n, ctx.faults.plan n .removePreKey = none) →
        ctx'.store.preKeys.find? id = none := by
  cases used with
  | none =>
    obtain ⟨rfl, rfl⟩ := pure_eq_ok h
    exact ⟨rfl, rfl, rfl, rfl, fun _ named => nomatch named⟩
  | some id =>
    obtain ⟨_, mid, removed, rest⟩ := bind_eq_ok h
    obtain ⟨rfl, rfl⟩ := pure_eq_ok rest
    obtain ⟨store, attempted, outcome⟩ := Action.attempt_removePreKey id ctx
    rw [attempted] at removed
    cases removed
    refine ⟨rfl, rfl, by rcases outcome with rfl | rfl <;> rfl,
      by rcases outcome with rfl | rfl <;> rfl, ?_⟩
    rintro _ ⟨⟩ allowed
    have done : Action.removePreKey id ctx =
        .ok () { ctx.counted with store := ctx.store.removePreKey id } := by
      simp [Action.removePreKey, Action.write, Action.call, allowed, Context.counted]
    simp only [Action.attempt, done] at attempted
    cases attempted
    simp [Store.removePreKey, Table.find?_erase]

variable (c : Conversation)

/-- A successful build has searched the record with the offered session in front, has stored what
came of it and saved the sender's identity, and has tried to remove the pre-key named. -/
theorem establish_run {record : Record P} {message : InitialMessage} {ctx ctx' : Context P E}
    {plaintext : Bytes} (h : c.establish record message ctx = .ok plaintext ctx') :
    ∃ offered tried after,
      Offered ctx message offered tried ∧
      Record.decrypt c.limits message.message
        (record.promote offered c.limits.maxArchivedStates, tried) =
          .ok plaintext (after, ctx'.source) ∧
      ctx'.store.loadRecord c.remote = .ok (some after) ∧
      ctx.store.trusts c.remote offered.remoteIdentity = true ∧
      ctx'.store.identities = ctx.store.identities.insert c.remote offered.remoteIdentity ∧
      ∀ id, message.preKeyId = some id → (∀ n, ctx.faults.plan n .removePreKey = none) →
        ctx'.store.preKeys.find? id = none := by
  obtain ⟨remote, ctx₁, sender, h⟩ := bind_eq_ok h
  obtain ⟨sent, rfl⟩ := ofExcept_eq_ok sender
  obtain ⟨_, ctx₂, checked, h⟩ := bind_eq_ok h
  obtain ⟨trusted, rfl⟩ := checkTrust_eq_ok checked
  obtain ⟨identity, ctx₃, own, h⟩ := bind_eq_ok h
  obtain ⟨found, rfl⟩ := Action.query_eq_ok own
  cases found
  obtain ⟨⟨offered, used⟩, ctx₄, accepted, h⟩ := bind_eq_ok h
  have named : used = message.preKeyId := Handshake.accept_used accepted
  subst named
  have asked : Reads ctx ctx.counted.counted := (Reads.counted ctx).trans (.counted _)
  have reads := asked.trans ((Handshake.accept_reads _ _).ok accepted)
  have same : remote = offered.remoteIdentity := IdentityKey.ext
    ((Handshake.senderIdentity_bytes sent).trans (Handshake.accept_start accepted).2.symm)
  subst same
  obtain ⟨⟨opened, after⟩, ctx₅, searched, h⟩ := bind_eq_ok h
  obtain ⟨run, moved⟩ := Action.onSource_eq_ok searched
  obtain ⟨_, ctx₆, saved, h⟩ := bind_eq_ok h
  obtain rfl := Action.saveIdentity_eq_ok saved
  obtain ⟨_, ctx₇, written, h⟩ := bind_eq_ok h
  obtain rfl := Action.storeRecord_eq_ok written
  obtain ⟨rfl, source, records, identities, removed⟩ := remove_eq_ok h
  refine ⟨offered, ctx₄.source, after, ⟨_, ctx₄, asked, rfl, accepted, rfl⟩, ?_, ?_, trusted, ?_,
    ?_⟩
  · rw [source]
    exact Record.edit_eq_ok.1 run
  · rw [Store.loadRecord, records]
    exact Store.loadRecord_saveRecord _ c.remote after
  · rw [identities, moved, ← reads.store]
    rfl
  · intro id naming allowed
    refine removed id naming fun n => ?_
    rw [moved]
    exact (congrFun (congrFun reads.plan n) .removePreKey).trans (allowed n)

theorem establish_eq_ok {record : Record P} {message : InitialMessage} {ctx ctx' : Context P E}
    {plaintext : Bytes} (h : c.establish record message ctx = .ok plaintext ctx') :
    ∃ offered tried after opened,
      Offered ctx message offered tried ∧
      Record.decrypt c.limits message.message
        (record.promote offered c.limits.maxArchivedStates, tried) =
          .ok plaintext (after, opened) ∧
      ctx'.store.loadRecord c.remote = .ok (some after) ∧
      ∀ id, message.preKeyId = some id → (∀ n, ctx.faults.plan n .removePreKey = none) →
        ctx'.store.preKeys.find? id = none := by
  obtain ⟨offered, tried, after, offers, run, written, -, -, removed⟩ := c.establish_run h
  exact ⟨offered, tried, after, _, offers, run, written, removed⟩

omit [Randomness E] in
theorem record_eq_ok {ctx ctx' : Context P E} {record : Record P}
    (h : c.record ctx = .ok record ctx') :
    ∃ stored, ctx.store.loadRecord c.remote = .ok stored ∧ record = stored.getD .empty ∧
      ctx' = ctx.counted := by
  obtain ⟨stored, _, asked, h⟩ := bind_eq_ok h
  obtain ⟨found, rfl⟩ := Action.query_eq_ok asked
  obtain ⟨rfl, rfl⟩ := pure_eq_ok h
  exact ⟨stored, found, rfl, rfl⟩

theorem established_or_displaced {limits : Limits} {before after : Record P} {m : InitialMessage}
    {offered : Session P} {plaintext : Bytes} {tried opened : E}
    (unknown : before.hasBaseKey m.baseKey = false) (base : offered.baseKey = m.baseKey)
    (sender : offered.remoteIdentity.bytes = m.identityKey)
    (run : Record.decrypt limits m.message
      (before.promote offered limits.maxArchivedStates, tried) = .ok plaintext (after, opened)) :
    (Established limits before after m ∧ offered.Opens limits m.message plaintext tried) ∨
      (¬ Established limits before after m ∧ ¬ offered.Opens limits m.message plaintext tried ∧
        Displaced (E := E) limits before after m plaintext offered) := by
  rcases Record.decrypt_eq_ok rfl run with
    ⟨next, opens, rfl⟩ | ⟨error, failed, place, older, source, next, fails, held, opens, rfl⟩
  · have start := Session.decrypt_start opens
    exact .inl ⟨⟨next, rfl, start.baseKey.trans base, by rw [start.remoteIdentity, sender],
      Record.archived_archiveCurrent before limits.maxArchivedStates⟩, ⟨next, opened, opens⟩⟩
  · refine .inr ⟨?_, ?_, place, older, next, source, opened, held, opens, rfl⟩
    · rintro ⟨s, current, named, -, -⟩
      cases current
      have start := Session.decrypt_start opens
      have old : older ∈ before.sessions :=
        (Record.archived_prefix before limits.maxArchivedStates).subset (List.mem_of_getElem? held)
      exact baseKey_of_unknown unknown old (start.baseKey.symm.trans named)
    · rintro ⟨_, _, opened⟩
      rw [fails] at opened
      cases opened

/-- Exactly when the session built from an initial message opens it is that session established;
otherwise an older session has opened the message and displaced the new one. Either way the
one-time pre-key that the message names is gone, unless its removal failed. -/
theorem established_iff_opened {ctx ctx' : Context P E} {m : InitialMessage}
    {stored : Option (Record P)} {plaintext : Bytes}
    (loaded : ctx.store.loadRecord c.remote = .ok stored)
    (unknown : (stored.getD .empty).hasBaseKey m.baseKey = false)
    (ok : c.decrypt (.initial m) ctx = .ok plaintext ctx') :
    ∃ offered tried after,
      Offered ctx m offered tried ∧
      offered.baseKey = m.baseKey ∧ offered.remoteIdentity.bytes = m.identityKey ∧
      ctx'.store.loadRecord c.remote = .ok (some after) ∧
      (Established c.limits (stored.getD .empty) after m ↔
        offered.Opens c.limits m.message plaintext tried) ∧
      (Established c.limits (stored.getD .empty) after m ∨
        Displaced (E := E) c.limits (stored.getD .empty) after m plaintext offered) ∧
      ∀ id, m.preKeyId = some id → (∀ n, ctx.faults.plan n .removePreKey = none) →
        ctx'.store.preKeys.find? id = none := by
  obtain ⟨record, ctx₁, read, h⟩ := bind_eq_ok ok
  obtain ⟨found, same, rfl, rfl⟩ := c.record_eq_ok read
  cases loaded.symm.trans same
  rw [if_neg (by simp [unknown])] at h
  obtain ⟨offered, tried, after, opened, ⟨asked, built, reads, source, accepted, rfl⟩, run, written,
    removed⟩ := c.establish_eq_ok h
  obtain ⟨base, sender⟩ := Handshake.accept_start accepted
  refine ⟨offered, built.source, after, ⟨asked, built, (Reads.counted ctx).trans reads, source,
    accepted, rfl⟩, base, sender, written, ?_, ?_, removed⟩
  · rcases established_or_displaced unknown base sender run with ⟨yes, opens⟩ | ⟨no, fails, -⟩
    · exact iff_of_true yes opens
    · exact iff_of_false no fails
  · rcases established_or_displaced unknown base sender run with ⟨yes, -⟩ | ⟨-, -, displaced⟩
    · exact .inl yes
    · exact .inr displaced

open Network in
/-- Two parties talk until the first one's messages are no initial ones any more. Its next message
is then put into the first one's wrapping, as if its ratchet key were the base key of another
session, which would use the one-time pre-key that is still unused. -/
def wrapGenuine : Network.Step Suite.plain Ticker InitialMessage := do
  let bundle ← perform 1 fun party => party.publish (some 5)
  let _ ← perform 1 fun party => party.publish (some 6)
  let first ← address 0
  let second ← address 1
  perform 0 fun party => party.start second bundle
  let hello ← perform 0 fun party => (party.conversation second).encrypt [1]
  let _ ← perform 1 fun party => (party.conversation first).decrypt hello
  let reply ← perform 1 fun party => (party.conversation first).encrypt [2]
  let _ ← perform 0 fun party => (party.conversation second).decrypt reply
  let genuine ← perform 0 fun party => (party.conversation second).encrypt [3]
  match hello with
  | .initial m =>
    return { m with
      baseKey := genuine.inner.ratchetKey, preKeyId := some 6, message := genuine.inner }
  | .ratchet _ => throw .noMessage

def wrapped : Option (InitialMessage × Context Suite.plain Ticker) :=
  match Network.create Suite.plain [("alice", {}), ("bob", {})] (⟨0⟩ : Ticker) with
  | .error _ => none
  | .ok net =>
    match wrapGenuine net with
    | .error _ _ => none
    | .ok m net => net.members[1]?.map fun member => (m, ⟨member.store, .none, net.source⟩)

def wrappedFor : Conversation := .standard ⟨"alice", 1⟩

def opensElsewhere (m : InitialMessage) (ctx : Context Suite.plain Ticker) : Bool :=
  match ctx.store.loadRecord wrappedFor.remote, wrappedFor.decrypt (.initial m) ctx with
  | .ok stored, .ok _ ctx' =>
    match ctx'.store.loadRecord wrappedFor.remote with
    | .ok (some after) =>
      !(stored.getD .empty).hasBaseKey m.baseKey &&
        after.current.map (·.baseKey) != some m.baseKey &&
        (ctx.store.preKeys.find? 6).isSome && (ctx'.store.preKeys.find? 6).isNone
    | _ => false
  | _, _ => false

set_option maxRecDepth 100000 in
theorem wrapped_opensElsewhere :
    (wrapped.any fun pending => opensElsewhere pending.1 pending.2) = true := by
  decide +kernel

/-- The wrapped message is opened although the session built from it cannot open it, and the second
one-time pre-key is used up. -/
theorem wrapped_not_established :
    ∃ m ctx stored plaintext ctx' after, wrapped = some (m, ctx) ∧
      ctx.store.loadRecord wrappedFor.remote = .ok stored ∧
      (stored.getD .empty).hasBaseKey m.baseKey = false ∧
      wrappedFor.decrypt (.initial m) ctx = .ok plaintext ctx' ∧
      ctx'.store.loadRecord wrappedFor.remote = .ok (some after) ∧
      ¬ Established wrappedFor.limits (stored.getD .empty) after m ∧
      ctx.store.preKeys.find? 6 ≠ none ∧ ctx'.store.preKeys.find? 6 = none := by
  obtain ⟨⟨m, ctx⟩, is, run⟩ := (Option.any_eq_true _ _).1 wrapped_opensElsewhere
  simp only [opensElsewhere] at run
  split at run
  · rename_i stored plaintext ctx' loaded ok
    split at run
    · rename_i after found
      simp only [Bool.and_eq_true, Bool.not_eq_true', bne_iff_ne, Option.isSome_iff_ne_none,
        Option.isNone_iff_eq_none] at run
      obtain ⟨⟨⟨unknown, other⟩, kept⟩, gone⟩ := run
      obtain ⟨offered, tried, after', -, -, -, found', -, -, -⟩ :=
        wrappedFor.established_iff_opened loaded unknown ok
      cases found.symm.trans found'
      refine ⟨m, ctx, stored, plaintext, ctx', after, is, loaded, unknown, ok, found, ?_, kept,
        gone⟩
      rintro ⟨s, current, base, -, -⟩
      exact other (by rw [current, ← base]; rfl)
    · cases run
  · cases run

end Conversation

end RatchetSession
