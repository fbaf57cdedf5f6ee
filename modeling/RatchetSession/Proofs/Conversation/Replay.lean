import RatchetSession.Proofs.Conversation.Succession
import RatchetSession.Proofs.Session.Binding
set_option autoImplicit false

/-!
Initial messages that come in again. As long as the session they belong to is held, its
receiving chain knows them; and a session that has used a one-time pre-key cannot be built
again. Without such a key, a session that has left the archive is forgotten, and its initial
messages are taken for those of a new one.
-/

namespace RatchetSession

variable {P : Suite} {E : Type} [Randomness E] {drawn : List PublicKey}

/-- Since some call on, the record was for a time without the session of a message that names no
one-time pre-key. -/
def Lapsed (since : List (Entry P E)) (remote : Address) (m : InitialMessage) : Prop :=
  m.preKeyId = none ∧ ∃ x ∈ since, ∀ s ∈ x.before.store.sessions remote, s.baseKey ≠ m.baseKey

omit [Randomness E] in
theorem Lapsed.append {since : List (Entry P E)} {remote : Address} {m : InitialMessage}
    (h : Lapsed since remote m) (more : List (Entry P E)) : Lapsed (since ++ more) remote m := by
  obtain ⟨unnamed, x, member, absent⟩ := h
  exact ⟨unnamed, x, List.mem_append_left _ member, absent⟩

/-- Initial messages are opened only by the chain of their handshake, and all of one session name the
same one-time pre-key. -/
def Entry.Vouched (drawn : List PublicKey) (names : PublicKey → Option UInt32) (e : Entry P E) :
    Prop :=
  ∀ m, e.opened? = some (.initial m) →
    names m.baseKey = m.preKeyId ∧ m.message.ratchetKey = m.baseKey ∧
      ∃ s chain, e.after.store.current? e.remote = some s ∧
        s.chain? m.message.ratchetKey = some chain ∧ chain.localKey ∉ drawn

/-- What the store knows of the initial messages that have been opened. -/
structure Watched (drawn : List PublicKey) (names : PublicKey → Option UInt32)
    (past : List (Entry P E)) (ctx : Context P E) : Prop where
  anchorage : ∀ address, Anchorage drawn (ctx.store.sessions address)
  vouched : ∀ e ∈ past, e.Vouched drawn names
  used : ∀ address, ∀ s ∈ ctx.store.sessions address, s.Answering drawn →
    ∀ id, names s.baseKey = some id → ctx.store.preKeys.find? id = none
  gone : ∀ e ∈ past, ∀ m, e.opened? = some (.initial m) →
    ∀ id, m.preKeyId = some id → ctx.store.preKeys.find? id = none
  spent : ∀ earlier e since, past = earlier ++ e :: since → ∀ m, e.opened? = some (.initial m) →
    ∀ s ∈ ctx.store.sessions e.remote, s.baseKey = m.baseKey →
      ∀ chain ∈ s.receiving, chain.localKey ∉ drawn →
        chain.Spent m.message.counter ∨ Lapsed since e.remote m

section Step

variable {names : PublicKey → Option UInt32} {past : List (Entry P (Recorder E))}
  {e : Entry P (Recorder E)}

theorem Entry.Opening.answering_of_initial {m : InitialMessage} {s next : Session P}
    {kept : List (Session P)} (h : e.Opening drawn m.message s next kept) (vouched : e.Vouched drawn names)
    (opened : e.opened? = some (.initial m)) :
    next.Answering drawn ∧ s.baseKey = m.baseKey ∧
      ∃ chain ∈ s.receiving, chain.remoteKey = m.message.ratchetKey ∧ chain.localKey ∉ drawn := by
  obtain ⟨-, first, now, chain', current, found, outside⟩ := vouched m opened
  cases current.symm.trans h.current
  have member' := List.mem_of_find?_eq_some found
  obtain ⟨chain, member, later⟩ := h.heir.chains chain' member' outside
  have outside' : chain.localKey ∉ drawn := later.ends.localKey ▸ outside
  have carries : chain.remoteKey = m.message.ratchetKey :=
    later.ends.remoteKey.symm.trans (Session.chain?_remoteKey found)
  refine ⟨⟨chain', member', outside⟩, ?_, chain, member, carries, outside'⟩
  rw [← h.anchored.ends chain member outside', carries, first]

theorem Entry.preKey_gone_of_new {m : InitialMessage} (opened : e.opened? = some (.initial m))
    (lacking : ∀ s ∈ e.before.store.sessions e.remote, s.baseKey ≠ m.baseKey)
    (removes : ∀ n, e.before.faults.plan n .removePreKey = none) :
    ∀ id, m.preKeyId = some id → e.after.store.preKeys.find? id = none := by
  obtain ⟨plaintext, ok⟩ := Entry.decrypt_of_opened opened
  obtain ⟨_, _, _, tries, -, -⟩ := Conversation.decrypt_eq_ok _ ok
  cases tries with
  | known loaded held =>
    obtain ⟨s, member, same⟩ := List.any_eq_true.1 held
    have sessions : e.before.store.sessions e.remote = _ := Store.sessions_of_loaded loaded
    exact absurd (beq_iff_eq.1 same) (lacking s (sessions ▸ member))
  | unknown loaded lacking offers => exact Conversation.decrypt_preKey_gone _ ok loaded lacking removes

namespace Watched

theorem preKey_gone_of_answering (h : Watched drawn names past e.before)
    (vouched : e.Vouched drawn names) (within : e.after.source.keys P ⊆ drawn)
    (removes : ∀ n, e.before.faults.plan n .removePreKey = none) (address : Address)
    (u : Session P) (member : u ∈ e.after.store.sessions address) (answers : u.Answering drawn)
    (id : UInt32) (named : names u.baseKey = some id) :
    e.after.store.preKeys.find? id = none := by
  rcases (Entry.succession h.anchorage within address).heirs u member with
    ⟨s, before, heir⟩ | silent | ⟨-, m, opened, base, lacking, -⟩
  · exact e.preKeys_shrink.2 id
      (h.used address s before (heir.answering answers) id (heir.baseKey ▸ named))
  · exact absurd answers silent
  · rw [base, (vouched m opened).1] at named
    exact Entry.preKey_gone_of_new opened lacking removes id named

theorem preKey_gone_of_opened (h : Watched drawn names past e.before) (vouched : e.Vouched drawn names)
    (within : e.after.source.keys P ⊆ drawn)
    (removes : ∀ n, e.before.faults.plan n .removePreKey = none) {m : InitialMessage}
    (opened : e.opened? = some (.initial m)) (id : UInt32) (named : m.preKeyId = some id) :
    e.after.store.preKeys.find? id = none := by
  obtain ⟨s, next, kept, opening⟩ := Entry.exists_opening (h.anchorage e.remote) within opened
  obtain ⟨-, base, chain, inside, -, outside⟩ := opening.answering_of_initial vouched opened
  rcases opening.opener with before | ⟨m', is, -, lacking, -⟩
  · refine e.preKeys_shrink.2 id (h.used e.remote s before ⟨chain, inside, outside⟩ id ?_)
    rw [base, (vouched m opened).1, named]
  · cases opened.symm.trans is
    exact Entry.preKey_gone_of_new opened lacking removes id named

theorem spent_of_opened (h : Watched drawn names past e.before) (vouched : e.Vouched drawn names)
    (within : e.after.source.keys P ⊆ drawn) {m : InitialMessage}
    (opened : e.opened? = some (.initial m)) {u : Session P}
    (member : u ∈ e.after.store.sessions e.remote) (base : u.baseKey = m.baseKey)
    {chain : ReceivingChain} (inside : chain ∈ u.receiving) (outside : chain.localKey ∉ drawn) :
    chain.Spent m.message.counter := by
  obtain ⟨s, next, kept, opening⟩ := Entry.exists_opening (h.anchorage e.remote) within opened
  obtain ⟨answers, own, -⟩ := opening.answering_of_initial vouched opened
  rw [opening.after] at member
  have anchored := opening.anchorage.each u member
  rcases List.mem_cons.1 member with rfl | behind
  · exact opening.spent chain inside
      ((anchored.ends chain inside outside).trans (base.trans (vouched m opened).2.1.symm))
  -- behind the opener no session answers under its base key
  · have differ := (List.pairwise_cons.1 opening.anchorage.apart).1 u behind answers
      ⟨chain, inside, outside⟩
    rw [opening.heir.baseKey, own] at differ
    exact absurd base.symm differ

theorem spent_or_lapsed (h : Watched drawn names past e.before) (vouched : e.Vouched drawn names)
    (within : e.after.source.keys P ⊆ drawn) {earlier since : List (Entry P (Recorder E))}
    {first : Entry P (Recorder E)} (split : past = earlier ++ first :: since) {m : InitialMessage}
    (opened : first.opened? = some (.initial m)) {u : Session P}
    (member : u ∈ e.after.store.sessions first.remote) (base : u.baseKey = m.baseKey)
    {chain : ReceivingChain} (inside : chain ∈ u.receiving) (outside : chain.localKey ∉ drawn) :
    chain.Spent m.message.counter ∨ Lapsed (since ++ [e]) first.remote m := by
  have before : first ∈ past := by simp [split]
  rcases (Entry.succession h.anchorage within first.remote).heirs u member with
    ⟨s, held, heir⟩ | silent | ⟨here, m', is, same, lacking, there⟩
  · obtain ⟨old, there, later⟩ := heir.chains chain inside outside
    rcases h.spent earlier first since split m opened s held (heir.baseKey.symm.trans base) old there
      (later.ends.localKey ▸ outside) with spent | lapsed
    · exact .inl (later.spent spent)
    · exact .inr (lapsed.append [e])
  · exact absurd ⟨chain, inside, outside⟩ silent
  -- the session was built again, so the record before this call was without it
  · have bases : m'.baseKey = m.baseKey := same.symm.trans base
    refine .inr ⟨?_, e, by simp, fun s held => ?_⟩
    · have named : m'.preKeyId = m.preKeyId := by
        rw [← (vouched m' is).1, ← (h.vouched first before m opened).1, bases]
      cases known : m.preKeyId with
      | none => rfl
      | some id =>
        exact absurd (h.gone first before m opened id known) (there id (named.trans known))
    · rw [← bases]
      exact lacking s (here ▸ held)

theorem step (h : Watched drawn names past e.before) (vouched : e.Vouched drawn names)
    (within : e.after.source.keys P ⊆ drawn)
    (removes : ∀ n, e.before.faults.plan n .removePreKey = none) :
    Watched drawn names (past ++ [e]) e.after where
  anchorage address := (Entry.succession h.anchorage within address).anchorage
  vouched other member := by
    rcases List.mem_append.1 member with before | now
    · exact h.vouched other before
    · rw [List.mem_singleton.1 now]
      exact vouched
  used := h.preKey_gone_of_answering vouched within removes
  gone other member m opened id named := by
    rcases List.mem_append.1 member with before | now
    · exact e.preKeys_shrink.2 id (h.gone other before m opened id named)
    · rw [List.mem_singleton.1 now] at opened
      exact h.preKey_gone_of_opened vouched within removes opened id named
  spent earlier first since split m opened u member base chain inside outside := by
    -- the message was opened by this call, or by an earlier one
    rcases List.eq_nil_or_concat' since with rfl | ⟨between, last, rfl⟩
    · obtain ⟨rfl, same⟩ := List.append_inj' split rfl
      cases same
      exact .inl (h.spent_of_opened vouched within opened member base inside outside)
    · rw [← List.cons_append, ← List.append_assoc] at split
      obtain ⟨before, same⟩ := List.append_inj' split rfl
      cases same
      exact h.spent_or_lapsed vouched within before opened member base inside outside

theorem lapsed_of_replay (h : Watched drawn names past e.before) (vouched : e.Vouched drawn names)
    (within : e.after.source.keys P ⊆ drawn) {earlier since : List (Entry P (Recorder E))}
    {first : Entry P (Recorder E)} (split : past = earlier ++ first :: since) {m : InitialMessage}
    (opened : first.opened? = some (.initial m)) (again : e.opened? = some (.initial m))
    (same : e.remote = first.remote) : Lapsed (since ++ [e]) first.remote m := by
  obtain ⟨s, next, kept, opening⟩ := Entry.exists_opening (h.anchorage e.remote) within again
  obtain ⟨-, base, chain, inside, carries, outside⟩ := opening.answering_of_initial vouched again
  rcases opening.opener with held | ⟨m', is, -, lacking, there⟩
  · rcases h.spent earlier first since split m opened s (same ▸ held) base chain inside outside with
      spent | lapsed
    · exact absurd spent (opening.unspent chain inside carries)
    · exact lapsed.append [e]
  · cases again.symm.trans is
    refine ⟨?_, e, by simp, same ▸ lacking⟩
    cases known : m.preKeyId with
    | none => rfl
    | some id => exact absurd (h.gone first (by simp [split]) m opened id known) (there id known)

end Watched

end Step

/-- The session later, after it has sent some messages. -/
inductive Session.Continues (s : Session P) : Session P → Prop
  | refl : s.Continues s
  | sent {t t' : Session P} {plaintext : Bytes} {message : Message} (before : s.Continues t)
      (ok : t.encrypt plaintext = .ok (message, t')) : s.Continues t'

/-- Another party has started the session with a signed pre-key of this store, and may have used a
one-time pre-key. -/
def StartedWith (F : Type) [Randomness F] (st : Store P) (s : Session P) : Prop :=
  ∃ (bundle : Bundle P) (identity : Identity) (source source' : F) (signed : SignedPreKey),
    Handshake.outgoing bundle identity source = .ok s source' ∧
    st.signedPreKeys.find? bundle.signedPreKeyId = some signed ∧
    bundle.signedPreKey = signed.keyPair.publicKey

/-- The associated data with which the session that is current after the call has opened a
message. -/
def Entry.associated? (e : Entry P E) (message : RatchetMessage) : Option Bytes := do
  let s ← e.after.store.current? e.remote
  let binding ← s.opening message
  return binding.toBytes

theorem Entry.associated_of_opened {e : Entry P E} {message : Message}
    (h : e.opened? = some message) :
    ∃ associated plaintext, ∃ key : MessageKey, e.associated? message.inner = some associated ∧
      key.decrypt P associated message.inner.ciphertext = .ok plaintext := by
  obtain ⟨plaintext, ok⟩ := Entry.decrypt_of_opened h
  obtain ⟨r, tried, after, -, run, written, -⟩ := Conversation.decrypt_eq_ok _ ok
  obtain ⟨_, _, _, next, -, opens, -, current, -⟩ := Record.decrypt_opener run
  obtain ⟨ready, -, received⟩ := Session.decrypt_parts opens
  obtain ⟨key, bound, is, decrypted⟩ := Session.receive_opening received
  have loaded : e.after.store.loadRecord e.remote = .ok (some after) := written
  refine ⟨bound.toBytes, plaintext, key, ?_, decrypted⟩
  simp only [Entry.associated?, Store.current?, loaded, current, Option.bind_eq_bind,
    Option.bind_some, is]
  rfl

/-- An initial message is opened only if one of some sessions has sent it, and with the associated
data with which it was sealed. -/
def Entry.Genuine (others : List (Session P)) (e : Entry P E) : Prop :=
  ∀ m, e.opened? = some (.initial m) →
    ∃ s ∈ others, ∃ t plaintext t', s.Continues t ∧ t.encrypt plaintext = .ok (.initial m, t') ∧
      e.associated? m.message = some t.sealing.toBytes

theorem Session.Continues.sending_eq {s t : Session P} (h : s.Continues t) :
    t.pending = s.pending ∧ t.sendingKey = s.sendingKey ∧
      t.sending.remoteKey = s.sending.remoteKey := by
  induction h with
  | refl => exact ⟨rfl, rfl, rfl⟩
  | sent _ ok ih =>
    obtain ⟨-, -, -, -, rfl⟩ := Session.encrypt_eq_ok ok
    exact ih

def namedBy (others : List (Session P)) (baseKey : PublicKey) : Option UInt32 :=
  (others.find? (·.baseKey == baseKey)).bind fun s => s.pending.bind (·.preKeyId)

theorem StartedWith.sendingKey_eq {F : Type} [Randomness F] {st : Store P} {s : Session P}
    (h : StartedWith F st s) :
    s.sendingKey = s.baseKey ∧ (∀ p, s.pending = some p → p.baseKey = s.baseKey) ∧
      ∃ id signed, st.signedPreKeys.find? id = some signed ∧
        s.sending.remoteKey = signed.keyPair.publicKey := by
  obtain ⟨bundle, identity, source, source', signed, made, held, signs⟩ := h
  obtain ⟨seed, rootKey, chainKey, -, -, rfl⟩ := Handshake.outgoing_eq_ok made
  refine ⟨rfl, fun p pending => ?_, _, signed, held, signs⟩
  cases pending
  rfl

theorem Entry.Genuine.vouched {F : Type} [Randomness F] {st : Store P} {others : List (Session P)}
    {e : Entry P E} (genuine : e.Genuine others) (started : ∀ s ∈ others, StartedWith F st s)
    (distinct : (others.map (·.baseKey)).Nodup)
    (apart : ∀ id signed, st.signedPreKeys.find? id = some signed →
      signed.keyPair.publicKey ∉ drawn) : e.Vouched drawn (namedBy others) := by
  intro m opened
  obtain ⟨s, known, t, plaintext, t', continues, sealed, associated⟩ := genuine m opened
  obtain ⟨p, is, base, named⟩ := Session.encrypt_initial sealed
  obtain ⟨-, carries, -⟩ := Session.encrypt_eq_ok sealed
  obtain ⟨pends, sends, remote⟩ := continues.sending_eq
  obtain ⟨own, bases, id, signed, held, signs⟩ := (started s known).sendingKey_eq
  have pending : s.pending = some p := pends.symm.trans is
  have mine : m.baseKey = s.baseKey := base.trans (bases p pending)
  refine ⟨?_, (carries.trans (sends.trans own)).trans mine.symm, ?_⟩
  · rw [namedBy, mine, find?_of_nodup_map distinct known, named]
    simp [pending]
  · simp only [Entry.associated?, Option.bind_eq_bind, Option.bind_eq_some_iff] at associated
    obtain ⟨now, current, binding, opens, same⟩ := associated
    have key : binding.receiverKey = signed.keyPair.publicKey :=
      (Binding.receiverKey_of_toBytes (Option.some.inj same)).trans (remote.trans signs)
    simp only [Session.opening, Option.map_eq_some_iff] at opens
    obtain ⟨chain, found, rfl⟩ := opens
    have ends : chain.localKey = signed.keyPair.publicKey := key
    exact ⟨now, chain, current, found, ends ▸ apart id signed held⟩

theorem Entry.Genuine.of_bare {others : List (Session P)} {e : Entry P (Recorder E)}
    (h : e.bare.Genuine others) : e.Genuine others := by
  intro m opened
  obtain ⟨s, known, t, plaintext, t', continues, sealed, associated⟩ :=
    h m (e.opened_bare.trans opened)
  refine ⟨s, known, t, plaintext, t', continues, sealed, ?_⟩
  rw [← associated, Entry.associated?, Entry.associated?, e.after_bare]
  rfl

theorem watched_run (calls : List (Call P)) (ctx : Context P E)
    (names : PublicKey → Option UInt32) (fresh : ctx.store.records = .empty)
    (removes : ∀ n, ctx.faults.plan n .removePreKey = none)
    (vouched : ∀ e ∈ journal calls ctx.recording, e.Vouched (drawnKeys calls ctx) names) :
    ∀ past now rest, journal calls ctx.recording = past ++ now :: rest →
      Watched (drawnKeys calls ctx) names past now.before := by
  have start : Watched (drawnKeys calls ctx) names [] ctx.recording := by
    have none : ∀ address, ctx.recording.store.sessions address = [] := by
      intro address
      simp [Store.sessions, Store.loadRecord, Context.recording, fresh]
    refine ⟨fun address => none address ▸ .nil, by simp, fun address s member => ?_, by simp,
      fun _ _ _ split => by simp at split⟩
    rw [none address] at member
    cases member
  have step : ∀ past (e : Entry P (Recorder E)),
      Watched (drawnKeys calls ctx) names past e.before → e ∈ journal calls ctx.recording →
      Watched (drawnKeys calls ctx) names (past ++ [e]) e.after := by
    intro past e watched member
    obtain ⟨before, after⟩ := Onward.of_mem_journal member
    refine watched.step (vouched e member) after.seeds.keys.subset fun n => ?_
    rw [before.plan]
    exact removes n
  exact (journal_invariant step calls start fun _ member => member).1

/-- In a run that begins without sessions, whose store takes out one-time pre-keys when asked to, and
which opens only genuine initial messages, an initial message is opened twice for one device only if
it names no one-time pre-key, and only after the session with its base key has left the record. -/
theorem replay_needs_eviction {F : Type} [Randomness F] (calls : List (Call P))
    (ctx : Context P E) (others : List (Session P)) (fresh : ctx.store.records = .empty)
    (removes : ∀ n, ctx.faults.plan n .removePreKey = none)
    (started : ∀ s ∈ others, StartedWith F ctx.store s)
    (distinct : (others.map (·.baseKey)).Nodup)
    (apart : ∀ id signed, ctx.store.signedPreKeys.find? id = some signed →
      signed.keyPair.publicKey ∉ drawnKeys calls ctx)
    (genuine : ∀ e ∈ journal calls ctx, e.Genuine others) :
    ∀ earlier first between e later m,
      journal calls ctx = earlier ++ first :: (between ++ e :: later) →
      first.opened? = some (.initial m) → e.opened? = some (.initial m) →
      e.remote = first.remote →
      m.preKeyId = none ∧ ∃ x ∈ between ++ [e],
        ∀ s ∈ x.before.store.sessions first.remote, s.baseKey ≠ m.baseKey := by
  intro earlier first between e later m split opened again same
  have vouched : ∀ e ∈ journal calls ctx.recording,
      e.Vouched (drawnKeys calls ctx) (namedBy others) := by
    intro e member
    have bare := genuine e.bare (journal_recording calls ctx ▸ List.mem_map_of_mem member)
    exact bare.of_bare.vouched started distinct apart
  rw [← List.cons_append, ← List.append_assoc] at split
  obtain ⟨past, now, rest, here, front, rfl, -⟩ := journal_split split
  obtain ⟨before, behind, rfl, -, middle⟩ := List.map_eq_append_iff.1 front.symm
  obtain ⟨opener, since, rfl, rfl, rfl⟩ := List.map_eq_cons_iff.1 middle
  have member : now ∈ journal calls ctx.recording := by simp [here]
  have watched := watched_run calls ctx (namedBy others) fresh removes vouched _ now rest here
  obtain ⟨unnamed, x, found, absent⟩ := watched.lapsed_of_replay (vouched now member)
    (Onward.of_mem_journal member).2.seeds.keys.subset rfl (opener.opened_bare ▸ opened)
    (now.opened_bare ▸ again) same
  refine ⟨unnamed, x.bare, ?_, absent⟩
  have listed := List.mem_map_of_mem (f := Entry.bare) found
  rwa [List.map_append] at listed

def hail : Option (Session Suite.plain × InitialMessage) :=
  match Handshake.outgoing (newcomerBundle 1000 false) ⟨Ticker.seed 32 0⟩ (⟨3⟩ : Ticker) with
  | .ok s _ =>
    match s.encrypt [1] with
    | .ok (.initial m, _) => some (s, m)
    | _ => none
  | .error .. => none

def brief : Conversation := ⟨⟨"alice", 1⟩, { maxArchivedStates := 1 }, rfl⟩

/-- The newcomer opens the message, starts two sessions, and is given the message again. -/
def rehail (m : InitialMessage) : List (Call Suite.plain) :=
  [⟨brief, .decrypt (.initial m)⟩, ⟨brief, .start (newcomerBundle 0 false)⟩,
    ⟨brief, .start (newcomerBundle 0 false)⟩, ⟨brief, .decrypt (.initial m)⟩]

/-- What a run opens, where the associated data are those with which a session seals. -/
def Entry.openedSealed? {P : Suite} {E : Type} [Randomness E] (s : Session P) (e : Entry P E) :
    Option (Message × Bool) :=
  e.opened?.map fun message =>
    (message, decide (e.associated? message.inner = some s.sealing.toBytes))

theorem Entry.opened_of_sealed {P : Suite} {E : Type} [Randomness E] {s : Session P}
    {e : Entry P E} {message : Message} {bound : Bool}
    (h : e.openedSealed? s = some (message, bound)) : e.opened? = some message := by
  obtain ⟨_, opened, is⟩ := Option.map_eq_some_iff.1 h
  cases is
  exact opened

/-- Whether the message is opened both times, and with the associated data it was sealed with, and
the pairs drawn differ from the signed pre-key's. -/
def rehailOpens (s : Session Suite.plain) (m : InitialMessage) : Bool :=
  decide ((journal (rehail m) (newcomer 1000)).map (Entry.openedSealed? s) =
      [some (.initial m, true), none, none, some (.initial m, true)]) &&
    decide ((newcomerSigned 1000).keyPair.publicKey ∉ drawnKeys (rehail m) (newcomer 1000))

set_option maxRecDepth 100000 in
theorem rehail_opens : (hail.any fun (s, m) => rehailOpens s m) = true := by
  decide +kernel

theorem hail_eq_some {s : Session Suite.plain} {m : InitialMessage} (h : hail = some (s, m)) :
    StartedWith Ticker (newcomer 1000).store s ∧ ∃ s', s.encrypt [1] = .ok (.initial m, s') := by
  unfold hail at h
  split at h
  · rename_i s₀ source made
    split at h
    · rename_i m₀ s' sealed
      cases h
      exact ⟨⟨newcomerBundle 1000 false, _, _, source, newcomerSigned 1000, made, rfl, rfl⟩, s',
        sealed⟩
    · cases h
  · cases h

theorem rehail_admissible {s : Session Suite.plain} {m : InitialMessage} (is : hail = some (s, m))
    (opens : rehailOpens s m = true) :
    (∀ e ∈ journal (rehail m) (newcomer 1000), e.Genuine [s]) ∧
      ∀ id signed, (newcomer 1000).store.signedPreKeys.find? id = some signed →
        signed.keyPair.publicKey ∉ drawnKeys (rehail m) (newcomer 1000) := by
  simp only [rehailOpens, Bool.and_eq_true, decide_eq_true_eq] at opens
  obtain ⟨opened, apart⟩ := opens
  obtain ⟨-, s', sealed⟩ := hail_eq_some is
  refine ⟨fun e member m' is' => ?_, fun id signed held => ?_⟩
  · have listed := List.mem_map_of_mem (f := Entry.openedSealed? s) member
    rw [opened] at listed
    simp only [Entry.openedSealed?, is', Option.map_some, List.mem_cons, Option.some.injEq,
      Prod.mk.injEq, Message.initial.injEq, decide_eq_true_eq, reduceCtorEq, List.not_mem_nil,
      or_false, false_or, or_self] at listed
    obtain ⟨rfl, bound⟩ := listed
    exact ⟨s, List.mem_singleton_self s, s, [1], s', .refl, sealed, bound⟩
  · simp only [newcomer, Store.addPreKey, Store.addSignedPreKey, Store.ofIdentity,
      Table.find?_insert, Table.find?_empty] at held
    split at held
    · cases held
      exact apart
    · cases held

theorem rehail_opened {s : Session Suite.plain} {m : InitialMessage}
    (opens : rehailOpens s m = true) :
    ∃ first between e,
      journal (rehail m) (newcomer 1000) = first :: (between ++ [e]) ∧
      first.opened? = some (.initial m) ∧ e.opened? = some (.initial m) ∧
      e.remote = first.remote := by
  simp only [rehailOpens, Bool.and_eq_true, decide_eq_true_eq] at opens
  simp only [rehail, journal, List.map_cons, List.map_nil, List.cons.injEq, and_true] at opens
  obtain ⟨⟨first, -, -, last⟩, -⟩ := opens
  exact ⟨_, [_, _], _, rfl, Entry.opened_of_sealed first, Entry.opened_of_sealed last, rfl⟩

/-- A genuine initial message is opened again once its session has left the record. -/
theorem hail_opened_again :
    ∃ s m, StartedWith Ticker (newcomer 1000).store s ∧
      (∃ s', s.encrypt [1] = .ok (.initial m, s')) ∧
      (newcomer 1000).store.records = .empty ∧ (newcomer 1000).faults = .none ∧
      (∀ e ∈ journal (rehail m) (newcomer 1000), e.Genuine [s]) ∧
      ∃ first between e,
        journal (rehail m) (newcomer 1000) = first :: (between ++ [e]) ∧
        first.opened? = some (.initial m) ∧ e.opened? = some (.initial m) ∧
        e.remote = first.remote := by
  obtain ⟨⟨s, m⟩, is, opens⟩ := (Option.any_eq_true _ _).1 rehail_opens
  obtain ⟨started, sealed⟩ := hail_eq_some is
  exact ⟨s, m, started, sealed, rfl, rfl, (rehail_admissible is opens).1, rehail_opened opens⟩

/-- The session was gone before the message was opened again. -/
theorem hail_evicted :
    ∃ s m, StartedWith Ticker (newcomer 1000).store s ∧
      (∀ e ∈ journal (rehail m) (newcomer 1000), e.Genuine [s]) ∧
      ∃ first between e,
        journal (rehail m) (newcomer 1000) = first :: (between ++ [e]) ∧
        first.opened? = some (.initial m) ∧ e.opened? = some (.initial m) ∧
        e.remote = first.remote ∧ m.preKeyId = none ∧
        ∃ x ∈ between ++ [e],
          ∀ t ∈ x.before.store.sessions first.remote, t.baseKey ≠ m.baseKey := by
  obtain ⟨⟨s, m⟩, is, opens⟩ := (Option.any_eq_true _ _).1 rehail_opens
  obtain ⟨started, -⟩ := hail_eq_some is
  obtain ⟨genuine, apart⟩ := rehail_admissible is opens
  obtain ⟨first, between, e, run, opened, again, same⟩ := rehail_opened opens
  refine ⟨s, m, started, genuine, first, between, e, run, opened, again, same, ?_⟩
  exact replay_needs_eviction (rehail m) (newcomer 1000) [s] rfl (fun _ => rfl)
    (fun t member => List.mem_singleton.1 member ▸ started) (List.nodup_singleton _) apart genuine
    [] first between e [] m run opened again same

end RatchetSession
