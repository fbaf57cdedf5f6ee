import RatchetSession.Proofs.Conversation.Effect
import RatchetSession.Proofs.Conversation.Recorded
import RatchetSession.Proofs.Session.Account
set_option autoImplicit false

namespace RatchetSession

open RatchetSession.Computation (bind_of_ok bind_of_error)

variable {P : Suite} {E : Type}

namespace Record

theorem put_promote {held held' : Address → List (Session P)} {address : Address}
    {stored : Option (Record P)} {s : Session P} {max : Nat}
    (before : held address = (stored.getD .empty).sessions)
    (after : held' address = ((stored.getD .empty).promote s max).sessions)
    (others : ∀ other, other ≠ address → held' other = held other) :
    Put held address ((stored.getD .empty).archiveCurrent max).archived s held' where
  fewer := by
    rw [before]
    exact (Record.archived_prefix _ max).sublist
  here := after
  others := others

end Record

variable [Randomness E]

/-- The messages that were returned, in their order and without what initial ones add to them. -/
def sentBy (entries : List (Entry P E)) : List RatchetMessage :=
  entries.filterMap fun e => e.sent?.map Message.inner

/-- The session that opens the message has no chain for its ratchet key, so that it steps from one
sending key to another. -/
def Entry.Replaces (e : Entry P E) (old new : PublicKey) : Prop :=
  ∃ message r tried s next, e.opened? = some message ∧
    e.call.conversation.Tried e.before message r tried ∧
    Record.opener? e.call.conversation.limits message.inner r.sessions tried = some (s, next) ∧
    s.chain? message.inner.ratchetKey = none ∧ old = s.sendingKey ∧ new = next.sendingKey

def ReplacedBy (entries : List (Entry P E)) (old new : PublicKey) : Prop :=
  ∃ e ∈ entries, e.Replaces old new

theorem sentBy_append (past : List (Entry P E)) (e : Entry P E) :
    sentBy (past ++ [e]) = sentBy past ++ (e.sent?.map Message.inner).toList := by
  unfold sentBy
  rw [List.filterMap_append]
  cases sent : e.sent? <;> simp [sent]

theorem replacedBy_append (past : List (Entry P E)) (e : Entry P E) (old new : PublicKey) :
    ReplacedBy (past ++ [e]) old new ↔ ReplacedBy past old new ∨ e.Replaces old new := by
  simp [ReplacedBy, or_and_right, exists_or]

theorem Entry.not_replaces {e : Entry P E} (nothing : e.opened? = none) (old new : PublicKey) :
    ¬ e.Replaces old new := by
  rintro ⟨_, _, _, _, _, opened, -⟩
  rw [nothing] at opened
  cases opened

theorem Entry.replaces_iff {e : Entry P E} {message : Message} {r : Record P} {tried : E}
    {s next : Session P} (opened : e.opened? = some message)
    (tries : e.call.conversation.Tried e.before message r tried)
    (first : Record.opener? e.call.conversation.limits message.inner r.sessions tried =
      some (s, next)) (old new : PublicKey) :
    e.Replaces old new ↔ s.chain? message.inner.ratchetKey = none ∧ old = s.sendingKey ∧
      new = next.sendingKey := by
  refine ⟨?_, fun is => ⟨message, r, tried, s, next, opened, tries, first, is⟩⟩
  rintro ⟨message', r', tried', s', next', opened', tries', first', is⟩
  cases opened.symm.trans opened'
  obtain ⟨rfl, rfl⟩ := tries.unique _ tries'
  cases first.symm.trans first'
  exact is

/-- What the party holds and has drawn agrees with the calls so far. -/
def Balanced (past : List (Entry P (Recorder E))) (ctx : Context P (Recorder E)) : Prop :=
  Accounted (ctx.source.keys P) ctx.store.sessions (sentBy past) (ReplacedBy past)

section Step

variable {past : List (Entry P (Recorder E))} {e : Entry P (Recorder E)}

theorem Entry.keys_subset (e : Entry P (Recorder E)) : e.before.source.keys P ⊆ e.after.source.keys P :=
  (Onward.perform_onward e.call e.before).seeds.keys.subset

theorem balanced_of_silent (unsent : e.sent? = none) (unopened : e.opened? = none)
    (h : Accounted (e.after.source.keys P) e.after.store.sessions (sentBy past) (ReplacedBy past)) :
    Balanced (past ++ [e]) e.after := by
  have sent : sentBy (past ++ [e]) = sentBy past := by simp [sentBy_append, unsent]
  have replaced : ReplacedBy (past ++ [e]) = ReplacedBy past := by
    funext old new
    simp [replacedBy_append, Entry.not_replaces unopened]
  unfold Balanced
  rw [sent, replaced]
  exact h

theorem balanced_start (h : Balanced past e.before) (distinct : (e.after.source.keys P).Nodup)
    (unsent : e.sent? = none) (unopened : e.opened? = none) {bundle : Bundle P}
    (ok : e.call.conversation.start bundle e.before = .ok () e.after) :
    Balanced (past ++ [e]) e.after := by
  obtain ⟨s, stored, made, loaded, written, -⟩ := Conversation.start_eq_ok _ ok
  obtain ⟨seed, _, _, draw, first, rfl⟩ := Handshake.outgoing_eq_ok made
  have put := Record.put_promote (Store.sessions_of_loaded loaded)
    (Store.sessions_of_loaded written) fun _ differ => e.sessions_of_ne differ
  exact balanced_of_silent unsent unopened (h.put_fresh e.keys_subset put
    (Recorder.fresh_of_draw draw distinct) (Recorder.mem_keys_of_draw draw) first rfl)

theorem balanced_sent (h : Balanced past e.before) {message : Message} {plaintext : Bytes}
    (sent : e.sent? = some message) (unopened : e.opened? = none)
    (ok : e.call.conversation.encrypt plaintext e.before = .ok message e.after) :
    Balanced (past ++ [e]) e.after := by
  obtain ⟨r, s, next, loaded, current, encrypted, written, -⟩ := Conversation.encrypt_eq_ok _ ok
  obtain ⟨room, carries, counter, -, rfl⟩ := Session.encrypt_eq_ok encrypted
  have before : e.before.store.sessions e.remote = [] ++ s :: r.archived := by
    simp [Store.sessions_of_loaded loaded, Entry.remote, Record.sessions, current]
  have put : Put e.before.store.sessions e.remote r.archived s.advanced e.after.store.sessions := by
    refine ⟨?_, Store.sessions_of_loaded written, fun _ differ => e.sessions_of_ne differ⟩
    rw [before]
    exact List.sublist_cons_self s r.archived
  have replaced : ReplacedBy (past ++ [e]) = ReplacedBy past := by
    funext old new
    simp [replacedBy_append, Entry.not_replaces unopened]
  unfold Balanced
  rw [replaced, sentBy_append, sent]
  exact (h.put_sent before (List.Subset.refl _) put room carries counter).mono e.keys_subset

theorem accounted_tried {c : Conversation} {ctx : Context P (Recorder E)} {message : Message}
    {r : Record P} {tried : Recorder E} {sent : List RatchetMessage}
    {Replaced : PublicKey → PublicKey → Prop}
    (h : Accounted (ctx.source.keys P) ctx.store.sessions sent Replaced)
    (tries : c.Tried ctx message r tried) (distinct : (tried.keys P).Nodup) :
    Accounted (tried.keys P) (ctx.store.sessionsWith c.remote r.sessions) sent Replaced := by
  cases tries with
  | ratchet loaded =>
    rw [Store.sessionsWith_self loaded]
    exact h
  | known loaded held =>
    rw [Store.sessionsWith_self loaded]
    exact h
  | unknown loaded lacking offers =>
    obtain ⟨_, _, _, -, -, -, -, run⟩ := offers.eq_incoming
    obtain ⟨seed, _, _, _, draw, first, rfl⟩ := Handshake.incoming_eq_ok run
    refine h.put_fresh ((Recorder.draw_grew 32).ok draw).keys.subset (Record.put_promote
      (Store.sessions_of_loaded loaded) (if_pos rfl) fun _ differ => if_neg differ) ?_ ?_ first rfl
    · exact Recorder.fresh_of_draw draw distinct
    · exact Recorder.mem_keys_of_draw draw

theorem balanced_opened (h : Balanced past e.before) (distinct : (e.after.source.keys P).Nodup)
    {message : Message} {plaintext : Bytes} (unsent : e.sent? = none)
    (opened : e.opened? = some message)
    (ok : e.call.conversation.decrypt message e.before = .ok plaintext e.after) :
    Balanced (past ++ [e]) e.after := by
  obtain ⟨r, tried, after, tries, run, written, -⟩ := Conversation.decrypt_eq_ok _ ok
  obtain ⟨passed, s, rest, next, split, opens, first, current, fewer⟩ := Record.decrypt_opener run
  have passing := Recorder.triedOn_grew (P := P) e.call.conversation.limits message.inner passed tried
  have last := (Recorder.decrypt_grew _ s message.inner).ok opens
  have tried_distinct := (passing.trans last).keys.sublist.nodup distinct
  -- the books are first brought to the record on which the message is tried, then past the step
  have accounted := (accounted_tried h tries tried_distinct).mono passing.keys.subset
  have before : e.before.store.sessionsWith e.remote r.sessions e.remote = passed ++ s :: rest := by
    rw [Store.sessionsWith, if_pos rfl, split]
  have put : Put (e.before.store.sessionsWith e.remote r.sessions) e.remote after.archived next
      e.after.store.sessions := by
    refine ⟨?_, ?_, fun _ differ => (e.sessions_of_ne differ).trans (if_neg differ).symm⟩
    · rw [before]
      exact fewer.sublist.trans ((List.sublist_cons_self s rest).append_left passed)
    · rw [Entry.remote, Store.sessions_of_loaded written, Option.getD_some, Record.sessions, current]
      rfl
  have sent : sentBy (past ++ [e]) = sentBy past := by simp [sentBy_append, unsent]
  have replaced : ∀ old new, ReplacedBy (past ++ [e]) old new ↔ ReplacedBy past old new ∨
      (s.chain? message.inner.ratchetKey = none ∧ old = s.sendingKey ∧ new = next.sendingKey) :=
    fun old new => by rw [replacedBy_append, e.replaces_iff opened tries first]
  unfold Balanced
  rw [sent]
  rcases Session.decrypt_sending opens with ⟨known, -, same⟩ | ⟨unknown, seed, draw, new⟩
  · have settled : ReplacedBy (past ++ [e]) = ReplacedBy past := by
      funext old new
      simp only [replaced, eq_iff_iff]
      refine or_iff_left fun is => ?_
      simp [is.1] at known
    rw [settled]
    exact (accounted.put_sameSending before fewer.subset put same).mono last.keys.subset
  · have fresh := Recorder.fresh_of_draw (P := P) draw distinct
    have drawn := Recorder.mem_keys_of_draw (P := P) draw
    have key : next.sendingKey = (KeyPair.ofSeed P seed).publicKey := by
      rw [Session.sendingKey, new.ratchetKey]
    refine accounted.put_newSending last.keys.subset before fewer.subset put (key ▸ fresh) (key ▸ drawn)
      new.index new.previousCounter fun old new => ?_
    rw [replaced]
    exact or_congr_right (and_iff_right unknown)

theorem balanced_step (h : Balanced past e.before) (distinct : (e.after.source.keys P).Nodup) :
    Balanced (past ++ [e]) e.after := by
  rcases e.cases with ⟨unsent, unopened, silent⟩ | ⟨bundle, -, unsent, unopened, ok⟩ |
    ⟨message, plaintext, sent, unopened, ok⟩ | ⟨message, plaintext, unsent, opened, ok⟩
  · have sessions : e.after.store.sessions = e.before.store.sessions := by
      funext address
      simp only [Store.sessions, Store.loadRecord, silent.records]
    refine balanced_of_silent unsent unopened ?_
    rw [sessions]
    exact h.mono e.keys_subset
  · exact balanced_start h distinct unsent unopened ok
  · exact balanced_sent h sent unopened ok
  · exact balanced_opened h distinct unsent opened ok

end Step

theorem nodup_of_under {sent : List RatchetMessage}
    (each : ∀ key, ((under key sent).map (·.counter)).Nodup) :
    (sent.map fun m => (m.ratchetKey, m.counter)).Nodup := by
  refine List.pairwise_map.2 (List.pairwise_iff_forall_sublist.2 fun {a b} pair same => ?_)
  obtain ⟨key, counter⟩ := Prod.mk.inj same
  have both : [a, b].Sublist (under a.ratchetKey sent) := by
    have filtered := pair.filter fun m => decide (m.ratchetKey = a.ratchetKey)
    simpa [key, under] using filtered
  exact List.pairwise_iff_forall_sublist.1 (List.pairwise_map.1 (each a.ratchetKey)) both counter

theorem balanced_run (calls : List (Call P)) (ctx : Context P E)
    (fresh : ctx.store.records = .empty) (distinct : (drawnKeys calls ctx).Nodup) :
    (∀ past now rest, journal calls ctx.recording = past ++ now :: rest →
      Balanced past now.before) ∧
    Balanced (journal calls ctx.recording) (outcome calls ctx.recording) := by
  have start : Balanced [] ctx.recording := by
    have none : ctx.recording.store.sessions = fun _ => [] := by
      funext address
      simp [Store.sessions, Store.loadRecord, Context.recording, fresh]
    have never : ReplacedBy ([] : List (Entry P (Recorder E))) = fun _ _ => False := by
      funext old new
      simp [ReplacedBy]
    unfold Balanced
    rw [none, never]
    exact .empty _
  have step : ∀ past (e : Entry P (Recorder E)), Balanced past e.before →
      (e.after.source.keys P).Nodup → Balanced (past ++ [e]) e.after := fun _ _ => balanced_step
  exact journal_invariant step calls start fun e member =>
    (Onward.of_mem_journal member).2.seeds.keys.sublist.nodup distinct

theorem sentBy_bare (entries : List (Entry P (Recorder E))) :
    sentBy (entries.map Entry.bare) = sentBy entries := by
  simp [sentBy, List.filterMap_map, Entry.sent_bare]

theorem Conversation.Offered.bare {ctx : Context P (Recorder E)} {message : InitialMessage}
    {offered : Session P} {tried : Recorder E} (h : Offered ctx message offered tried) :
    Offered ctx.bare message offered tried.source := by
  obtain ⟨asked, built, reads, source, accepted, rfl⟩ := h
  have ended := Recorded.accept_alike message ctx.store.identity asked asked.bare ⟨.refl asked, rfl⟩
  rw [accepted] at ended
  obtain ⟨_, accepted', recorded⟩ := ended.ok_eq
  exact ⟨asked.bare, _, ⟨reads.store, reads.plan, reads.calls⟩, congrArg Recorder.source source,
    accepted', recorded.bare ▸ rfl⟩

theorem Conversation.Tried.bare {c : Conversation} {ctx : Context P (Recorder E)}
    {message : Message} {r : Record P} {tried : Recorder E} (h : c.Tried ctx message r tried) :
    c.Tried ctx.bare message r tried.source := by
  cases h with
  | ratchet loaded => exact .ratchet loaded
  | known loaded held => exact .known loaded held
  | unknown loaded lacking offers => exact .unknown loaded lacking offers.bare

theorem Entry.replaces_bare (e : Entry P (Recorder E)) (old new : PublicKey) :
    e.bare.Replaces old new ↔ e.Replaces old new := by
  cases opened : e.opened? with
  | none =>
    exact iff_of_false (Entry.not_replaces (e.opened_bare.trans opened) old new)
      (Entry.not_replaces opened old new)
  | some message =>
    obtain ⟨plaintext, ok⟩ := Entry.decrypt_of_opened opened
    obtain ⟨r, tried, after, tries, run, -⟩ := Conversation.decrypt_eq_ok _ ok
    obtain ⟨passed, s, rest, next, -, -, first, -⟩ := Record.decrypt_opener run
    rw [Entry.replaces_iff opened tries first]
    exact Entry.replaces_iff (e.opened_bare.trans opened) tries.bare
      ((Recorder.opener?_bare _ _ _ tried).trans first) old new

theorem replacedBy_bare (entries : List (Entry P (Recorder E))) :
    ReplacedBy (entries.map Entry.bare) = ReplacedBy entries := by
  funext old new
  simp [ReplacedBy, Entry.replaces_bare]

/-- In a run that begins without sessions, and in which all pairs drawn are different, no two
messages have the same ratchet key and counter. Under each key the counters are 0, 1, 2 and so on;
they stop before the last one, where sending fails. And every message tells the length of the
sending chain that the last ratchet step has replaced. -/
theorem counters_in_order (calls : List (Call P)) (ctx : Context P E)
    (fresh : ctx.store.records = .empty) (distinct : (drawnKeys calls ctx).Nodup) :
    ((sentBy (journal calls ctx)).map fun m => (m.ratchetKey, m.counter)).Nodup ∧
    (∀ key, (under key (sentBy (journal calls ctx))).map (·.counter.toNat) =
      List.range (under key (sentBy (journal calls ctx))).length) ∧
    ∀ earlier e later, journal calls ctx = earlier ++ e :: later →
      (∀ message, e.sent? = some message → message.inner.counter ≠ lastIndex ∧
        PreviousCount (sentBy earlier) (ReplacedBy earlier) message.inner.ratchetKey
          message.inner.previousCounter) ∧
      ∀ plaintext r s, e.call.request = .encrypt plaintext →
        e.before.store.loadRecord e.remote = .ok (some r) → r.current = some s →
        (under s.sendingKey (sentBy earlier)).length = lastIndex.toNat →
        ∃ error ctx', e.result = .error error ctx' ∧
          (error = .ofCrypto (.chainExhausted lastIndex) ∨
            e.call.conversation.Hindered e.before s.remoteIdentity error) := by
  obtain ⟨each, last⟩ := balanced_run calls ctx fresh distinct
  have all : sentBy (journal calls ctx) = sentBy (journal calls ctx.recording) := by
    rw [journal_recording, sentBy_bare]
  rw [all]
  refine ⟨nodup_of_under fun key => ?_, last.inOrder, fun earlier e later split => ?_⟩
  · refine List.Nodup.of_map UInt32.toNat ?_
    rw [List.map_map]
    exact (last.inOrder key).symm ▸ List.nodup_range
  · obtain ⟨past, now, rest, is, rfl, rfl, -⟩ := journal_split split
    have before := each past now rest is
    rw [sentBy_bare, replacedBy_bare]
    refine ⟨fun message sent => ?_, fun plaintext r s asked loaded current full => ?_⟩
    · obtain ⟨plaintext, ok⟩ := Entry.encrypt_of_sent sent
      obtain ⟨r, s, next, loaded, current, encrypted, -⟩ := Conversation.encrypt_eq_ok _ ok
      obtain ⟨room, carries, counter, previous, -⟩ := Session.encrypt_eq_ok encrypted
      rw [carries, counter, previous]
      exact ⟨room, (before.counted _ s (Store.mem_sessions_of_current loaded current)).previous⟩
    · have held := Store.mem_sessions_of_current loaded current
      have stands : s.sending.index = lastIndex :=
        UInt32.toNat.inj ((before.counted _ s held).index.trans full)
      obtain ⟨⟨c, request⟩, ctx⟩ := now
      cases asked
      obtain ⟨error, ctx', failed, why⟩ := c.encrypt_exhausted loaded current stands plaintext
      exact ⟨error, ctx', bind_of_error failed, why⟩

/-- The first party has an answer to its first message before it sends the last two. -/
def talk : Option (List (Call Suite.plain)) := do
  let opening : List (Call Suite.plain) :=
    [⟨.standard ⟨"bob", 1⟩, .start (newcomerBundle 1000 false)⟩,
      ⟨.standard ⟨"bob", 1⟩, .encrypt [1]⟩, ⟨.standard ⟨"bob", 1⟩, .encrypt [2]⟩]
  let hello ← (journal opening (newcomer 0)).findSome? Entry.sent?
  let reply ← (journal [⟨.standard ⟨"alice", 1⟩, .decrypt hello⟩,
    ⟨.standard ⟨"alice", 1⟩, .encrypt [3]⟩] (newcomer 1000)).findSome? Entry.sent?
  return opening ++ [⟨.standard ⟨"bob", 1⟩, .decrypt reply⟩,
    ⟨.standard ⟨"bob", 1⟩, .encrypt [4]⟩, ⟨.standard ⟨"bob", 1⟩, .encrypt [5]⟩]

def talkCounts (calls : List (Call Suite.plain)) : Bool :=
  decide (drawnKeys calls (newcomer 0)).Nodup &&
    decide ((sentBy (journal calls (newcomer 0))).map (fun m => (m.counter, m.previousCounter)) =
      [(0, 0), (1, 0), (0, 2), (1, 2)])

set_option maxRecDepth 100000 in
theorem talk_counts : (talk.any talkCounts) = true := by
  decide +kernel

/-- Two messages are sent before the first party's ratchet step and two after it. -/
theorem talk_counted :
    ∃ calls, talk = some calls ∧ (newcomer 0).store.records = .empty ∧
      (drawnKeys calls (newcomer 0)).Nodup ∧
      (sentBy (journal calls (newcomer 0))).map (fun m => (m.counter, m.previousCounter)) =
        [(0, 0), (1, 0), (0, 2), (1, 2)] ∧
      ((sentBy (journal calls (newcomer 0))).map fun m => (m.ratchetKey, m.counter)).Nodup := by
  obtain ⟨calls, is, counts⟩ := (Option.any_eq_true _ _).1 talk_counts
  simp only [talkCounts, Bool.and_eq_true, decide_eq_true_eq] at counts
  exact ⟨calls, is, rfl, counts.1, counts.2,
    (counters_in_order calls (newcomer 0) rfl counts.1).1⟩

end RatchetSession
