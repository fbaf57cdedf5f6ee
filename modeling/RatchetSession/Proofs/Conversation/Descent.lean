import RatchetSession.Proofs.Conversation.Bounded
import RatchetSession.Proofs.Session.Pending
set_option autoImplicit false

/-!
Where a session in a record comes from: the call that has made it, and those since then that
have sent through it or opened messages with it. What it sends first are initial messages,
all with the same fields, until it has opened a message.
-/

namespace RatchetSession

variable {P : Suite} {E : Type} [Randomness E]

namespace Entry

variable {e : Entry P E} {s next : Session P}

/-- A session is made when it is started from a bundle, and when an initial message that is opened has
a base key that no session has. -/
inductive Makes (e : Entry P E) (s : Session P) : Prop
  | started {bundle : Bundle P} (asked : e.call.request = .start bundle)
      (made : Handshake.outgoing bundle e.before.store.identity e.before.source =
        .ok s e.after.source)
  | offered {message : InitialMessage} {stored : Option (Record P)} {tried : E}
      (taken : e.opened? = some (.initial message))
      (loaded : e.before.store.loadRecord e.remote = .ok stored)
      (lacking : (stored.getD .empty).hasBaseKey message.baseKey = false)
      (offers : Conversation.Offered e.before message s tried)

/-- What a call makes of a session of one record, and the message that the session accepts. -/
inductive Turns (e : Entry P E) (address : Address) (s : Session P) :
    Option RatchetMessage → Session P → Prop
  | kept : Turns e address s none s
  | sent {plaintext : Bytes} {message : Message} {r : Record P} {next : Session P}
      (here : e.remote = address) (returned : e.sent? = some message)
      (loaded : e.before.store.loadRecord e.remote = .ok (some r)) (current : r.current = some s)
      (sealed : s.encrypt plaintext = .ok (message, next)) : Turns e address s none next
  | opened {message : Message} {r : Record P} {tried : E} {next : Session P}
      (here : e.remote = address) (taken : e.opened? = some message)
      (tries : e.call.conversation.Tried e.before message r tried)
      (first : Record.opener? e.call.conversation.limits message.inner r.sessions tried =
        some (s, next)) : Turns e address s (some message.inner) next

theorem Makes.session_made (h : e.Makes s) : s.Made := by
  cases h with
  | started _ made => exact Handshake.made_of_outgoing made
  | offered _ _ _ offers =>
    obtain ⟨_, _, _, -, -, -, -, run⟩ := offers.eq_incoming
    exact Handshake.made_of_incoming run

theorem Turns.since_append {address : Address} {first : Session P} {heard : List RatchetMessage}
    {more : Option RatchetMessage} (h : e.Turns address s more next) (since : first.Since heard s) :
    first.Since (heard ++ more.toList) next := by
  cases h with
  | kept => simpa using since
  | sent _ _ _ _ sealed => simpa using since.encrypt sealed
  | opened _ _ _ found =>
    obtain ⟨_, _, _, opens⟩ := Record.opens_of_opener? found
    exact since.decrypt opens

theorem mem_of_tried {message : Message} {r : Record P} {tried : E}
    (taken : e.opened? = some message)
    (tries : e.call.conversation.Tried e.before message r tried) (member : s ∈ r.sessions) :
    s ∈ e.before.store.sessions e.remote ∨ e.Makes s := by
  cases tries with
  | ratchet loaded | known loaded _ =>
    have sessions : e.before.store.sessions e.remote = r.sessions := Store.sessions_of_loaded loaded
    exact .inl (sessions ▸ member)
  | @unknown _ stored _ _ loaded lacking offers =>
    have sessions : e.before.store.sessions e.remote = (stored.getD .empty).sessions :=
      Store.sessions_of_loaded loaded
    rcases List.mem_cons.1 member with rfl | behind
    · exact .inr (.offered taken loaded lacking offers)
    · exact .inl (sessions ▸ (Record.archived_prefix _ _).subset behind)

theorem sessions_after (e : Entry P E) {stored : Option (Record P)}
    (loaded : e.after.store.loadRecord e.remote = .ok stored) :
    (∀ s ∈ (stored.getD .empty).archived, s ∈ e.before.store.sessions e.remote ∨ e.Makes s) ∧
    ∀ next ∈ (stored.getD .empty).current, ∃ s more,
      (s ∈ e.before.store.sessions e.remote ∨ e.Makes s) ∧ e.Turns e.remote s more next := by
  rcases e.cases with ⟨-, -, silent⟩ | ⟨bundle, asked, -, -, ok⟩ |
    ⟨message, plaintext, returned, -, ok⟩ | ⟨message, plaintext, -, taken, ok⟩
  · have before : e.before.store.loadRecord e.remote = .ok stored := by
      rw [Store.loadRecord, ← silent.records]
      exact loaded
    rw [Store.sessions_of_loaded before]
    refine ⟨fun s archived => .inl (List.mem_append_right _ archived), fun next current => ?_⟩
    exact ⟨next, none, .inl (List.mem_append_left _ (Option.mem_toList.2 current)), .kept⟩
  · obtain ⟨s, old, made, read, written, -⟩ := Conversation.start_eq_ok _ ok
    cases loaded.symm.trans written
    have before : e.before.store.sessions e.remote = (old.getD .empty).sessions :=
      Store.sessions_of_loaded read
    rw [before]
    refine ⟨fun s archived => .inl ((Record.archived_prefix _ _).subset archived),
      fun next current => ?_⟩
    cases current
    exact ⟨s, none, .inr (.started asked made), .kept⟩
  · obtain ⟨r, s, sealed, read, held, seals, written, -⟩ := Conversation.encrypt_eq_ok _ ok
    cases loaded.symm.trans written
    have before : e.before.store.sessions e.remote = r.sessions := Store.sessions_of_loaded read
    rw [before]
    refine ⟨fun s archived => .inl (List.mem_append_right _ archived), fun next current => ?_⟩
    cases current
    have member : s ∈ r.sessions := by simp [Record.sessions, held]
    exact ⟨s, none, .inl member, .sent rfl returned read held seals⟩
  · obtain ⟨r, tried, after, tries, run, written, -⟩ := Conversation.decrypt_eq_ok _ ok
    cases loaded.symm.trans written
    obtain ⟨passed, s, rest, next, split, -, first, front, fewer⟩ := Record.decrypt_opener run
    have kept := ((List.sublist_cons_self s rest).append_left passed).subset
    refine ⟨fun u archived => mem_of_tried taken tries (split ▸ kept (fewer.subset archived)),
      fun u current => ?_⟩
    cases front.symm.trans current
    exact ⟨s, _, mem_of_tried taken tries (by simp [split]), .opened rfl taken tries first⟩

end Entry

/-- A session held for a device, from the one it was at first, and the messages that it has accepted
since. A call that makes a session may open a message with it at once. -/
inductive Descent (address : Address) (first : Session P) :
    List (Entry P E) → List RatchetMessage → Session P → Prop
  | come {past : List (Entry P E)} {e : Entry P E} {heard : Option RatchetMessage} {s : Session P}
      (here : e.remote = address) (made : e.Makes first) (turned : e.Turns address first heard s)
      (held : s ∈ e.after.store.sessions address) : Descent address first (past ++ [e]) heard.toList s
  | go {past : List (Entry P E)} {e : Entry P E} {heard : List RatchetMessage} {s : Session P}
      {more : Option RatchetMessage} {next : Session P} (before : Descent address first past heard s)
      (turned : e.Turns address s more next) (held : next ∈ e.after.store.sessions address) :
      Descent address first (past ++ [e]) (heard ++ more.toList) next

namespace Descent

variable {address : Address} {first s : Session P} {past : List (Entry P E)}
  {heard : List RatchetMessage}

theorem first_made (h : Descent address first past heard s) : first.Made := by
  induction h with
  | come _ made => exact made.session_made
  | go _ _ _ ih => exact ih

theorem first_since (h : Descent address first past heard s) : first.Since heard s := by
  induction h with
  | come _ _ turned => exact turned.since_append (.refl first)
  | go _ turned _ ih => exact turned.since_append ih

end Descent

structure Descended (past : List (Entry P E)) (ctx : Context P E) : Prop where
  readable : ctx.store.Holding fun _ _ => True
  descents : ∀ address, ∀ s ∈ ctx.store.sessions address,
    ∃ first heard, Descent address first past heard s

theorem Descended.step {past : List (Entry P E)} {e : Entry P E} (h : Descended past e.before) :
    Descended (past ++ [e]) e.after := by
  have readable : e.after.store.Holding fun _ _ => True := by
    refine e.holding_after h.readable (fun _ _ is => is) (fun _ _ ok => ?_) (fun _ _ ok => ?_)
      fun _ _ ok => ?_
    · obtain ⟨_, _, -, -, written, -⟩ := Conversation.start_eq_ok _ ok
      exact ⟨_, written, trivial⟩
    · obtain ⟨_, _, _, -, -, -, written, -⟩ := Conversation.encrypt_eq_ok _ ok
      exact ⟨_, written, trivial⟩
    · obtain ⟨_, _, _, -, -, written, -⟩ := Conversation.decrypt_eq_ok _ ok
      exact ⟨_, written, trivial⟩
  refine ⟨readable, fun address next held => ?_⟩
  by_cases here : e.remote = address
  · subst here
    obtain ⟨stored, loaded, -⟩ := readable e.remote
    have parts := held
    rw [Store.sessions_of_loaded loaded] at parts
    obtain ⟨archived, current⟩ := e.sessions_after loaded
    have whence : ∃ s more, (s ∈ e.before.store.sessions e.remote ∨ e.Makes s) ∧
        e.Turns e.remote s more next := by
      rcases List.mem_append.1 parts with front | behind
      · exact current next (Option.mem_toList.1 front)
      · exact ⟨next, none, archived next behind, .kept⟩
    obtain ⟨s, more, before | made, turned⟩ := whence
    · obtain ⟨first, heard, descent⟩ := h.descents e.remote s before
      exact ⟨first, _, .go descent turned held⟩
    · exact ⟨s, _, .come rfl made turned held⟩
  · have before := held
    rw [e.sessions_of_ne (Ne.symm here)] at before
    obtain ⟨first, heard, descent⟩ := h.descents address next before
    exact ⟨first, _, .go descent .kept held⟩

namespace Entry

theorem uncommitted_of_error {e : Entry P E} {error : SessionError} {ctx : Context P E}
    (failed : e.result = .error error ctx) : Uncommitted e.remote e.before ctx := by
  have atomic := e.call.perform_atomic e.before
  unfold CommitsFrom at atomic
  rw [show e.call.perform e.before = .error error ctx from failed] at atomic
  exact atomic

theorem sent_by_descent {past : List (Entry P E)} {e : Entry P E} (h : Descended past e.before)
    {message : Message} (returned : e.sent? = some message) :
    ∃ r s, e.before.store.loadRecord e.remote = .ok (some r) ∧ r.current = some s ∧
      (∃ first heard, Descent e.remote first past heard s) ∧
      ∀ first heard, Descent e.remote first past heard s →
        ((∃ initial, message = .initial initial) ↔ s.origin = .initiator ∧ heard = []) ∧
        ∀ initial, message = .initial initial → ∃ pending, first.pending = some pending ∧
          initial.identityKey = first.localIdentity.bytes ∧ initial.baseKey = first.baseKey ∧
          initial.signedPreKeyId = pending.signedPreKeyId ∧
          initial.preKeyId = pending.preKeyId ∧
          initial.message.ratchetKey = initial.baseKey := by
  obtain ⟨plaintext, ok⟩ := encrypt_of_sent returned
  obtain ⟨r, s, next, loaded, current, sealed, -⟩ := Conversation.encrypt_eq_ok _ ok
  have held := Store.mem_sessions_of_current loaded current
  obtain ⟨goes, fields⟩ := Session.encrypt_pending sealed
  refine ⟨r, s, loaded, current, h.descents e.remote s held, fun first heard descent => ⟨?_, ?_⟩⟩
  · rw [goes]
    exact Session.pending_iff_unheard descent.first_made descent.first_since
  · intro initial is
    obtain ⟨pending, waits, identity, base, signed, oneTime, key⟩ := fields initial is
    obtain ⟨same, own, ratchet, -⟩ := Session.pending_parts descent.first_made descent.first_since waits
    have start := descent.first_since.start
    refine ⟨pending, same, ?_, ?_, signed, oneTime, ?_⟩
    · rw [identity, start.localIdentity]
    · rw [base, own, start.baseKey]
    · rw [key, ratchet, base, own]

end Entry

/-- In a run that begins without sessions, the fields of initial messages are pending in just those
sessions that were started here and have not accepted a message, and these are the ones without a
receiving chain; their ratchet key is still the base key. So the current session sends initial
messages until it accepts one, all with the fields that it was made with and under the base key.
A call that fails ends this for no session, and neither does the archive. The bundles and messages
that come in, the store's failures and the source may be any. -/
theorem pending_until_answered (calls : List (Call P)) (ctx : Context P E)
    (fresh : ctx.store.records = .empty) :
    let run := journal calls ctx
    (∀ address, ∃ stored, (outcome calls ctx).store.loadRecord address = .ok stored ∧
      ∀ s ∈ (stored.getD .empty).sessions,
        (∃ first heard, Descent address first run heard s) ∧
        (∀ first heard, Descent address first run heard s →
          (s.pending.isSome = true ↔ s.origin = .initiator ∧ heard = [])) ∧
        (s.pending.isSome = true ↔ s.origin = .initiator ∧ s.receiving = []) ∧
        ∀ pending, s.pending = some pending → pending.baseKey = s.baseKey ∧
          s.sending.ratchetKey.publicKey = s.baseKey ∧ s.previousCounter = 0) ∧
    ∀ earlier e later, run = earlier ++ e :: later →
      (∀ message, e.sent? = some message → ∃ r s,
        e.before.store.loadRecord e.remote = .ok (some r) ∧ r.current = some s ∧
        (∃ first heard, Descent e.remote first earlier heard s) ∧
        ∀ first heard, Descent e.remote first earlier heard s →
          ((∃ initial, message = .initial initial) ↔ s.origin = .initiator ∧ heard = []) ∧
          ∀ initial, message = .initial initial → ∃ pending, first.pending = some pending ∧
            initial.identityKey = first.localIdentity.bytes ∧ initial.baseKey = first.baseKey ∧
            initial.signedPreKeyId = pending.signedPreKeyId ∧
            initial.preKeyId = pending.preKeyId ∧
            initial.message.ratchetKey = initial.baseKey) ∧
      (∀ error after, e.result = .error error after →
        after.store.records = e.before.store.records) ∧
      ∀ stored, e.after.store.loadRecord e.remote = .ok stored →
        ∀ s ∈ (stored.getD .empty).archived,
          s ∈ e.before.store.sessions e.remote ∨ e.Makes s := by
  intro run
  have start : Descended (E := E) [] ctx := by
    refine ⟨Store.holding_of_fresh fresh fun _ => trivial, fun address s held => ?_⟩
    have unread : ctx.store.loadRecord address = .ok none := by
      rw [Store.loadRecord, fresh]
      rfl
    rw [Store.sessions_of_loaded unread] at held
    cases held
  have step : ∀ (past : List (Entry P E)) e, Descended past e.before → True →
      Descended (past ++ [e]) e.after := fun _ _ h _ => h.step
  obtain ⟨each, last⟩ := journal_invariant step calls start fun _ _ => trivial
  refine ⟨fun address => ?_, fun earlier e later split => ⟨fun message returned => ?_,
    fun _ _ failed => (Entry.uncommitted_of_error failed).records,
    fun stored loaded => (e.sessions_after loaded).1⟩⟩
  · obtain ⟨stored, loaded, -⟩ := last.readable address
    refine ⟨stored, loaded, fun s member => ?_⟩
    obtain ⟨first, heard, descent⟩ :=
      last.descents address s (Store.sessions_of_loaded loaded ▸ member)
    refine ⟨⟨first, heard, descent⟩, fun _ _ other => ?_, ?_, fun pending waits => ?_⟩
    · exact Session.pending_iff_unheard other.first_made other.first_since
    · exact Session.pending_iff_deaf descent.first_made descent.first_since
    · exact (Session.pending_parts descent.first_made descent.first_since waits).2
  · exact Entry.sent_by_descent (each earlier e later split) returned

def talkWaits (calls : List (Call Suite.plain)) : Bool :=
  match (outcome (calls ++ [restart]) (newcomer 0)).store.loadRecord ⟨"bob", 1⟩ with
  | .ok (some r) => r.sessions.map (·.pending.isSome) == [true, false]
  | _ => false

set_option maxRecDepth 100000 in
theorem talk_waits : (talk.any talkWaits) = true := by
  decide +kernel

/-- After a talk and a second start just the new session waits for an answer, and has heard nothing. -/
theorem talk_waited :
    ∃ calls r, talk = some calls ∧ (newcomer 0).store.records = .empty ∧
      (outcome (calls ++ [restart]) (newcomer 0)).store.loadRecord ⟨"bob", 1⟩ = .ok (some r) ∧
      r.sessions.map (·.pending.isSome) = [true, false] ∧
      ∀ s ∈ r.sessions,
        (∃ first heard,
          Descent ⟨"bob", 1⟩ first (journal (calls ++ [restart]) (newcomer 0)) heard s) ∧
        (∀ first heard,
          Descent ⟨"bob", 1⟩ first (journal (calls ++ [restart]) (newcomer 0)) heard s →
            (s.pending.isSome = true ↔ s.origin = .initiator ∧ heard = [])) ∧
        (s.pending.isSome = true ↔ s.origin = .initiator ∧ s.receiving = []) := by
  obtain ⟨calls, is, waits⟩ := (Option.any_eq_true _ _).1 talk_waits
  unfold talkWaits at waits
  split at waits
  · rename_i r loaded
    obtain ⟨held, -⟩ := pending_until_answered (calls ++ [restart]) (newcomer 0) rfl
    obtain ⟨stored, loaded', each⟩ := held ⟨"bob", 1⟩
    cases loaded.symm.trans loaded'
    refine ⟨calls, r, is, rfl, loaded, beq_iff_eq.1 waits, fun s member => ?_⟩
    obtain ⟨descends, unheard, deaf, -⟩ := each s member
    exact ⟨descends, unheard, deaf⟩
  · cases waits

end RatchetSession
