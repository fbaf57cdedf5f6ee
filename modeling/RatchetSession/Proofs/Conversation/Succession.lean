import RatchetSession.Proofs.Conversation.Effect
import RatchetSession.Proofs.Conversation.Recorded
import RatchetSession.Proofs.Session.Anchored
import RatchetSession.Simulation.Exchange
set_option autoImplicit false

/-!
Where the sessions in a record come from: from those of the record before the call, from a
start, or from an initial message. Only the last kind has a chain that does not end at a
drawn key, and no two sessions with such a chain have a base key in common.
-/

namespace RatchetSession

variable {P : Suite} {E : Type} [Randomness E] {drawn : List PublicKey}

/-- What a session needs to come into the record with an initial message: its base key is unknown,
and the one-time pre-key that the message names is there. -/
def Entry.Brings (e : Entry P E) (u : Session P) : Prop :=
  ∃ m, e.opened? = some (.initial m) ∧ u.baseKey = m.baseKey ∧
    (∀ s ∈ e.before.store.sessions e.remote, s.baseKey ≠ m.baseKey) ∧
    ∀ id, m.preKeyId = some id → e.before.store.preKeys.find? id ≠ none

/-- A session opens a message and comes to the front, with its position used up. -/
structure Entry.Opening (drawn : List PublicKey) (e : Entry P E) (message : RatchetMessage)
    (s next : Session P) (kept : List (Session P)) : Prop where
  opener : s ∈ e.before.store.sessions e.remote ∨ e.Brings s
  anchored : s.Anchored drawn
  unspent : ∀ chain ∈ s.receiving, chain.remoteKey = message.ratchetKey →
    ¬ chain.Spent message.counter
  heir : s.Heir drawn next
  spent : ∀ chain ∈ next.receiving, chain.remoteKey = message.ratchetKey →
    chain.Spent message.counter
  current : e.after.store.current? e.remote = some next
  after : e.after.store.sessions e.remote = next :: kept
  anchorage : Anchorage drawn (next :: kept)
  kept : ∀ u ∈ kept, u ∈ e.before.store.sessions e.remote ∨ e.Brings u

namespace Handshake

theorem outgoing_anchored {bundle : Bundle P} {identity : Identity} {s : Session P}
    {source source' : E} (h : outgoing bundle identity source = .ok s source')
    (own : s.sendingKey ∈ drawn) : s.Anchored drawn ∧ s.receiving = [] := by
  obtain ⟨_, _, _, -, -, rfl⟩ := outgoing_eq_ok h
  exact ⟨⟨own, List.nodup_nil, by simp [Session.initiator], by simp [Session.initiator]⟩, rfl⟩

theorem incoming_anchored {message : InitialMessage} {remote : IdentityKey P}
    {identity : Identity} {signed : SignedPreKey} {oneTime : Option PreKey} {s : Session P}
    {source source' : E} (h : incoming message remote identity signed oneTime source = .ok s source')
    (own : s.sendingKey ∈ drawn) : s.Anchored drawn ∧ s.baseKey = message.baseKey := by
  obtain ⟨_, _, receivingKey, _, -, -, rfl⟩ := incoming_eq_ok h
  refine ⟨⟨own, List.nodup_singleton _, fun chain member => ?_, fun chain member _ => ?_⟩, rfl⟩
  · rw [List.mem_singleton.1 member]
    exact ReceivingChain.new_tidy _ _ _
  · rw [List.mem_singleton.1 member]
    rfl

end Handshake

namespace Entry

variable {e : Entry P (Recorder E)}

theorem tried_anchorage {message : Message} {r : Record P} {tried : Recorder E}
    (h : Anchorage drawn (e.before.store.sessions e.remote)) (opened : e.opened? = some message)
    (tries : e.call.conversation.Tried e.before message r tried) (within : tried.keys P ⊆ drawn) :
    Anchorage drawn r.sessions ∧
      ∀ u ∈ r.sessions, u ∈ e.before.store.sessions e.remote ∨ e.Brings u := by
  have same : ∀ {r : Record P}, e.before.store.loadRecord e.remote = .ok (some r) →
      Anchorage drawn r.sessions ∧
        ∀ u ∈ r.sessions, u ∈ e.before.store.sessions e.remote ∨ e.Brings u := by
    intro r loaded
    have sessions : e.before.store.sessions e.remote = r.sessions := Store.sessions_of_loaded loaded
    exact ⟨sessions ▸ h, fun u member => .inl (sessions ▸ member)⟩
  cases tries with
  | ratchet loaded => exact same loaded
  | known loaded held => exact same loaded
  | @unknown m stored offered _ loaded lacking offers =>
    -- the new session stands alone with its base key, since no session has it
    obtain ⟨_, _, oneTime, -, -, -, named, run⟩ := offers.eq_incoming
    have own : offered.sendingKey ∈ drawn := by
      obtain ⟨seed, _, _, _, draw, -, rfl⟩ := Handshake.incoming_eq_ok run
      exact within (Recorder.mem_keys_of_draw draw)
    obtain ⟨anchored, base⟩ := Handshake.incoming_anchored run own
    have sessions : e.before.store.sessions e.remote = (stored.getD .empty).sessions :=
      Store.sessions_of_loaded loaded
    have other : ∀ s ∈ e.before.store.sessions e.remote, s.baseKey ≠ m.baseKey :=
      fun s member => Conversation.baseKey_of_unknown lacking (sessions ▸ member)
    have fewer := (Record.archived_prefix (stored.getD .empty)
      e.call.conversation.limits.maxArchivedStates).sublist
    rw [← sessions] at fewer
    refine ⟨h.put fewer anchored fun u member _ _ same => ?_, fun u member => ?_⟩
    · exact other u (fewer.subset member) (same.symm.trans base)
    · rcases List.mem_cons.1 member with rfl | member
      · refine .inr ⟨m, opened, base, other, fun id is absent => ?_⟩
        rw [is, Option.map_some, absent] at named
        cases oneTime <;> cases named
      · exact .inl (fewer.subset member)

theorem exists_opening {message : Message} (h : Anchorage drawn (e.before.store.sessions e.remote))
    (within : e.after.source.keys P ⊆ drawn) (opened : e.opened? = some message) :
    ∃ s next kept, e.Opening drawn message.inner s next kept := by
  obtain ⟨plaintext, ok⟩ := Entry.decrypt_of_opened opened
  obtain ⟨r, tried, after, tries, run, written, -⟩ := Conversation.decrypt_eq_ok _ ok
  obtain ⟨passed, s, rest, next, split, opens, -, current, fewer⟩ := Record.decrypt_opener run
  have grew := (Recorder.record_decrypt_grew (P := P) _ _ _).ok (Record.edit_eq_ok.2 run)
  obtain ⟨anchorage, from_before⟩ :=
    tried_anchorage h opened tries (List.Subset.trans grew.keys.subset within)
  have inside : s ∈ r.sessions := by simp [split]
  -- the successor sends as before, or under the pair that was drawn for its step
  have own : next.sendingKey ∈ drawn := by
    rcases Session.decrypt_sending opens with ⟨-, -, same⟩ | ⟨-, seed, draw, new⟩
    · rw [Session.sendingKey, same.sending]
      exact (anchorage.each s inside).own
    · rw [Session.sendingKey, new.ratchetKey]
      exact within (Recorder.mem_keys_of_draw draw)
  obtain ⟨anchored, heir, spent, unspent⟩ :=
    Session.decrypt_anchored (anchorage.each s inside) opens own
  refine ⟨s, next, after.archived, from_before s inside, anchorage.each s inside, unspent, heir,
    spent, ?_, ?_,
    (split ▸ anchorage).of_heir fewer.sublist anchored heir, fun u member => from_before u ?_⟩
  · have loaded : e.after.store.loadRecord e.remote = .ok (some after) := written
    simp only [Store.current?, loaded, current]
  · have sessions : e.after.store.sessions e.remote = after.sessions :=
      Store.sessions_of_loaded written
    simp [sessions, Record.sessions, current]
  · rw [split]
    exact ((List.sublist_cons_self s rest).append_left passed).subset (fewer.subset member)

/-- What a call makes of the sessions at an address: each is the heir of one from before, has no chain
that matters, or has come in with an initial message. -/
structure Succession (drawn : List PublicKey) (e : Entry P (Recorder E)) (address : Address) :
    Prop where
  anchorage : Anchorage drawn (e.after.store.sessions address)
  heirs : ∀ u ∈ e.after.store.sessions address,
    (∃ s ∈ e.before.store.sessions address, s.Heir drawn u) ∨ ¬ u.Answering drawn ∨
      (address = e.remote ∧ e.Brings u)

theorem succession_of_same {address : Address}
    (h : Anchorage drawn (e.before.store.sessions address))
    (same : e.after.store.sessions address = e.before.store.sessions address) :
    e.Succession drawn address := by
  refine ⟨same ▸ h, fun u member => ?_⟩
  rw [same] at member
  exact .inl ⟨u, member, .refl u⟩

theorem succession_started (h : Anchorage drawn (e.before.store.sessions e.remote))
    (within : e.after.source.keys P ⊆ drawn) {bundle : Bundle P}
    (ok : e.call.conversation.start bundle e.before = .ok () e.after) :
    e.Succession drawn e.remote := by
  obtain ⟨s, stored, made, loaded, written, -⟩ := Conversation.start_eq_ok _ ok
  have own : s.sendingKey ∈ drawn := by
    obtain ⟨seed, _, _, draw, -, rfl⟩ := Handshake.outgoing_eq_ok made
    exact within (Recorder.mem_keys_of_draw draw)
  obtain ⟨anchored, deaf⟩ := Handshake.outgoing_anchored made own
  have silent : ¬ s.Answering drawn := by simp [Session.Answering, deaf]
  have before : e.before.store.sessions e.remote = (stored.getD .empty).sessions :=
    Store.sessions_of_loaded loaded
  have after : e.after.store.sessions e.remote = _ := Store.sessions_of_loaded written
  have fewer := (Record.archived_prefix (stored.getD .empty)
    e.call.conversation.limits.maxArchivedStates).sublist
  rw [← before] at fewer
  refine ⟨after ▸ h.put fewer anchored fun _ _ answers => absurd answers silent,
    fun u member => ?_⟩
  rw [after] at member
  rcases List.mem_cons.1 member with rfl | member
  · exact .inr (.inl silent)
  · exact .inl ⟨u, fewer.subset member, .refl u⟩

theorem succession_sent (h : Anchorage drawn (e.before.store.sessions e.remote))
    {plaintext : Bytes} {message : Message}
    (ok : e.call.conversation.encrypt plaintext e.before = .ok message e.after) :
    e.Succession drawn e.remote := by
  obtain ⟨r, s, next, loaded, current, encrypted, written, -⟩ := Conversation.encrypt_eq_ok _ ok
  obtain ⟨-, -, -, -, rfl⟩ := Session.encrypt_eq_ok encrypted
  have before : e.before.store.sessions e.remote = [] ++ s :: r.archived := by
    simp [Store.sessions_of_loaded loaded, Entry.remote, Record.sessions, current]
  have after : e.after.store.sessions e.remote = s.advanced :: r.archived := by
    simp [Store.sessions_of_loaded written, Entry.remote, Record.sessions]
  have inside : s ∈ e.before.store.sessions e.remote := by simp [before]
  have heir : s.Heir drawn s.advanced := .of_sameChains (.of_eq rfl) rfl
  have anchored : s.advanced.Anchored drawn :=
    (h.each s inside).of_sameChains (.of_eq rfl) (h.each s inside).own rfl
  refine ⟨after ▸ (before ▸ h).of_heir (List.Sublist.refl _) anchored heir, fun u member => ?_⟩
  rw [after] at member
  rcases List.mem_cons.1 member with rfl | member
  · exact .inl ⟨s, inside, heir⟩
  · exact .inl ⟨u, by simp [before, member], .refl u⟩

theorem succession_opened (h : Anchorage drawn (e.before.store.sessions e.remote))
    (within : e.after.source.keys P ⊆ drawn) {message : Message}
    (opened : e.opened? = some message) : e.Succession drawn e.remote := by
  obtain ⟨s, next, kept, opening⟩ := Entry.exists_opening h within opened
  refine ⟨opening.after ▸ opening.anchorage, fun u member => ?_⟩
  rw [opening.after] at member
  rcases List.mem_cons.1 member with rfl | member
  · rcases opening.opener with before | ⟨m, is, base, brought⟩
    · exact .inl ⟨s, before, opening.heir⟩
    · exact .inr (.inr ⟨rfl, m, is, opening.heir.baseKey.trans base, brought⟩)
  · rcases opening.kept u member with before | brought
    · exact .inl ⟨u, before, .refl u⟩
    · exact .inr (.inr ⟨rfl, brought⟩)

theorem succession (h : ∀ address, Anchorage drawn (e.before.store.sessions address))
    (within : e.after.source.keys P ⊆ drawn) (address : Address) : e.Succession drawn address := by
  by_cases here : address = e.remote
  · subst here
    rcases e.cases with ⟨-, -, silent⟩ | ⟨bundle, -, -, -, ok⟩ |
      ⟨message, plaintext, -, -, ok⟩ | ⟨message, plaintext, -, opened, -⟩
    · exact succession_of_same (h _) (by simp only [Store.sessions, Store.loadRecord, silent.records])
    · exact succession_started (h _) within ok
    · exact succession_sent (h _) ok
    · exact succession_opened (h _) within opened
  · exact succession_of_same (h address) (e.sessions_of_ne here)

end Entry

end RatchetSession
