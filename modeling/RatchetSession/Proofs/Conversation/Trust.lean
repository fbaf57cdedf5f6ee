import RatchetSession.Proofs.Conversation.Counting
set_option autoImplicit false

namespace RatchetSession

open RatchetSession.Computation (bind_eq_ok pure_eq_ok endState)

variable {P : Suite} {E : Type}

namespace Store

variable {st st' st'' : Store P} {address : Address} {key known : IdentityKey P}

theorem eq_of_trusts (trusted : st.trusts address key = true)
    (found : st.identities.find? address = some known) : known = key := by
  simpa [trusts, found] using trusted

def KeepsIdentities (st st' : Store P) : Prop :=
  ∀ address key, st.identities.find? address = some key → st'.identities.find? address = some key

namespace KeepsIdentities

theorem of_eq (h : st'.identities = st.identities) : st.KeepsIdentities st' := by
  intro address key found
  rw [h, found]

theorem trans (first : st.KeepsIdentities st') (second : st'.KeepsIdentities st'') :
    st.KeepsIdentities st'' :=
  fun address key found => second address key (first address key found)

/-- A trusted identity takes the place of no other. -/
theorem of_insert (trusted : st.trusts address key = true)
    (saved : st'.identities = st.identities.insert address key) : st.KeepsIdentities st' := by
  intro other known found
  by_cases here : other = address
  · subst here
    rw [saved, Table.find?_insert_self, eq_of_trusts trusted found]
  · rw [saved, Table.find?_insert_of_ne here, found]

end KeepsIdentities

/-- The session is the owner's, with the identity saved for the address. -/
def Knows (st : Store P) (address : Address) (s : Session P) : Prop :=
  st.identities.find? address = some s.remoteIdentity ∧ s.localIdentity = st.identity.key P

theorem Knows.mono {s : Session P} (h : st.Knows address s) (keeps : st.KeepsIdentities st')
    (same : st'.identity = st.identity) : st'.Knows address s :=
  ⟨keeps _ _ h.1, by rw [same, h.2]⟩

theorem Knows.of_start {s s' : Session P} (h : st.Knows address s) (start : s.SameStart s') :
    st.Knows address s' := by
  unfold Knows
  rw [start.remoteIdentity, start.localIdentity]
  exact h

def Vouches (st : Store P) : Prop :=
  st.Holding fun address r => ∀ s ∈ r.sessions, st.Knows address s

end Store

theorem Accepted.trusted {remote : Address} {ctx ctx' : Context P E} {key : IdentityKey P}
    (h : Accepted remote ctx ctx' key) : ctx.store.trusts remote key = true := by
  obtain ⟨asked, answered, told, reads, -⟩ := h
  obtain ⟨found, -⟩ := Action.query_eq_ok told
  rw [← reads.store]
  exact Except.ok.inj found

theorem Uncommitted.keepsIdentities {remote : Address} {ctx ctx' : Context P E}
    (h : Uncommitted remote ctx ctx') : ctx.store.KeepsIdentities ctx'.store := by
  rcases h.identities with same | ⟨key, accepted, saved⟩
  · exact .of_eq same
  · exact .of_insert accepted.trusted saved

theorem Conversation.Admits.keepsIdentities {c : Conversation} {ctx ctx' : Context P E}
    {r : Record P} (h : c.Admits ctx ctx' r) : ctx.store.KeepsIdentities ctx'.store := by
  cases h with
  | held loaded same => exact .of_eq same
  | offered loaded is own trusted saved => exact .of_insert trusted saved

theorem Conversation.Admits.knows {c : Conversation} {ctx ctx' : Context P E} {r : Record P}
    (h : c.Admits ctx ctx' r) (same : ctx'.store.identity = ctx.store.identity)
    (before : ctx.store.Vouches) : ∀ s ∈ r.sessions, ctx'.store.Knows c.remote s := by
  have keeps := h.keepsIdentities
  cases h with
  | held loaded _ => exact fun s member => (before.of_loaded loaded s member).mono keeps same
  | @offered stored _ loaded is own trusted saved =>
    rw [is]
    refine List.forall_mem_cons.2 ⟨⟨?_, by rw [own, same]⟩, fun s behind => ?_⟩
    · rw [saved, Table.find?_insert_self]
    · have held :=
        (Record.archived_prefix (stored.getD .empty) c.limits.maxArchivedStates).subset behind
      exact (before.of_loaded loaded s held).mono keeps same

variable [Randomness E]

namespace Entry

variable {e : Entry P E}

/-- What the call has sent or opened went through this session. -/
inductive Through (e : Entry P E) (s : Session P) : Prop
  | sent {plaintext : Bytes} {message : Message} {r : Record P} {next : Session P}
      (returned : e.sent? = some message)
      (loaded : e.before.store.loadRecord e.remote = .ok (some r)) (current : r.current = some s)
      (sealed : s.encrypt plaintext = .ok (message, next))
  | opened {message : Message} {r : Record P} {tried : E} {next : Session P}
      (taken : e.opened? = some message)
      (tries : e.call.conversation.Tried e.before message r tried)
      (first : Record.opener? e.call.conversation.limits message.inner r.sessions tried =
        some (s, next))

theorem keepsIdentities (e : Entry P E) : e.before.store.KeepsIdentities e.after.store := by
  rcases e.cases with ⟨-, -, silent⟩ | ⟨bundle, -, -, -, ok⟩ | ⟨message, plaintext, -, -, ok⟩ |
    ⟨message, plaintext, -, -, ok⟩
  · exact silent.keepsIdentities
  · obtain ⟨_, _, -, -, -, trusted, saved⟩ := Conversation.start_eq_ok _ ok
    exact .of_insert trusted saved
  · obtain ⟨_, _, _, -, -, -, -, same⟩ := Conversation.encrypt_eq_ok _ ok
    exact .of_eq same
  · obtain ⟨_, _, _, -, -, -, admits⟩ := Conversation.decrypt_eq_ok _ ok
    exact admits.keepsIdentities

theorem identity_after (e : Entry P E) : e.after.store.identity = e.before.store.identity := by
  have atomic := e.call.perform_atomic e.before
  unfold CommitsFrom at atomic
  unfold after
  cases ended : e.result with
  | error error ctx =>
    rw [show e.call.perform e.before = .error error ctx from ended] at atomic
    exact atomic.identity
  | ok reply ctx =>
    rw [show e.call.perform e.before = .ok reply ctx from ended] at atomic
    exact atomic.identity

theorem vouches_started (h : e.before.store.Vouches) {bundle : Bundle P}
    (ok : e.call.conversation.start bundle e.before = .ok () e.after) :
    ∃ r, e.after.store.loadRecord e.remote = .ok (some r) ∧
      ∀ s ∈ r.sessions, e.after.store.Knows e.remote s := by
  obtain ⟨s, stored, made, loaded, written, -, saved⟩ := Conversation.start_eq_ok _ ok
  obtain ⟨_, _, _, -, -, rfl⟩ := Handshake.outgoing_eq_ok made
  refine ⟨_, written, List.forall_mem_cons.2 ⟨⟨?_, by rw [e.identity_after]; rfl⟩, ?_⟩⟩
  · rw [saved]
    exact Table.find?_insert_self _ _ _
  · intro s behind
    have held := (Record.archived_prefix _ _).subset behind
    exact (h.of_loaded loaded s held).mono e.keepsIdentities e.identity_after

theorem vouches_sent (h : e.before.store.Vouches) {plaintext : Bytes} {message : Message}
    (ok : e.call.conversation.encrypt plaintext e.before = .ok message e.after) :
    ∃ r, e.after.store.loadRecord e.remote = .ok (some r) ∧
      ∀ s ∈ r.sessions, e.after.store.Knows e.remote s := by
  obtain ⟨r, s, next, loaded, current, encrypted, written, -⟩ := Conversation.encrypt_eq_ok _ ok
  obtain ⟨-, -, -, -, rfl⟩ := Session.encrypt_eq_ok encrypted
  have known : ∀ u ∈ s :: r.archived, e.after.store.Knows e.remote u := by
    intro u member
    have held : u ∈ r.sessions := by simpa [Record.sessions, current] using member
    exact (h.of_loaded loaded u held).mono e.keepsIdentities e.identity_after
  obtain ⟨front, behind⟩ := List.forall_mem_cons.1 known
  exact ⟨_, written, List.forall_mem_cons.2 ⟨front, behind⟩⟩

theorem vouches_opened (h : e.before.store.Vouches) {plaintext : Bytes} {message : Message}
    (ok : e.call.conversation.decrypt message e.before = .ok plaintext e.after) :
    ∃ r, e.after.store.loadRecord e.remote = .ok (some r) ∧
      ∀ s ∈ r.sessions, e.after.store.Knows e.remote s := by
  obtain ⟨r, tried, after, -, run, written, admits⟩ := Conversation.decrypt_eq_ok _ ok
  obtain ⟨passed, s, rest, next, split, opens, -, current, fewer⟩ := Record.decrypt_opener run
  have known := admits.knows e.identity_after h
  rw [split] at known
  refine ⟨_, written, ?_⟩
  rw [Record.sessions, current]
  refine List.forall_mem_cons.2 ⟨(known s (by simp)).of_start (Session.decrypt_start opens), ?_⟩
  intro u behind
  have kept := (List.sublist_cons_self s rest).append_left passed
  exact known u (kept.subset (fewer.subset behind))

theorem vouches (h : e.before.store.Vouches) : e.after.store.Vouches := by
  refine e.holding_after h (fun address r known s member => ?_)
    (fun _ _ => vouches_started h) (fun _ _ => vouches_sent h) fun _ _ => vouches_opened h
  exact (known s member).mono e.keepsIdentities e.identity_after

theorem through_sent {message : Message} (sent : e.sent? = some message) : ∃ s, e.Through s := by
  obtain ⟨plaintext, ok⟩ := encrypt_of_sent sent
  obtain ⟨r, s, next, loaded, current, sealed, -⟩ := Conversation.encrypt_eq_ok _ ok
  exact ⟨s, .sent sent loaded current sealed⟩

theorem through_opened {message : Message} (opened : e.opened? = some message) :
    ∃ s, e.Through s := by
  obtain ⟨plaintext, ok⟩ := decrypt_of_opened opened
  obtain ⟨r, tried, after, tries, run, -⟩ := Conversation.decrypt_eq_ok _ ok
  obtain ⟨_, s, _, next, -, -, first, -⟩ := Record.decrypt_opener run
  exact ⟨s, .opened opened tries first⟩

theorem Through.knows {s : Session P} (h : e.Through s) (vouched : e.before.store.Vouches) :
    e.after.store.Knows e.remote s := by
  cases h with
  | @sent _ _ r _ returned loaded current sealed =>
    have held : s ∈ r.sessions := by simp [Record.sessions, current]
    exact (vouched.of_loaded loaded s held).mono e.keepsIdentities e.identity_after
  | opened taken tries first =>
    obtain ⟨plaintext, ok⟩ := decrypt_of_opened taken
    obtain ⟨r, tried, after, tries', run, -, admits⟩ := Conversation.decrypt_eq_ok _ ok
    obtain ⟨rfl, rfl⟩ := tries.unique _ tries'
    obtain ⟨passed, s', rest, next, split, -, first', -⟩ := Record.decrypt_opener run
    cases first.symm.trans first'
    exact admits.knows e.identity_after vouched s (by simp [split])

theorem opened_of_ok {plaintext : Bytes} {after : Context P E}
    (h : e.result = .ok (.opened plaintext) after) : ∃ message, e.opened? = some message := by
  obtain ⟨⟨c, request⟩, before⟩ := e
  cases request with
  | decrypt message => exact ⟨message, by simp only [opened?, h]⟩
  | decryptBytes bytes =>
    obtain ⟨_, _, run, -⟩ := bind_eq_ok h
    obtain ⟨message, decoded, -⟩ := Conversation.decryptBytes_eq_ok run
    exact ⟨message, by simp only [opened?, h, decoded, Except.toOption]⟩
  | hasSession | start | encrypt =>
    obtain ⟨_, _, -, done⟩ := bind_eq_ok h
    cases (pure_eq_ok done).1

end Entry

/-- In a run that begins without sessions an identity, once saved for an address, stays; all sessions
held for the address are with it, and what is sent or opened there goes through one of them. The
bundles and messages that come in, the pre-keys, the store's failures and the source may be any. -/
theorem trust_on_first_use (calls : List (Call P)) (ctx : Context P E)
    (fresh : ctx.store.records = .empty) :
    (stages calls ctx).Pairwise (fun earlier later => ∀ address key,
      earlier.store.identities.find? address = some key →
        later.store.identities.find? address = some key) ∧
    (∀ now ∈ stages calls ctx, ∀ address, ∃ stored,
      now.store.loadRecord address = .ok stored ∧
      ∀ s ∈ (stored.getD .empty).sessions,
        now.store.identities.find? address = some s.remoteIdentity ∧
          s.localIdentity = now.store.identity.key P) ∧
    ∀ e ∈ journal calls ctx, ∀ reply after, e.result = .ok reply after →
      (∀ message, reply = .sent message → ∃ s, e.Through s) ∧
      (∀ plaintext, reply = .opened plaintext → ∃ s, e.Through s) ∧
      ∀ s, e.Through s → after.store.identities.find? e.remote = some s.remoteIdentity := by
  have start : ctx.store.Vouches := Store.holding_of_fresh fresh fun _ s member => nomatch member
  have each : ∀ now ∈ stages calls ctx, now.store.Vouches := by
    have step : ∀ e : Entry P E, e.before.store.Vouches → True → e.after.store.Vouches :=
      fun e before _ => Entry.vouches before
    exact stages_invariant step calls start fun _ _ => trivial
  refine ⟨?_, fun now member address => ?_, fun e member reply after ended => ⟨?_, ?_, ?_⟩⟩
  · let Keeps (now later : Context P E) : Prop := now.store.KeepsIdentities later.store
    have refl : ∀ now, Keeps now now := fun _ => .of_eq rfl
    have trans : ∀ {a b c}, Keeps a b → Keeps b c → Keeps a c := fun first second => first.trans second
    exact (stages_pairwise refl trans (fun e => e.keepsIdentities) calls ctx).2
  · exact each now member address
  · rintro message rfl
    have sent : e.sent? = some message := by simp only [Entry.sent?, ended]
    exact Entry.through_sent sent
  · rintro plaintext rfl
    obtain ⟨message, opened⟩ := Entry.opened_of_ok ended
    exact Entry.through_opened opened
  · intro s through
    rw [← Entry.after_of_ok ended]
    exact (through.knows (each _ (mem_stages member).1)).1

/-- A third party's bundle under the second one's address. -/
def imposture : Call Suite.plain := ⟨.standard ⟨"bob", 1⟩, .start (newcomerBundle 2000 false)⟩

def talkTrusts (calls : List (Call Suite.plain)) : Bool :=
  ((journal (calls ++ [imposture]) (newcomer 0)).getLast?.any fun e =>
    match e.result with
    | .error (.untrustedIdentity _) _ => true
    | _ => false) &&
  (outcome (calls ++ [imposture]) (newcomer 0)).store.identities.find? ⟨"bob", 1⟩ ==
    some (Identity.key Suite.plain ⟨Ticker.seed 32 1000⟩)

set_option maxRecDepth 100000 in
theorem talk_trusts : (talk.any talkTrusts) = true := by
  decide +kernel

/-- After a talk the impostor is refused, and what has been said was with the identity that is
saved. -/
theorem talk_trusted :
    ∃ calls, talk = some calls ∧ (newcomer 0).store.records = .empty ∧
      (outcome (calls ++ [imposture]) (newcomer 0)).store.identities.find? ⟨"bob", 1⟩ =
        some (Identity.key Suite.plain ⟨Ticker.seed 32 1000⟩) ∧
      ∀ e ∈ journal (calls ++ [imposture]) (newcomer 0), ∀ reply after,
        e.result = .ok reply after →
        ∀ s, e.Through s → after.store.identities.find? e.remote = some s.remoteIdentity := by
  obtain ⟨calls, is, trusts⟩ := (Option.any_eq_true _ _).1 talk_trusts
  simp only [talkTrusts, Bool.and_eq_true, beq_iff_eq] at trusts
  obtain ⟨-, -, through⟩ := trust_on_first_use (calls ++ [imposture]) (newcomer 0) rfl
  exact ⟨calls, is, rfl, trusts.2, fun e member reply after ended =>
    (through e member reply after ended).2.2⟩

end RatchetSession
