import RatchetSession.Proofs.Conversation.Delivery
import RatchetSession.Proofs.Conversation.Descent
set_option autoImplicit false

namespace RatchetSession

open RatchetSession.Computation (bind_of_ok bind_of_error bind_eq_ok endState)

variable {P : Suite} {E α : Type}

section Refusal

variable [Randomness E] {st : Store P} {m : InitialMessage} {id : UInt32}

namespace Handshake

theorem accept_fails (named : m.preKeyId = some id) (gone : st.preKeys.find? id = none)
    (identity : Identity) (source : E) :
    ∃ error, Fails (accept m identity : Action P E _) st source error st source ∧
      ∀ remote signed, senderIdentity (P := P) m = .ok remote →
        m.message.ratchetKey = m.baseKey →
        st.signedPreKeys.find? m.signedPreKeyId = some signed → error = .unknownPreKey id := by
  unfold accept
  cases sent : senderIdentity (P := P) m with
  | error error => exact ⟨error, .bind (.ofExcept rfl), fun _ _ no => nomatch no⟩
  | ok remote =>
    by_cases first : m.message.ratchetKey = m.baseKey
    · cases held : st.signedPreKeys.find? m.signedPreKeyId with
      | none =>
        refine ⟨.unknownSignedPreKey m.signedPreKeyId, .after (.ofExcept rfl) ?_,
          fun _ _ _ _ no => nomatch no⟩
        rw [if_neg (not_not_intro first)]
        exact .bind (.after (.query (congrArg Except.ok held)) (.throw _))
      | some signed =>
        refine ⟨.unknownPreKey id, .after (.ofExcept rfl) ?_, fun _ _ _ _ _ => rfl⟩
        rw [if_neg (not_not_intro first), named]
        refine .after (signedPreKey_does held) (.bind ?_)
        exact .after (.query (congrArg Except.ok gone)) (.throw _)
    · refine ⟨.invalidInitialMessage "first ratchet key differs from base key",
        .after (.ofExcept rfl) ?_, fun _ _ _ same => absurd same first⟩
      rw [if_pos first]
      exact .bind (.throw _)

end Handshake

namespace Conversation

variable (c : Conversation)

omit [Randomness E] in
theorem checkTrust_fails {source : E} {key : IdentityKey P} (h : st.trusts c.remote key = false) :
    Fails (c.checkTrust key : Action P E _) st source (.untrustedIdentity c.remote) st source :=
  .after (.query (congrArg Except.ok h)) (.throw _)

theorem decrypt_fails {stored : Option (Record P)} (loaded : st.loadRecord c.remote = .ok stored)
    (lacking : (stored.getD .empty).hasBaseKey m.baseKey = false) (named : m.preKeyId = some id)
    (gone : st.preKeys.find? id = none) (source : E) :
    ∃ error, Fails (c.decrypt (.initial m) : Action P E _) st source error st source ∧
      ∀ remote signed, Handshake.senderIdentity (P := P) m = .ok remote →
        st.trusts c.remote remote = true → m.message.ratchetKey = m.baseKey →
        st.signedPreKeys.find? m.signedPreKeyId = some signed → error = .unknownPreKey id := by
  have enters : ∀ {error : SessionError},
      Fails (c.establish (stored.getD .empty) m : Action P E _) st source error st source →
      Fails (c.decrypt (.initial m) : Action P E _) st source error st source := by
    intro error failed
    refine .after (c.record_does loaded) ?_
    rw [if_neg (by simp [lacking])]
    exact failed
  cases sent : Handshake.senderIdentity (P := P) m with
  | error error => exact ⟨error, enters (.bind (.ofExcept sent)), fun _ _ no => nomatch no⟩
  | ok remote =>
    cases trusted : st.trusts c.remote remote with
    | false =>
      refine ⟨_, enters (.after (.ofExcept sent) (.bind (c.checkTrust_fails trusted))), ?_⟩
      rintro _ _ ⟨⟩ trusts
      simp [trusted] at trusts
    | true =>
      obtain ⟨error, failed, why⟩ := Handshake.accept_fails named gone st.identity source
      refine ⟨error, enters (.after (.ofExcept sent) (.after (c.checkTrust_does trusted) ?_)),
        fun remote' signed same _ => why remote' signed (sent.trans same)⟩
      exact .after (.query rfl) (.bind failed)

end Conversation

end Refusal

theorem Conversation.decrypt_known_commits [Randomness E] (c : Conversation) {ctx : Context P E}
    {m : InitialMessage} {stored : Option (Record P)}
    (loaded : ctx.store.loadRecord c.remote = .ok stored)
    (held : (stored.getD .empty).hasBaseKey m.baseKey = true) :
    CommitsFrom c.remote none ctx (c.decrypt (.initial m)) ctx := by
  refine .bind_reads c.record_reads (.refl ctx) fun record ctx₁ ran reads => ?_
  obtain ⟨_, same, rfl, -⟩ := c.record_eq_ok ran
  cases loaded.symm.trans same
  rw [if_pos held]
  exact c.decryptWith_commits _ m.message reads

theorem CommitsFrom.preKeys_eq {remote : Address} {start ctx ctx' : Context P E}
    {act : Action P E α} {a : α} (h : CommitsFrom remote none start act ctx)
    (ok : act ctx = .ok a ctx') : ctx'.store.preKeys = start.store.preKeys := by
  unfold CommitsFrom at h
  rw [ok] at h
  exact h.keeps_preKeys

variable [Randomness E]

def Request.message? : Request P → Option Message
  | .decrypt message => some message
  | .decryptBytes bytes => (Envelope.decode bytes).toOption
  | _ => none

namespace Entry

variable {e : Entry P E} {m : InitialMessage} {s : Session P} {id : UInt32}

/-- A call opens an initial message, and has built a session for it, with a base key that no session
in the record had. -/
structure Builds (e : Entry P E) (m : InitialMessage) (s : Session P) : Prop where
  opened : e.opened? = some (.initial m)
  lacking : ∃ stored, e.before.store.loadRecord e.remote = .ok stored ∧
    (stored.getD .empty).hasBaseKey m.baseKey = false
  offered : ∃ tried, Conversation.Offered e.before m s tried

theorem builds_of_opened {stored : Option (Record P)} (opened : e.opened? = some (.initial m))
    (loaded : e.before.store.loadRecord e.remote = .ok stored)
    (lacking : (stored.getD .empty).hasBaseKey m.baseKey = false) : ∃ s, e.Builds m s := by
  obtain ⟨plaintext, ok⟩ := decrypt_of_opened opened
  obtain ⟨_, _, _, tries, -⟩ := Conversation.decrypt_eq_ok _ ok
  cases tries with
  | known loaded' held =>
    cases loaded.symm.trans loaded'
    simp [held] at lacking
  | @unknown _ _ offered _ _ _ offers =>
    exact ⟨offered, opened, ⟨stored, loaded, lacking⟩, _, offers⟩

theorem Builds.unique {m' : InitialMessage} {s' : Session P} (h : e.Builds m s)
    (h' : e.Builds m' s') : m = m' ∧ s = s' := by
  cases h.opened.symm.trans h'.opened
  obtain ⟨_, offered⟩ := h.offered
  obtain ⟨_, offered'⟩ := h'.offered
  exact ⟨rfl, (offered.unique offered').1⟩

theorem Builds.preKey_gone (h : e.Builds m s) (named : m.preKeyId = some id) (quiet : e.before.Quiet) :
    e.before.store.preKeys.find? id ≠ none ∧ e.after.store.preKeys.find? id = none := by
  obtain ⟨stored, loaded, lacking⟩ := h.lacking
  obtain ⟨_, offered⟩ := h.offered
  obtain ⟨plaintext, ok⟩ := decrypt_of_opened h.opened
  refine ⟨fun gone => ?_, ?_⟩
  · obtain ⟨_, _, oneTime, -, -, -, held, -⟩ := offered.eq_incoming
    rw [named, Option.map_some, gone] at held
    cases oneTime <;> cases held
  · exact Conversation.decrypt_preKey_gone _ ok loaded lacking (fun n => quiet n _) id named

theorem message_of_opened {message : Message} (h : e.opened? = some message) :
    e.call.request.message? = some message := by
  obtain ⟨⟨c, request⟩, before⟩ := e
  unfold opened? at h
  split at h
  · cases request <;> exact h
  · cases h

theorem preKeys_cases (e : Entry P E) :
    e.after.store.preKeys = e.before.store.preKeys ∨
      ∃ m s id, e.Builds m s ∧ m.preKeyId = some id ∧
        e.after.store.preKeys = e.before.store.preKeys.erase id := by
  rcases e.cases with ⟨-, -, silent⟩ | ⟨bundle, -, -, -, ok⟩ | ⟨message, plaintext, -, -, ok⟩ |
    ⟨message, plaintext, -, opened, ok⟩
  · exact .inl silent.preKeys
  · exact .inl ((Conversation.start_atomic _ bundle e.before).preKeys_eq ok)
  · exact .inl ((Conversation.encrypt_atomic _ plaintext e.before).preKeys_eq ok)
  · obtain ⟨_, _, _, tries, -⟩ := Conversation.decrypt_eq_ok _ ok
    cases tries with
    | @ratchet message _ _ =>
      exact .inl ((Conversation.decryptRatchet_atomic _ message none e.before).preKeys_eq ok)
    | known loaded held =>
      exact .inl ((Conversation.decrypt_known_commits _ loaded held).preKeys_eq ok)
    | @unknown m stored offered _ loaded lacking offers =>
      have atomic := Conversation.decrypt_atomic e.call.conversation (.initial m) e.before
      unfold CommitsFrom at atomic
      rw [ok] at atomic
      refine atomic.preKeys.imp_right fun ⟨id, named, erased⟩ => ?_
      exact ⟨m, offered, id, ⟨opened, ⟨stored, loaded, lacking⟩, _, offers⟩, named, erased⟩

theorem plan_after (e : Entry P E) : e.after.faults.plan = e.before.faults.plan := by
  have onward : Onward e.before.recording (Entry.after ⟨e.call, e.before.recording⟩) :=
    Onward.perform_onward e.call e.before.recording
  have bare : e.after = (Entry.after ⟨e.call, e.before.recording⟩).bare :=
    after_bare ⟨e.call, e.before.recording⟩
  rw [bare]
  exact onward.plan

theorem refused_of_gone (quiet : e.before.Quiet) (asked : e.call.request.message? = some (.initial m))
    {stored : Option (Record P)} (loaded : e.before.store.loadRecord e.remote = .ok stored)
    (lacking : (stored.getD .empty).hasBaseKey m.baseKey = false) (named : m.preKeyId = some id)
    (gone : e.before.store.preKeys.find? id = none) :
    ∃ error after, e.result = .error error after ∧ after.store = e.before.store ∧
      ∀ remote signed, Handshake.senderIdentity (P := P) m = .ok remote →
        e.before.store.trusts e.remote remote = true → m.message.ratchetKey = m.baseKey →
        e.before.store.signedPreKeys.find? m.signedPreKeyId = some signed →
        error = .unknownPreKey id := by
  obtain ⟨error, fails, why⟩ :=
    e.call.conversation.decrypt_fails loaded lacking named gone e.before.source
  obtain ⟨after, failed, same⟩ := fails.run quiet
  refine ⟨error, after, ?_, same, why⟩
  obtain ⟨⟨c, request⟩, before⟩ := e
  cases request with
  | decrypt message =>
    cases asked
    exact bind_of_error failed
  | decryptBytes bytes =>
    cases decoded : Envelope.decode bytes with
    | error fault => simp [Request.message?, decoded, Except.toOption] at asked
    | ok message =>
      simp only [Request.message?, decoded, Except.toOption, Option.some.injEq] at asked
      subst asked
      have read : c.decryptBytes bytes before = .error error after := by
        unfold Conversation.decryptBytes
        rw [decoded]
        exact failed
      exact bind_of_error read
  | hasSession | start | encrypt => cases asked

theorem preKeys_of_known (asked : e.call.request.message? = some (.initial m))
    {stored : Option (Record P)} (loaded : e.before.store.loadRecord e.remote = .ok stored)
    (held : (stored.getD .empty).hasBaseKey m.baseKey = true) :
    e.after.store.preKeys = e.before.store.preKeys := by
  rcases e.preKeys_cases with same | ⟨m', s, id, builds, -, -⟩
  · exact same
  · cases asked.symm.trans (message_of_opened builds.opened)
    obtain ⟨_, loaded', lacking⟩ := builds.lacking
    cases loaded.symm.trans loaded'
    simp [held] at lacking

end Entry

/-- What a party does: it makes a call, or it files one more one-time pre-key. -/
inductive Deed (P : Suite) where
  | call (call : Call P)
  | file (key : PreKey)

def Deed.after (ctx : Context P E) : Deed P → Context P E
  | .call asked => Entry.after ⟨asked, ctx⟩
  | .file key => endState (Action.storePreKey key ctx)

def Deed.afterAll (deeds : List (Deed P)) (ctx : Context P E) : Context P E :=
  deeds.foldl Deed.after ctx

namespace Deed

variable {ctx : Context P E} {id : UInt32}

omit [Randomness E] in
theorem storePreKey_ok (key : PreKey) (quiet : ctx.Quiet) :
    Action.storePreKey key ctx = .ok () { ctx.counted with store := ctx.store.addPreKey key } := by
  simp only [Action.storePreKey, Action.write, Action.call, quiet ctx.faults.calls .storePreKey]
  rfl

theorem quiet_after (deed : Deed P) (quiet : ctx.Quiet) : (deed.after ctx).Quiet := by
  cases deed with
  | call asked =>
    intro n kind
    rw [after, Entry.plan_after]
    exact quiet n kind
  | file key =>
    rw [after, storePreKey_ok key quiet]
    exact quiet

theorem quiet_afterAll (deeds : List (Deed P)) (quiet : ctx.Quiet) : (afterAll deeds ctx).Quiet := by
  induction deeds generalizing ctx with
  | nil => exact quiet
  | cons deed rest ih => exact ih (deed.quiet_after quiet)

theorem gone_afterAll (deeds : List (Deed P)) (quiet : ctx.Quiet)
    (gone : ctx.store.preKeys.find? id = none)
    (unfiled : ∀ key, .file key ∈ deeds → key.id ≠ id) :
    (afterAll deeds ctx).store.preKeys.find? id = none := by
  induction deeds generalizing ctx with
  | nil => exact gone
  | cons deed rest ih =>
    refine ih (deed.quiet_after quiet) ?_ fun key later => unfiled key (List.mem_cons_of_mem _ later)
    cases deed with
    | call asked => exact (Entry.preKeys_shrink ⟨asked, ctx⟩).2 id gone
    | file key =>
      rw [after, storePreKey_ok key quiet]
      exact (Table.find?_insert_of_ne (unfiled key List.mem_cons_self).symm).trans gone

end Deed

/-- In a run without store faults, in which one-time pre-keys are filed at any time, a call takes out
no one-time pre-key but the one named by a message for which it has built a session. Then the
pre-key is gone until its id is filed again, and every message that would need it meanwhile is
refused and leaves the store as it is. So no pre-key that was filed has a part in two sessions, at
whatever addresses. -/
theorem one_time_pre_keys_once (deeds : List (Deed P)) (ctx : Context P E)
    (quiet : ∀ n kind, ctx.faults.plan n kind = none) :
    (∀ earlier call later, deeds = earlier ++ .call call :: later →
      let e : Entry P E := ⟨call, Deed.afterAll earlier ctx⟩
      (∀ error after, e.result = .error error after →
        after.store.preKeys = e.before.store.preKeys ∧
          after.store.records = e.before.store.records) ∧
      (∀ m stored, call.request.message? = some (.initial m) →
        e.before.store.loadRecord e.remote = .ok stored →
        (stored.getD .empty).hasBaseKey m.baseKey = true →
        e.after.store.preKeys = e.before.store.preKeys) ∧
      (e.after.store.preKeys = e.before.store.preKeys ∨
        ∃ m s id, e.Builds m s ∧ m.preKeyId = some id ∧
          e.after.store.preKeys = e.before.store.preKeys.erase id) ∧
      (∀ m stored, e.opened? = some (.initial m) →
        e.before.store.loadRecord e.remote = .ok stored →
        (stored.getD .empty).hasBaseKey m.baseKey = false → ∃ s, e.Builds m s) ∧
      ∀ m s id, e.Builds m s → m.preKeyId = some id →
        e.before.store.preKeys.find? id ≠ none ∧
        (∀ m' s', e.Builds m' s' → m' = m ∧ s' = s) ∧
        ∀ between rest, later = between ++ rest → (∀ key, .file key ∈ between → key.id ≠ id) →
          let now := Deed.afterAll between e.after
          now.store.preKeys.find? id = none ∧
          ∀ (next : Call P) m' stored, next.request.message? = some (.initial m') →
            m'.preKeyId = some id →
            now.store.loadRecord next.conversation.remote = .ok stored →
            (stored.getD .empty).hasBaseKey m'.baseKey = false →
            ∃ error after, Entry.result ⟨next, now⟩ = .error error after ∧
              after.store = now.store ∧
              ∀ remote signed, Handshake.senderIdentity (P := P) m' = .ok remote →
                now.store.trusts next.conversation.remote remote = true →
                m'.message.ratchetKey = m'.baseKey →
                now.store.signedPreKeys.find? m'.signedPreKeyId = some signed →
                error = .unknownPreKey id) ∧
    ∀ earlier first between second later m s m' s' id,
      deeds = earlier ++ .call first :: (between ++ .call second :: later) →
      let e : Entry P E := ⟨first, Deed.afterAll earlier ctx⟩
      let e' : Entry P E := ⟨second, Deed.afterAll between e.after⟩
      e.Builds m s → e'.Builds m' s' → m.preKeyId = some id → m'.preKeyId = some id →
        ∃ key, .file key ∈ between ∧ key.id = id := by
  have still : ∀ earlier, (Deed.afterAll earlier ctx).Quiet :=
    fun earlier => Deed.quiet_afterAll earlier quiet
  refine ⟨fun earlier call later _ => ?_, ?_⟩
  · intro e
    have after : e.after.Quiet := Deed.quiet_after (.call call) (still earlier)
    refine ⟨fun error after failed => ?_, fun m stored asked => Entry.preKeys_of_known (e := e) asked,
      e.preKeys_cases, fun m stored => Entry.builds_of_opened, fun m s id builds named => ?_⟩
    · have silent := Entry.uncommitted_of_error failed
      exact ⟨silent.preKeys, silent.records⟩
    · obtain ⟨there, gone⟩ := builds.preKey_gone named (still earlier)
      refine ⟨there, fun m' s' builds' => builds'.unique builds, fun between rest _ unfiled => ?_⟩
      intro now
      have missing : now.store.preKeys.find? id = none :=
        Deed.gone_afterAll between after gone unfiled
      refine ⟨missing, fun next m' stored asked naming loaded lacking => ?_⟩
      exact Entry.refused_of_gone (e := ⟨next, now⟩) (Deed.quiet_afterAll between after) asked
        loaded lacking naming missing
  · intro earlier first between second later m s m' s' id _ e e' builds builds' named named'
    by_contra unfiled
    have after : e.after.Quiet := Deed.quiet_after (.call first) (still earlier)
    have gone : e'.before.store.preKeys.find? id = none :=
      Deed.gone_afterAll between after (builds.preKey_gone named (still earlier)).2
        fun key filed same => unfiled ⟨key, filed, same⟩
    exact (builds'.preKey_gone named' (Deed.quiet_afterAll between after)).1 gone

def greeting (n : Nat) : Option InitialMessage :=
  match (journal [⟨.standard ⟨"bob", 1⟩, .start (newcomerBundle 1000 true)⟩,
    ⟨.standard ⟨"bob", 1⟩, .encrypt [1]⟩] (newcomer n)).findSome? Entry.sent? with
  | some (.initial m) => some m
  | _ => none

def welcome (m : InitialMessage) : Entry Suite.plain Ticker :=
  ⟨⟨.standard ⟨"alice", 1⟩, .decrypt (.initial m)⟩, newcomer 1000⟩

/-- Whether the first greeting is opened, and the second one lacks nothing but the one-time pre-key that
both name. -/
def greetingsClash (first second : InitialMessage) : Bool :=
  decide ((welcome first).opened? = some (.initial first)) &&
  decide (first.preKeyId = some 7 ∧ second.preKeyId = some 7 ∧
    second.message.ratchetKey = second.baseKey) &&
  ((welcome first).after.store.signedPreKeys.find? second.signedPreKeyId).isSome &&
  match Handshake.senderIdentity second with
  | .ok remote => (welcome first).after.store.trusts ⟨"carol", 1⟩ remote
  | .error _ => false

set_option maxRecDepth 100000 in
theorem greetings_clash :
    ((greeting 0).any fun first => (greeting 2000).any (greetingsClash first)) = true := by
  decide +kernel

/-- The second guest is refused because of the pre-key, and only the first one's session is stored. -/
theorem second_greeting_refused :
    ∃ first second, greeting 0 = some first ∧ greeting 2000 = some second ∧
      (∀ n kind, (newcomer 1000).faults.plan n kind = none) ∧
      (∃ s, (welcome first).Builds first s) ∧ first.preKeyId = some 7 ∧
      let now := (welcome first).after
      now.store.preKeys.find? 7 = none ∧
      ∃ after, Entry.result ⟨⟨.standard ⟨"carol", 1⟩, .decrypt (.initial second)⟩, now⟩ =
          .error (.unknownPreKey 7) after ∧ after.store = now.store := by
  obtain ⟨first, greets, second, greets', clash⟩ : ∃ first, greeting 0 = some first ∧
      ∃ second, greeting 2000 = some second ∧ greetingsClash first second = true := by
    simpa only [Option.any_eq_true] using greetings_clash
  simp only [greetingsClash, Bool.and_eq_true, decide_eq_true_eq] at clash
  obtain ⟨⟨⟨opened, named, named', key⟩, signed⟩, sender⟩ := clash
  obtain ⟨signed, held⟩ := Option.isSome_iff_exists.1 signed
  split at sender
  · rename_i remote sent
    have quiet : ∀ n kind, (newcomer 1000).faults.plan n kind = none := fun _ _ => rfl
    obtain ⟨each, -⟩ := one_time_pre_keys_once [.call (welcome first).call] (newcomer 1000) quiet
    obtain ⟨-, -, -, built, used⟩ := each [] (welcome first).call [] rfl
    obtain ⟨s, builds⟩ := built first none opened rfl rfl
    obtain ⟨-, -, later⟩ := used first s 7 builds named
    obtain ⟨gone, refuses⟩ := later [] [] rfl nofun
    have apart : (⟨"carol", 1⟩ : Address) ≠ ⟨"alice", 1⟩ := by decide
    have stranger : (welcome first).after.store.loadRecord ⟨"carol", 1⟩ = .ok none :=
      (welcome first).loadRecord_of_ne apart
    obtain ⟨error, after, failed, same, why⟩ := refuses
      ⟨.standard ⟨"carol", 1⟩, .decrypt (.initial second)⟩ second none rfl named' stranger rfl
    obtain rfl := why remote signed sent sender key held
    exact ⟨first, second, greets, greets', quiet, ⟨s, builds⟩, named, gone, after, failed, same⟩
  · cases sender

end RatchetSession
