import RatchetSession.Conversation
import RatchetSession.Proofs.Session.Search
import RatchetSession.Proofs.Store.Quiet
set_option autoImplicit false

namespace RatchetSession

variable {P : Suite} {E : Type} {st : Store P} {source source' : E}

namespace Handshake

theorem signedPreKey_does {id : UInt32} {key : SignedPreKey}
    (h : st.signedPreKeys.find? id = some key) :
    Does (signedPreKey id : Action P E _) st source key st source :=
  .bind (.query (congrArg Except.ok h)) (.pure key)

theorem oneTimePreKey_does {oneTime : Option PreKey}
    (h : ∀ key ∈ oneTime, st.preKeys.find? key.id = some key) :
    Does (oneTimePreKey (oneTime.map (·.id)) : Action P E _) st source oneTime st source := by
  cases oneTime with
  | none => exact .pure none
  | some key => exact .bind (.query (congrArg Except.ok (h key rfl))) (.pure (some key))

variable [Randomness E]

theorem accept_does {message : InitialMessage} {identity : Identity} {remote : IdentityKey P}
    {signed : SignedPreKey} {oneTime : Option PreKey} {s : Session P}
    (sender : message.identityKey = remote.bytes)
    (first : message.message.ratchetKey = message.baseKey)
    (signedHeld : st.signedPreKeys.find? message.signedPreKeyId = some signed)
    (named : message.preKeyId = oneTime.map (·.id))
    (oneTimeHeld : ∀ key ∈ oneTime, st.preKeys.find? key.id = some key)
    (built : incoming message remote identity signed oneTime source = .ok s source') :
    Does (accept message identity : Action P E _) st source (s, message.preKeyId) st source' := by
  have identified : senderIdentity message = .ok remote := by
    rw [senderIdentity, sender, IdentityKey.ofBytes_bytes]
    rfl
  unfold accept
  refine .bind (.ofExcept identified) ?_
  rw [if_neg (not_not_intro first)]
  refine .bind (signedPreKey_does signedHeld) ?_
  rw [named]
  exact .bind (oneTimePreKey_does oneTimeHeld) (.bind (.onSource built) (.pure _))

end Handshake

namespace Conversation

variable (c : Conversation)

theorem record_does {stored : Option (Record P)} (h : st.loadRecord c.remote = .ok stored) :
    Does (c.record : Action P E _) st source (stored.getD .empty) st source :=
  .bind (.query h) (.pure _)

theorem checkTrust_does {key : IdentityKey P} (h : st.trusts c.remote key = true) :
    Does (c.checkTrust key : Action P E _) st source () st source := by
  refine .bind (.query (congrArg Except.ok h)) ?_
  exact .pure ()

theorem checkCurrent_does {r : Record P}
    (h : ∀ s ∈ r.current, st.trusts c.remote s.remoteIdentity = true) :
    Does (c.checkCurrent r : Action P E _) st source () st source := by
  unfold checkCurrent
  split
  · rename_i s is
    exact c.checkTrust_does (h s is)
  · exact .pure ()

theorem checkCurrent_of_current {r : Record P} {s : Session P} (is : r.current = some s)
    (trusted : st.trusts c.remote s.remoteIdentity = true) :
    Does (c.checkCurrent r : Action P E _) st source () st source := by
  refine c.checkCurrent_does fun t held => ?_
  cases is.symm.trans held
  exact trusted

theorem encrypt_does {r : Record P} {s s' : Session P} {plaintext : Bytes} {message : Message}
    (stored : st.loadRecord c.remote = .ok (some r)) (is : r.current = some s)
    (trusted : st.trusts c.remote s.remoteIdentity = true)
    (h : s.encrypt plaintext = .ok (message, s')) :
    Does (c.encrypt plaintext : Action P E _) st source message
      (st.saveRecord c.remote { r with current := some s' }) source := by
  unfold encrypt
  refine .bind (.query stored) ?_
  dsimp only
  rw [if_neg (by simp [is])]
  refine .bind (c.checkCurrent_of_current is trusted) ?_
  exact .bind (.ofExcept (Record.encrypt_of_ok is h)) (.bind (.write _ _) (.pure message))

theorem encrypt_refused {r : Record P} {s : Session P} {plaintext : Bytes} {error : SessionError}
    (stored : st.loadRecord c.remote = .ok (some r)) (is : r.current = some s)
    (trusted : st.trusts c.remote s.remoteIdentity = true) (h : s.encrypt plaintext = .error error) :
    Fails (c.encrypt plaintext : Action P E _) st source error st source := by
  unfold encrypt
  refine .after (.query stored) ?_
  dsimp only
  rw [if_neg (by simp [is])]
  exact .after (c.checkCurrent_of_current is trusted)
    (.bind (.ofExcept (Record.encrypt_of_error is h)))

theorem encrypt_fails {plaintext : Bytes} (none : st.loadRecord c.remote = .ok none) :
    Fails (c.encrypt plaintext : Action P E _) st source (.noSession c.remote) st source :=
  .after (.query none) (.throw _)

variable [Randomness E]

theorem start_does {bundle : Bundle P} {stored : Option (Record P)} {s : Session P}
    (verified : bundle.verify = .ok ())
    (trusted : st.trusts c.remote bundle.identityKey = true)
    (made : Handshake.outgoing bundle st.identity source = .ok s source')
    (held : st.loadRecord c.remote = .ok stored) :
    Does (c.start bundle) st source ()
      ((st.saveIdentity c.remote bundle.identityKey).2.saveRecord c.remote
        ((stored.getD .empty).promote s c.limits.maxArchivedStates)) source' := by
  unfold start
  refine .bind (.ofExcept verified) (.bind (c.checkTrust_does trusted) ?_)
  refine .bind (.query rfl) (.bind (.onSource made) (.bind (c.record_does held) ?_))
  exact .bind (.call rfl) (.write _ _)

theorem decryptWith_does {r r' : Record P} {message : RatchetMessage} {plaintext : Bytes}
    (h : Record.decrypt c.limits message (r, source) = .ok plaintext (r', source'))
    (trusted : ∀ s ∈ r'.current, st.trusts c.remote s.remoteIdentity = true) :
    Does (c.decryptWith r message) st source plaintext (st.saveRecord c.remote r') source' :=
  .bind (.onSource (Record.edit_eq_ok.2 h))
    (.bind (c.checkCurrent_does trusted) (.bind (.write _ _) (.pure plaintext)))

theorem decryptWith_fails {r r' : Record P} {message : RatchetMessage} {error : SessionError}
    (h : Record.decrypt c.limits message (r, source) = .error error (r', source')) :
    Fails (c.decryptWith r message) st source error st source' :=
  .bind (.onSource (Record.edit_of_error h))

theorem decrypt_known {r : Record P} (held : st.loadRecord c.remote = .ok (some r))
    {message : Message} (known : ∀ m, message = .initial m → r.hasBaseKey m.baseKey = true)
    (source : E) :
    (∀ {plaintext store' source'},
      Does (c.decryptWith r message.inner) st source plaintext store' source' →
        Does (c.decrypt message) st source plaintext store' source') ∧
    ∀ {error store' source'}, Fails (c.decryptWith r message.inner) st source error store' source' →
      Fails (c.decrypt message) st source error store' source' := by
  cases message with
  | ratchet m =>
    exact ⟨fun done => .bind (.query held) done, fun failed => .after (.query held) failed⟩
  | initial m =>
    have chosen : (if ((some r).getD .empty).hasBaseKey m.baseKey then
        c.decryptWith ((some r).getD .empty) m.message
      else c.establish ((some r).getD .empty) m : Action P E _) = c.decryptWith r m.message :=
      if_pos (known m rfl)
    refine ⟨fun done => .bind (c.record_does held) ?_, fun failed =>
      .after (c.record_does held) ?_⟩
    · rw [chosen]
      exact done
    · rw [chosen]
      exact failed

theorem decrypt_new {stored : Option (Record P)} {r : Record P} {message : InitialMessage}
    {remote : IdentityKey P} {s : Session P} {plaintext : Bytes} {built : E}
    (held : st.loadRecord c.remote = .ok stored)
    (unknown : (stored.getD .empty).hasBaseKey message.baseKey = false)
    (sender : message.identityKey = remote.bytes)
    (trusted : st.trusts c.remote remote = true)
    (accepted : Does (Handshake.accept message st.identity : Action P E _) st source
      (s, message.preKeyId) st built)
    (h : Record.decrypt c.limits message.message
      ((stored.getD .empty).promote s c.limits.maxArchivedStates, built) =
        .ok plaintext (r, source')) :
    Does (c.decrypt (.initial message)) st source plaintext
      (message.preKeyId.elim ((st.saveIdentity c.remote remote).2.saveRecord c.remote r)
        ((st.saveIdentity c.remote remote).2.saveRecord c.remote r).removePreKey) source' := by
  have identified : Handshake.senderIdentity message = .ok remote := by
    rw [Handshake.senderIdentity, sender, IdentityKey.ofBytes_bytes]
    rfl
  refine .bind (c.record_does held) ?_
  rw [if_neg (by simp [unknown])]
  unfold establish
  refine .bind (.ofExcept identified) (.bind (c.checkTrust_does trusted) ?_)
  refine .bind (.query rfl) (.bind accepted (.bind (.onSource (Record.edit_eq_ok.2 h)) ?_))
  refine .bind (.call rfl) (.bind (.write _ _) ?_)
  cases message.preKeyId with
  | none => exact .pure plaintext
  | some id => exact .bind (.attempt (.write _ _)) (.pure plaintext)

end Conversation

end RatchetSession
