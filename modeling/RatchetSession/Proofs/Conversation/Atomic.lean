import RatchetSession.Conversation
import RatchetSession.Proofs.Store.Calls
set_option autoImplicit false

/-!
What a conversation leaves behind in the store. A failure commits nothing, except that
the remote device's identity may have been saved after the store trusted it; a success
writes the remote device's entries and takes out at most the one-time pre-key that the
message names.
-/

namespace RatchetSession

open RatchetSession.Computation (Keeps bind_of_ok bind_of_error answer)

variable {P : Suite} {E α β : Type}

def Message.namedPreKey : Message → Option UInt32
  | .ratchet _ => none
  | .initial message => message.preKeyId

/-- Between two contexts the store was asked about an identity, as it was before the first of
them, and trusted it. -/
def Accepted (remote : Address) (ctx ctx' : Context P E) (key : IdentityKey P) : Prop :=
  ∃ asked answered, Action.trusts remote key asked = .ok true answered ∧
    Reads ctx asked ∧ answered.faults.calls ≤ ctx'.faults.calls

/-- Nothing was written but perhaps an accepted identity for the remote device. -/
structure Uncommitted (remote : Address) (ctx ctx' : Context P E) : Prop where
  identity : ctx'.store.identity = ctx.store.identity
  preKeys : ctx'.store.preKeys = ctx.store.preKeys
  signedPreKeys : ctx'.store.signedPreKeys = ctx.store.signedPreKeys
  records : ctx'.store.records = ctx.store.records
  identities : ctx'.store.identities = ctx.store.identities ∨
    ∃ key, Accepted remote ctx ctx' key ∧
      ctx'.store.identities = ctx.store.identities.insert remote key

/-- Nothing was written but the remote device's record and identity, and at most the named
one-time pre-key was taken out. -/
structure Committed (remote : Address) (named : Option UInt32) (ctx ctx' : Context P E) :
    Prop where
  identity : ctx'.store.identity = ctx.store.identity
  signedPreKeys : ctx'.store.signedPreKeys = ctx.store.signedPreKeys
  preKeys : ctx'.store.preKeys = ctx.store.preKeys ∨
    ∃ id, named = some id ∧ ctx'.store.preKeys = ctx.store.preKeys.erase id
  records : ∀ address, address ≠ remote →
    ctx'.store.records.find? address = ctx.store.records.find? address
  identities : ∀ address, address ≠ remote →
    ctx'.store.identities.find? address = ctx.store.identities.find? address

/-- A computation that either commits to what concerns the remote device or to nothing, seen from
an earlier context. -/
def CommitsFrom (remote : Address) (named : Option UInt32) (start : Context P E)
    (act : Action P E α) (ctx : Context P E) : Prop :=
  match act ctx with
  | .ok _ ctx' => Committed remote named start ctx'
  | .error _ ctx' => Uncommitted remote start ctx'

def Atomic (remote : Address) (named : Option UInt32) (act : Action P E α) : Prop :=
  ∀ ctx, CommitsFrom remote named ctx act ctx

theorem Reads.uncommitted {remote : Address} {ctx ctx' : Context P E} (h : Reads ctx ctx') :
    Uncommitted remote ctx ctx' := by
  constructor <;> simp [h.store]

theorem Reads.committed {remote : Address} {named : Option UInt32} {ctx ctx' : Context P E}
    (h : Reads ctx ctx') : Committed remote named ctx ctx' := by
  constructor <;> simp [h.store]

theorem Accepted.of_reads {remote : Address} {start ctx ctx' : Context P E} {key : IdentityKey P}
    (h : Accepted remote start ctx key) (after : Reads ctx ctx') :
    Accepted remote start ctx' key := by
  obtain ⟨asked, answered, trusted, before, calls⟩ := h
  exact ⟨asked, answered, trusted, before, Nat.le_trans calls after.calls⟩

section CommitsFrom

variable {remote : Address} {named : Option UInt32} {start ctx : Context P E}

theorem CommitsFrom.bind_reads {m : Action P E α} {f : α → Action P E β} (keeps : Keeps Reads m)
    (before : Reads start ctx)
    (next : ∀ a ctx', m ctx = .ok a ctx' → Reads start ctx' →
      CommitsFrom remote named start (f a) ctx') :
    CommitsFrom remote named start (m >>= f) ctx := by
  unfold CommitsFrom
  cases run : m ctx with
  | ok a ctx' =>
    rw [bind_of_ok run]
    exact next a ctx' run (before.trans (keeps.ok run))
  | error e ctx' =>
    rw [bind_of_error run]
    exact (before.trans (keeps.error run)).uncommitted

theorem CommitsFrom.throw (e : SessionError) (before : Reads start ctx) :
    CommitsFrom remote named start (throw e : Action P E α) ctx :=
  before.uncommitted

theorem Uncommitted.counted (h : Uncommitted remote start ctx) :
    Uncommitted remote start ctx.counted := by
  refine ⟨h.identity, h.preKeys, h.signedPreKeys, h.records, h.identities.imp_right ?_⟩
  rintro ⟨key, ⟨asked, answered, trusted, before, calls⟩, saved⟩
  exact ⟨key, ⟨asked, answered, trusted, before, Nat.le_succ_of_le calls⟩, saved⟩

theorem CommitsFrom.saveIdentity {f : Bool → Action P E α} {key : IdentityKey P}
    (before : Reads start ctx) (accepted : Accepted remote start ctx key)
    (next : ∀ replaced ctx', Uncommitted remote start ctx' →
      CommitsFrom remote named start (f replaced) ctx') :
    CommitsFrom remote named start (Action.saveIdentity remote key >>= f) ctx := by
  obtain ⟨asked, answered, trusted, reads, calls⟩ := accepted
  unfold CommitsFrom
  rcases Action.saveIdentity_cases remote key ctx with ⟨e, failed⟩ | saved
  · rw [bind_of_error failed]
    exact before.uncommitted.counted
  · rw [bind_of_ok saved]
    refine next _ _ ?_
    constructor <;> simp only [Store.saveIdentity, before.store]
    exact .inr ⟨key, ⟨asked, answered, trusted, reads, Nat.le_succ_of_le calls⟩, rfl⟩

/-- The record is the last that can fail to be written. -/
theorem CommitsFrom.storeRecord {f : Unit → Action P E α} {record : Record P}
    (before : Uncommitted remote start ctx)
    (next : ∀ ctx', Committed remote none start ctx' →
      CommitsFrom remote named start (f ()) ctx') :
    CommitsFrom remote named start (Action.storeRecord remote record >>= f) ctx := by
  unfold CommitsFrom
  rcases Action.storeRecord_cases remote record ctx with ⟨e, failed⟩ | saved
  · rw [bind_of_error failed]
    exact before.counted
  · rw [bind_of_ok saved]
    refine next _ ⟨before.identity, before.signedPreKeys, .inl before.preKeys, ?_, ?_⟩
    · intro address other
      simp only [Store.saveRecord, Table.find?_insert_of_ne other, before.records]
    · intro address other
      rcases before.identities with same | ⟨key, -, inserted⟩
      · simp only [Store.saveRecord, same]
      · simp only [Store.saveRecord, inserted, Table.find?_insert_of_ne other]

theorem Committed.keeps_preKeys (h : Committed remote none start ctx) :
    ctx.store.preKeys = start.store.preKeys := by
  rcases h.preKeys with same | ⟨id, named, -⟩
  · exact same
  · cases named

theorem Committed.commitsFrom_pure (h : Committed remote none start ctx) (a : α) :
    CommitsFrom remote named start (pure a : Action P E α) ctx :=
  ⟨h.identity, h.signedPreKeys, .inl h.keeps_preKeys, h.records, h.identities⟩

theorem Committed.commitsFrom_remove (h : Committed remote none start ctx) (id : UInt32) (a : α) :
    CommitsFrom remote (some id) start
      (Action.attempt (Action.removePreKey id) >>= fun _ => pure a : Action P E α) ctx := by
  obtain ⟨store, attempted, same | removed⟩ := Action.attempt_removePreKey id ctx
  · unfold CommitsFrom
    rw [bind_of_ok attempted]
    subst same
    exact ⟨h.identity, h.signedPreKeys, .inl h.keeps_preKeys, h.records, h.identities⟩
  · unfold CommitsFrom
    rw [bind_of_ok attempted]
    subst removed
    refine ⟨h.identity, h.signedPreKeys, .inr ⟨id, rfl, ?_⟩, h.records, h.identities⟩
    simp only [Store.removePreKey, h.keeps_preKeys]

end CommitsFrom

namespace Conversation

variable (c : Conversation)

theorem record_reads : Keeps Reads (c.record : Action P E _) :=
  Action.bind_reads (Action.query_reads _ _) fun _ => Action.pure_reads _

theorem checkTrust_reads (key : IdentityKey P) : Keeps Reads (c.checkTrust key : Action P E _) := by
  refine Action.bind_reads (Action.query_reads _ _) fun trusted => ?_
  cases trusted with
  | true => exact Action.pure_reads _
  | false => exact Action.throw_reads _

theorem checkCurrent_reads (record : Record P) :
    Keeps Reads (c.checkCurrent record : Action P E _) := by
  unfold checkCurrent
  split
  · exact c.checkTrust_reads _
  · exact Action.pure_reads _

theorem accepted_of_checkTrust {start ctx ctx' : Context P E} {key : IdentityKey P}
    (before : Reads start ctx) (h : c.checkTrust key ctx = .ok () ctx') :
    Accepted c.remote start ctx' key := by
  obtain ⟨trusted, mid, asked, rest⟩ := Computation.bind_eq_ok h
  cases trusted with
  | false => cases rest
  | true =>
    obtain ⟨-, rfl⟩ := Computation.pure_eq_ok rest
    exact ⟨ctx, mid, asked, before, Nat.le_refl _⟩

theorem encrypt_atomic (plaintext : Bytes) :
    Atomic c.remote none (c.encrypt plaintext : Action P E _) := by
  intro ctx
  refine .bind_reads (Action.query_reads _ _) (.refl ctx) fun found ctx₁ _ reads₁ => ?_
  cases found with
  | none => exact .throw _ reads₁
  | some record =>
    dsimp only
    split
    · exact .bind_reads (Action.throw_reads _) reads₁ fun _ _ failed _ => nomatch failed
    · refine .bind_reads (c.checkCurrent_reads _) reads₁ fun _ ctx₂ _ reads₂ => ?_
      refine .bind_reads (Action.ofExcept_reads _) reads₂ fun encrypted ctx₃ _ reads₃ => ?_
      exact .storeRecord reads₃.uncommitted fun _ done => done.commitsFrom_pure _

variable [Randomness E]

theorem start_atomic (bundle : Bundle P) : Atomic c.remote none (c.start bundle : Action P E _) := by
  intro ctx
  refine .bind_reads (Action.ofExcept_reads _) (.refl ctx) fun _ ctx₁ _ reads₁ => ?_
  refine .bind_reads (c.checkTrust_reads _) reads₁ fun _ ctx₂ trusted reads₂ => ?_
  have accepted := c.accepted_of_checkTrust reads₁ trusted
  refine .bind_reads (Action.query_reads _ _) reads₂ fun identity ctx₃ asked reads₃ => ?_
  refine .bind_reads (Action.onSource_reads _) reads₃ fun session ctx₄ built reads₄ => ?_
  refine .bind_reads c.record_reads reads₄ fun record ctx₅ loaded reads₅ => ?_
  have later : Reads ctx₂ ctx₅ :=
    (((Action.query_reads _ _).ok asked).trans ((Action.onSource_reads _).ok built)).trans
      (c.record_reads.ok loaded)
  refine .saveIdentity reads₅ (accepted.of_reads later) fun _ ctx₆ saved => ?_
  have stored : CommitsFrom c.remote none ctx
      (Action.storeRecord c.remote (record.promote session c.limits.maxArchivedStates) >>= pure)
      ctx₆ := .storeRecord saved fun _ done => done.commitsFrom_pure ()
  simpa using stored

theorem decryptWith_commits {start ctx : Context P E} {named : Option UInt32} (record : Record P)
    (message : RatchetMessage) (before : Reads start ctx) :
    CommitsFrom c.remote named start (c.decryptWith record message) ctx := by
  refine .bind_reads (Action.onSource_reads _) before fun opened ctx₁ _ reads₁ => ?_
  refine .bind_reads (c.checkCurrent_reads _) reads₁ fun _ ctx₂ _ reads₂ => ?_
  exact .storeRecord reads₂.uncommitted fun _ done => done.commitsFrom_pure _

theorem decryptRatchet_atomic (message : RatchetMessage) (named : Option UInt32) :
    Atomic c.remote named (c.decryptRatchet message : Action P E _) := by
  intro ctx
  refine .bind_reads (Action.query_reads _ _) (.refl ctx) fun found ctx₁ _ reads₁ => ?_
  cases found with
  | none => exact .throw _ reads₁
  | some record => exact c.decryptWith_commits record message reads₁

theorem establish_commits {start ctx : Context P E} (record : Record P) (message : InitialMessage)
    (before : Reads start ctx) :
    CommitsFrom c.remote message.preKeyId start (c.establish record message) ctx := by
  refine .bind_reads (Action.ofExcept_reads _) before fun remoteIdentity ctx₁ _ reads₁ => ?_
  refine .bind_reads (c.checkTrust_reads _) reads₁ fun _ ctx₂ trusted reads₂ => ?_
  have accepted := c.accepted_of_checkTrust reads₁ trusted
  refine .bind_reads (Action.query_reads _ _) reads₂ fun identity ctx₃ asked reads₃ => ?_
  refine .bind_reads (Handshake.accept_reads _ _) reads₃ fun built ctx₄ took reads₄ => ?_
  refine .bind_reads (Action.onSource_reads _) reads₄ fun opened ctx₅ ran reads₅ => ?_
  have later : Reads ctx₂ ctx₅ :=
    (((Action.query_reads _ _).ok asked).trans ((Handshake.accept_reads _ _).ok took)).trans
      ((Action.onSource_reads _).ok ran)
  refine .saveIdentity reads₅ (accepted.of_reads later) fun _ ctx₆ saved => ?_
  refine .storeRecord saved fun ctx₇ done => ?_
  rw [← Handshake.accept_used took]
  cases built.2 with
  | none => exact done.commitsFrom_pure _
  | some id => exact done.commitsFrom_remove id _

theorem decrypt_atomic (message : Message) :
    Atomic c.remote message.namedPreKey (c.decrypt message : Action P E _) := by
  cases message with
  | ratchet message => exact c.decryptRatchet_atomic message _
  | initial message =>
    intro ctx
    refine .bind_reads c.record_reads (.refl ctx) fun record ctx₁ _ reads₁ => ?_
    split
    · exact c.decryptWith_commits record message.message reads₁
    · exact c.establish_commits record message reads₁

theorem decryptBytes_atomic (bytes : Bytes) :
    Atomic c.remote ((Envelope.decode bytes).toOption.bind Message.namedPreKey)
      (c.decryptBytes bytes : Action P E _) := by
  intro ctx
  refine .bind_reads (Action.ofExcept_reads _) (.refl ctx) fun message ctx₁ ran reads₁ => ?_
  obtain ⟨decoded, rfl⟩ := Computation.ofExcept_eq_ok ran
  cases read : Envelope.decode bytes with
  | error fault =>
    rw [read] at decoded
    cases decoded
  | ok _ =>
    rw [read] at decoded
    cases decoded
    exact c.decrypt_atomic message ctx

end Conversation

/-- The same context, where removals of one-time pre-keys fail in a given way or not at all. -/
def Context.withRemoval (error : Option StoreError) (ctx : Context P E) : Context P E :=
  { ctx with faults := ctx.faults.set .removePreKey error }

def relocate {ε σ : Type} (f : σ → σ) : EStateM.Result ε σ α → EStateM.Result ε σ α
  | .ok a s => .ok a (f s)
  | .error e s => .error e (f s)

/-- Whether removals fail makes no difference to the computation. -/
def Indifferent (act : Action P E α) : Prop :=
  ∀ error ctx, act (ctx.withRemoval error) = relocate (·.withRemoval error) (act ctx)

/-- Whether removals fail makes no difference to the computation's answer. -/
def Unmoved (act : Action P E α) : Prop :=
  ∀ error ctx, answer (act (ctx.withRemoval error)) = answer (act ctx)

theorem Indifferent.unmoved {act : Action P E α} (h : Indifferent act) : Unmoved act := by
  intro error ctx
  rw [h]
  cases act ctx <;> rfl

theorem Indifferent.pure (a : α) : Indifferent (pure a : Action P E α) := fun _ _ => rfl

theorem Indifferent.throw (e : SessionError) : Indifferent (throw e : Action P E α) :=
  fun _ _ => rfl

theorem Indifferent.ofExcept (x : Except SessionError α) :
    Indifferent (MonadExcept.ofExcept x : Action P E α) := by
  intro error ctx
  cases x <;> rfl

theorem Indifferent.onSource (run : EStateM SessionError E α) :
    Indifferent (Action.onSource run : Action P E α) := by
  intro error ctx
  simp only [Action.onSource, Context.withRemoval]
  cases run ctx.source <;> rfl

theorem Indifferent.call (kind : StoreCall) (other : kind ≠ .removePreKey)
    (run : Store P → Except StoreError (α × Store P)) :
    Indifferent (Action.call kind run : Action P E α) := by
  intro error ctx
  simp only [Action.call, Context.withRemoval, Faults.set, if_neg other]
  cases ctx.faults.plan ctx.faults.calls kind with
  | some e => rfl
  | none => cases run ctx.store <;> rfl

theorem Indifferent.query (kind : StoreCall) (other : kind ≠ .removePreKey)
    (value : Store P → Except StoreError α) :
    Indifferent (Action.query kind value : Action P E α) := .call kind other _

theorem Indifferent.storeRecord (remote : Address) (record : Record P) :
    Indifferent (Action.storeRecord remote record : Action P E _) :=
  .call .storeSession (by decide) fun store => .ok ((), store.saveRecord remote record)

theorem Indifferent.bind {m : Action P E α} {f : α → Action P E β} (first : Indifferent m)
    (second : ∀ a, Indifferent (f a)) : Indifferent (m >>= f) := by
  intro error ctx
  have moved := first error ctx
  cases run : m ctx with
  | ok a ctx' =>
    rw [run] at moved
    rw [bind_of_ok moved, bind_of_ok run]
    exact second a error ctx'
  | error e ctx' =>
    rw [run] at moved
    rw [bind_of_error moved, bind_of_error run]
    rfl

theorem Unmoved.bind {m : Action P E α} {f : α → Action P E β} (first : Indifferent m)
    (second : ∀ a, Unmoved (f a)) : Unmoved (m >>= f) := by
  intro error ctx
  have moved := first error ctx
  cases run : m ctx with
  | ok a ctx' =>
    rw [run] at moved
    rw [bind_of_ok moved, bind_of_ok run]
    exact second a error ctx'
  | error e ctx' =>
    rw [run] at moved
    rw [bind_of_error moved, bind_of_error run]
    rfl

theorem Unmoved.attempt_removePreKey (id : UInt32) (a : α) :
    Unmoved (Action.attempt (Action.removePreKey id) >>= fun _ => pure a : Action P E α) := by
  intro error ctx
  obtain ⟨store, attempted, -⟩ := Action.attempt_removePreKey id ctx
  obtain ⟨store', attempted', -⟩ := Action.attempt_removePreKey id (ctx.withRemoval error)
  rw [bind_of_ok attempted, bind_of_ok attempted']
  rfl

namespace Handshake

theorem signedPreKey_indifferent (id : UInt32) :
    Indifferent (signedPreKey id : Action P E _) := by
  refine .bind (.query .loadSignedPreKey (by decide) _) fun found => ?_
  cases found with
  | some key => exact .pure _
  | none => exact .throw _

theorem oneTimePreKey_indifferent (id : Option UInt32) :
    Indifferent (oneTimePreKey id : Action P E _) := by
  cases id with
  | none => exact .pure _
  | some id =>
    refine .bind (.query .loadPreKey (by decide) _) fun found => ?_
    cases found with
    | some key => exact .pure _
    | none => exact .throw _

variable [Randomness E]

theorem accept_indifferent (message : InitialMessage) (identity : Identity) :
    Indifferent (accept message identity : Action P E _) := by
  refine .bind (.ofExcept _) fun remote => ?_
  split
  · refine .bind (.throw _) fun _ => ?_
    exact .bind (signedPreKey_indifferent _) fun _ => .bind (oneTimePreKey_indifferent _) fun _ =>
      .bind (.onSource _) fun _ => .pure _
  · exact .bind (signedPreKey_indifferent _) fun _ => .bind (oneTimePreKey_indifferent _) fun _ =>
      .bind (.onSource _) fun _ => .pure _

end Handshake

namespace Conversation

variable (c : Conversation)

theorem record_indifferent : Indifferent (c.record : Action P E _) :=
  .bind (.query .loadSession (by decide) _) fun _ => .pure _

theorem checkTrust_indifferent (key : IdentityKey P) :
    Indifferent (c.checkTrust key : Action P E _) := by
  refine .bind (.query .isTrustedIdentity (by decide) _) fun trusted => ?_
  cases trusted with
  | true => exact .pure _
  | false => exact .throw _

theorem checkCurrent_indifferent (record : Record P) :
    Indifferent (c.checkCurrent record : Action P E _) := by
  unfold checkCurrent
  split
  · exact c.checkTrust_indifferent _
  · exact .pure _

variable [Randomness E]

theorem decryptWith_indifferent (record : Record P) (message : RatchetMessage) :
    Indifferent (c.decryptWith record message : Action P E _) :=
  .bind (.onSource _) fun _ => .bind (c.checkCurrent_indifferent _) fun _ =>
    .bind (.storeRecord _ _) fun _ => .pure _

theorem decryptRatchet_indifferent (message : RatchetMessage) :
    Indifferent (c.decryptRatchet message : Action P E _) := by
  refine .bind (.query .loadSession (by decide) _) fun found => ?_
  cases found with
  | none => exact .throw _
  | some record => exact c.decryptWith_indifferent record message

theorem establish_unmoved (record : Record P) (message : InitialMessage) :
    Unmoved (c.establish record message : Action P E _) := by
  refine .bind (.ofExcept _) fun remoteIdentity => ?_
  refine .bind (c.checkTrust_indifferent _) fun _ => ?_
  refine .bind (.query .identityKeyPair (by decide) _) fun identity => ?_
  refine .bind (Handshake.accept_indifferent _ _) fun built => ?_
  refine .bind (.onSource _) fun opened => ?_
  refine .bind (.call .saveIdentity (by decide) _) fun _ => ?_
  refine .bind (.storeRecord _ _) fun _ => ?_
  cases built.2 with
  | none => exact Indifferent.unmoved (.pure _)
  | some id => exact .attempt_removePreKey id _

theorem decrypt_unmoved (message : Message) : Unmoved (c.decrypt message : Action P E _) := by
  cases message with
  | ratchet message => exact (c.decryptRatchet_indifferent message).unmoved
  | initial message =>
    refine .bind c.record_indifferent fun record => ?_
    split
    · exact (c.decryptWith_indifferent record message.message).unmoved
    · exact c.establish_unmoved record message

theorem decryptBytes_unmoved (bytes : Bytes) : Unmoved (c.decryptBytes bytes : Action P E _) :=
  .bind (.ofExcept _) c.decrypt_unmoved

/-- Each operation of a conversation commits to what concerns the remote device or to nothing,
whatever the store holds, whichever of its calls fail and whenever the source does; and no answer
depends on whether a used one-time pre-key can be removed. -/
theorem commit_or_nothing :
    (∀ plaintext, Atomic c.remote none (c.encrypt plaintext : Action P E _)) ∧
    (∀ message, Atomic c.remote message.namedPreKey (c.decrypt message : Action P E _)) ∧
    (∀ bytes, Atomic c.remote ((Envelope.decode bytes).toOption.bind Message.namedPreKey)
      (c.decryptBytes bytes : Action P E _)) ∧
    (∀ bundle, Atomic c.remote none (c.start bundle : Action P E _)) ∧
    (∀ message, Unmoved (c.decrypt message : Action P E _)) ∧
    (∀ bytes, Unmoved (c.decryptBytes bytes : Action P E _)) :=
  ⟨c.encrypt_atomic, c.decrypt_atomic, c.decryptBytes_atomic, c.start_atomic, c.decrypt_unmoved,
    c.decryptBytes_unmoved⟩

end Conversation

end RatchetSession
