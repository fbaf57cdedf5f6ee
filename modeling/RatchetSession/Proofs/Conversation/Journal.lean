import RatchetSession.Proofs.Conversation.Atomic
import RatchetSession.Proofs.Suite.Laws
set_option autoImplicit false

/-!
Runs of one party: calls, one after another, over one store, each for a remote device and
with limits of its own. The journal of a run lists the calls with the party's side of
things before each of them.
-/

namespace RatchetSession

open RatchetSession.Computation (Keeps endState bind_of_ok bind_of_error bind_eq_ok pure_eq_ok
  ofExcept_eq_ok)

inductive Request (P : Suite) where
  | hasSession
  | start (bundle : Bundle P)
  | encrypt (plaintext : Bytes)
  | decrypt (message : Message)
  | decryptBytes (bytes : Bytes)

inductive Reply where
  | session (held : Bool)
  | started
  | sent (message : Message)
  | opened (plaintext : Bytes)
deriving DecidableEq

structure Call (P : Suite) where
  conversation : Conversation
  request : Request P

structure Entry (P : Suite) (E : Type) where
  call : Call P
  before : Context P E

section

variable {P : Suite}

def Store.sessions (st : Store P) (address : Address) : List (Session P) :=
  match st.loadRecord address with
  | .ok (some r) => r.sessions
  | _ => []

def Store.sessionsWith (st : Store P) (address : Address) (sessions : List (Session P))
    (other : Address) : List (Session P) :=
  if other = address then sessions else st.sessions other

namespace Store

variable {st : Store P} {address : Address}

theorem sessions_of_loaded {stored : Option (Record P)} (loaded : st.loadRecord address = .ok stored) :
    st.sessions address = (stored.getD .empty).sessions := by
  cases stored <;> simp [sessions, loaded, Record.empty, Record.sessions]

theorem mem_sessions_of_current {r : Record P} {s : Session P}
    (loaded : st.loadRecord address = .ok (some r)) (current : r.current = some s) :
    s ∈ st.sessions address := by
  simp [sessions_of_loaded loaded, Record.sessions, current]

/-- The record for each device can be read, and is as `Q` says. -/
def Holding (Q : Address → Record P → Prop) (st : Store P) : Prop :=
  ∀ address, ∃ stored, st.loadRecord address = .ok stored ∧ Q address (stored.getD .empty)

theorem Holding.of_loaded {Q : Address → Record P → Prop} {stored : Option (Record P)}
    (h : st.Holding Q) (loaded : st.loadRecord address = .ok stored) :
    Q address (stored.getD .empty) := by
  obtain ⟨_, loaded', is⟩ := h address
  cases loaded.symm.trans loaded'
  exact is

theorem holding_of_fresh {Q : Address → Record P → Prop} (fresh : st.records = .empty)
    (empty : ∀ address, Q address .empty) : st.Holding Q :=
  fun address => ⟨none, by rw [loadRecord, fresh]; rfl, empty address⟩

theorem sessionsWith_self {r : Record P} (loaded : st.loadRecord address = .ok (some r)) :
    st.sessionsWith address r.sessions = st.sessions := by
  funext other
  unfold sessionsWith
  split
  · rename_i same
    rw [same, sessions_of_loaded loaded]
    rfl
  · rfl

end Store

end

variable {P : Suite} {E α β : Type} [Randomness E]

def Call.perform (call : Call P) : Action P E Reply :=
  match call.request with
  | .hasSession => do return .session (← call.conversation.hasSession)
  | .start bundle => do
    call.conversation.start bundle
    return .started
  | .encrypt plaintext => do return .sent (← call.conversation.encrypt plaintext)
  | .decrypt message => do return .opened (← call.conversation.decrypt message)
  | .decryptBytes bytes => do return .opened (← call.conversation.decryptBytes bytes)

namespace Entry

variable (e : Entry P E)

def remote (e : Entry P E) : Address := e.call.conversation.remote

def result : EStateM.Result SessionError (Context P E) Reply := e.call.perform e.before

def after : Context P E := endState e.result

def sent? : Option Message :=
  match e.result with
  | .ok (.sent message) _ => some message
  | _ => none

def opened? : Option Message :=
  match e.result with
  | .ok (.opened _) _ =>
    match e.call.request with
    | .decrypt message => some message
    | .decryptBytes bytes => (Envelope.decode bytes).toOption
    | _ => none
  | _ => none

end Entry

def journal : List (Call P) → Context P E → List (Entry P E)
  | [], _ => []
  | call :: rest, ctx => ⟨call, ctx⟩ :: journal rest (Entry.after ⟨call, ctx⟩)

def outcome (calls : List (Call P)) (ctx : Context P E) : Context P E :=
  calls.foldl (fun ctx call => Entry.after ⟨call, ctx⟩) ctx

/-- What every call keeps, given all calls before it, holds before each call of a run and at its
end. The calls need only be admissible. -/
theorem journal_invariant {Admissible : Entry P E → Prop}
    {Holds : List (Entry P E) → Context P E → Prop}
    (step : ∀ past e, Holds past e.before → Admissible e → Holds (past ++ [e]) e.after)
    (calls : List (Call P)) {past : List (Entry P E)} {ctx : Context P E} (start : Holds past ctx)
    (admissible : ∀ e ∈ journal calls ctx, Admissible e) :
    (∀ earlier e later, journal calls ctx = earlier ++ e :: later →
      Holds (past ++ earlier) e.before) ∧
    Holds (past ++ journal calls ctx) (outcome calls ctx) := by
  -- on the calls ahead; each one moves over to the past
  induction calls generalizing past ctx with
  | nil =>
    refine ⟨fun earlier e later split => ?_, by simpa [journal, outcome] using start⟩
    simp [journal] at split
  | cons call rest ih =>
    have next := step past ⟨call, ctx⟩ start (admissible _ List.mem_cons_self)
    obtain ⟨each, last⟩ := ih next fun e member => admissible e (List.mem_cons_of_mem _ member)
    refine ⟨fun earlier e later split => ?_, by simpa [journal, outcome] using last⟩
    cases earlier with
    | nil =>
      cases split
      simpa using start
    | cons first earlier =>
      obtain ⟨rfl, behind⟩ := List.cons.inj split
      simpa using each earlier e later behind

theorem call_mem {calls : List (Call P)} {ctx : Context P E} {e : Entry P E}
    (member : e ∈ journal calls ctx) : e.call ∈ calls := by
  induction calls generalizing ctx with
  | nil => cases member
  | cons call rest ih =>
    rcases List.mem_cons.1 member with rfl | member
    · exact List.mem_cons_self
    · exact List.mem_cons_of_mem _ (ih member)

def stages : List (Call P) → Context P E → List (Context P E)
  | [], ctx => [ctx]
  | call :: rest, ctx => ctx :: stages rest (Entry.after ⟨call, ctx⟩)

theorem stages_invariant {Admissible : Entry P E → Prop} {Holds : Context P E → Prop}
    (step : ∀ e, Holds e.before → Admissible e → Holds e.after) (calls : List (Call P))
    {ctx : Context P E} (start : Holds ctx) (admissible : ∀ e ∈ journal calls ctx, Admissible e) :
    ∀ now ∈ stages calls ctx, Holds now := by
  induction calls generalizing ctx with
  | nil => simpa [stages] using start
  | cons call rest ih =>
    have next := step ⟨call, ctx⟩ start (admissible _ List.mem_cons_self)
    refine List.forall_mem_cons.2 ⟨start, ih next fun e member => ?_⟩
    exact admissible e (List.mem_cons_of_mem _ member)

theorem outcome_mem_stages (calls : List (Call P)) (ctx : Context P E) :
    outcome calls ctx ∈ stages calls ctx := by
  induction calls generalizing ctx with
  | nil => exact List.mem_singleton_self ctx
  | cons call rest ih => exact List.mem_cons_of_mem _ (ih (Entry.after ⟨call, ctx⟩))

theorem mem_stages {calls : List (Call P)} {ctx : Context P E} {e : Entry P E}
    (member : e ∈ journal calls ctx) : e.before ∈ stages calls ctx ∧ e.after ∈ stages calls ctx := by
  induction calls generalizing ctx with
  | nil => cases member
  | cons call rest ih =>
    rcases List.mem_cons.1 member with rfl | member
    · refine ⟨List.mem_cons_self, List.mem_cons_of_mem _ ?_⟩
      cases rest <;> exact List.mem_cons_self
    · exact (ih member).imp (List.mem_cons_of_mem _) (List.mem_cons_of_mem _)

/-- What relates the two sides of every call relates each stage to all later ones. -/
theorem stages_pairwise {R : Context P E → Context P E → Prop} (refl : ∀ ctx, R ctx ctx)
    (trans : ∀ {a b c}, R a b → R b c → R a c) (step : ∀ e : Entry P E, R e.before e.after)
    (calls : List (Call P)) (ctx : Context P E) :
    (∀ later ∈ stages calls ctx, R ctx later) ∧ (stages calls ctx).Pairwise R := by
  induction calls generalizing ctx with
  | nil => simp [stages, refl]
  | cons call rest ih =>
    obtain ⟨ahead, pairwise⟩ := ih (Entry.after ⟨call, ctx⟩)
    have later : ∀ now ∈ stages rest (Entry.after ⟨call, ctx⟩), R ctx now :=
      fun now member => trans (step ⟨call, ctx⟩) (ahead now member)
    exact ⟨List.forall_mem_cons.2 ⟨refl ctx, later⟩, List.pairwise_cons.2 ⟨later, pairwise⟩⟩

def Request.named : Request P → Option UInt32
  | .decrypt message => message.namedPreKey
  | .decryptBytes bytes => (Envelope.decode bytes).toOption.bind Message.namedPreKey
  | _ => none

omit [Randomness E] in
theorem CommitsFrom.map {remote : Address} {named : Option UInt32} {start ctx : Context P E}
    {act : Action P E α} (h : CommitsFrom remote named start act ctx) (f : α → β) :
    CommitsFrom remote named start (act >>= fun a => pure (f a)) ctx := by
  unfold CommitsFrom at h ⊢
  cases run : act ctx with
  | ok a ctx' =>
    rw [run] at h
    rw [bind_of_ok run]
    exact h
  | error e ctx' =>
    rw [run] at h
    rw [bind_of_error run]
    exact h

omit [Randomness E] in
theorem Conversation.hasSession_reads (c : Conversation) :
    Keeps Reads (c.hasSession : Action P E _) :=
  Action.bind_reads c.record_reads fun _ => Action.pure_reads _

theorem Call.perform_atomic (call : Call P) :
    Atomic call.conversation.remote call.request.named (call.perform : Action P E _) := by
  obtain ⟨c, request⟩ := call
  intro ctx
  cases request with
  | hasSession =>
    exact .bind_reads c.hasSession_reads (.refl ctx) fun _ _ _ reads => reads.committed
  | start bundle => exact (c.start_atomic bundle ctx).map _
  | encrypt plaintext => exact (c.encrypt_atomic plaintext ctx).map _
  | decrypt message => exact (c.decrypt_atomic message ctx).map _
  | decryptBytes bytes => exact (c.decryptBytes_atomic bytes ctx).map _

theorem Conversation.decryptBytes_eq_ok {c : Conversation} {bytes plaintext : Bytes}
    {ctx ctx' : Context P E} (h : c.decryptBytes bytes ctx = .ok plaintext ctx') :
    ∃ message, Envelope.decode bytes = .ok message ∧
      c.decrypt message ctx = .ok plaintext ctx' := by
  obtain ⟨message, _, read, h⟩ := bind_eq_ok h
  obtain ⟨decoded, rfl⟩ := ofExcept_eq_ok read
  cases found : Envelope.decode bytes with
  | error fault =>
    rw [found] at decoded
    cases decoded
  | ok _ =>
    rw [found] at decoded
    cases decoded
    exact ⟨message, rfl, h⟩

namespace Entry

theorem after_of_ok {e : Entry P E} {reply : Reply} {ctx : Context P E}
    (h : e.result = .ok reply ctx) : e.after = ctx := by
  simp only [after, h, endState]

theorem cases (e : Entry P E) :
    (e.sent? = none ∧ e.opened? = none ∧ Uncommitted e.remote e.before e.after) ∨
    (∃ bundle, e.call.request = .start bundle ∧ e.sent? = none ∧ e.opened? = none ∧
      e.call.conversation.start bundle e.before = .ok () e.after) ∨
    (∃ message plaintext, e.sent? = some message ∧ e.opened? = none ∧
      e.call.conversation.encrypt plaintext e.before = .ok message e.after) ∨
    (∃ message plaintext, e.sent? = none ∧ e.opened? = some message ∧
      e.call.conversation.decrypt message e.before = .ok plaintext e.after) := by
  cases ended : e.result with
  | error error ctx =>
    have atomic := e.call.perform_atomic e.before
    unfold CommitsFrom at atomic
    rw [show e.call.perform e.before = .error error ctx from ended] at atomic
    refine .inl ⟨by simp only [sent?, ended], by simp only [opened?, ended], ?_⟩
    simp only [after, ended, endState]
    exact atomic
  | ok reply ctx =>
    have last := after_of_ok ended
    obtain ⟨⟨c, request⟩, before⟩ := e
    subst last
    cases request with
    | hasSession =>
      obtain ⟨held, _, asked, done⟩ := bind_eq_ok ended
      obtain ⟨rfl, rfl⟩ := pure_eq_ok done
      refine .inl ⟨by simp only [sent?, ended], by simp only [opened?, ended], ?_⟩
      exact (c.hasSession_reads.ok asked).uncommitted
    | start bundle =>
      obtain ⟨_, _, run, done⟩ := bind_eq_ok ended
      obtain ⟨rfl, rfl⟩ := pure_eq_ok done
      refine .inr (.inl ⟨bundle, rfl, ?_, ?_, run⟩)
      · simp only [sent?, ended]
      · simp only [opened?, ended]
    | encrypt plaintext =>
      obtain ⟨message, _, run, done⟩ := bind_eq_ok ended
      obtain ⟨rfl, rfl⟩ := pure_eq_ok done
      exact .inr (.inr (.inl
        ⟨message, plaintext, by simp only [sent?, ended], by simp only [opened?, ended], run⟩))
    | decrypt message =>
      obtain ⟨plaintext, _, run, done⟩ := bind_eq_ok ended
      obtain ⟨rfl, rfl⟩ := pure_eq_ok done
      exact .inr (.inr (.inr
        ⟨message, plaintext, by simp only [sent?, ended], by simp only [opened?, ended], run⟩))
    | decryptBytes bytes =>
      obtain ⟨plaintext, _, run, done⟩ := bind_eq_ok ended
      obtain ⟨rfl, rfl⟩ := pure_eq_ok done
      obtain ⟨message, decoded, run⟩ := Conversation.decryptBytes_eq_ok run
      refine .inr (.inr (.inr ⟨message, plaintext, by simp only [sent?, ended], ?_, run⟩))
      simp only [opened?, ended, decoded, Except.toOption]

theorem encrypt_of_sent {e : Entry P E} {message : Message} (h : e.sent? = some message) :
    ∃ plaintext, e.call.conversation.encrypt plaintext e.before = .ok message e.after := by
  rcases e.cases with ⟨unsent, -⟩ | ⟨_, -, unsent, -⟩ | ⟨_, plaintext, is, -, ok⟩ |
    ⟨_, _, unsent, -⟩
  · simp [unsent] at h
  · simp [unsent] at h
  · cases h.symm.trans is
    exact ⟨plaintext, ok⟩
  · simp [unsent] at h

theorem decrypt_of_opened {e : Entry P E} {message : Message} (h : e.opened? = some message) :
    ∃ plaintext, e.call.conversation.decrypt message e.before = .ok plaintext e.after := by
  rcases e.cases with ⟨-, unopened, -⟩ | ⟨_, -, -, unopened, -⟩ | ⟨_, _, -, unopened, -⟩ |
    ⟨_, plaintext, -, is, ok⟩
  · simp [unopened] at h
  · simp [unopened] at h
  · simp [unopened] at h
  · cases h.symm.trans is
    exact ⟨plaintext, ok⟩

theorem loadRecord_of_ne (e : Entry P E) {address : Address} (differ : address ≠ e.remote) :
    e.after.store.loadRecord address = e.before.store.loadRecord address := by
  have atomic := e.call.perform_atomic e.before
  unfold CommitsFrom at atomic
  have same : e.after.store.records.find? address = e.before.store.records.find? address := by
    unfold after
    cases ended : e.result with
    | ok reply ctx =>
      rw [show e.call.perform e.before = .ok reply ctx from ended] at atomic
      exact atomic.records address differ
    | error error ctx =>
      rw [show e.call.perform e.before = .error error ctx from ended] at atomic
      exact congrArg (·.find? address) atomic.records
  simp only [Store.loadRecord, same]

theorem holding_after {Q Q' : Address → Record P → Prop} (e : Entry P E)
    (before : e.before.store.Holding Q) (carry : ∀ address r, Q address r → Q' address r)
    (started : ∀ bundle, e.call.request = .start bundle →
      e.call.conversation.start bundle e.before = .ok () e.after →
      ∃ r, e.after.store.loadRecord e.remote = .ok (some r) ∧ Q' e.remote r)
    (sent : ∀ plaintext message,
      e.call.conversation.encrypt plaintext e.before = .ok message e.after →
      ∃ r, e.after.store.loadRecord e.remote = .ok (some r) ∧ Q' e.remote r)
    (opened : ∀ message plaintext,
      e.call.conversation.decrypt message e.before = .ok plaintext e.after →
      ∃ r, e.after.store.loadRecord e.remote = .ok (some r) ∧ Q' e.remote r) :
    e.after.store.Holding Q' := by
  intro address
  obtain ⟨stored, loaded, held⟩ := before address
  by_cases here : address = e.remote
  · subst here
    have written : (∃ r, e.after.store.loadRecord e.remote = .ok (some r) ∧ Q' e.remote r) →
        ∃ stored, e.after.store.loadRecord e.remote = .ok stored ∧
          Q' e.remote (stored.getD .empty) := fun ⟨r, found, is⟩ => ⟨some r, found, is⟩
    rcases e.cases with ⟨-, -, silent⟩ | ⟨bundle, asked, -, -, ok⟩ |
      ⟨message, plaintext, -, -, ok⟩ | ⟨message, plaintext, -, -, ok⟩
    · refine ⟨stored, ?_, carry _ _ held⟩
      rw [Store.loadRecord, silent.records]
      exact loaded
    · exact written (started bundle asked ok)
    · exact written (sent plaintext message ok)
    · exact written (opened message plaintext ok)
  · exact ⟨stored, (e.loadRecord_of_ne here).trans loaded, carry _ _ held⟩

theorem sessions_of_ne (e : Entry P E) {address : Address} (differ : address ≠ e.remote) :
    e.after.store.sessions address = e.before.store.sessions address := by
  simp only [Store.sessions, e.loadRecord_of_ne differ]

theorem preKeys_shrink (e : Entry P E) :
    e.after.store.signedPreKeys = e.before.store.signedPreKeys ∧
      ∀ id, e.before.store.preKeys.find? id = none → e.after.store.preKeys.find? id = none := by
  have atomic := e.call.perform_atomic e.before
  unfold CommitsFrom at atomic
  unfold after
  cases ended : e.result with
  | error error ctx =>
    rw [show e.call.perform e.before = .error error ctx from ended] at atomic
    exact ⟨atomic.signedPreKeys, fun id gone => by rw [endState, atomic.preKeys]; exact gone⟩
  | ok reply ctx =>
    rw [show e.call.perform e.before = .ok reply ctx from ended] at atomic
    refine ⟨atomic.signedPreKeys, fun id gone => ?_⟩
    rcases atomic.preKeys with same | ⟨used, -, erased⟩
    · rw [endState, same]
      exact gone
    · rw [endState, erased, Table.find?_erase, gone, ite_self]

end Entry

def newcomerKey (n k : Nat) : KeyPair := .ofSeed Suite.plain (Ticker.seed 32 (n + k))

def newcomerSigned (n : Nat) : SignedPreKey :=
  ⟨1, newcomerKey n 1,
    Identity.sign Suite.plain ⟨Ticker.seed 32 n⟩ (newcomerKey n 1).publicKey.bytes.toList⟩

def newcomerOneTime (n : Nat) : PreKey := ⟨7, newcomerKey n 2⟩

/-- A party that has met nobody. It holds one signed pre-key and one one-time pre-key. -/
def newcomer (n : Nat) : Context Suite.plain Ticker :=
  ⟨((Store.ofIdentity ⟨Ticker.seed 32 n⟩).addSignedPreKey (newcomerSigned n)).addPreKey
    (newcomerOneTime n), .none, ⟨n + 3⟩⟩

def newcomerBundle (n : Nat) (oneTime : Bool) : Bundle Suite.plain :=
  .ofKeys (Identity.key Suite.plain ⟨Ticker.seed 32 n⟩) (newcomerSigned n)
    (if oneTime then some (newcomerOneTime n) else none)

end RatchetSession
