import RatchetSession.Proofs.Session.Opener
import RatchetSession.Proofs.Session.Unheard
import RatchetSession.Proofs.Suite.Laws
set_option autoImplicit false

namespace RatchetSession

variable {P : Suite} {E : Type} [Randomness E] {limits : Limits} {message : RatchetMessage}

namespace Session

variable {s s' : Session P} {plaintext : Bytes} {source source' : E}

/-- All that a message changes of a session that has a chain for it. -/
structure OneChain (chain : ReceivingChain) (s s' : Session P) : Prop where
  rootKey : s'.rootKey = s.rootKey
  sending : s'.sending = s.sending
  previousCounter : s'.previousCounter = s.previousCounter
  receiving : ∃ before after chain', s.receiving = before ++ chain :: after ∧
    s'.receiving = before ++ chain' :: after ∧ chain.SameEnds chain'

theorem replaceChain_of_find? {key : PublicKey} {chain : ReceivingChain} (next : ReceivingChain)
    {chains : List ReceivingChain} (found : chains.find? (·.remoteKey == key) = some chain) :
    ∃ before after, chains = before ++ chain :: after ∧
      replaceChain key next chains = before ++ next :: after := by
  induction chains with
  | nil => cases found
  | cons first rest ih =>
    by_cases here : first.remoteKey = key
    · rw [List.find?_cons_of_pos (by simpa using here)] at found
      cases found
      exact ⟨[], rest, rfl, if_pos here⟩
    · rw [List.find?_cons_of_neg (by simpa using here)] at found
      obtain ⟨before, after, rfl, replaced⟩ := ih found
      exact ⟨first :: before, after, rfl, by rw [replaceChain, if_neg here, replaced]; rfl⟩

theorem receive_chain (h : s.receive limits message = .ok (plaintext, s')) :
    ∃ chain key after, s.chain? message.ratchetKey = some chain ∧
      chain.messageKey P limits message.counter = .ok key after ∧
      s' = { s.setChain message.ratchetKey after with pending := none } ∧
      s'.chain? message.ratchetKey = some after := by
  obtain ⟨chain, key, after, found, taken, rfl⟩ := receive_eq_ok h
  have remote := ((ReceivingChain.messageKey_ends _).ok taken).remoteKey.trans
    (chain?_remoteKey found)
  have looked := find?_replaceChain remote message.ratchetKey s.receiving
  rw [if_pos rfl, show s.receiving.find? _ = some chain from found] at looked
  exact ⟨chain, key, after, found, taken, rfl, looked⟩

theorem decrypt_pending (h : s.decrypt limits message source = .ok (plaintext, s') source') :
    s'.pending = none := by
  obtain ⟨ready, -, received⟩ := decrypt_parts h
  obtain ⟨_, _, _, -, -, rfl⟩ := receive_eq_ok received
  rfl

theorem decrypt_oneChain {chain : ReceivingChain} (found : s.chain? message.ratchetKey = some chain)
    (h : s.decrypt limits message source = .ok (plaintext, s') source') : s.OneChain chain s' := by
  obtain ⟨ready, followed, received⟩ := decrypt_parts h
  rcases follow_eq_ok followed with ⟨-, rfl, -⟩ | ⟨unknown, -⟩
  · obtain ⟨held, key, next, there, taken, rfl⟩ := receive_eq_ok received
    cases found.symm.trans there
    obtain ⟨before, after, split, replaced⟩ := replaceChain_of_find? next found
    exact ⟨rfl, rfl, rfl, before, after, next, split, replaced,
      (ReceivingChain.messageKey_ends message.counter).ok taken⟩
  · rw [found] at unknown
    cases unknown

end Session

namespace Record

variable {sessions : List (Session P)} {source source' : E} {failure : Option SessionError}

/-- What some sessions fail with, tried in turn: as the first one that has opened the message before,
or as the first of them all. -/
inductive Refused (limits : Limits) (message : RatchetMessage) (sessions : List (Session P))
    (source source' : E) (failure : Option SessionError) (error : SessionError) : Prop
  | duplicate {passed rest : List (Session P)} {s : Session P} {failures : List SessionError}
      {tried : E} {counter : UInt32} (split : sessions = passed ++ s :: rest)
      (before : PassedOver limits message passed failures source tried)
      (used : s.decrypt limits message tried = .error (.duplicateMessage counter) source')
      (is : error = .duplicateMessage counter)
  | first {failures : List SessionError}
      (all : PassedOver limits message sessions failures source source')
      (is : error = (failure.or failures.head?).getD .noValidSession)

theorem Refused.cons {s : Session P} {first error : SessionError} {tried : E}
    (failed : s.decrypt limits message source = .error first tried) (other : first.NotDuplicate)
    (later : Refused limits message sessions tried source' (some (failure.getD first)) error) :
    Refused limits message (s :: sessions) source source' failure error := by
  cases later with
  | duplicate split before used is =>
    exact .duplicate (congrArg (s :: ·) split) (.cons failed other before) used is
  | first all is =>
    refine .first (.cons failed other all) (is.trans ?_)
    cases failure <;> rfl

theorem refused_of_duplicate {s : Session P} {counter : UInt32} (rest : List (Session P))
    (used : s.decrypt limits message source = .error (.duplicateMessage counter) source') :
    Refused limits message (s :: rest) source source' failure (.duplicateMessage counter) :=
  have split : s :: rest = [] ++ s :: rest := rfl
  .duplicate split (.nil source) used rfl

theorem search_refused {position : Nat} {error : SessionError}
    (h : search limits message sessions position failure source = .error error source') :
    Refused limits message sessions source source' failure error := by
  induction sessions generalizing position failure source with
  | nil =>
    cases h
    refine .first (.nil _) ?_
    cases failure <;> rfl
  | cons s rest ih =>
    cases opened : s.decrypt limits message source with
    | ok result after =>
      rw [search_of_ok opened] at h
      cases h
    | error first after =>
      rcases first.duplicate_or with ⟨counter, rfl⟩ | other
      · rw [search_of_duplicate opened] at h
        cases h
        exact refused_of_duplicate rest opened
      · rw [search_of_error opened other] at h
        exact (ih h).cons opened other

variable {r r' : Record P}

theorem decryptArchived_refused {error : SessionError}
    (h : decryptArchived limits message failure (r, source) = .error error (r', source')) :
    r' = r ∧ Refused limits message r.archived source source' failure error := by
  obtain ⟨searched, same⟩ := decryptArchived_eq_error h
  exact ⟨same, search_refused searched⟩

theorem decrypt_refused {error : SessionError}
    (h : decrypt limits message (r, source) = .error error (r', source')) :
    r' = r ∧ Refused limits message r.sessions source source' none error := by
  cases held : r.current with
  | none =>
    have all : r.sessions = r.archived := by simp [sessions, held]
    rw [decrypt_of_none held] at h
    exact all ▸ decryptArchived_refused h
  | some current =>
    have all : r.sessions = current :: r.archived := by simp [sessions, held]
    rw [all]
    cases opened : current.decrypt limits message source with
    | ok result after =>
      obtain ⟨bytes, next⟩ := result
      rw [decrypt_of_ok held opened] at h
      cases h
    | error first after =>
      rcases first.duplicate_or with ⟨counter, rfl⟩ | other
      · rw [decrypt_of_duplicate held opened] at h
        cases h
        exact ⟨rfl, refused_of_duplicate r.archived opened⟩
      · rw [decrypt_of_error held opened other] at h
        obtain ⟨same, refused⟩ := decryptArchived_refused h
        exact ⟨same, refused.cons opened other⟩

/-- The first session that opens a message, when none before it has opened it already, comes to the
front as what it has become; and all others stay, as they were and in their order. A message that
fails changes nothing, and the failure is that of the first session to have opened it before, or else
of the first one tried. -/
theorem decrypt_changes_opener (r : Record P)
    (room : r.archived.length ≤ limits.maxArchivedStates) (message : RatchetMessage) (source : E) :
    (∀ plaintext r' source', decrypt limits message (r, source) = .ok plaintext (r', source') →
      ∃ passed failures tried s rest next, r.sessions = passed ++ s :: rest ∧
        PassedOver limits message passed failures source tried ∧
        s.decrypt limits message tried = .ok (plaintext, next) source' ∧
        r'.current = some next ∧ r'.archived = passed ++ rest ∧
        s.SameStart next ∧ next.pending = none ∧
        ∀ chain, s.chain? message.ratchetKey = some chain → s.OneChain chain next) ∧
    ∀ error r' source', decrypt limits message (r, source) = .error error (r', source') →
      r' = r ∧
      ((∃ passed failures tried s rest counter, r.sessions = passed ++ s :: rest ∧
          PassedOver limits message passed failures source tried ∧
          s.decrypt limits message tried = .error (.duplicateMessage counter) source' ∧
          error = .duplicateMessage counter) ∨
        ∃ failures, PassedOver limits message r.sessions failures source source' ∧
          error = failures.head?.getD .noValidSession) := by
  refine ⟨fun plaintext r' source' opened => ?_, fun error r' source' failed => ?_⟩
  · obtain ⟨passed, failures, tried, s, rest, next, split, before, opens, current, -, archived⟩ :=
      decrypt_first opened
    exact ⟨passed, failures, tried, s, rest, next, split, before, opens, current, archived room,
      Session.decrypt_start opens, Session.decrypt_pending opens,
      fun _ found => Session.decrypt_oneChain found opens⟩
  · obtain ⟨rfl, refuses⟩ := decrypt_refused failed
    refine ⟨rfl, ?_⟩
    cases refuses with
    | @duplicate passed rest s failures tried counter split before used is =>
      exact .inl ⟨passed, failures, tried, s, rest, counter, split, before, used, is⟩
    | @first failures all is => exact .inr ⟨failures, all, by rw [is, Option.none_or]⟩

end Record

def lineStart (n : Nat) : ChainKey := ⟨Ticker.seed 32 (10 * n), 0⟩

def lineKey (n k : Nat) : KeyPair := .ofSeed Suite.plain (Ticker.seed 32 (10 * n + k))

def lineRoot (n : Nat) : RootKey := ⟨Ticker.seed 32 n⟩

/-- The first step of the ratchet, which the side makes that is called. -/
def lineStep (n : Nat) : RootKey × ChainKey :=
  match (lineKey n 3).privateKey.agree Suite.plain (lineKey n 1).publicKey with
  | .ok secret => (lineRoot n).ratchet Suite.plain secret
  | .error _ => (lineRoot n, lineStart n)

def caller (n : Nat) : Session Suite.plain :=
  .initiator (Identity.key Suite.plain ⟨Ticker.seed 32 1⟩)
    (Identity.key Suite.plain ⟨Ticker.seed 32 2⟩) (lineRoot n)
    ⟨lineKey n 1, (lineKey n 2).publicKey, lineStart n⟩ ⟨none, 1, (lineKey n 1).publicKey⟩

def called (n : Nat) : Session Suite.plain :=
  .responder (Identity.key Suite.plain ⟨Ticker.seed 32 2⟩)
    (Identity.key Suite.plain ⟨Ticker.seed 32 1⟩) (lineKey n 1).publicKey (lineStep n).1
    (.new (lineKey n 1).publicKey (lineKey n 2).publicKey (lineStart n))
    ⟨lineKey n 3, (lineKey n 1).publicKey, (lineStep n).2⟩

def ring (n : Nat) : Option RatchetMessage :=
  match (caller n).encrypt [1] with
  | .ok (message, _) => some message.inner
  | .error _ => none

def switchboard : Record Suite.plain := ⟨some (called 1), [called 2, called 3]⟩

/-- Whether a message is opened on a record, and leaves these sessions in the archive. -/
def leaves (r : Record Suite.plain) (message : RatchetMessage)
    (archived : List (Session Suite.plain)) : Bool :=
  match Record.decrypt {} message (r, (⟨0⟩ : Ticker)) with
  | .ok plaintext (r, _) => plaintext = [1] && r.archived = archived
  | .error _ _ => false

set_option maxRecDepth 100000 in
theorem second_line_opens :
    ((ring 2).any fun message => leaves switchboard message [called 1, called 3]) = true := by
  decide +kernel

/-- The line that was current is in the archive, in front of the one that stays there. -/
theorem second_line_answers :
    ∃ (message : RatchetMessage) (r : Record Suite.plain) (source : Ticker),
      ring 2 = some message ∧
      switchboard.archived.length ≤ ({} : Limits).maxArchivedStates ∧
      Record.decrypt {} message (switchboard, ⟨0⟩) = .ok [1] (r, source) ∧
      r.archived = [called 1, called 3] ∧
      ∃ passed failures tried s rest next, switchboard.sessions = passed ++ s :: rest ∧
        Record.PassedOver {} message passed failures (⟨0⟩ : Ticker) tried ∧
        s.decrypt {} message tried = .ok ([1], next) source ∧
        r.current = some next ∧ r.archived = passed ++ rest ∧
        s.SameStart next ∧ next.pending = none ∧
        ∀ chain, s.chain? message.ratchetKey = some chain → s.OneChain chain next := by
  obtain ⟨message, is, opens⟩ := (Option.any_eq_true _ _).1 second_line_opens
  unfold leaves at opens
  cases ended : Record.decrypt {} message (switchboard, (⟨0⟩ : Ticker)) with
  | ok plaintext last =>
    obtain ⟨r, source⟩ := last
    simp only [ended, Bool.and_eq_true, decide_eq_true_eq] at opens
    obtain ⟨rfl, archived⟩ := opens
    have room : switchboard.archived.length ≤ ({} : Limits).maxArchivedStates := by decide
    exact ⟨message, r, source, is, room, ended, archived,
      (Record.decrypt_changes_opener switchboard room message ⟨0⟩).1 [1] r source ended⟩
  | error error last =>
    simp only [ended] at opens
    cases opens

end RatchetSession
