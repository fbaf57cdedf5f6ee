import RatchetSession.Session.Record
import RatchetSession.Proofs.Entropy.Draws
set_option autoImplicit false

namespace RatchetSession

open RatchetSession.Computation (bind_of_ok bind_of_error bind_eq_ok pure_eq_ok ofExcept_eq_ok
  adaptExcept_eq_ok tryCatch_of_ok tryCatch_of_error)

variable {P : Suite}

def SessionError.NotDuplicate (error : SessionError) : Prop :=
  ∀ counter, error ≠ .duplicateMessage counter

theorem SessionError.duplicate_or (error : SessionError) :
    (∃ counter, error = .duplicateMessage counter) ∨ error.NotDuplicate := by
  cases error <;> simp [NotDuplicate]

namespace Session

structure SameStart (s s' : Session P) : Prop where
  version : s'.version = s.version
  origin : s'.origin = s.origin
  localIdentity : s'.localIdentity = s.localIdentity
  remoteIdentity : s'.remoteIdentity = s.remoteIdentity
  baseKey : s'.baseKey = s.baseKey

namespace SameStart

theorem refl (s : Session P) : SameStart s s := ⟨rfl, rfl, rfl, rfl, rfl⟩

theorem trans {a b c : Session P} (first : SameStart a b) (second : SameStart b c) :
    SameStart a c :=
  ⟨second.version.trans first.version, second.origin.trans first.origin,
    second.localIdentity.trans first.localIdentity,
    second.remoteIdentity.trans first.remoteIdentity, second.baseKey.trans first.baseKey⟩

end SameStart

theorem closeChain_start {limits : Limits} {s s' : Session P} {previousCounter : UInt32}
    (h : s.closeChain limits previousCounter = .ok s') : SameStart s s' := by
  unfold closeChain at h
  split at h
  · cases h
    exact .refl s
  · split at h
    · cases h
      exact ⟨rfl, rfl, rfl, rfl, rfl⟩
    · cases h

theorem receive_start {limits : Limits} {s s' : Session P} {message : RatchetMessage}
    {plaintext : Bytes} (h : s.receive limits message = .ok (plaintext, s')) : SameStart s s' := by
  simp only [receive] at h
  split at h
  · cases h
  · split at h
    · cases h
    · split at h
      · cases h
      · cases h
        exact ⟨rfl, rfl, rfl, rfl, rfl⟩

variable {E : Type} [Randomness E]

theorem ratchet_start {limits : Limits} {s s' : Session P} {remoteKey : PublicKey}
    {source source' : E} (h : s.ratchet limits remoteKey source = .ok s' source') :
    SameStart s s' := by
  obtain ⟨_, _, -, h⟩ := bind_eq_ok h
  obtain ⟨_, _, -, h⟩ := bind_eq_ok h
  obtain ⟨_, _, -, h⟩ := bind_eq_ok h
  obtain ⟨rfl, -⟩ := pure_eq_ok h
  exact ⟨rfl, rfl, rfl, rfl, rfl⟩

theorem follow_start {limits : Limits} {s s' : Session P} {message : RatchetMessage}
    {source source' : E} (h : s.follow limits message source = .ok s' source') :
    SameStart s s' := by
  unfold follow at h
  split at h
  · obtain ⟨rfl, -⟩ := pure_eq_ok h
    exact .refl s
  · obtain ⟨closed, _, first, second⟩ := bind_eq_ok h
    obtain ⟨closes, -⟩ := ofExcept_eq_ok first
    exact (closeChain_start closes).trans (ratchet_start (adaptExcept_eq_ok second))

theorem decrypt_start {limits : Limits} {s s' : Session P} {message : RatchetMessage}
    {plaintext : Bytes} {source source' : E}
    (h : s.decrypt limits message source = .ok (plaintext, s') source') : SameStart s s' := by
  obtain ⟨ready, _, first, second⟩ := bind_eq_ok h
  obtain ⟨received, -⟩ := ofExcept_eq_ok second
  exact (follow_start first).trans (receive_start received)

def Opens (limits : Limits) (s : Session P) (message : RatchetMessage) (plaintext : Bytes)
    (source : E) : Prop :=
  ∃ next source', s.decrypt limits message source = .ok (plaintext, next) source'

end Session

namespace Record

theorem encrypt_of_ok {r : Record P} {s s' : Session P} {plaintext : Bytes} {message : Message}
    (is : r.current = some s) (h : s.encrypt plaintext = .ok (message, s')) :
    r.encrypt plaintext = .ok (message, { r with current := some s' }) := by
  simp only [encrypt, is, h]

theorem encrypt_of_error {r : Record P} {s : Session P} {plaintext : Bytes} {error : SessionError}
    (is : r.current = some s) (h : s.encrypt plaintext = .error error) :
    r.encrypt plaintext = .error error := by
  simp only [encrypt, is, h]

section Edit

variable {E α : Type} {r r' : Record P} {source source' : E} {a : α} {error : SessionError}

theorem onSource_of_ok {run : EStateM SessionError E α} (h : run source = .ok a source') :
    onSource run (r, source) = .ok a (r, source') := by
  simp only [onSource, h]

theorem onSource_of_error {run : EStateM SessionError E α} (h : run source = .error error source') :
    onSource run (r, source) = .error error (r, source') := by
  simp only [onSource, h]

theorem edit_eq_ok {run : EStateM SessionError (Record P × E) α} :
    r.edit run source = .ok (a, r') source' ↔ run (r, source) = .ok a (r', source') := by
  unfold edit
  split <;> simp_all [and_assoc]

theorem edit_of_error {run : EStateM SessionError (Record P × E) α}
    (h : run (r, source) = .error error (r', source')) :
    r.edit run source = .error error source' := by
  simp only [edit, h]

theorem edit_congr {run run' : EStateM SessionError (Record P × E) α}
    (h : run (r, source) = run' (r, source')) : r.edit run source = r.edit run' source' := by
  simp only [edit, h]

end Edit

variable {E : Type} [Randomness E] {limits : Limits} {message : RatchetMessage}

theorem search_of_ok {s : Session P} {rest : List (Session P)} {position : Nat}
    {failure : Option SessionError} {plaintext : Bytes} {next : Session P} {source source' : E}
    (h : s.decrypt limits message source = .ok (plaintext, next) source') :
    search limits message (s :: rest) position failure source =
      .ok (position, plaintext, next) source' := by
  simp only [search, h]

theorem search_of_duplicate {s : Session P} {rest : List (Session P)} {position : Nat}
    {failure : Option SessionError} {counter : UInt32} {source source' : E}
    (h : s.decrypt limits message source = .error (.duplicateMessage counter) source') :
    search limits message (s :: rest) position failure source =
      .error (.duplicateMessage counter) source' := by
  simp only [search, h]

theorem search_of_error {s : Session P} {error : SessionError} {source source' : E}
    (h : s.decrypt limits message source = .error error source')
    (other : ∀ counter, error ≠ .duplicateMessage counter) (rest : List (Session P))
    (position : Nat) (failure : Option SessionError) :
    search limits message (s :: rest) position failure source =
      search limits message rest (position + 1) (some (failure.getD error)) source' := by
  simp only [search, h]

/-- Some sessions fail on a message one after the other, none as one that has opened it before. -/
inductive PassedOver (limits : Limits) (message : RatchetMessage) :
    List (Session P) → List SessionError → E → E → Prop
  | nil (source : E) : PassedOver limits message [] [] source source
  | cons {s : Session P} {error : SessionError} {passed : List (Session P)}
      {failures : List SessionError} {source tried source' : E}
      (failed : s.decrypt limits message source = .error error tried) (other : error.NotDuplicate)
      (rest : PassedOver limits message passed failures tried source') :
      PassedOver limits message (s :: passed) (error :: failures) source source'

theorem search_first {sessions : List (Session P)} {position place : Nat}
    {failure : Option SessionError} {plaintext : Bytes} {next : Session P} {source source' : E}
    (h : search limits message sessions position failure source =
      .ok (place, plaintext, next) source') :
    ∃ passed failures tried s rest, sessions = passed ++ s :: rest ∧
      place = position + passed.length ∧
      PassedOver limits message passed failures source tried ∧
      s.decrypt limits message tried = .ok (plaintext, next) source' := by
  induction sessions generalizing position failure source with
  | nil => cases h
  | cons s rest ih =>
    cases opened : s.decrypt limits message source with
    | ok result after =>
      obtain ⟨bytes, s'⟩ := result
      rw [search_of_ok opened] at h
      cases h
      exact ⟨[], [], _, s, rest, rfl, rfl, .nil _, opened⟩
    | error error after =>
      rcases error.duplicate_or with ⟨counter, rfl⟩ | other
      · rw [search_of_duplicate opened] at h
        cases h
      · rw [search_of_error opened other] at h
        obtain ⟨passed, failures, tried, t, behind, rfl, rfl, before, opens⟩ := ih h
        refine ⟨s :: passed, error :: failures, tried, t, behind, rfl, ?_, .cons opened other before,
          opens⟩
        rw [List.length_cons]
        omega

variable {r r' : Record P} {failure : Option SessionError} {plaintext : Bytes} {source source' : E}

theorem decryptArchived_of_ok {place : Nat} {next : Session P}
    (h : search limits message r.archived 0 failure source = .ok (place, plaintext, next) source') :
    decryptArchived limits message failure (r, source) =
      .ok plaintext (r.promoteArchived place next limits.maxArchivedStates, source') :=
  (bind_of_ok rfl).trans (bind_of_ok (onSource_of_ok h))

theorem decryptArchived_of_error {error : SessionError}
    (h : search limits message r.archived 0 failure source = .error error source') :
    decryptArchived limits message failure (r, source) = .error error (r, source') :=
  (bind_of_ok rfl).trans (bind_of_error (onSource_of_error h))

theorem decryptArchived_eq_ok
    (h : decryptArchived limits message failure (r, source) = .ok plaintext (r', source')) :
    ∃ place next, search limits message r.archived 0 failure source =
      .ok (place, plaintext, next) source' ∧
        r' = r.promoteArchived place next limits.maxArchivedStates := by
  cases searched : search limits message r.archived 0 failure source with
  | ok found after =>
    obtain ⟨place, bytes, next⟩ := found
    rw [decryptArchived_of_ok searched] at h
    cases h
    exact ⟨place, next, rfl, rfl⟩
  | error error after =>
    rw [decryptArchived_of_error searched] at h
    cases h

theorem decryptArchived_eq_error {error : SessionError}
    (h : decryptArchived limits message failure (r, source) = .error error (r', source')) :
    search limits message r.archived 0 failure source = .error error source' ∧ r' = r := by
  cases searched : search limits message r.archived 0 failure source with
  | ok found after =>
    obtain ⟨place, bytes, next⟩ := found
    rw [decryptArchived_of_ok searched] at h
    cases h
  | error error after =>
    rw [decryptArchived_of_error searched] at h
    cases h
    exact ⟨rfl, rfl⟩

theorem decrypt_of_none (is : r.current = none) :
    decrypt limits message (r, source) = decryptArchived limits message none (r, source) := by
  refine (bind_of_ok rfl).trans ?_
  simp only [is]

theorem decrypt_of_ok {current next : Session P} (is : r.current = some current)
    (h : current.decrypt limits message source = .ok (plaintext, next) source') :
    decrypt limits message (r, source) =
      .ok plaintext ({ r with current := some next }, source') := by
  refine (bind_of_ok rfl).trans ?_
  simp only [is]
  exact tryCatch_of_ok (bind_of_ok (onSource_of_ok h))

theorem decrypt_of_duplicate {current : Session P} {counter : UInt32} (is : r.current = some current)
    (h : current.decrypt limits message source = .error (.duplicateMessage counter) source') :
    decrypt limits message (r, source) = .error (.duplicateMessage counter) (r, source') := by
  refine (bind_of_ok rfl).trans ?_
  simp only [is]
  exact tryCatch_of_error (bind_of_error (onSource_of_error h))

theorem decrypt_of_error {current : Session P} {error : SessionError} (is : r.current = some current)
    (h : current.decrypt limits message source = .error error source')
    (other : ∀ counter, error ≠ .duplicateMessage counter) :
    decrypt limits message (r, source) =
      decryptArchived limits message (some error) (r, source') := by
  refine (bind_of_ok rfl).trans ?_
  simp only [is]
  rw [tryCatch_of_error (bind_of_error (onSource_of_error h))]
  split
  · exact absurd rfl (other _)
  · rfl

theorem decrypt_eq_ok {s : Session P} (current : r.current = some s)
    (h : decrypt limits message (r, source) = .ok plaintext (r', source')) :
    (∃ next, s.decrypt limits message source = .ok (plaintext, next) source' ∧
      r' = { r with current := some next }) ∨
    ∃ error failed place older tried next,
      s.decrypt limits message source = .error error failed ∧
      r.archived[place]? = some older ∧
      older.decrypt limits message tried = .ok (plaintext, next) source' ∧
      r' = r.promoteArchived place next limits.maxArchivedStates := by
  cases opened : s.decrypt limits message source with
  | ok result after =>
    obtain ⟨bytes, next⟩ := result
    rw [decrypt_of_ok current opened] at h
    cases h
    exact .inl ⟨next, rfl, rfl⟩
  | error error after =>
    rcases error.duplicate_or with ⟨counter, rfl⟩ | other
    · rw [decrypt_of_duplicate current opened] at h
      cases h
    · rw [decrypt_of_error current opened other] at h
      obtain ⟨place, next, searched, rfl⟩ := decryptArchived_eq_ok h
      obtain ⟨passed, _, tried, older, rest, split, rfl, -, opens⟩ := search_first searched
      exact .inr ⟨error, after, _, older, tried, next, rfl, by simp [split], opens, rfl⟩

variable (E limits message) in
/-- The session fails on the message, and not because it opened it before; or else it ends as
`Stray` says. -/
def Misses (Stray : Session P → Prop) (s : Session P) : Prop :=
  ∀ source : E, Steady source →
    (∃ error seeds source', s.decrypt limits message source = .error error source' ∧
      (∀ counter, error ≠ .duplicateMessage counter) ∧ Drawn source seeds source') ∨
    ∃ plaintext next source', s.decrypt limits message source = .ok (plaintext, next) source' ∧
      Stray next

/-- A search either strays on its way or tries the first session that does not miss the message. -/
theorem search_append {Stray : Session P → Prop} {skipped : List (Session P)}
    (misses : ∀ t ∈ skipped, Misses E limits message Stray t) (rest : List (Session P))
    (position : Nat) (failure : Option SessionError) {source : E} (steady : Steady source) :
    (∃ place plaintext next source',
      search limits message (skipped ++ rest) position failure source =
        .ok (place, plaintext, next) source' ∧ Stray next) ∨
    ∃ failure' seeds source', Drawn source seeds source' ∧
      search limits message (skipped ++ rest) position failure source =
        search limits message rest (position + skipped.length) failure' source' := by
  induction skipped generalizing position failure source with
  | nil => exact .inr ⟨failure, [], source, .nil source, rfl⟩
  | cons t skipped ih =>
    rcases misses t List.mem_cons_self source steady with
      ⟨error, seeds, tried, failed, other, drawn⟩ | ⟨plaintext, next, tried, opened, stray⟩
    · have passed := search_of_error failed other (skipped ++ rest) position failure
      rcases ih (fun t member => misses t (List.mem_cons_of_mem _ member)) (position + 1)
        (some (failure.getD error)) (steady.later drawn) with
        ⟨place, plaintext, next, source', found, stray⟩ | ⟨failure', more, source', later, found⟩
      · exact .inl ⟨place, plaintext, next, source', passed.trans found, stray⟩
      · refine .inr ⟨failure', seeds ++ more, source', drawn.append later, ?_⟩
        rw [List.cons_append, passed, found, List.length_cons, Nat.add_assoc, Nat.add_comm 1]
    · exact .inl ⟨position, plaintext, next, tried, search_of_ok opened, stray⟩

theorem sessions_promoteArchived {r : Record P} {current next : Session P} {place max : Nat}
    (is : r.current = some current) (inside : place < r.archived.length)
    (room : r.sessions.length ≤ max + 1) :
    (r.promoteArchived place next max).sessions =
      next :: current :: r.archived.eraseIdx place := by
  have size : (current :: r.archived.eraseIdx place).length ≤ max := by
    simp only [sessions, is, Option.toList_some, List.length_append, List.length_singleton] at room
    simp only [List.length_cons, List.length_eraseIdx, if_pos inside]
    omega
  simp only [promoteArchived, promote, archiveCurrent, is, sessions, Option.toList_some,
    List.take_of_length_le size, List.singleton_append]

theorem archived_archiveCurrent (r : Record P) (max : Nat) :
    (r.archiveCurrent max).archived =
      match r.current with
      | some _ => r.sessions.take max
      | none => r.sessions := by
  unfold archiveCurrent sessions
  cases r.current <;> rfl

theorem archived_prefix (r : Record P) (max : Nat) :
    (r.archiveCurrent max).archived <+: r.sessions := by
  rw [archived_archiveCurrent]
  split
  · exact List.take_prefix _ _
  · exact List.prefix_rfl

theorem sessions_promote {r : Record P} {s : Session P} {max : Nat}
    (room : r.sessions.length ≤ max) : (r.promote s max).sessions = s :: r.sessions := by
  unfold promote archiveCurrent sessions at *
  cases is : r.current with
  | none => simp
  | some current =>
    simp only [is, Option.toList_some, List.singleton_append] at room ⊢
    rw [List.take_of_length_le room]

/-- When all sessions in front of one miss the message, the record strays or answers as that one
does. -/
theorem decrypt_reaches {Stray : Session P → Prop} {r : Record P}
    {skipped rest : List (Session P)} {s : Session P} (held : r.current.isSome = true)
    (split : r.sessions = skipped ++ s :: rest)
    (misses : ∀ t ∈ skipped, Misses E limits message Stray t)
    (room : r.sessions.length ≤ limits.maxArchivedStates + 1) {source : E}
    (steady : Steady source) :
    (∃ plaintext r' next source', decrypt limits message (r, source) = .ok plaintext (r', source') ∧
      r'.current = some next ∧ Stray next) ∨
    ∃ seeds tried, Drawn source seeds tried ∧
      (∀ plaintext next source', s.decrypt limits message tried = .ok (plaintext, next) source' →
        ∃ r', decrypt limits message (r, source) = .ok plaintext (r', source') ∧
          r'.current = some next ∧ r'.sessions = next :: (skipped ++ rest)) ∧
      ∀ counter source',
        s.decrypt limits message tried = .error (.duplicateMessage counter) source' →
        decrypt limits message (r, source) = .error (.duplicateMessage counter) (r, source') := by
  obtain ⟨current, is⟩ := Option.isSome_iff_exists.1 held
  have all : current :: r.archived = skipped ++ s :: rest := by
    simpa [sessions, is] using split
  cases skipped with
  | nil =>
    cases all
    refine .inr ⟨[], source, .nil source, fun plaintext next source' opens => ?_, fun counter source'
      used => decrypt_of_duplicate is used⟩
    exact ⟨_, decrypt_of_ok is opens, rfl, by simp [sessions]⟩
  | cons first skipped =>
    rw [List.cons_append] at all
    obtain ⟨rfl, archived⟩ := List.cons.inj all
    rcases misses current List.mem_cons_self source steady with
      ⟨error, seeds, passed, failed, other, drawn⟩ | ⟨plaintext, next, passed, opened, stray⟩
    · have turned := decrypt_of_error is failed other
      rcases search_append (fun t member => misses t (List.mem_cons_of_mem _ member)) (s :: rest) 0
        (some error) (steady.later drawn) with
        ⟨place, plaintext, next, source', found, stray⟩ | ⟨failure, more, tried, later, found⟩
      · rw [← archived] at found
        exact .inl ⟨plaintext, _, next, source', turned.trans (decryptArchived_of_ok found), rfl,
          stray⟩
      · refine .inr ⟨seeds ++ more, tried, drawn.append later, fun plaintext next source' opens => ?_,
          fun counter source' used => ?_⟩
        · rw [search_of_ok opens, ← archived] at found
          refine ⟨_, turned.trans (decryptArchived_of_ok found), rfl, ?_⟩
          rw [sessions_promoteArchived is (by simp [archived]) room, archived, Nat.zero_add,
            List.eraseIdx_append_of_length_le (Nat.le_refl _), Nat.sub_self]
          rfl
        · rw [search_of_duplicate used, ← archived] at found
          exact turned.trans (decryptArchived_of_error found)
    · exact .inl ⟨plaintext, _, next, passed, decrypt_of_ok is opened, rfl, stray⟩

end Record

end RatchetSession
