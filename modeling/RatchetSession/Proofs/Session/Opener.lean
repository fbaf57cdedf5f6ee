import RatchetSession.Proofs.Session.Search
import RatchetSession.Proofs.Session.Step
set_option autoImplicit false

namespace RatchetSession

open RatchetSession.Computation (endState)

variable {P : Suite} {E : Type} [Randomness E]

namespace Record

variable (limits : Limits) (message : RatchetMessage)

/-- The first of some sessions that opens a message, and what it becomes. -/
def opener? : List (Session P) → E → Option (Session P × Session P)
  | [], _ => none
  | s :: rest, source =>
    match s.decrypt limits message source with
    | .ok (_, next) _ => some (s, next)
    | .error _ source => opener? rest source

def triedOn (passed : List (Session P)) (source : E) : E :=
  passed.foldl (fun source s => endState (s.decrypt limits message source)) source

variable {limits message} {plaintext : Bytes} {source source' : E}

section PassedOver

variable {passed : List (Session P)} {failures : List SessionError} {tried : E}

theorem PassedOver.triedOn_eq (h : PassedOver limits message passed failures source tried) :
    triedOn limits message passed source = tried := by
  induction h with
  | nil => rfl
  | cons failed _ _ ih =>
    rw [triedOn, List.foldl_cons, failed]
    exact ih

theorem PassedOver.opener?_eq (h : PassedOver limits message passed failures source tried)
    {s next : Session P} (opens : s.decrypt limits message tried = .ok (plaintext, next) source')
    (rest : List (Session P)) :
    opener? limits message (passed ++ s :: rest) source = some (s, next) := by
  induction h with
  | nil => simp only [List.nil_append, opener?, opens]
  | cons failed _ _ ih =>
    rw [List.cons_append, opener?, failed]
    exact ih opens

end PassedOver

variable {r r' : Record P}

theorem decryptArchived_first {failure : Option SessionError}
    (h : decryptArchived limits message failure (r, source) = .ok plaintext (r', source')) :
    ∃ passed failures tried s rest next, r.archived = passed ++ s :: rest ∧
      PassedOver limits message passed failures source tried ∧
      s.decrypt limits message tried = .ok (plaintext, next) source' ∧
      r' = ({ r with archived := passed ++ rest } : Record P).promote next
        limits.maxArchivedStates := by
  obtain ⟨place, next, searched, rfl⟩ := decryptArchived_eq_ok h
  obtain ⟨passed, failures, tried, s, rest, split, rfl, before, opens⟩ := search_first searched
  refine ⟨passed, failures, tried, s, rest, next, split, before, opens, ?_⟩
  rw [promoteArchived, split, Nat.zero_add, List.eraseIdx_append_of_length_le (Nat.le_refl _),
    Nat.sub_self]
  rfl

theorem decrypt_first (h : decrypt limits message (r, source) = .ok plaintext (r', source')) :
    ∃ passed failures tried s rest next, r.sessions = passed ++ s :: rest ∧
      PassedOver limits message passed failures source tried ∧
      s.decrypt limits message tried = .ok (plaintext, next) source' ∧
      r'.current = some next ∧ r'.archived <+: passed ++ rest ∧
      (r.archived.length ≤ limits.maxArchivedStates → r'.archived = passed ++ rest) := by
  cases held : r.current with
  | none =>
    have all : r.sessions = r.archived := by simp [sessions, held]
    rw [decrypt_of_none held] at h
    obtain ⟨passed, failures, tried, s, rest, next, split, before, opens, rfl⟩ :=
      decryptArchived_first h
    have behind : (({ r with archived := passed ++ rest } : Record P).promote next
        limits.maxArchivedStates).archived = passed ++ rest := by
      simp only [promote, archiveCurrent, held]
    exact ⟨passed, failures, tried, s, rest, next, all.trans split, before, opens, rfl,
      ⟨[], (List.append_nil _).trans behind⟩, fun _ => behind⟩
  | some current =>
    have all : r.sessions = current :: r.archived := by simp [sessions, held]
    cases opened : current.decrypt limits message source with
    | ok result after =>
      obtain ⟨bytes, next⟩ := result
      rw [decrypt_of_ok held opened] at h
      cases h
      exact ⟨[], [], source, current, r.archived, next, all, .nil source, opened, rfl,
        List.prefix_rfl, fun _ => rfl⟩
    | error error after =>
      rcases error.duplicate_or with ⟨counter, rfl⟩ | other
      · rw [decrypt_of_duplicate held opened] at h
        cases h
      · rw [decrypt_of_error held opened other] at h
        obtain ⟨passed, failures, tried, s, rest, next, split, before, opens, rfl⟩ :=
          decryptArchived_first h
        refine ⟨current :: passed, error :: failures, tried, s, rest, next, by rw [all, split]; rfl,
          .cons opened other before, opens, rfl, ?_, fun room => ?_⟩
        · simp only [promote, archiveCurrent, held, List.cons_append]
          exact List.take_prefix _ _
        · -- one session has left the archive, so there is room for the one that was current
          have few : (current :: (passed ++ rest)).length ≤ limits.maxArchivedStates := by
            rw [split] at room
            simp only [List.length_cons, List.length_append] at room ⊢
            omega
          simp only [promote, archiveCurrent, held, List.take_of_length_le few, List.cons_append]

theorem decrypt_opener (h : decrypt limits message (r, source) = .ok plaintext (r', source')) :
    ∃ passed s rest next, r.sessions = passed ++ s :: rest ∧
      s.decrypt limits message (triedOn limits message passed source) =
        .ok (plaintext, next) source' ∧
      opener? limits message r.sessions source = some (s, next) ∧
      r'.current = some next ∧ r'.archived <+: passed ++ rest := by
  obtain ⟨passed, failures, tried, s, rest, next, split, before, opens, current, fewer, -⟩ :=
    decrypt_first h
  refine ⟨passed, s, rest, next, split, ?_, ?_, current, fewer⟩
  · rw [before.triedOn_eq]
    exact opens
  · rw [split]
    exact before.opener?_eq opens rest

end Record

end RatchetSession
