import RatchetSession.Session
set_option autoImplicit false

namespace RatchetSession

structure Record (P : Suite) where
  current : Option (Session P)
  /-- Newest first. -/
  archived : List (Session P)
deriving DecidableEq

namespace Record

variable {P : Suite}

def empty : Record P := ⟨none, []⟩

instance : Inhabited (Record P) := ⟨empty⟩

def ofSession (s : Session P) : Record P := ⟨some s, []⟩

/-- The current session and then the archive. -/
def sessions (r : Record P) : List (Session P) := r.current.toList ++ r.archived

def hasBaseKey (r : Record P) (baseKey : PublicKey) : Bool :=
  r.sessions.any (·.baseKey == baseKey)

/-- Moves the current session, if there is one, into an archive of at most `max` sessions. -/
def archiveCurrent (r : Record P) (max : Nat) : Record P :=
  match r.current with
  | some s => ⟨none, (s :: r.archived).take max⟩
  | none => r

def promote (r : Record P) (s : Session P) (max : Nat) : Record P :=
  { r.archiveCurrent max with current := some s }

/-- Takes an archived session out and makes its successor current. -/
def promoteArchived (r : Record P) (position : Nat) (s : Session P) (max : Nat) : Record P :=
  { r with archived := r.archived.eraseIdx position }.promote s max

def encrypt (r : Record P) (plaintext : Bytes) : Except SessionError (Message × Record P) :=
  match r.current with
  | none => .error .noValidSession
  | some s =>
    match s.encrypt plaintext with
    | .ok (message, s) => .ok (message, { r with current := some s })
    | .error error => .error error

variable {E α : Type}

def onSource (run : EStateM SessionError E α) : EStateM SessionError (Record P × E) α :=
  fun (r, source) =>
    match run source with
    | .ok a source => .ok a (r, source)
    | .error error source => .error error (r, source)

/-- Works on a copy of a record, and gives the copy back when that succeeds. -/
def edit (r : Record P) (run : EStateM SessionError (Record P × E) α) :
    EStateM SessionError E (α × Record P) := fun source =>
  match run (r, source) with
  | .ok a (r, source) => .ok (a, r) source
  | .error error (_, source) => .error error source

variable [Randomness E]

/-- The first of some sessions that accepts a message: its place, the plaintext, and its successor.
A duplicate ends the search; otherwise the first failure is the answer. -/
def search (limits : Limits) (message : RatchetMessage) :
    List (Session P) → (position : Nat) → (failure : Option SessionError) →
      EStateM SessionError E (Nat × Bytes × Session P)
  | [], _, failure => throw (failure.getD .noValidSession)
  | s :: rest, position, failure => fun source =>
    match s.decrypt limits message source with
    | .ok (plaintext, s) source => .ok (position, plaintext, s) source
    | .error (.duplicateMessage counter) source => .error (.duplicateMessage counter) source
    | .error error source =>
      search limits message rest (position + 1) (some (failure.getD error)) source

def decryptArchived (limits : Limits) (message : RatchetMessage) (failure : Option SessionError) :
    EStateM SessionError (Record P × E) Bytes := do
  let (r, _) ← get
  let (position, plaintext, s) ← onSource (search limits message r.archived 0 failure)
  modify fun (r, source) => (r.promoteArchived position s limits.maxArchivedStates, source)
  return plaintext

/-- The plaintext of a message, from the current session or else from the archive. Sessions are tried
as copies, and nothing is written to the record before one of them has opened the message. -/
def decrypt (limits : Limits) (message : RatchetMessage) :
    EStateM SessionError (Record P × E) Bytes := do
  let (r, _) ← get
  match r.current with
  | none => decryptArchived limits message none
  | some s =>
    tryCatch
      (do
        let (plaintext, s) ← onSource (s.decrypt limits message)
        modify fun (r, source) => ({ r with current := some s }, source)
        return plaintext)
      fun
        | .duplicateMessage counter => throw (.duplicateMessage counter)
        | error => decryptArchived limits message (some error)

end Record

end RatchetSession
