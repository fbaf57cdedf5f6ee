import RatchetSession.Envelope
import RatchetSession.Handshake
set_option autoImplicit false

/-!
Conversations with one remote device through a store. A record is stored after all
else that can fail, and an identity before it; only the removal of a used one-time
pre-key comes later, and its failure is not reported.
-/

namespace RatchetSession

structure Conversation where
  remote : Address
  limits : Limits
  limits_valid : limits.validate = .ok ()

namespace Conversation

def new (remote : Address) (limits : Limits) : Except SessionError Conversation :=
  match h : limits.validate with
  | .ok () => .ok ⟨remote, limits, h⟩
  | .error error => .error error

def standard (remote : Address) : Conversation := ⟨remote, {}, rfl⟩

variable {P : Suite} {E : Type} [Randomness E] (c : Conversation)

def record : Action P E (Record P) := do
  return (← Action.loadRecord c.remote).getD .empty

def hasSession : Action P E Bool := do
  return (← c.record).current.isSome

def checkTrust (key : IdentityKey P) : Action P E Unit := do
  if ← Action.trusts c.remote key then pure () else throw (.untrustedIdentity c.remote)

def checkCurrent (record : Record P) : Action P E Unit :=
  match record.current with
  | some session => c.checkTrust session.remoteIdentity
  | none => pure ()

def start (bundle : Bundle P) : Action P E Unit := do
  MonadExcept.ofExcept bundle.verify
  c.checkTrust bundle.identityKey
  let identity ← Action.identity
  let session ← Action.onSource (Handshake.outgoing bundle identity)
  let record ← c.record
  let _ ← Action.saveIdentity c.remote bundle.identityKey
  Action.storeRecord c.remote (record.promote session c.limits.maxArchivedStates)

def encrypt (plaintext : Bytes) : Action P E Message := do
  match ← Action.loadRecord c.remote with
  | none => throw (.noSession c.remote)
  | some record =>
    if record.current.isNone then throw (.noSession c.remote)
    c.checkCurrent record
    let (message, record) ← MonadExcept.ofExcept (record.encrypt plaintext)
    Action.storeRecord c.remote record
    return message

def decryptWith (record : Record P) (message : RatchetMessage) : Action P E Bytes := do
  let (plaintext, record) ← Action.onSource (record.edit (Record.decrypt c.limits message))
  c.checkCurrent record
  Action.storeRecord c.remote record
  return plaintext

def decryptRatchet (message : RatchetMessage) : Action P E Bytes := do
  match ← Action.loadRecord c.remote with
  | none => throw (.noSession c.remote)
  | some record => c.decryptWith record message

/-- Builds the session of an initial message, makes it current, and decrypts. -/
def establish (record : Record P) (message : InitialMessage) : Action P E Bytes := do
  let remoteIdentity ← MonadExcept.ofExcept (Handshake.senderIdentity message)
  c.checkTrust remoteIdentity
  let identity ← Action.identity
  let (session, used) ← Handshake.accept message identity
  let record := record.promote session c.limits.maxArchivedStates
  let (plaintext, record) ← Action.onSource (record.edit (Record.decrypt c.limits message.message))
  let _ ← Action.saveIdentity c.remote remoteIdentity
  Action.storeRecord c.remote record
  match used with
  | some id => Action.attempt (Action.removePreKey id)
  | none => pure ()
  return plaintext

/-- A base key that the record holds belongs to a session built before. -/
def decryptInitial (message : InitialMessage) : Action P E Bytes := do
  let record ← c.record
  if record.hasBaseKey message.baseKey then c.decryptWith record message.message
  else c.establish record message

def decrypt : Message → Action P E Bytes
  | .ratchet message => c.decryptRatchet message
  | .initial message => c.decryptInitial message

def decryptBytes (bytes : Bytes) : Action P E Bytes := do
  let message ← MonadExcept.ofExcept ((Envelope.decode bytes).mapError .wire)
  c.decrypt message

end Conversation

end RatchetSession
