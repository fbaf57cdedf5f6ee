import RatchetSession.Conversation
import RatchetSession.Padding
set_option autoImplicit false

/-!
Parties as an application would run them: one device that pads what it sends and
encodes it for the wire. A party acts on its store, which is not part of it.
-/

namespace RatchetSession

structure Party where
  address : Address
  limits : Limits
  limits_valid : limits.validate = .ok ()
  signedPreKey : SignedPreKey

namespace Party

variable {P : Suite} {E : Type} [Randomness E]

def signedPreKeyId : UInt32 := 1

def create (P : Suite) (name : String) (limits : Limits) :
    EStateM SessionError E (Party × Store P) := do
  match h : limits.validate with
  | .error error => throw error
  | .ok () =>
    let seed ← (Randomness.draw 32).adaptExcept .ofCrypto
    let signed ← (SignedPreKey.generate P signedPreKeyId ⟨seed⟩).adaptExcept .ofCrypto
    return (⟨⟨name, 1⟩, limits, h, signed⟩, (Store.ofIdentity ⟨seed⟩).addSignedPreKey signed)

def conversation (party : Party) (remote : Address) : Conversation :=
  ⟨remote, party.limits, party.limits_valid⟩

/-- A bundle, with a fresh one-time pre-key if an id for one is given. -/
def publish (party : Party) (oneTimeId : Option UInt32) : Action P E (Bundle P) := do
  match oneTimeId with
  | none => return .ofKeys ((← Action.identity).key P) party.signedPreKey none
  | some id =>
    let oneTime ← Action.random (PreKey.generate P id)
    let identity ← Action.identity
    Action.storePreKey oneTime
    return .ofKeys (identity.key P) party.signedPreKey (some oneTime)

def start (party : Party) (remote : Address) (bundle : Bundle P) : Action P E Unit :=
  (party.conversation remote).start bundle

def send (party : Party) (remote : Address) (plaintext : Bytes) : Action P E Bytes := do
  let message ← (party.conversation remote).encrypt (Padding.pad plaintext)
  MonadExcept.ofExcept ((Envelope.encode message).mapError .wire)

def receive (party : Party) (remote : Address) (bytes : Bytes) : Action P E Bytes := do
  let padded ← (party.conversation remote).decryptBytes bytes
  MonadExcept.ofExcept (Padding.unpad padded)

def hasPreKey (id : UInt32) : Action P E Bool := do
  return (← Action.loadPreKey id).isSome

end Party

end RatchetSession
