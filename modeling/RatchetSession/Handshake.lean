import RatchetSession.Store.Action
set_option autoImplicit false

/-!
The handshake. The initiator (A) uses a bundle of the responder (B), and both derive
the first root key from the same agreements, in this order: A's identity with B's
signed pre-key, A's base key with B's identity, with the signed pre-key, and with the
one-time pre-key if there is one. The base key is A's first ratchet key and the signed
pre-key B's first; B steps its ratchet at once.
-/

namespace RatchetSession.Handshake

variable {P : Suite} {E : Type} [Randomness E]

def joinAgreements (P : Suite) : List (PrivateKey × PublicKey) → Except CryptoError Bytes
  | [] => .ok []
  | (own, their) :: rest => do
    let secret ← own.agree P their
    let others ← joinAgreements P rest
    return secret.toList ++ others

def outgoing (bundle : Bundle P) (identity : Identity) : EStateM SessionError E (Session P) := do
  MonadExcept.ofExcept bundle.verify
  let base ← (Randomness.drawKeyPair P).adaptExcept .ofCrypto
  let agreements ← MonadExcept.ofExcept <| Except.mapError .ofCrypto <| joinAgreements P <|
    [(identity.agreementKey P, bundle.signedPreKey),
      (base.privateKey, bundle.identityKey.agreementKey),
      (base.privateKey, bundle.signedPreKey)] ++
    bundle.oneTime.toList.map fun oneTime => (base.privateKey, oneTime.publicKey)
  let (rootKey, chainKey) := initialSecrets P agreements
  return .initiator (identity.key P) bundle.identityKey rootKey
    ⟨base, bundle.signedPreKey, chainKey⟩
    ⟨bundle.oneTime.map (·.id), bundle.signedPreKeyId, base.publicKey⟩

/-- A failed check of an initial message, by the text of its cause. -/
def invalidMessage (error : CryptoError) : SessionError := .invalidInitialMessage error.message

def incoming (message : InitialMessage) (remote : IdentityKey P) (identity : Identity)
    (signed : SignedPreKey) (oneTime : Option PreKey) : EStateM SessionError E (Session P) := do
  let agreements ← MonadExcept.ofExcept <| Except.mapError invalidMessage <| joinAgreements P <|
    [(signed.keyPair.privateKey, remote.agreementKey),
      (identity.agreementKey P, message.baseKey),
      (signed.keyPair.privateKey, message.baseKey)] ++
    oneTime.toList.map fun key => (key.keyPair.privateKey, message.baseKey)
  let (initialRoot, receivingKey) := initialSecrets P agreements
  let fresh ← (Randomness.drawKeyPair P).adaptExcept .ofCrypto
  let secret ← MonadExcept.ofExcept <| Except.mapError invalidMessage <|
    fresh.privateKey.agree P message.baseKey
  let (rootKey, sendingKey) := initialRoot.ratchet P secret
  return .responder (identity.key P) remote message.baseKey rootKey
    (.new message.baseKey signed.keyPair.publicKey receivingKey)
    ⟨fresh, message.baseKey, sendingKey⟩

def senderIdentity (message : InitialMessage) : Except SessionError (IdentityKey P) :=
  (IdentityKey.ofBytes P message.identityKey).mapError invalidMessage

def signedPreKey (id : UInt32) : Action P E SignedPreKey := do
  match ← Action.loadSignedPreKey id with
  | some key => return key
  | none => throw (.unknownSignedPreKey id)

def oneTimePreKey : Option UInt32 → Action P E (Option PreKey)
  | none => pure none
  | some id => do
    match ← Action.loadPreKey id with
    | some key => return some key
    | none => throw (.unknownPreKey id)

/-- The responder's session from an initial message and the pre-keys in the store, and the id of
the one-time pre-key it has used. Nothing is taken out of the store. -/
def accept (message : InitialMessage) (identity : Identity) :
    Action P E (Session P × Option UInt32) := do
  let remote ← MonadExcept.ofExcept (senderIdentity message)
  if message.message.ratchetKey ≠ message.baseKey then
    throw (.invalidInitialMessage "first ratchet key differs from base key")
  let signed ← signedPreKey message.signedPreKeyId
  let oneTime ← oneTimePreKey message.preKeyId
  let session ← Action.onSource (incoming message remote identity signed oneTime)
  return (session, oneTime.map (·.id))

end RatchetSession.Handshake
