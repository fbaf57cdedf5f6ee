import RatchetSession.Entropy
set_option autoImplicit false

namespace RatchetSession

/-- A one-time pre-key, given up when a session has used it. -/
structure PreKey where
  id : UInt32
  keyPair : KeyPair
deriving DecidableEq

/-- A pre-key for many sessions, with its owner's signature over the public half. -/
structure SignedPreKey where
  id : UInt32
  keyPair : KeyPair
  signature : Octets 64
deriving DecidableEq

structure OneTimeKey where
  id : UInt32
  publicKey : PublicKey
deriving DecidableEq

structure Bundle (P : Suite) where
  identityKey : IdentityKey P
  signedPreKeyId : UInt32
  signedPreKey : PublicKey
  signature : Octets 64
  oneTime : Option OneTimeKey
deriving DecidableEq

variable {E : Type} [Randomness E]

def PreKey.generate (P : Suite) (id : UInt32) : EStateM CryptoError E PreKey :=
  PreKey.mk id <$> Randomness.drawKeyPair P

def PreKey.oneTimeKey (key : PreKey) : OneTimeKey := ⟨key.id, key.keyPair.publicKey⟩

def SignedPreKey.generate (P : Suite) (id : UInt32) (identity : Identity) :
    EStateM CryptoError E SignedPreKey := do
  let pair ← Randomness.drawKeyPair P
  return ⟨id, pair, identity.sign P pair.publicKey.bytes.toList⟩

namespace Bundle

variable {P : Suite}

def ofKeys (identityKey : IdentityKey P) (signed : SignedPreKey) (oneTime : Option PreKey) :
    Bundle P :=
  ⟨identityKey, signed.id, signed.keyPair.publicKey, signed.signature,
    oneTime.map PreKey.oneTimeKey⟩

def verify (b : Bundle P) : Except SessionError Unit :=
  match b.identityKey.verify b.signedPreKey.bytes.toList b.signature with
  | .ok () => .ok ()
  | .error _ => .error .invalidSignature

end Bundle

end RatchetSession
