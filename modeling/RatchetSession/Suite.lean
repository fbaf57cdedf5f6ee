import RatchetSession.Octets
set_option autoImplicit false

/-!
The primitives that sessions are built from, as one value. Everything above this
module works for any suite; what a statement needs of one is a hypothesis on it.
-/

namespace RatchetSession

structure Suite where
  publicKey : Octets 32 → Octets 32
  /-- The secret that a private and a public key share; none when it would be zero. -/
  agree? : Octets 32 → Octets 32 → Option (Octets 32)
  isIdentity : Octets 32 → Bool
  identityKey : Octets 32 → { key : Octets 32 // isIdentity key = true }
  /-- The private agreement key of an identity seed. -/
  identitySecret : Octets 32 → Octets 32
  identityAgreement : Octets 32 → Octets 32
  sign : Octets 32 → Bytes → Octets 64
  verify : Octets 32 → Bytes → Octets 64 → Bool
  /-- The first root and chain key of a session, from the joined handshake agreements. -/
  initialSecrets : Bytes → Octets 32 × Octets 32
  /-- The next root key and a fresh chain key, from a root key and a shared secret. -/
  ratchetRoot : Octets 32 → Octets 32 → Octets 32 × Octets 32
  nextChain : Octets 32 → Octets 32
  /-- The cipher key and nonce that a chain key gives its message. -/
  messageKey : Octets 32 → Octets 32 × Octets 24
  maxPlaintext : Nat
  encrypt : Octets 32 → Octets 24 → Bytes → Bytes → Bytes
  /-- Undoes `encrypt`; none when the associated data or the ciphertext was altered. -/
  decrypt? : Octets 32 → Octets 24 → Bytes → Bytes → Option Bytes

end RatchetSession
