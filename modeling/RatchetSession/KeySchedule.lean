import RatchetSession.Key
set_option autoImplicit false

namespace RatchetSession

/-- Replaced at each agreement of the ratchet. -/
structure RootKey where
  bytes : Octets 32
deriving DecidableEq

/-- A chain's secret and the position of the message key it yields next. -/
structure ChainKey where
  bytes : Octets 32
  index : UInt32
deriving DecidableEq

structure MessageKey where
  cipherKey : Octets 32
  nonce : Octets 24
  index : UInt32
deriving DecidableEq

/-- No chain advances past this position. -/
def lastIndex : UInt32 := 0xffffffff

namespace ChainKey

def messageKey (P : Suite) (key : ChainKey) : MessageKey :=
  let material := P.messageKey key.bytes
  ⟨material.1, material.2, key.index⟩

def next (P : Suite) (key : ChainKey) : ChainKey := ⟨P.nextChain key.bytes, key.index + 1⟩

def advance (P : Suite) (key : ChainKey) : Except CryptoError (ChainKey × MessageKey) :=
  if key.index = lastIndex then .error (.chainExhausted key.index)
  else .ok (key.next P, key.messageKey P)

end ChainKey

def rootAndChain (material : Octets 32 × Octets 32) : RootKey × ChainKey :=
  (⟨material.1⟩, ⟨material.2, 0⟩)

def RootKey.ratchet (P : Suite) (root : RootKey) (secret : Octets 32) : RootKey × ChainKey :=
  rootAndChain (P.ratchetRoot root.bytes secret)

def initialSecrets (P : Suite) (agreements : Bytes) : RootKey × ChainKey :=
  rootAndChain (P.initialSecrets agreements)

namespace MessageKey

def encrypt (P : Suite) (key : MessageKey) (associated plaintext : Bytes) : Bytes :=
  P.encrypt key.cipherKey key.nonce associated plaintext

/-- Encrypts a plaintext that is not too long for the cipher. -/
def tryEncrypt (P : Suite) (key : MessageKey) (associated plaintext : Bytes) :
    Except CryptoError Bytes :=
  if P.maxPlaintext < plaintext.length then .error .encryption
  else .ok (key.encrypt P associated plaintext)

def decrypt (P : Suite) (key : MessageKey) (associated ciphertext : Bytes) :
    Except CryptoError Bytes :=
  match P.decrypt? key.cipherKey key.nonce associated ciphertext with
  | some plaintext => .ok plaintext
  | none => .error .authentication

end MessageKey

end RatchetSession
