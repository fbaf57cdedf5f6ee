import RatchetSession.Suite
import RatchetSession.Crypto.Aead
import RatchetSession.Crypto.Ed25519
import RatchetSession.Crypto.Hkdf
set_option autoImplicit false

namespace RatchetSession

def rootLabel : Bytes := ascii "parley v1 root ratchet"

def messageLabel : Bytes := ascii "parley v1 message keys"

def initialLabel : Bytes := ascii "parley v1 initial agreement"

def halves (bytes : Octets 64) : Octets 32 × Octets 32 :=
  (.fit 32 (bytes.toList.take 32), .fit 32 (bytes.toList.drop 32))

def neutralEncoding : Octets 32 := .ofNatLE 32 1

theorem neutralEncoding_decodes : (Point.decode? neutralEncoding).isSome = true := by
  decide +kernel

/-- The public key of a seed. Multiples of the base point have encodings that decode; the neutral
encoding stands in so that this need not be assumed. -/
def identityOfSeed (seed : Octets 32) :
    { key : Octets 32 // (Point.decode? key).isSome = true } :=
  let key := Ed25519.publicKey seed
  if h : (Point.decode? key).isSome = true then ⟨key, h⟩
  else ⟨neutralEncoding, neutralEncoding_decodes⟩

def Suite.standard : Suite where
  publicKey := X25519.publicKey
  agree? := X25519.agree?
  isIdentity key := (Point.decode? key).isSome
  identityKey := identityOfSeed
  identitySecret := Ed25519.agreementSecret
  identityAgreement key := (Point.decode? key).elim (.replicate 32 0) Point.montgomery
  sign := Ed25519.sign
  verify := Ed25519.verify
  initialSecrets agreements :=
    halves (Hkdf.derive (List.replicate 32 0) (List.replicate 32 0xff ++ agreements)
      initialLabel 64)
  ratchetRoot root secret := halves (Hkdf.derive root.toList secret.toList rootLabel 64)
  nextChain key := Hmac.authenticate key.toList [0x02]
  messageKey key :=
    let seed := Hmac.authenticate key.toList [0x01]
    let output : Octets 56 := Hkdf.derive [] seed.toList messageLabel 56
    (.fit 32 (output.toList.take 32), .fit 24 (output.toList.drop 32))
  maxPlaintext := Aead.maxPlaintext
  encrypt := Aead.encrypt
  decrypt? := Aead.decrypt?

end RatchetSession
