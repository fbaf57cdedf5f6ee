import RatchetSession.Crypto.Edwards
import RatchetSession.Crypto.Sha512
import RatchetSession.Crypto.X25519
set_option autoImplicit false

/-!
Ed25519 signatures with strict verification: canonical scalar, no
point of small order, and a byte-exact commitment.
-/

namespace RatchetSession.Ed25519

def groupOrder : Nat := (1 <<< 252) + 27742317777372353535851937790883648493

def expandSeed (seed : Octets 32) : Octets 64 := Sha512.hash seed.toList

/-- The first half of the expanded seed, which also serves as an agreement secret. -/
def agreementSecret (seed : Octets 32) : Octets 32 := .fit 32 ((expandSeed seed).toList.take 32)

def secretScalar (seed : Octets 32) : Nat :=
  X25519.clamp (leNat (agreementSecret seed).toList)

def publicKey (seed : Octets 32) : Octets 32 := (Point.base.multiply (secretScalar seed)).encode

def hashScalar (parts : Bytes) : Nat := leNat (Sha512.hash parts).toList % groupOrder

def sign (seed : Octets 32) (message : Bytes) : Octets 64 :=
  let key := publicKey seed
  let r := hashScalar ((expandSeed seed).toList.drop 32 ++ message)
  let commitment := (Point.base.multiply r).encode
  let challenge := hashScalar (commitment.toList ++ key.toList ++ message)
  .fit 64 (commitment.toList ++ natLE 32 ((challenge * secretScalar seed + r) % groupOrder))

/-- Checks a signature against a key, whose bytes enter the challenge as they are. -/
def verify (key : Octets 32) (message : Bytes) (signature : Octets 64) : Bool :=
  let commitment : Octets 32 := .fit 32 (signature.toList.take 32)
  let response := leNat (signature.toList.drop 32)
  if response < groupOrder then
    match Point.decode? commitment, Point.decode? key with
    | some r, some a =>
      if r.isSmallOrder || a.isSmallOrder then false
      else
        let challenge := hashScalar (commitment.toList ++ key.toList ++ message)
        ((Point.base.multiply response).add (a.negate.multiply challenge)).encode == commitment
    | _, _ => false
  else false

end RatchetSession.Ed25519
