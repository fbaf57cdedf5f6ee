import RatchetSession.Error
import RatchetSession.Suite
set_option autoImplicit false

/-!
Agreement keys and identities. An identity key is known to be valid: its type holds
only bytes that the suite accepts.
-/

namespace RatchetSession

structure PublicKey where
  bytes : Octets 32
deriving DecidableEq

def PublicKey.ofBytes (bytes : Bytes) : Except CryptoError PublicKey :=
  match Octets.ofList? 32 bytes with
  | some key => .ok ⟨key⟩
  | none => .error (.keyLength 32 bytes.length)

/-- A private agreement key, kept as it was drawn. -/
structure PrivateKey where
  bytes : Octets 32
deriving DecidableEq

namespace PrivateKey

def publicKey (P : Suite) (key : PrivateKey) : PublicKey := ⟨P.publicKey key.bytes⟩

def agree (P : Suite) (own : PrivateKey) (their : PublicKey) : Except CryptoError (Octets 32) :=
  match P.agree? own.bytes their.bytes with
  | some secret => .ok secret
  | none => .error .nonContributory

end PrivateKey

structure KeyPair where
  publicKey : PublicKey
  privateKey : PrivateKey
deriving DecidableEq

def KeyPair.ofSeed (P : Suite) (seed : Octets 32) : KeyPair :=
  ⟨PrivateKey.publicKey P ⟨seed⟩, ⟨seed⟩⟩

structure IdentityKey (P : Suite) where
  bytes : Octets 32
  valid : P.isIdentity bytes = true
deriving DecidableEq

namespace IdentityKey

variable {P : Suite}

theorem ext {a b : IdentityKey P} (h : a.bytes = b.bytes) : a = b := by
  cases a
  cases b
  cases h
  rfl

variable (P) in
def ofBytes (bytes : Octets 32) : Except CryptoError (IdentityKey P) :=
  if h : P.isIdentity bytes = true then .ok ⟨bytes, h⟩ else .error .identityKey

@[simp] theorem ofBytes_bytes (key : IdentityKey P) : ofBytes P key.bytes = .ok key := by
  simp [ofBytes, key.valid]

theorem ofBytes_eq_ok {bytes : Octets 32} {key : IdentityKey P} :
    ofBytes P bytes = .ok key ↔ bytes = key.bytes := by
  unfold ofBytes
  split
  · simp only [Except.ok.injEq]
    exact ⟨fun h => h ▸ rfl, fun h => ext h⟩
  · rename_i h
    simp only [reduceCtorEq, false_iff]
    rintro rfl
    exact h key.valid

def agreementKey (key : IdentityKey P) : PublicKey := ⟨P.identityAgreement key.bytes⟩

def verify (key : IdentityKey P) (message : Bytes) (signature : Octets 64) :
    Except CryptoError Unit :=
  if P.verify key.bytes message signature then .ok () else .error .signature

end IdentityKey

/-- A party's own identity: the seed of its signing key. -/
structure Identity where
  seed : Octets 32
deriving DecidableEq

namespace Identity

variable (P : Suite)

def key (identity : Identity) : IdentityKey P :=
  ⟨(P.identityKey identity.seed).val, (P.identityKey identity.seed).property⟩

def sign (identity : Identity) (message : Bytes) : Octets 64 := P.sign identity.seed message

def agreementKey (identity : Identity) : PrivateKey := ⟨P.identitySecret identity.seed⟩

end Identity

end RatchetSession
