import RatchetSession.Crypto.Sha256
set_option autoImplicit false

namespace RatchetSession

namespace Hmac

/-- A key of one hash block: longer keys are hashed, shorter ones filled with zeros. -/
def blockKey (key : Bytes) : Octets 64 :=
  if key.length ≤ 64 then .fit 64 key else .fit 64 (Sha256.hash key).toList

def authenticate (key message : Bytes) : Octets 32 :=
  let block := (blockKey key).toList
  let inner := Sha256.hash (block.map (· ^^^ 0x36) ++ message)
  Sha256.hash (block.map (· ^^^ 0x5c) ++ inner.toList)

end Hmac

namespace Hkdf

def extract (salt input : Bytes) : Octets 32 := Hmac.authenticate salt input

/-- The next `count` output blocks, numbered from `index`, after the block `previous`. -/
def blocks (key : Octets 32) (info : Bytes) : Nat → UInt8 → Bytes → Bytes
  | 0, _, _ => []
  | count + 1, index, previous =>
    let block := (Hmac.authenticate key.toList (previous ++ info ++ [index])).toList
    block ++ blocks key info count (index + 1) block

/-- `n` bytes of output, `n` being at most 255 blocks of 32. -/
def expand (key : Octets 32) (info : Bytes) (n : Nat) : Octets n :=
  .fit n (blocks key info ((n + 31) / 32) 1 [])

/-- Extract, then expand. An absent salt is the empty one. -/
def derive (salt input info : Bytes) (n : Nat) : Octets n := expand (extract salt input) info n

end Hkdf

end RatchetSession
