import RatchetSession.Octets
set_option autoImplicit false

namespace RatchetSession.Poly1305

def prime : Nat := (1 <<< 130) - 5

def clamp (r : Nat) : Nat := r &&& 0x0ffffffc0ffffffc0ffffffc0fffffff

/-- Folds in blocks of sixteen bytes, each read with a one after its last byte. -/
def accumulate (r : Nat) : Nat → Nat → Bytes → Nat
  | 0, acc, _ => acc
  | _ + 1, acc, [] => acc
  | fuel + 1, acc, bytes =>
    accumulate r fuel ((acc + leNat (bytes.take 16 ++ [1])) * r % prime) (bytes.drop 16)

def tag (key : Octets 32) (message : Bytes) : Octets 16 :=
  let r := clamp (leNat (key.toList.take 16))
  let s := leNat (key.toList.drop 16)
  .ofNatLE 16 (accumulate r (message.length / 16 + 1) 0 message + s)

end RatchetSession.Poly1305
