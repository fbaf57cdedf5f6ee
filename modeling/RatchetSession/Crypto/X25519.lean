import RatchetSession.Octets
import RatchetSession.Crypto.Field
set_option autoImplicit false

namespace RatchetSession.X25519

/-- Projective x-coordinates of a multiple of the point and of the next multiple. -/
structure Ladder where
  x2 : Field
  z2 : Field
  x3 : Field
  z3 : Field

def Ladder.step (x1 : Field) (l : Ladder) : Ladder :=
  let a := l.x2 + l.z2
  let aa := a * a
  let b := l.x2 - l.z2
  let bb := b * b
  let e := aa - bb
  let da := (l.x3 - l.z3) * a
  let cb := (l.x3 + l.z3) * b
  let sum := da + cb
  let difference := da - cb
  { x2 := aa * bb
    z2 := e * (aa + 121665 * e)
    x3 := sum * sum
    z3 := x1 * (difference * difference) }

def Ladder.swap (l : Ladder) : Ladder := ⟨l.x3, l.z3, l.x2, l.z2⟩

/-- One bit of the scalar: a one bit steps the pair the other way round. -/
def Ladder.bit (x1 : Field) (bit : Bool) (l : Ladder) : Ladder :=
  if bit then (l.swap.step x1).swap else l.step x1

def climb (x1 : Field) (scalar : Nat) : Nat → Ladder → Ladder
  | 0, l => l
  | bits + 1, l => climb x1 scalar bits (l.bit x1 (scalar.testBit bits))

def clamp (scalar : Nat) : Nat := (1 <<< 254) + scalar % (1 <<< 254) / 8 * 8

/-- The top bit of a coordinate is ignored and values past the prime wrap. -/
def coordinate (bytes : Octets 32) : Field := .ofNat (leNat bytes.toList % (1 <<< 255))

def multiply (scalar : Octets 32) (u : Field) : Octets 32 :=
  let l := climb u (clamp (leNat scalar.toList)) 255 ⟨1, 0, u, 1⟩
  .ofNatLE 32 (l.x2 * l.z2.inverse).val

def publicKey (scalar : Octets 32) : Octets 32 := multiply scalar 9

/-- The shared secret, unless it is zero, which happens for points of low order. -/
def agree? (scalar point : Octets 32) : Option (Octets 32) :=
  let shared := multiply scalar (coordinate point)
  if shared = .replicate 32 0 then none else some shared

end RatchetSession.X25519
