import RatchetSession.Octets
import RatchetSession.Crypto.Field
set_option autoImplicit false

/-!
Points of the twisted Edwards curve -x² + y² = 1 + d x² y² in extended
coordinates, their 32-byte encoding, and their Montgomery form.
-/

namespace RatchetSession

/-- The curve parameter d = -121665/121666. -/
def curveD : Field := .ofNat 0x52036cee2b6ffe738cc740797779e89800700a4d4141d8ab75eb4dca135978a3

/-- A point (x/z, y/z), with t = xy/z. -/
structure Point where
  x : Field
  y : Field
  z : Field
  t : Field
deriving DecidableEq

namespace Point

def neutral : Point := ⟨0, 1, 1, 0⟩

/-- The complete addition law, which also doubles. -/
def add (p q : Point) : Point :=
  let a := (p.y - p.x) * (q.y - q.x)
  let b := (p.y + p.x) * (q.y + q.x)
  let c := p.t * (curveD + curveD) * q.t
  let d := (p.z + p.z) * q.z
  let e := b - a
  let f := d - c
  let g := d + c
  let h := b + a
  ⟨e * f, g * h, f * g, e * h⟩

def negate (p : Point) : Point := ⟨0 - p.x, p.y, p.z, 0 - p.t⟩

def multiplyBits : Nat → Nat → Point → Point
  | 0, _, _ => neutral
  | bits + 1, scalar, p =>
    let half := multiplyBits bits (scalar / 2) (p.add p)
    if scalar % 2 = 1 then half.add p else half

def multiply (scalar : Nat) (p : Point) : Point := multiplyBits 256 scalar p

def base : Point :=
  let x : Field := .ofNat 0x216936d3cd6e53fec0a4e231fdd6dc5c692cc7609525a7b2c9562d608f25d51a
  let y : Field := .ofNat 0x6666666666666666666666666666666666666666666666666666666666666658
  ⟨x, y, 1, x * y⟩

/-- The y-coordinate, with the parity of the x-coordinate in the top bit. -/
def encode (p : Point) : Octets 32 :=
  let inverse := p.z.inverse
  let x := p.x * inverse
  let y := p.y * inverse
  .ofNatLE 32 (y.val + if x.isNegative then 1 <<< 255 else 0)

/-- The point an encoding stands for: a coordinate past the prime wraps, and the parity bit is
ignored where x is zero. Fails when no x fits the y-coordinate. -/
def decode? (bytes : Octets 32) : Option Point :=
  let value := leNat bytes.toList
  let y : Field := .ofNat (value % (1 <<< 255))
  let yy := y * y
  (Field.sqrtRatio? (yy - 1) (curveD * yy + 1)).map fun root =>
    let x := if value < 1 <<< 255 then root else 0 - root
    ⟨x, y, 1, x * y⟩

/-- The Montgomery coordinate (z + y) / (z - y); the neutral point maps to zero. -/
def montgomery (p : Point) : Octets 32 :=
  .ofNatLE 32 ((p.z + p.y) * (p.z - p.y).inverse).val

def same (p q : Point) : Bool := p.x * q.z == q.x * p.z && p.y * q.z == q.y * p.z

def isSmallOrder (p : Point) : Bool :=
  let double := p.add p
  let quadruple := double.add double
  (quadruple.add quadruple).same neutral

end Point

end RatchetSession
