set_option autoImplicit false

namespace RatchetSession

def fieldPrime : Nat := (1 <<< 255) - 19

theorem fieldPrime_ne_zero : fieldPrime ≠ 0 := by decide

instance : @NeZero Nat Zero.ofOfNat0 fieldPrime := @NeZero.mk Nat Zero.ofOfNat0 _ fieldPrime_ne_zero

abbrev Field := Fin fieldPrime

namespace Field

def powBits (base : Field) : Nat → Nat → Field
  | 0, _ => 1
  | bits + 1, exponent =>
    let half := powBits (base * base) bits (exponent / 2)
    if exponent % 2 = 1 then half * base else half

def power (base : Field) (exponent : Nat) : Field := powBits base 256 exponent

/-- The inverse; zero is its own. -/
def inverse (x : Field) : Field := power x (fieldPrime - 2)

def ofNat (value : Nat) : Field := Fin.ofNat fieldPrime value

/-- Odd elements are called negative, as in point encodings. -/
def isNegative (x : Field) : Bool := x.val % 2 == 1

def rootMinusOne : Field :=
  ofNat 0x2b8324804fc1df0b2b4d00993dfbd7a72f431806ad2fe478c4ee1b274a0ea0b0

/-- The even square root of `u / v`, if there is one. -/
def sqrtRatio? (u v : Field) : Option Field :=
  let v3 := v * v * v
  let r := u * v3 * power (u * v3 * v3 * v) ((fieldPrime - 5) / 8)
  let check := v * r * r
  let root? :=
    if check = u then some r
    else if check = 0 - u then some (r * rootMinusOne)
    else none
  root?.map fun root => if isNegative root then 0 - root else root

end Field

end RatchetSession
