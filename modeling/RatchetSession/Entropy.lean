import RatchetSession.Key
set_option autoImplicit false

/-!
Randomness as an explicit source. A draw may fail; the source's state after a draw,
failed or not, is part of the result.
-/

namespace RatchetSession

class Randomness (E : Type) where
  draw : (n : Nat) → EStateM CryptoError E (Octets n)

namespace Randomness

variable {E : Type} [Randomness E]

/-- A random word, from four bytes, most significant first. -/
def drawWord : EStateM CryptoError E UInt32 := do
  let bytes ← draw 4
  return (beNat bytes.toList).toUInt32

def drawKeyPair (P : Suite) : EStateM CryptoError E KeyPair := do
  let seed ← draw 32
  return .ofSeed P seed

end Randomness

end RatchetSession
