import RatchetSession.Entropy
import RatchetSession.Entropy.Stream
set_option autoImplicit false

namespace RatchetSession

inductive Supply where
  | seeded (stream : Stream)
  | scripted (bytes : Bytes)

/-- A script too short for a request is left as it is. -/
def Supply.take (n : Nat) : Supply → Except CryptoError (Octets n × Supply)
  | .seeded stream =>
    let result := stream.take n
    .ok (result.1, .seeded result.2)
  | .scripted bytes =>
    match Octets.ofList? n (bytes.take n) with
    | some octets => .ok (octets, .scripted (bytes.drop n))
    | none => .error (.entropy "script exhausted")

structure Entropy where
  supply : Supply
  remaining : Option Nat := none

namespace Entropy

def ofSeed (seed : UInt64) : Entropy := ⟨.seeded (.ofSeed seed), none⟩

def ofScript (bytes : Bytes) : Entropy := ⟨.scripted bytes, none⟩

/-- Only draws that succeed count towards the failure. -/
def draw (n : Nat) : EStateM CryptoError Entropy (Octets n) := fun source =>
  if source.remaining = some 0 then .error (.entropy "entropy source unavailable") source
  else
    match source.supply.take n with
    | .ok (octets, supply) => .ok octets ⟨supply, source.remaining.map (· - 1)⟩
    | .error error => .error error source

instance : Randomness Entropy := ⟨draw⟩

end Entropy

end RatchetSession
