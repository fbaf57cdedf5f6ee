import RatchetSession.Simulation.Operation
set_option autoImplicit false

/-!
What a conversation looks like from outside, without cryptography: each message is
delivered at most once, with its content, in whatever order; the second side has a
session as soon as a message has reached it.
-/

namespace RatchetSession.Reference

structure Parcel where
  number : Nat
  recipient : Side
  plaintext : Bytes
deriving DecidableEq, Repr

structure World where
  /-- Oldest first. -/
  inFlight : List Parcel
  delivered : List Nat
  /-- Whether the second side has a session; the first always has one. -/
  answered : Bool
  next : Nat
deriving DecidableEq, Repr

namespace World

def initial : World := ⟨[], [], false, 0⟩

def hasSession (w : World) : Side → Bool
  | .first => true
  | .second => w.answered

def find? (w : World) (slot : UInt8) : Option (Nat × Parcel) := do
  let position ← slotPosition w.inFlight.length slot
  let parcel ← w.inFlight[position]?
  return (position, parcel)

def send (w : World) (sender : Side) (content : Content) : Outcome × World :=
  if w.hasSession sender then
    let parcel := ⟨w.next, sender.other, content.toBytes⟩
    (.sent, { w with inFlight := w.inFlight ++ [parcel], next := w.next + 1 })
  else (.noSession, w)

def deliver (w : World) (slot : UInt8) : Outcome × World :=
  match w.find? slot with
  | none => (.idle, w)
  | some (position, parcel) =>
    let w := { w with inFlight := w.inFlight.eraseIdx position }
    if w.delivered.contains parcel.number then (.duplicate, w)
    else
      (.delivered parcel.plaintext,
        { w with
          delivered := parcel.number :: w.delivered
          answered := w.answered || parcel.recipient == .second })

def duplicate (w : World) (slot : UInt8) : World :=
  match w.find? slot with
  | none => w
  | some (_, parcel) => { w with inFlight := w.inFlight ++ [parcel] }

def lose (w : World) (slot : UInt8) : World :=
  match w.find? slot with
  | none => w
  | some (position, _) => { w with inFlight := w.inFlight.eraseIdx position }

def apply (w : World) : Operation → Outcome × World
  | .send sender content => w.send sender content
  | .deliver slot => w.deliver slot
  | .duplicate slot => (.idle, w.duplicate slot)
  | .lose slot => (.idle, w.lose slot)

def outcomes (w : World) : List Operation → List (Outcome × Nat)
  | [] => []
  | op :: ops =>
    let (outcome, w) := w.apply op
    (outcome, w.inFlight.length) :: w.outcomes ops

end World

end RatchetSession.Reference
