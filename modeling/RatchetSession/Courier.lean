import RatchetSession.Address
set_option autoImplicit false

/-!
A courier for messages in flight, which may lose, copy and reorder them. A slot is
taken modulo the number of messages in flight.
-/

namespace RatchetSession

/-- A message in flight. Copies have the number of the message they were made from. -/
structure Parcel where
  number : Nat
  sender : Address
  recipient : Address
  bytes : Bytes
deriving DecidableEq, Repr

structure Courier where
  /-- Oldest first. -/
  inFlight : List Parcel
  next : Nat
deriving DecidableEq, Repr

def slotPosition (count : Nat) (slot : UInt8) : Option Nat :=
  if count = 0 then none else some (slot.toNat % count)

namespace Courier

def empty : Courier := ⟨[], 0⟩

def post (c : Courier) (sender recipient : Address) (bytes : Bytes) : Nat × Courier :=
  (c.next, ⟨c.inFlight ++ [⟨c.next, sender, recipient, bytes⟩], c.next + 1⟩)

def find? (c : Courier) (slot : UInt8) : Option (Nat × Parcel) := do
  let position ← slotPosition c.inFlight.length slot
  let parcel ← c.inFlight[position]?
  return (position, parcel)

def take (c : Courier) (slot : UInt8) : Option (Parcel × Courier) := do
  let (position, parcel) ← c.find? slot
  return (parcel, { c with inFlight := c.inFlight.eraseIdx position })

def duplicate (c : Courier) (slot : UInt8) : Option (Nat × Courier) := do
  let (_, parcel) ← c.find? slot
  return (parcel.number, { c with inFlight := c.inFlight ++ [parcel] })

def lose (c : Courier) (slot : UInt8) : Option (Nat × Courier) := do
  let (parcel, c) ← c.take slot
  return (parcel.number, c)

def drain (c : Courier) : List Parcel × Courier := (c.inFlight, { c with inFlight := [] })

end Courier

end RatchetSession
