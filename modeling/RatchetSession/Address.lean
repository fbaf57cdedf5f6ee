import RatchetSession.Cbor.Head
set_option autoImplicit false

namespace RatchetSession

structure Address where
  name : String
  device : UInt32
deriving DecidableEq, Repr

namespace Address

def text (a : Address) : String := a.name ++ "." ++ toString a.device.toNat

/-- By name, code point by code point, then by device. -/
def precedes (a b : Address) : Bool :=
  a.name < b.name || (a.name == b.name && a.device ≤ b.device)

/-- Keeps one of each run of equal neighbours. -/
def dropRepeats : List Address → List Address
  | a :: b :: rest => if a = b then dropRepeats (b :: rest) else a :: dropRepeats (b :: rest)
  | addresses => addresses

def distinct (addresses : List Address) : List Address :=
  dropRepeats (addresses.mergeSort precedes)

def toCbor (a : Address) : Bytes :=
  Cbor.mapHead 2 ++ Cbor.key "name" ++ Cbor.text a.name ++
    Cbor.key "device_id" ++ Cbor.unsigned a.device.toNat

end Address

end RatchetSession
