import RatchetSession.Message
set_option autoImplicit false

/-!
The eight bytes in front of every message: a magic, the version, the kind, and the
payload's length, most significant byte first.
-/

namespace RatchetSession.Envelope

def magic0 : UInt8 := 0x50

def magic1 : UInt8 := 0x4c

/-- The version written, and the only one read. -/
def version : UInt8 := 1

def headerSize : Nat := 8

def maxPayload : Nat := 0x100000

structure Header where
  kind : MessageKind
  payloadLength : UInt32
deriving DecidableEq, Repr

namespace Header

def toBytes (h : Header) : Bytes :=
  magic0 :: magic1 :: version :: h.kind.byte :: u32BE h.payloadLength

@[simp] theorem toBytes_length (h : Header) : h.toBytes.length = headerSize := by
  simp [toBytes, headerSize]

/-- A header and what follows it. The fields are checked in their order. -/
def ofBytes (bytes : Bytes) : Except WireError (Header × Bytes) :=
  match bytes with
  | m0 :: m1 :: v :: k :: l0 :: l1 :: l2 :: l3 :: rest =>
    if m0 ≠ magic0 ∨ m1 ≠ magic1 then .error (.badMagic m0 m1)
    else if v ≠ version then .error (.unsupportedVersion v)
    else
      match MessageKind.ofByte k with
      | .error fault => .error fault
      | .ok kind =>
        let length := beNat [l0, l1, l2, l3]
        if maxPayload < length then .error (.payloadTooLarge length maxPayload)
        else .ok (⟨kind, length.toUInt32⟩, rest)
  | short => .error (.truncated headerSize short.length)

end Header

end RatchetSession.Envelope
