import RatchetSession.Key
set_option autoImplicit false

namespace RatchetSession

structure RatchetMessage where
  ratchetKey : PublicKey
  counter : UInt32
  /-- The length of the sender's previous chain. -/
  previousCounter : UInt32
  /-- The ciphertext, tag included. -/
  ciphertext : Bytes
deriving DecidableEq

/-- A message that lets the receiver build the session it belongs to. -/
structure InitialMessage where
  /-- The sender's identity key, not yet checked. -/
  identityKey : Octets 32
  baseKey : PublicKey
  signedPreKeyId : UInt32
  preKeyId : Option UInt32
  message : RatchetMessage
deriving DecidableEq

inductive Message where
  | ratchet (message : RatchetMessage)
  | initial (message : InitialMessage)
deriving DecidableEq

def Message.inner : Message → RatchetMessage
  | .ratchet message => message
  | .initial message => message.message

inductive MessageKind where
  | ratchet
  | initial
deriving DecidableEq, Repr

namespace MessageKind

def byte : MessageKind → UInt8
  | ratchet => 1
  | initial => 2

def ofByte (byte : UInt8) : Except WireError MessageKind :=
  if byte = 1 then .ok ratchet
  else if byte = 2 then .ok initial
  else .error (.unknownKind byte)

@[simp] theorem ofByte_byte (kind : MessageKind) : ofByte kind.byte = .ok kind := by
  cases kind <;> rfl

end MessageKind

def Message.kind : Message → MessageKind
  | .ratchet _ => .ratchet
  | .initial _ => .initial

end RatchetSession
