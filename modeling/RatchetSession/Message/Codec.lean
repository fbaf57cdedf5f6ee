import RatchetSession.Cbor.Reader
import RatchetSession.Message
set_option autoImplicit false

/-!
Messages as CBOR maps. Keys and ciphertexts are arrays of numbers, and a one-time
pre-key that was not used is left out.
-/

namespace RatchetSession

open Cbor (Reader Fields once)

def PublicKey.toCbor (key : PublicKey) : Bytes := Cbor.numbers key.bytes.toList

def PublicKey.reader (depth : Nat) : Reader PublicKey := PublicKey.mk <$> Cbor.octets 32 depth

namespace RatchetMessage

def toCbor (m : RatchetMessage) : Bytes :=
  Cbor.mapHead 4 ++
    Cbor.key "ratchet_key" ++ m.ratchetKey.toCbor ++
    Cbor.key "counter" ++ Cbor.unsigned m.counter.toNat ++
    Cbor.key "previous_counter" ++ Cbor.unsigned m.previousCounter.toNat ++
    Cbor.key "ciphertext" ++ Cbor.numbers m.ciphertext

structure Known where
  ratchetKey : Option PublicKey := none
  counter : Option UInt32 := none
  previousCounter : Option UInt32 := none
  ciphertext : Option Bytes := none

def fields : Fields Known := fun depth name known =>
  if name = ascii "ratchet_key" then
    once known.ratchetKey (PublicKey.reader depth) fun v => { known with ratchetKey := some v }
  else if name = ascii "counter" then
    once known.counter Cbor.word fun v => { known with counter := some v }
  else if name = ascii "previous_counter" then
    once known.previousCounter Cbor.word fun v => { known with previousCounter := some v }
  else if name = ascii "ciphertext" then
    once known.ciphertext (Cbor.byteSequence depth) fun v => { known with ciphertext := some v }
  else none

def Known.finish (known : Known) : Option RatchetMessage := do
  return ⟨← known.ratchetKey, ← known.counter, ← known.previousCounter, ← known.ciphertext⟩

def reader (depth : Nat) : Reader RatchetMessage :=
  Cbor.structureOf fields {} Known.finish depth

end RatchetMessage

namespace InitialMessage

def preKeyEntry : Option UInt32 → Bytes
  | none => []
  | some id => Cbor.key "pre_key_id" ++ Cbor.unsigned id.toNat

def toCbor (m : InitialMessage) : Bytes :=
  Cbor.mapHead (if m.preKeyId.isSome then 5 else 4) ++
    Cbor.key "identity_key" ++ Cbor.numbers m.identityKey.toList ++
    Cbor.key "base_key" ++ m.baseKey.toCbor ++
    Cbor.key "signed_pre_key_id" ++ Cbor.unsigned m.signedPreKeyId.toNat ++
    preKeyEntry m.preKeyId ++
    Cbor.key "message" ++ m.message.toCbor

structure Known where
  identityKey : Option (Octets 32) := none
  baseKey : Option PublicKey := none
  signedPreKeyId : Option UInt32 := none
  preKeyId : Option (Option UInt32) := none
  message : Option RatchetMessage := none

def fields : Fields Known := fun depth name known =>
  if name = ascii "identity_key" then
    once known.identityKey (Cbor.octets 32 depth) fun v => { known with identityKey := some v }
  else if name = ascii "base_key" then
    once known.baseKey (PublicKey.reader depth) fun v => { known with baseKey := some v }
  else if name = ascii "signed_pre_key_id" then
    once known.signedPreKeyId Cbor.word fun v => { known with signedPreKeyId := some v }
  else if name = ascii "pre_key_id" then
    once known.preKeyId (Cbor.option Cbor.word) fun v => { known with preKeyId := some v }
  else if name = ascii "message" then
    once known.message (RatchetMessage.reader depth) fun v => { known with message := some v }
  else none

def Known.finish (known : Known) : Option InitialMessage := do
  return ⟨← known.identityKey, ← known.baseKey, ← known.signedPreKeyId,
    known.preKeyId.getD none, ← known.message⟩

def reader (depth : Nat) : Reader InitialMessage :=
  Cbor.structureOf fields {} Known.finish depth

end InitialMessage

def Message.toCbor : Message → Bytes
  | .ratchet message => message.toCbor
  | .initial message => message.toCbor

def Message.reader (kind : MessageKind) : Reader Message :=
  match kind with
  | .ratchet => Message.ratchet <$> RatchetMessage.reader Cbor.maxDepth
  | .initial => Message.initial <$> InitialMessage.reader Cbor.maxDepth

end RatchetSession
