import RatchetSession.Message
import RatchetSession.PreKey
set_option autoImplicit false

namespace RatchetSession

namespace Tamper

/-- Adds a mask onto one byte; the position is taken modulo the length. -/
def flipByte (position : Nat) (mask : UInt8) (bytes : Bytes) : Bytes :=
  bytes.modify (position % bytes.length) (· ^^^ mask)

def flipped (flip : Option (Nat × UInt8)) (bytes : Bytes) : Bytes :=
  match flip with
  | none => bytes
  | some (position, mask) => flipByte position mask bytes

def truncated (length : Option Nat) (bytes : Bytes) : Bytes :=
  match length with
  | none => bytes
  | some n => bytes.take n

end Tamper

structure MessageEdit where
  identityKey : Option (Octets 32) := none
  baseKey : Option PublicKey := none
  signedPreKeyId : Option UInt32 := none
  preKeyId : Option (Option UInt32) := none
  ratchetKey : Option PublicKey := none
  counter : Option UInt32 := none
  previousCounter : Option UInt32 := none
  ciphertext : Option Bytes := none
  truncate : Option Nat := none
  flip : Option (Nat × UInt8) := none
  /-- Keeps the ratchet message alone. -/
  unwrap : Bool := false
  /-- The initial message whose outer parts then carry the ratchet message. -/
  wrap : Option InitialMessage := none

namespace MessageEdit

def applyInitial (e : MessageEdit) (m : InitialMessage) : InitialMessage :=
  { m with
    identityKey := e.identityKey.getD m.identityKey
    baseKey := e.baseKey.getD m.baseKey
    signedPreKeyId := e.signedPreKeyId.getD m.signedPreKeyId
    preKeyId := e.preKeyId.getD m.preKeyId }

def applyRatchet (e : MessageEdit) (m : RatchetMessage) : RatchetMessage where
  ratchetKey := e.ratchetKey.getD m.ratchetKey
  counter := e.counter.getD m.counter
  previousCounter := e.previousCounter.getD m.previousCounter
  ciphertext :=
    Tamper.flipped e.flip (Tamper.truncated e.truncate (e.ciphertext.getD m.ciphertext))

def apply (e : MessageEdit) (m : Message) : Message :=
  let edited :=
    match m with
    | .ratchet m => Message.ratchet (e.applyRatchet m)
    | .initial m =>
      let m := e.applyInitial m
      Message.initial { m with message := e.applyRatchet m.message }
  let edited := if e.unwrap then .ratchet edited.inner else edited
  match e.wrap with
  | none => edited
  | some outer => .initial { outer with message := edited.inner }

end MessageEdit

structure BundleEdit (P : Suite) where
  identityKey : Option (IdentityKey P) := none
  signedPreKey : Option PublicKey := none
  signedPreKeyId : Option UInt32 := none
  signature : Option (Octets 64) := none
  /-- The byte of the signature whose lowest bit is inverted. -/
  flipSignature : Option Nat := none
  signer : Option Identity := none
  oneTime : Option (Option OneTimeKey) := none

/-- A later part wins over an earlier one that it depends on. -/
def BundleEdit.apply {P : Suite} (e : BundleEdit P) (b : Bundle P) : Bundle P :=
  let signedPreKey := e.signedPreKey.getD b.signedPreKey
  let signature := e.signature.getD b.signature
  let signature : Octets 64 :=
    match e.flipSignature with
    | none => signature
    | some position => .fit 64 (Tamper.flipByte position 1 signature.toList)
  { identityKey := e.identityKey.getD b.identityKey
    signedPreKeyId := e.signedPreKeyId.getD b.signedPreKeyId
    signedPreKey := signedPreKey
    signature :=
      match e.signer with
      | none => signature
      | some signer => signer.sign P signedPreKey.bytes.toList
    oneTime := e.oneTime.getD b.oneTime }

end RatchetSession
