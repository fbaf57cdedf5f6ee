import RatchetSession.Message.Codec
import RatchetSession.Session.Record
set_option autoImplicit false

/-!
Records as byte strings. Identity keys are CBOR byte strings, all other keys arrays of
numbers. Bytes after a record are not read.
-/

namespace RatchetSession

open Cbor (Reader Fields once)

def PrivateKey.toCbor (key : PrivateKey) : Bytes := Cbor.numbers key.bytes.toList

def PrivateKey.reader (depth : Nat) : Reader PrivateKey := PrivateKey.mk <$> Cbor.octets 32 depth

def RootKey.toCbor (key : RootKey) : Bytes := Cbor.numbers key.bytes.toList

def RootKey.reader (depth : Nat) : Reader RootKey := RootKey.mk <$> Cbor.octets 32 depth

namespace IdentityKey

variable {P : Suite}

def toCbor (key : IdentityKey P) : Bytes := Cbor.byteString key.bytes.toList

variable (P) in
def reader (depth : Nat) : Reader (IdentityKey P) := do
  match IdentityKey.ofBytes P (← Cbor.exactOctets 32 depth) with
  | .ok key => pure key
  | .error _ => throw .unexpected

end IdentityKey

namespace KeyPair

def toCbor (pair : KeyPair) : Bytes :=
  Cbor.mapHead 2 ++ Cbor.key "public_key" ++ pair.publicKey.toCbor ++
    Cbor.key "private_key" ++ pair.privateKey.toCbor

structure Known where
  publicKey : Option PublicKey := none
  privateKey : Option PrivateKey := none

def fields : Fields Known := fun depth name known =>
  if name = ascii "public_key" then
    once known.publicKey (PublicKey.reader depth) fun v => { known with publicKey := some v }
  else if name = ascii "private_key" then
    once known.privateKey (PrivateKey.reader depth) fun v => { known with privateKey := some v }
  else none

def reader (depth : Nat) : Reader KeyPair :=
  Cbor.structureOf fields {} (fun known => do return ⟨← known.publicKey, ← known.privateKey⟩) depth

end KeyPair

namespace ChainKey

def toCbor (key : ChainKey) : Bytes :=
  Cbor.mapHead 2 ++ Cbor.key "key" ++ Cbor.numbers key.bytes.toList ++
    Cbor.key "index" ++ Cbor.unsigned key.index.toNat

structure Known where
  bytes : Option (Octets 32) := none
  index : Option UInt32 := none

def fields : Fields Known := fun depth name known =>
  if name = ascii "key" then
    once known.bytes (Cbor.octets 32 depth) fun v => { known with bytes := some v }
  else if name = ascii "index" then
    once known.index Cbor.word fun v => { known with index := some v }
  else none

def reader (depth : Nat) : Reader ChainKey :=
  Cbor.structureOf fields {} (fun known => do return ⟨← known.bytes, ← known.index⟩) depth

end ChainKey

namespace MessageKey

def toCbor (key : MessageKey) : Bytes :=
  Cbor.mapHead 3 ++ Cbor.key "cipher_key" ++ Cbor.numbers key.cipherKey.toList ++
    Cbor.key "nonce" ++ Cbor.numbers key.nonce.toList ++
    Cbor.key "index" ++ Cbor.unsigned key.index.toNat

structure Known where
  cipherKey : Option (Octets 32) := none
  nonce : Option (Octets 24) := none
  index : Option UInt32 := none

def fields : Fields Known := fun depth name known =>
  if name = ascii "cipher_key" then
    once known.cipherKey (Cbor.octets 32 depth) fun v => { known with cipherKey := some v }
  else if name = ascii "nonce" then
    once known.nonce (Cbor.octets 24 depth) fun v => { known with nonce := some v }
  else if name = ascii "index" then
    once known.index Cbor.word fun v => { known with index := some v }
  else none

def reader (depth : Nat) : Reader MessageKey :=
  Cbor.structureOf fields {}
    (fun known => do return ⟨← known.cipherKey, ← known.nonce, ← known.index⟩) depth

end MessageKey

namespace SendingChain

def toCbor (chain : SendingChain) : Bytes :=
  Cbor.mapHead 3 ++ Cbor.key "ratchet_key_pair" ++ chain.ratchetKey.toCbor ++
    Cbor.key "remote_ratchet_key" ++ chain.remoteKey.toCbor ++
    Cbor.key "chain_key" ++ chain.chainKey.toCbor

structure Known where
  ratchetKey : Option KeyPair := none
  remoteKey : Option PublicKey := none
  chainKey : Option ChainKey := none

def fields : Fields Known := fun depth name known =>
  if name = ascii "ratchet_key_pair" then
    once known.ratchetKey (KeyPair.reader depth) fun v => { known with ratchetKey := some v }
  else if name = ascii "remote_ratchet_key" then
    once known.remoteKey (PublicKey.reader depth) fun v => { known with remoteKey := some v }
  else if name = ascii "chain_key" then
    once known.chainKey (ChainKey.reader depth) fun v => { known with chainKey := some v }
  else none

def reader (depth : Nat) : Reader SendingChain :=
  Cbor.structureOf fields {}
    (fun known => do return ⟨← known.ratchetKey, ← known.remoteKey, ← known.chainKey⟩) depth

end SendingChain

namespace SkippedKeys

def entryToCbor (entry : UInt32 × MessageKey) : Bytes :=
  Cbor.unsigned entry.1.toNat ++ entry.2.toCbor

def toCbor (keys : SkippedKeys) : Bytes := Cbor.map entryToCbor keys.entries

def entryReader (depth : Nat) : Reader (UInt32 × MessageKey) := do
  let counter ← Cbor.word
  let key ← MessageKey.reader depth
  return (counter, key)

def reader (depth : Nat) : Reader SkippedKeys := ofEntries <$> Cbor.mapOf entryReader depth

end SkippedKeys

namespace ReceivingChain

def toCbor (chain : ReceivingChain) : Bytes :=
  Cbor.mapHead 4 ++ Cbor.key "remote_ratchet_key" ++ chain.remoteKey.toCbor ++
    Cbor.key "local_ratchet_key" ++ chain.localKey.toCbor ++
    Cbor.key "chain_key" ++ chain.chainKey.toCbor ++
    Cbor.key "skipped" ++ chain.skipped.toCbor

structure Known where
  remoteKey : Option PublicKey := none
  localKey : Option PublicKey := none
  chainKey : Option ChainKey := none
  skipped : Option SkippedKeys := none

def fields : Fields Known := fun depth name known =>
  if name = ascii "remote_ratchet_key" then
    once known.remoteKey (PublicKey.reader depth) fun v => { known with remoteKey := some v }
  else if name = ascii "local_ratchet_key" then
    once known.localKey (PublicKey.reader depth) fun v => { known with localKey := some v }
  else if name = ascii "chain_key" then
    once known.chainKey (ChainKey.reader depth) fun v => { known with chainKey := some v }
  else if name = ascii "skipped" then
    once known.skipped (SkippedKeys.reader depth) fun v => { known with skipped := some v }
  else none

def reader (depth : Nat) : Reader ReceivingChain :=
  Cbor.structureOf fields {}
    (fun known => do
      return ⟨← known.remoteKey, ← known.localKey, ← known.chainKey, ← known.skipped⟩) depth

end ReceivingChain

namespace PendingPreKey

def toCbor (p : PendingPreKey) : Bytes :=
  Cbor.mapHead 3 ++
    Cbor.key "pre_key_id" ++ Cbor.optional (fun id => Cbor.unsigned id.toNat) p.preKeyId ++
    Cbor.key "signed_pre_key_id" ++ Cbor.unsigned p.signedPreKeyId.toNat ++
    Cbor.key "base_key" ++ p.baseKey.toCbor

structure Known where
  preKeyId : Option (Option UInt32) := none
  signedPreKeyId : Option UInt32 := none
  baseKey : Option PublicKey := none

def fields : Fields Known := fun depth name known =>
  if name = ascii "pre_key_id" then
    once known.preKeyId (Cbor.option Cbor.word) fun v => { known with preKeyId := some v }
  else if name = ascii "signed_pre_key_id" then
    once known.signedPreKeyId Cbor.word fun v => { known with signedPreKeyId := some v }
  else if name = ascii "base_key" then
    once known.baseKey (PublicKey.reader depth) fun v => { known with baseKey := some v }
  else none

def reader (depth : Nat) : Reader PendingPreKey :=
  Cbor.structureOf fields {}
    (fun known => do
      return ⟨known.preKeyId.getD none, ← known.signedPreKeyId, ← known.baseKey⟩) depth

end PendingPreKey

namespace Origin

def byte : Origin → UInt8
  | initiator => 1
  | responder => 2

def reader : Reader Origin := do
  let b ← Cbor.byte
  if b = 1 then pure initiator else if b = 2 then pure responder else throw .unexpected

end Origin

namespace Session

variable {P : Suite}

def toCbor (s : Session P) : Bytes :=
  Cbor.mapHead 10 ++
    Cbor.key "version" ++ Cbor.unsigned s.version.toNat ++
    Cbor.key "origin" ++ Cbor.unsigned s.origin.byte.toNat ++
    Cbor.key "local_identity" ++ s.localIdentity.toCbor ++
    Cbor.key "remote_identity" ++ s.remoteIdentity.toCbor ++
    Cbor.key "base_key" ++ s.baseKey.toCbor ++
    Cbor.key "root_key" ++ s.rootKey.toCbor ++
    Cbor.key "sending_chain" ++ s.sending.toCbor ++
    Cbor.key "receiving_chains" ++ Cbor.array ReceivingChain.toCbor s.receiving ++
    Cbor.key "previous_counter" ++ Cbor.unsigned s.previousCounter.toNat ++
    Cbor.key "pending_pre_key" ++ Cbor.optional PendingPreKey.toCbor s.pending

structure Known (P : Suite) where
  version : Option UInt8 := none
  origin : Option Origin := none
  localIdentity : Option (IdentityKey P) := none
  remoteIdentity : Option (IdentityKey P) := none
  baseKey : Option PublicKey := none
  rootKey : Option RootKey := none
  sending : Option SendingChain := none
  receiving : Option (List ReceivingChain) := none
  previousCounter : Option UInt32 := none
  pending : Option (Option PendingPreKey) := none

def fields : Fields (Known P) := fun depth name known =>
  if name = ascii "version" then
    once known.version Cbor.byte fun v => { known with version := some v }
  else if name = ascii "origin" then
    once known.origin Origin.reader fun v => { known with origin := some v }
  else if name = ascii "local_identity" then
    once known.localIdentity (IdentityKey.reader P depth) fun v =>
      { known with localIdentity := some v }
  else if name = ascii "remote_identity" then
    once known.remoteIdentity (IdentityKey.reader P depth) fun v =>
      { known with remoteIdentity := some v }
  else if name = ascii "base_key" then
    once known.baseKey (PublicKey.reader depth) fun v => { known with baseKey := some v }
  else if name = ascii "root_key" then
    once known.rootKey (RootKey.reader depth) fun v => { known with rootKey := some v }
  else if name = ascii "sending_chain" then
    once known.sending (SendingChain.reader depth) fun v => { known with sending := some v }
  else if name = ascii "receiving_chains" then
    once known.receiving (Cbor.arrayOf ReceivingChain.reader depth) fun v =>
      { known with receiving := some v }
  else if name = ascii "previous_counter" then
    once known.previousCounter Cbor.word fun v => { known with previousCounter := some v }
  else if name = ascii "pending_pre_key" then
    once known.pending (Cbor.option (PendingPreKey.reader depth)) fun v =>
      { known with pending := some v }
  else none

def Known.finish (known : Known P) : Option (Session P) := do
  return ⟨← known.version, ← known.origin, ← known.localIdentity, ← known.remoteIdentity,
    ← known.baseKey, ← known.rootKey, ← known.sending, ← known.receiving,
    ← known.previousCounter, known.pending.getD none⟩

variable (P) in
def reader (depth : Nat) : Reader (Session P) :=
  Cbor.structureOf fields ({} : Known P) Known.finish depth

end Session

namespace Record

variable {P : Suite}

def toBytes (r : Record P) : Bytes :=
  Cbor.mapHead 2 ++
    Cbor.key "current" ++ Cbor.optional Session.toCbor r.current ++
    Cbor.key "previous" ++ Cbor.array Session.toCbor r.archived

structure Known (P : Suite) where
  current : Option (Option (Session P)) := none
  archived : Option (List (Session P)) := none

def fields : Fields (Known P) := fun depth name known =>
  if name = ascii "current" then
    once known.current (Cbor.option (Session.reader P depth)) fun v =>
      { known with current := some v }
  else if name = ascii "previous" then
    once known.archived (Cbor.arrayOf (Session.reader P) depth) fun v =>
      { known with archived := some v }
  else none

variable (P) in
def reader (depth : Nat) : Reader (Record P) :=
  Cbor.structureOf fields ({} : Known P)
    (fun known => do return ⟨known.current.getD none, ← known.archived⟩) depth

variable (P) in
def ofBytes (bytes : Bytes) : Except StoreError (Record P) :=
  match reader P Cbor.maxDepth bytes with
  | .ok r _ => .ok r
  | .error fault _ => .error (.serialization fault.text)

end Record

end RatchetSession
