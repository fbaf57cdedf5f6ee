import RatchetSession.Entropy
import RatchetSession.Envelope.Header
import RatchetSession.Session.Chain
set_option autoImplicit false

/-!
A session with one remote device: the ratchet's state, its step to a new remote
ratchet key, and the encryption and decryption of single messages. An operation that
fails yields no new session.
-/

namespace RatchetSession

inductive Origin where
  | initiator
  | responder
deriving DecidableEq, Repr

def Origin.other : Origin → Origin
  | initiator => responder
  | responder => initiator

/-- What an initiator repeats on every message until the first reply. -/
structure PendingPreKey where
  preKeyId : Option UInt32
  signedPreKeyId : UInt32
  baseKey : PublicKey
deriving DecidableEq

structure Session (P : Suite) where
  version : UInt8
  origin : Origin
  localIdentity : IdentityKey P
  remoteIdentity : IdentityKey P
  /-- The initiator's ephemeral key, which tells sessions apart. -/
  baseKey : PublicKey
  rootKey : RootKey
  sending : SendingChain
  /-- Oldest first. -/
  receiving : List ReceivingChain
  previousCounter : UInt32
  pending : Option PendingPreKey
deriving DecidableEq

structure Binding (P : Suite) where
  version : UInt8
  sender : IdentityKey P
  receiver : IdentityKey P
  senderKey : PublicKey
  receiverKey : PublicKey
  counter : UInt32
  previousCounter : UInt32

/-- The parts in their order, all of fixed length. -/
def Binding.toBytes {P : Suite} (b : Binding P) : Bytes :=
  b.version :: (b.sender.bytes.toList ++ b.receiver.bytes.toList ++ b.senderKey.bytes.toList ++
    b.receiverKey.bytes.toList ++ u32BE b.counter ++ u32BE b.previousCounter)

namespace Session

variable {P : Suite}

def initiator (localIdentity remoteIdentity : IdentityKey P) (rootKey : RootKey)
    (sending : SendingChain) (pending : PendingPreKey) : Session P where
  version := Envelope.version
  origin := .initiator
  localIdentity := localIdentity
  remoteIdentity := remoteIdentity
  baseKey := pending.baseKey
  rootKey := rootKey
  sending := sending
  receiving := []
  previousCounter := 0
  pending := some pending

def responder (localIdentity remoteIdentity : IdentityKey P) (baseKey : PublicKey)
    (rootKey : RootKey) (receiving : ReceivingChain) (sending : SendingChain) : Session P where
  version := Envelope.version
  origin := .responder
  localIdentity := localIdentity
  remoteIdentity := remoteIdentity
  baseKey := baseKey
  rootKey := rootKey
  sending := sending
  receiving := [receiving]
  previousCounter := 0
  pending := none

def chain? (s : Session P) (key : PublicKey) : Option ReceivingChain :=
  s.receiving.find? (·.remoteKey == key)

/-- Puts a chain in the place of the first one with a remote ratchet key. -/
def replaceChain (key : PublicKey) (chain : ReceivingChain) :
    List ReceivingChain → List ReceivingChain
  | [] => []
  | first :: rest =>
    if first.remoteKey = key then chain :: rest else first :: replaceChain key chain rest

def setChain (s : Session P) (key : PublicKey) (chain : ReceivingChain) : Session P :=
  { s with receiving := replaceChain key chain s.receiving }

/-- Appends a chain and gives up the oldest when there are then too many. -/
def addChain (limits : Limits) (chains : List ReceivingChain) (chain : ReceivingChain) :
    List ReceivingChain :=
  let chains := chains ++ [chain]
  chains.drop (chains.length - limits.maxReceiverChains)

def encrypt (s : Session P) (plaintext : Bytes) : Except SessionError (Message × Session P) :=
  match s.sending.next P with
  | .error error => .error (.ofCrypto error)
  | .ok (key, sending) =>
    let binding : Binding P :=
      ⟨s.version, s.localIdentity, s.remoteIdentity, sending.ratchetKey.publicKey,
        sending.remoteKey, key.index, s.previousCounter⟩
    match key.tryEncrypt P binding.toBytes plaintext with
    | .error error => .error (.ofCrypto error)
    | .ok ciphertext =>
      let message : RatchetMessage :=
        ⟨sending.ratchetKey.publicKey, key.index, s.previousCounter, ciphertext⟩
      let message :=
        match s.pending with
        | some pending =>
          Message.initial
            ⟨s.localIdentity.bytes, pending.baseKey, pending.signedPreKeyId, pending.preKeyId, message⟩
        | none => Message.ratchet message
      .ok (message, { s with sending := sending })

def sealing (s : Session P) : Binding P :=
  ⟨s.version, s.localIdentity, s.remoteIdentity, s.sending.ratchetKey.publicKey,
    s.sending.remoteKey, s.sending.index, s.previousCounter⟩

/-- What a received message is bound to, if there is a chain for it. -/
def opening (s : Session P) (message : RatchetMessage) : Option (Binding P) :=
  (s.chain? message.ratchetKey).map fun chain =>
    ⟨s.version, s.remoteIdentity, s.localIdentity, message.ratchetKey, chain.localKey,
      message.counter, message.previousCounter⟩

variable {E : Type} [Randomness E]

/-- The step to a new remote ratchet key: a receiving chain from the current local key, then a fresh
local key and its sending chain. -/
def ratchet (limits : Limits) (s : Session P) (remoteKey : PublicKey) :
    EStateM CryptoError E (Session P) := do
  let own := s.sending.ratchetKey
  let receivingSecret ← MonadExcept.ofExcept (own.privateKey.agree P remoteKey)
  let (middleRoot, receivingKey) := s.rootKey.ratchet P receivingSecret
  let fresh ← Randomness.drawKeyPair P
  let sendingSecret ← MonadExcept.ofExcept (fresh.privateKey.agree P remoteKey)
  let (rootKey, sendingKey) := middleRoot.ratchet P sendingSecret
  return { s with
    rootKey := rootKey
    receiving := addChain limits s.receiving (.new remoteKey own.publicKey receivingKey)
    previousCounter := s.sending.index
    sending := ⟨fresh, remoteKey, sendingKey⟩ }

/-- Sets aside what is outstanding on the chain of the last remote ratchet key. -/
def closeChain (limits : Limits) (s : Session P) (previousCounter : UInt32) :
    Except SessionError (Session P) :=
  match s.chain? s.sending.remoteKey with
  | none => .ok s
  | some prior =>
    match prior.skipTo P limits previousCounter with
    | .ok _ prior => .ok (s.setChain s.sending.remoteKey prior)
    | .error error _ => .error error

/-- The session ready for a message: with a receiving chain for its ratchet key. -/
def follow (limits : Limits) (s : Session P) (message : RatchetMessage) :
    EStateM SessionError E (Session P) :=
  if (s.chain? message.ratchetKey).isSome then pure s
  else do
    let s ← MonadExcept.ofExcept (s.closeChain limits message.previousCounter)
    (s.ratchet limits message.ratchetKey).adaptExcept .ofCrypto

/-- Decrypts a message whose receiving chain exists. The first success ends the time in which
initial messages are sent. -/
def receive (limits : Limits) (s : Session P) (message : RatchetMessage) :
    Except SessionError (Bytes × Session P) :=
  match s.chain? message.ratchetKey with
  | none => .error .noValidSession
  | some chain =>
    match chain.messageKey P limits message.counter with
    | .error error _ => .error error
    | .ok key after =>
      let binding : Binding P :=
        ⟨s.version, s.remoteIdentity, s.localIdentity, message.ratchetKey, chain.localKey,
          message.counter, message.previousCounter⟩
      match key.decrypt P binding.toBytes message.ciphertext with
      | .error error => .error (.ofCrypto error)
      | .ok plaintext =>
        .ok (plaintext, { s.setChain message.ratchetKey after with pending := none })

def decrypt (limits : Limits) (s : Session P) (message : RatchetMessage) :
    EStateM SessionError E (Bytes × Session P) := do
  let s ← s.follow limits message
  MonadExcept.ofExcept (s.receive limits message)

end Session

end RatchetSession
