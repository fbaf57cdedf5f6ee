import RatchetSession.Limits
import RatchetSession.Session.SkippedKeys
set_option autoImplicit false

/-!
Sending and receiving chains. A receiving chain that fails keeps the steps it made
before the failure.
-/

namespace RatchetSession

structure SendingChain where
  ratchetKey : KeyPair
  remoteKey : PublicKey
  chainKey : ChainKey
deriving DecidableEq

namespace SendingChain

def index (chain : SendingChain) : UInt32 := chain.chainKey.index

def next (P : Suite) (chain : SendingChain) : Except CryptoError (MessageKey × SendingChain) :=
  match chain.chainKey.advance P with
  | .ok (chainKey, key) => .ok (key, { chain with chainKey := chainKey })
  | .error error => .error error

end SendingChain

structure ReceivingChain where
  remoteKey : PublicKey
  /-- The local ratchet key that was current when the chain was derived. -/
  localKey : PublicKey
  chainKey : ChainKey
  skipped : SkippedKeys
deriving DecidableEq

namespace ReceivingChain

def new (remoteKey localKey : PublicKey) (chainKey : ChainKey) : ReceivingChain :=
  ⟨remoteKey, localKey, chainKey, .empty⟩

def index (chain : ReceivingChain) : UInt32 := chain.chainKey.index

variable (P : Suite) (limits : Limits)

/-- Files a key, and gives up the lowest when there are then too many. -/
def file (chain : ReceivingChain) (key : MessageKey) : SkippedKeys :=
  let skipped := chain.skipped.insert key.index key
  if limits.maxMessageKeys < skipped.size then skipped.dropLowest else skipped

def fileNext : (count : Nat) → EStateM SessionError ReceivingChain Unit
  | 0 => pure ()
  | count + 1 => fun chain =>
    match chain.chainKey.advance P with
    | .ok (chainKey, key) =>
      fileNext count { chain with chainKey := chainKey, skipped := chain.file limits key }
    | .error error => .error (.ofCrypto error) chain

/-- Files the keys of all positions before `target`. A target at or behind the chain changes
nothing, and one too far ahead is refused before any step. -/
def skipTo (target : UInt32) : EStateM SessionError ReceivingChain Unit := fun chain =>
  if target ≤ chain.index then .ok () chain
  else if limits.maxSkip < target - chain.index then
    .error (.tooManySkipped chain.index target limits.maxSkip) chain
  else fileNext P limits (target - chain.index).toNat chain

def takeNext : EStateM SessionError ReceivingChain MessageKey := fun chain =>
  match chain.chainKey.advance P with
  | .ok (chainKey, key) => .ok key { chain with chainKey := chainKey }
  | .error error => .error (.ofCrypto error) chain

/-- The key of a message: behind the chain a filed one, which is used up; otherwise the chain's own,
after filing those in between. -/
def messageKey (counter : UInt32) : EStateM SessionError ReceivingChain MessageKey := fun chain =>
  if counter < chain.index then
    match chain.skipped.find? counter with
    | some key => .ok key { chain with skipped := chain.skipped.erase counter }
    | none => .error (.duplicateMessage counter) chain
  else (skipTo P limits counter >>= fun _ => takeNext P) chain

end ReceivingChain

end RatchetSession
