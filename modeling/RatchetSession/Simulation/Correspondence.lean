import Mathlib.Logic.Function.Basic
import RatchetSession.Handshake
set_option autoImplicit false

/-!
One session between two sides. Nothing that was sent is ever taken away, so that every
message can be delivered at any time, again, or never.
-/

namespace RatchetSession

structure Station (P : Suite) where
  session : Option (Session P)
  /-- The ratchet keys of all receiving chains there have ever been. -/
  heard : List PublicKey
  /-- Plaintexts and messages, oldest first. -/
  sent : List (Bytes × Message)
  opened : List Nat

def Station.empty {P : Suite} : Station P := ⟨none, [], [], []⟩

def Station.put {P : Suite} (station : Station P) (s : Session P) : Station P :=
  { station with
    session := some s
    heard := station.heard ++ s.receiving.map (·.remoteKey) }

def Station.post {P : Suite} (station : Station P) (item : Bytes × Message) (s : Session P) :
    Station P :=
  { station.put s with sent := station.sent ++ [item] }

def Station.collect {P : Suite} (station : Station P) (number : Nat) (s : Session P) : Station P :=
  { station.put s with opened := number :: station.opened }

structure Correspondence (P : Suite) (E : Type) where
  station : Origin → Station P
  source : E

def Correspondence.set {P : Suite} {E : Type} (x : Correspondence P E) (side : Origin)
    (station : Station P) : Correspondence P E :=
  { x with station := Function.update x.station side station }

inductive Move where
  | send (sender : Origin) (plaintext : Bytes)
  | deliver (recipient : Origin) (number : Nat)
deriving DecidableEq, Repr

/-- What a session begins from: both identities, the pre-keys of the responder's bundle, and the
responder's store. -/
structure Meeting (P : Suite) where
  initiator : Identity
  responder : Identity
  signed : SignedPreKey
  oneTime : Option PreKey
  store : Store P
  limits : Origin → Limits

/-- Filing the keys of all positions before one gives up none. -/
def ReceivingChain.fits (limits : Limits) (chain : ReceivingChain) (target : UInt32) : Bool :=
  chain.skipped.size + (target.toNat - chain.index.toNat) ≤ limits.maxMessageKeys

/-- A message does not need a chain that was given up, and no key is given up for it. -/
def Session.hasRoom {P : Suite} (limits : Limits) (heard : List PublicKey) (s : Session P)
    (message : RatchetMessage) : Bool :=
  match s.chain? message.ratchetKey with
  | some chain => chain.fits limits message.counter
  | none => !heard.contains message.ratchetKey &&
      (s.chain? s.sending.remoteKey).all (·.fits limits message.previousCounter)

namespace Meeting

variable {P : Suite} {E : Type} [Randomness E] (c : Meeting P)

def bundle : Bundle P := .ofKeys (c.responder.key P) c.signed c.oneTime

def begin (source : E) : Except SessionError (Correspondence P E) :=
  match Handshake.outgoing c.bundle c.initiator source with
  | .ok s source =>
    .ok (Correspondence.set ⟨fun _ => .empty, source⟩ .initiator (Station.empty.put s))
  | .error error _ => .error error

/-- The plaintext of a message, and the session after it. The first initial message brings the session
along. -/
def receive (x : Correspondence P E) (recipient : Origin) (message : Message) :
    EStateM.Result SessionError E (Bytes × Session P) :=
  match (x.station recipient).session with
  | some s => s.decrypt (c.limits recipient) message.inner x.source
  | none =>
    match message with
    | .ratchet _ => .error .noValidSession x.source
    | .initial message =>
      match Handshake.accept message c.responder ⟨c.store, .none, x.source⟩ with
      | .ok (s, _) ctx => s.decrypt (c.limits recipient) message.message ctx.source
      | .error error ctx => .error error ctx.source

def step (x : Correspondence P E) : Move → Correspondence P E
  | .send sender plaintext =>
    let station := x.station sender
    match station.session with
    | none => x
    | some s =>
      match s.encrypt plaintext with
      | .error _ => x
      | .ok (message, s) => x.set sender (station.post (plaintext, message) s)
  | .deliver recipient number =>
    let station := x.station recipient
    match (x.station recipient.other).sent[number]? with
    | none => x
    | some (_, message) =>
      match c.receive x recipient message with
      | .ok (_, s) source => { x.set recipient (station.collect number s) with source := source }
      | .error _ source => { x with source := source }

def run (x : Correspondence P E) (moves : List Move) : Correspondence P E := moves.foldl c.step x

def allows (x : Correspondence P E) : Move → Bool
  | .send _ _ => true
  | .deliver recipient number =>
    match (x.station recipient.other).sent[number]?, (x.station recipient).session with
    | some (_, message), some s =>
      s.hasRoom (c.limits recipient) (x.station recipient).heard message.inner
    | _, _ => true

def within : Correspondence P E → List Move → Bool
  | _, [] => true
  | x, move :: moves => c.allows x move && within (c.step x move) moves

end Meeting

end RatchetSession
