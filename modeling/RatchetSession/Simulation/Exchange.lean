import RatchetSession.Simulation.Network
set_option autoImplicit false

/-!
Two parties, each of which may start sessions from the other's bundles at any time. Messages
are never taken out of the courier, so that each can be delivered again, in any order.
-/

namespace RatchetSession

inductive Act where
  | publish (owner : Side) (oneTimeId : Option UInt32)
  | start (starter : Side) (number : Nat)
  | send (sender : Side) (plaintext : Bytes)
  | deliver (number : Nat)
deriving DecidableEq, Repr

namespace Act

def isStart : Act → Bool
  | start _ _ => true
  | _ => false

def isSend : Act → Bool
  | send _ _ => true
  | _ => false

def isDeliver : Act → Bool
  | deliver _ => true
  | _ => false

end Act

structure Offer (P : Suite) where
  owner : Side
  bundle : Bundle P

def Offer.oneTimeId {P : Suite} (offer : Offer P) : Option UInt32 := offer.bundle.oneTime.map (·.id)

/-- A message as its sender knows it. -/
structure Posted where
  sender : Side
  plaintext : Bytes
  /-- The associated data that the ciphertext was sealed with. -/
  sealed : Option Bytes
deriving DecidableEq, Repr

structure Exchange (P : Suite) (E : Type) where
  net : Network P E
  offers : List (Offer P)
  used : List Nat
  /-- The messages that the courier has, in the same order. -/
  posted : List Posted

def Store.current? {P : Suite} (store : Store P) (remote : Address) : Option (Session P) :=
  match store.loadRecord remote with
  | .ok (some r) => r.current
  | _ => none

namespace Exchange

variable {P : Suite} {E : Type}

def sealing (x : Exchange P E) (sender : Side) : Option Bytes := do
  let m ← x.net.members[Network.place sender]?
  let remote ← x.net.members[Network.place sender.other]?
  let s ← m.store.current? remote.party.address
  return s.sealing.toBytes

/-- Whether an act keeps to the rules: ids of one-time pre-keys are published once, and a bundle that
names one serves for a single session. -/
def permits (x : Exchange P E) : Act → Bool
  | .publish _ none => true
  | .publish owner (some id) =>
    x.offers.all fun offer => offer.owner != owner || offer.oneTimeId != some id
  | .start starter number =>
    match x.offers[number]? with
    | none => false
    | some offer => offer.owner == starter.other &&
        (offer.oneTimeId.isNone || !x.used.contains number)
  | .send _ _ => true
  | .deliver number => number < x.posted.length

variable [Randomness E]

def begin (P : Suite) (names : Side → String) (limits : Side → Limits) (source : E) :
    Except SessionError (Exchange P E) :=
  match Network.create P [(names .first, limits .first), (names .second, limits .second)] source with
  | .ok net => .ok ⟨net, [], [], []⟩
  | .error error => .error error

/-- The associated data with which the recipient of a message would open it now. -/
def opening (x : Exchange P E) (number : Nat) : Option Bytes := do
  let parcel ← x.net.courier.inFlight[number]?
  let i ← x.net.members.findIdx? (·.party.address == parcel.recipient)
  let m ← x.net.members[i]?
  let message ← (Envelope.decode parcel.bytes).toOption
  match (m.party.conversation parcel.sender).decrypt message ⟨m.store, .none, x.net.source⟩ with
  | .error _ _ => none
  | .ok _ ctx => do
    let s ← ctx.store.current? parcel.sender
    let binding ← s.opening message.inner
    return binding.toBytes

/-- Whether an act opens a ciphertext with nothing but what it was sealed with. -/
def genuine (x : Exchange P E) : Act → Bool
  | .deliver number =>
    match x.opening number with
    | none => true
    | some associated => (x.posted[number]?).bind (·.sealed) == some associated
  | _ => true

def deliver (x : Exchange P E) (number : Nat) : Except Trouble Bytes × Exchange P E :=
  match x.net.courier.inFlight[number]? with
  | none => (.error .noMessage, x)
  | some parcel =>
    match Network.hand id parcel x.net with
    | .ok (_, plaintext) net => (.ok plaintext, { x with net := net })
    | .error trouble net => (.error trouble, { x with net := net })

def step (x : Exchange P E) : Act → Exchange P E
  | .publish owner oneTimeId =>
    match Network.perform (Network.place owner) (fun party => party.publish oneTimeId) x.net with
    | .ok bundle net => { x with net := net, offers := x.offers ++ [⟨owner, bundle⟩] }
    | .error _ net => { x with net := net }
  | .start starter number =>
    match x.offers[number]? with
    | none => x
    | some offer =>
      match Network.start (Network.place starter) (Network.place starter.other) offer.bundle x.net with
      | .ok () net => { x with net := net, used := number :: x.used }
      | .error _ net => { x with net := net, used := number :: x.used }
  | .send sender plaintext =>
    match Network.send (Network.place sender) (Network.place sender.other) plaintext x.net with
    | .ok _ net =>
      { x with net := net, posted := x.posted ++ [⟨sender, plaintext, x.sealing sender⟩] }
    | .error _ net => { x with net := net }
  | .deliver number => (x.deliver number).2

def run (x : Exchange P E) (acts : List Act) : Exchange P E := acts.foldl step x

end Exchange

end RatchetSession
