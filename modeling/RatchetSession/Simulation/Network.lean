import RatchetSession.Courier
import RatchetSession.Party
import RatchetSession.Simulation.Operation
import RatchetSession.Simulation.Trouble
set_option autoImplicit false

namespace RatchetSession

structure Member (P : Suite) where
  party : Party
  store : Store P

structure Network (P : Suite) (E : Type) where
  members : List (Member P)
  courier : Courier
  source : E

namespace Network

variable {P : Suite} {E α : Type}

/-- Steps of a network. What a step changes before it fails stays changed. -/
abbrev Step (P : Suite) (E : Type) := EStateM Trouble (Network P E)

def member (i : Nat) : Step P E (Member P) := do
  match (← get).members[i]? with
  | some m => return m
  | none => throw .noParty

/-- Runs a computation of a member on its store, none of whose calls fail. -/
def perform (i : Nat) (act : Party → Action P E α) : Step P E α := do
  let m ← member i
  fun net =>
    let after (ctx : Context P E) : Network P E :=
      { net with members := net.members.set i { m with store := ctx.store }, source := ctx.source }
    match act m.party ⟨m.store, .none, net.source⟩ with
    | .ok value ctx => .ok value (after ctx)
    | .error error ctx => .error (.failed error) (after ctx)

def address (i : Nat) : Step P E Address := do
  return (← member i).party.address

def stored (net : Network P E) (i : Nat) (address : Address) : Option Bytes := do
  let m ← net.members[i]?
  m.store.records.find? address

variable [Randomness E]

def createMembers (P : Suite) : List (String × Limits) → EStateM SessionError E (List (Member P))
  | [] => pure []
  | (name, limits) :: rest => do
    let (party, store) ← Party.create P name limits
    let others ← createMembers P rest
    return ⟨party, store⟩ :: others

def create (P : Suite) (profiles : List (String × Limits)) (source : E) :
    Except SessionError (Network P E) :=
  match createMembers P profiles source with
  | .ok members source => .ok ⟨members, .empty, source⟩
  | .error error _ => .error error

def start (starter remote : Nat) (bundle : Bundle P) : Step P E Unit := do
  let target ← address remote
  perform starter fun party => party.start target bundle

def send (sender recipient : Nat) (plaintext : Bytes) : Step P E (Nat × Bytes) := do
  let origin ← address sender
  let target ← address recipient
  let bytes ← perform sender fun party => party.send target plaintext
  let (number, courier) := (← get).courier.post origin target bytes
  modify fun net => { net with courier := courier }
  return (number, bytes)

/-- Gives a parcel, with its bytes changed on the way, to the first member with its address. -/
def hand (tamper : Bytes → Bytes) (parcel : Parcel) : Step P E (Nat × Bytes) := do
  match (← get).members.findIdx? (·.party.address == parcel.recipient) with
  | none => throw .noParty
  | some i =>
    let plaintext ← perform i fun party => party.receive parcel.sender (tamper parcel.bytes)
    return (parcel.number, plaintext)

def deliver (slot : UInt8) (tamper : Bytes → Bytes) : Step P E (Option (Nat × Bytes)) := do
  match (← get).courier.take slot with
  | none => return none
  | some (parcel, courier) =>
    modify fun net => { net with courier := courier }
    some <$> hand tamper parcel

/-- A step's result, whether it fails or not. -/
def attempt (step : Step P E α) : Step P E (Except Trouble α) := fun net =>
  match step net with
  | .ok value net => .ok (.ok value) net
  | .error trouble net => .ok (.error trouble) net

/-- Delivers everything in flight, oldest first. -/
def drain : Step P E (List (Except Trouble (Nat × Bytes))) := do
  let (parcels, courier) := (← get).courier.drain
  modify fun net => { net with courier := courier }
  parcels.mapM fun parcel => attempt (hand id parcel)

def duplicate (slot : UInt8) : Step P E (Option Nat) := do
  match (← get).courier.duplicate slot with
  | none => return none
  | some (number, courier) =>
    modify fun net => { net with courier := courier }
    return some number

def lose (slot : UInt8) : Step P E (Option Nat) := do
  match (← get).courier.lose slot with
  | none => return none
  | some (number, courier) =>
    modify fun net => { net with courier := courier }
    return some number

inductive Event where
  | sent (number : Nat) (bytes : Bytes)
  | delivered (number : Nat) (plaintext : Bytes)
  | idle
  | couriered (number : Option Nat)
  | troubled (trouble : Trouble)
deriving DecidableEq, Repr

def Event.outcome : Event → Outcome
  | sent _ _ => .sent
  | delivered _ plaintext => .delivered plaintext
  | idle => .idle
  | couriered _ => .idle
  | troubled (.failed (.noSession _)) => .noSession
  | troubled (.failed (.duplicateMessage _)) => .duplicate
  | troubled _ => .unexpected

def place : Side → Nat
  | .first => 0
  | .second => 1

def operate : Operation → Step P E Event
  | .send sender content => do
    let (number, bytes) ← send (place sender) (place sender.other) content.toBytes
    return .sent number bytes
  | .deliver slot => do
    match ← deliver slot id with
    | none => return .idle
    | some (number, plaintext) => return .delivered number plaintext
  | .duplicate slot => Event.couriered <$> duplicate slot
  | .lose slot => Event.couriered <$> lose slot

def apply (net : Network P E) (op : Operation) : Event × Network P E :=
  match operate op net with
  | .ok event net => (event, net)
  | .error trouble net => (.troubled trouble, net)

def after (net : Network P E) (ops : List Operation) : Network P E :=
  ops.foldl (fun net op => (net.apply op).2) net

/-- What can be seen of operations: the outcome of each, and how much is in flight after it. -/
def outcomes (net : Network P E) : List Operation → List (Outcome × Nat)
  | [] => []
  | op :: ops =>
    let (event, net) := net.apply op
    (event.outcome, net.courier.inFlight.length) :: net.outcomes ops

/-- Two parties under the same limits, the first of which has started a session from the second
one's bundle, which names a one-time pre-key. -/
def pair (P : Suite) (first second : String) (limits : Limits) (source : E)
    (oneTimeId : UInt32 := 1) : Except Trouble (Network P E) :=
  match create P [(first, limits), (second, limits)] source with
  | .error error => .error (.failed error)
  | .ok net =>
    let prepare : Step P E Unit := do
      let bundle ← perform 1 fun party => party.publish (some oneTimeId)
      let remote ← address 1
      perform 0 fun party => party.start remote bundle
    match prepare net with
    | .ok () net => .ok net
    | .error trouble _ => .error trouble

end Network

end RatchetSession
