import RatchetSession.Conversation
import RatchetSession.Entropy.Source
import RatchetSession.Padding
import RatchetSession.Simulation.Tamper
import RatchetSession.Simulation.Trouble
set_option autoImplicit false

/-!
Scripted scenarios: several devices with stores whose calls can be made to fail, one
source of randomness, and named bundles, messages and records. A step that fails
leaves the names as they were.
-/

namespace RatchetSession

structure Actor (P : Suite) where
  address : Address
  limits : Limits
  store : Store P
  faults : Faults

structure Scenario (P : Suite) where
  actors : List (Actor P)
  source : Entropy
  bundles : Table String (Bundle P)
  messages : Table String Message
  records : Table String (Record P)

namespace Scenario

variable {P : Suite} {α : Type}

abbrev Step (P : Suite) := EStateM Trouble (Scenario P)

/-- Devices with the given names, numbers, identity seeds and limits, made in their order; a seed
that is not given is drawn. -/
def createActors :
    List (String × UInt32 × Option (Octets 32) × Limits) →
      EStateM SessionError Entropy (List (Actor P))
  | [] => pure []
  | (name, device, seed, limits) :: rest => do
    let seed ←
      match seed with
      | some seed => pure seed
      | none => (Randomness.draw 32).adaptExcept .ofCrypto
    let others ← createActors rest
    return ⟨⟨name, device⟩, limits, .ofIdentity ⟨seed⟩, .none⟩ :: others

def create (profiles : List (String × UInt32 × Option (Octets 32) × Limits)) (source : Entropy) :
    Except SessionError (Scenario P) :=
  match createActors profiles source with
  | .ok actors source => .ok ⟨actors, source, .empty, .empty, .empty⟩
  | .error error _ => .error error

def actor (i : Nat) : Step P (Actor P) := do
  match (← get).actors[i]? with
  | some a => return a
  | none => throw .noParty

def bundle (name : String) : Step P (Bundle P) := do
  match (← get).bundles.find? name with
  | some b => return b
  | none => throw .noBundle

def message (name : String) : Step P Message := do
  match (← get).messages.find? name with
  | some m => return m
  | none => throw .noMessage

def record (name : String) : Step P (Record P) := do
  match (← get).records.find? name with
  | some r => return r
  | none => throw .noRecord

def setBundle (name : String) (b : Bundle P) : Step P Unit :=
  modify fun sc => { sc with bundles := sc.bundles.insert name b }

def setMessage (name : String) (m : Message) : Step P Unit :=
  modify fun sc => { sc with messages := sc.messages.insert name m }

def setRecord (name : String) (r : Record P) : Step P Unit :=
  modify fun sc => { sc with records := sc.records.insert name r }

def orFail (result : Except SessionError α) : Step P α :=
  MonadExcept.ofExcept (result.mapError .failed)

def perform (i : Nat) (act : Action P Entropy α) : Step P α := do
  let a ← actor i
  fun sc =>
    let after (ctx : Context P Entropy) : Scenario P :=
      { sc with
        actors := sc.actors.set i { a with store := ctx.store, faults := ctx.faults }
        source := ctx.source }
    match act ⟨a.store, a.faults, sc.source⟩ with
    | .ok value ctx => .ok value (after ctx)
    | .error error ctx => .error (.failed error) (after ctx)

def onSource (run : EStateM SessionError Entropy α) : Step P α := fun sc =>
  match run sc.source with
  | .ok value source => .ok value { sc with source := source }
  | .error error source => .error (.failed error) { sc with source := source }

def stored (sc : Scenario P) (i : Nat) (address : Address) : Option Bytes := do
  let a ← sc.actors[i]?
  a.store.records.find? address

def conversation (i : Nat) (remote : Address) (limits : Option Limits) : Step P Conversation := do
  let a ← actor i
  orFail (Conversation.new remote (limits.getD a.limits))

def signedPreKey (i : Nat) (id : UInt32) : Step P SignedPreKey :=
  perform i do
    let identity ← Action.identity
    let key ← Action.random (SignedPreKey.generate P id identity)
    Action.storeSignedPreKey key
    return key

def preKey (i : Nat) (id : UInt32) : Step P PreKey :=
  perform i do
    let key ← Action.random (PreKey.generate P id)
    Action.storePreKey key
    return key

def setFault (i : Nat) (call : StoreCall) (error : Option StoreError) : Step P Unit := do
  let a ← actor i
  modify fun sc =>
    { sc with actors := sc.actors.set i { a with faults := a.faults.set call error } }

def setEntropy (remaining : Option Nat) : Step P Unit :=
  modify fun sc => { sc with source := { sc.source with remaining := remaining } }

def randomWord : Step P UInt32 := onSource (Randomness.drawWord.adaptExcept .ofCrypto)

def randomBytes (n : Nat) : Step P Bytes := do
  let octets ← onSource ((Randomness.draw n).adaptExcept .ofCrypto)
  return octets.toList

/-- A device's bundle from its stored pre-keys; a one-time pre-key that it lacks is left out. -/
def makeBundle (i : Nat) (signedId : UInt32) (oneTimeId : Option UInt32) (name : String) :
    Step P (Bundle P) := do
  match ← perform i (Action.loadSignedPreKey signedId) with
  | none => throw .noSignedPreKey
  | some signed =>
    let oneTime ←
      match oneTimeId with
      | none => pure none
      | some id => perform i (Action.loadPreKey id)
    let identity ← perform i Action.identity
    let b := Bundle.ofKeys (identity.key P) signed oneTime
    setBundle name b
    return b

def editBundle (source : String) (edit : BundleEdit P) (name : String) : Step P (Bundle P) := do
  let b := edit.apply (← bundle source)
  setBundle name b
  return b

def editMessage (source : String) (edit : MessageEdit) (name : String) : Step P Message := do
  let m := edit.apply (← message source)
  setMessage name m
  return m

def start (i : Nat) (remote : Address) (bundleName : String) (limits : Option Limits) :
    Step P Unit := do
  let b ← bundle bundleName
  let c ← conversation i remote limits
  perform i (c.start b)

/-- Starts a session under the usual limits, and says whether there is one then. -/
def startStandard (i : Nat) (remote : Address) (bundleName : String) : Step P Bool := do
  let b ← bundle bundleName
  let c := Conversation.standard remote
  perform i (c.start b)
  perform i c.hasSession

def hasSession (i : Nat) (remote : Address) (limits : Option Limits) : Step P Bool := do
  let c ← conversation i remote limits
  perform i c.hasSession

def encrypt (i : Nat) (remote : Address) (plaintext : Bytes) (padded : Bool)
    (limits : Option Limits) (name : Option String) : Step P Message := do
  let c ← conversation i remote limits
  let m ← perform i (c.encrypt (if padded then Padding.pad plaintext else plaintext))
  match name with
  | some name => setMessage name m
  | none => pure ()
  return m

def decrypt (i : Nat) (remote : Address) (messageName : String) (padded : Bool)
    (limits : Option Limits) : Step P Bytes := do
  let m ← message messageName
  let c ← conversation i remote limits
  let plaintext ← perform i (c.decrypt m)
  if padded then orFail (Padding.unpad plaintext) else pure plaintext

def decryptBytes (i : Nat) (remote : Address) (bytes : Bytes) (limits : Option Limits) :
    Step P Bytes := do
  let c ← conversation i remote limits
  perform i (c.decryptBytes bytes)

def wire (messageName : String) : Step P Bytes := do
  let m ← message messageName
  MonadExcept.ofExcept ((Envelope.encode m).mapError .unsendable)

def archive (i : Nat) (remote : Address) (limits : Option Limits) : Step P (Record P) := do
  let a ← actor i
  perform i do
    let r := (← Action.loadRecord remote).getD .empty
    let r := r.archiveCurrent (limits.getD a.limits).maxArchivedStates
    Action.storeRecord remote r
    return r

def putRecord (i : Nat) (remote : Address) (bytes : Bytes) : Step P Unit := do
  let r ← orFail ((Record.ofBytes P bytes).mapError .store)
  perform i (Action.storeRecord remote r)

def snapshot (i : Nat) (remote : Address) (name : String) : Step P Unit := do
  match ← perform i (Action.loadRecord remote) with
  | none => throw .nothingStored
  | some r => setRecord name r

def restore (i : Nat) (remote : Address) (name : String) : Step P Unit := do
  let r ← record name
  perform i (Action.storeRecord remote r)

def buildOutgoing (i : Nat) (bundleName name : String) : Step P (Session P) := do
  let b ← bundle bundleName
  let s ← perform i do
    let identity ← Action.identity
    Action.onSource (Handshake.outgoing b identity)
  setRecord name (.ofSession s)
  return s

def buildIncoming (i : Nat) (messageName name : String) :
    Step P (Session P × Option UInt32) := do
  match ← message messageName with
  | .ratchet _ => throw .noMessage
  | .initial m =>
    let result ← perform i do
      let identity ← Action.identity
      Handshake.accept m identity
    setRecord name (.ofSession result.1)
    return result

def recordEncrypt (recordName : String) (plaintext : Bytes) (name : Option String) :
    Step P Message := do
  let (m, r) ← orFail ((← record recordName).encrypt plaintext)
  setRecord recordName r
  match name with
  | some name => setMessage name m
  | none => pure ()
  return m

def recordDecrypt (recordName messageName : String) (limits : Limits) : Step P Bytes := do
  let r ← record recordName
  let m ← message messageName
  let (plaintext, r) ← onSource (r.edit (Record.decrypt limits m.inner))
  setRecord recordName r
  return plaintext

def recordPromote (recordName source : String) (max : Nat) : Step P (Record P) := do
  let r ← record recordName
  match (← record source).current with
  | none => throw .noRecord
  | some s =>
    let r := r.promote s max
    setRecord recordName r
    return r

def recordArchive (recordName : String) (max : Nat) : Step P (Record P) := do
  let r := (← record recordName).archiveCurrent max
  setRecord recordName r
  return r

def recordReload (recordName : String) : Step P Nat := do
  let bytes := (← record recordName).toBytes
  let r ← orFail ((Record.ofBytes P bytes).mapError .store)
  setRecord recordName r
  return bytes.length

end Scenario

end RatchetSession
