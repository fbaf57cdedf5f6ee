import RatchetSession.Store
set_option autoImplicit false

/-!
Computations of one party: over its store, whose calls may fail, and a source of
randomness. Whatever a computation has changed before it fails stays changed.
-/

namespace RatchetSession

inductive StoreCall where
  | identityKeyPair
  | isTrustedIdentity
  | saveIdentity
  | identity
  | loadPreKey
  | storePreKey
  | removePreKey
  | loadSignedPreKey
  | storeSignedPreKey
  | loadSession
  | storeSession
deriving DecidableEq, Repr

def StoreCall.ofName? : String → Option StoreCall
  | "identity_key_pair" => some .identityKeyPair
  | "is_trusted_identity" => some .isTrustedIdentity
  | "save_identity" => some .saveIdentity
  | "identity" => some .identity
  | "load_pre_key" => some .loadPreKey
  | "store_pre_key" => some .storePreKey
  | "remove_pre_key" => some .removePreKey
  | "load_signed_pre_key" => some .loadSignedPreKey
  | "store_signed_pre_key" => some .storeSignedPreKey
  | "load_session" => some .loadSession
  | "store_session" => some .storeSession
  | _ => none

/-- Which calls fail, and how: by the number of calls made before, and by the kind of call. -/
structure Faults where
  calls : Nat
  plan : Nat → StoreCall → Option StoreError

namespace Faults

def none : Faults := ⟨0, fun _ _ => .none⟩

def set (f : Faults) (call : StoreCall) (error : Option StoreError) : Faults :=
  { f with plan := fun n c => if c = call then error else f.plan n c }

end Faults

structure Context (P : Suite) (E : Type) where
  store : Store P
  faults : Faults
  source : E

abbrev Action (P : Suite) (E : Type) := EStateM SessionError (Context P E)

namespace Action

variable {P : Suite} {E α : Type}

/-- A call that may change the store. One that is made to fail leaves the store alone. -/
def call (kind : StoreCall) (run : Store P → Except StoreError (α × Store P)) : Action P E α :=
  fun ctx =>
    let faults := { ctx.faults with calls := ctx.faults.calls + 1 }
    match ctx.faults.plan ctx.faults.calls kind with
    | some error => .error (.store error) { ctx with faults := faults }
    | none =>
      match run ctx.store with
      | .ok (value, store) => .ok value { ctx with store := store, faults := faults }
      | .error error => .error (.store error) { ctx with faults := faults }

def query (kind : StoreCall) (value : Store P → Except StoreError α) : Action P E α :=
  call kind fun store => (value store).map (·, store)

def write (kind : StoreCall) (change : Store P → Store P) : Action P E Unit :=
  call kind fun store => .ok ((), change store)

def onSource (run : EStateM SessionError E α) : Action P E α := fun ctx =>
  match run ctx.source with
  | .ok value source => .ok value { ctx with source := source }
  | .error error source => .error error { ctx with source := source }

def random (draw : EStateM CryptoError E α) : Action P E α := onSource (draw.adaptExcept .ofCrypto)

def identity : Action P E Identity := query .identityKeyPair fun st => .ok st.identity

def trusts (address : Address) (key : IdentityKey P) : Action P E Bool :=
  query .isTrustedIdentity fun st => .ok (st.trusts address key)

def saveIdentity (address : Address) (key : IdentityKey P) : Action P E Bool :=
  call .saveIdentity fun st => .ok (st.saveIdentity address key)

def knownIdentity (address : Address) : Action P E (Option (IdentityKey P)) :=
  query .identity fun st => .ok (st.identities.find? address)

def loadPreKey (id : UInt32) : Action P E (Option PreKey) :=
  query .loadPreKey fun st => .ok (st.preKeys.find? id)

def storePreKey (key : PreKey) : Action P E Unit := write .storePreKey (·.addPreKey key)

def removePreKey (id : UInt32) : Action P E Unit := write .removePreKey (·.removePreKey id)

def loadSignedPreKey (id : UInt32) : Action P E (Option SignedPreKey) :=
  query .loadSignedPreKey fun st => .ok (st.signedPreKeys.find? id)

def storeSignedPreKey (key : SignedPreKey) : Action P E Unit :=
  write .storeSignedPreKey (·.addSignedPreKey key)

def loadRecord (address : Address) : Action P E (Option (Record P)) :=
  query .loadSession (·.loadRecord address)

def storeRecord (address : Address) (record : Record P) : Action P E Unit :=
  write .storeSession (·.saveRecord address record)

def attempt (run : Action P E Unit) : Action P E Unit := fun ctx =>
  match run ctx with
  | .ok () ctx => .ok () ctx
  | .error _ ctx => .ok () ctx

end Action

end RatchetSession
