import RatchetSession.PreKey
import RatchetSession.Session.Codec
import RatchetSession.Store.Table
set_option autoImplicit false

/-!
One party's store: its identity, the identities it has met, its pre-keys, and a record
for each remote device. Records are kept as bytes. The first identity shown for an
address is trusted, and afterwards the saved one alone.
-/

namespace RatchetSession

structure Store (P : Suite) where
  identity : Identity
  identities : Table Address (IdentityKey P)
  preKeys : Table UInt32 PreKey
  signedPreKeys : Table UInt32 SignedPreKey
  records : Table Address Bytes
  filed : ∀ id key, preKeys.find? id = some key → key.id = id

namespace Store

variable {P : Suite}

def ofIdentity (identity : Identity) : Store P :=
  ⟨identity, .empty, .empty, .empty, .empty, fun _ _ found => by simp at found⟩

def trusts (st : Store P) (address : Address) (key : IdentityKey P) : Bool :=
  match st.identities.find? address with
  | none => true
  | some known => known == key

/-- Saves an identity, and says whether it took the place of another one. -/
def saveIdentity (st : Store P) (address : Address) (key : IdentityKey P) : Bool × Store P :=
  let replaced :=
    match st.identities.find? address with
    | none => false
    | some known => known != key
  (replaced, { st with identities := st.identities.insert address key })

def addPreKey (st : Store P) (key : PreKey) : Store P :=
  { st with
    preKeys := st.preKeys.insert key.id key
    filed := fun id held found => by
      rw [Table.find?_insert] at found
      split at found
      · rename_i same
        cases found
        exact same.symm
      · exact st.filed id held found }

def removePreKey (st : Store P) (id : UInt32) : Store P :=
  { st with
    preKeys := st.preKeys.erase id
    filed := fun other held found => by
      rw [Table.find?_erase] at found
      split at found
      · cases found
      · exact st.filed other held found }

def addSignedPreKey (st : Store P) (key : SignedPreKey) : Store P :=
  { st with signedPreKeys := st.signedPreKeys.insert key.id key }

def loadRecord (st : Store P) (address : Address) : Except StoreError (Option (Record P)) :=
  match st.records.find? address with
  | none => .ok none
  | some bytes => some <$> Record.ofBytes P bytes

def saveRecord (st : Store P) (address : Address) (record : Record P) : Store P :=
  { st with records := st.records.insert address record.toBytes }

end Store

end RatchetSession
