import RatchetSession.Message
import RatchetSession.KeySchedule
import RatchetSession.PreKey
set_option autoImplicit false

namespace RatchetSession

namespace Summary

def record (name : String) (fields : List (String × String)) : String :=
  name ++ " \x7b " ++ ", ".intercalate (fields.map fun f => f.1 ++ ": " ++ f.2) ++ " \x7d"

/-- The first four bytes, run together. -/
def start (key : Octets 32) : String := Hex.encode (key.toList.take 4) ++ ".."

/-- The first four bytes, one by one. -/
def startBytes (key : Octets 32) : String :=
  "[" ++ ", ".intercalate ((key.toList.take 4).map fun b => Hex.encode [b]) ++ "].."

def number (n : UInt32) : String := toString n.toNat

def option (text : Option String) : String :=
  match text with
  | none => "None"
  | some text => "Some(" ++ text ++ ")"

def redacted : String := "<redacted>"

def quotedRedacted : String := "\"" ++ redacted ++ "\""

end Summary

open Summary

def PublicKey.summary (key : PublicKey) : String := "PublicKey(" ++ start key.bytes ++ ")"

def PrivateKey.summary (_ : PrivateKey) : String := "PrivateKey(" ++ redacted ++ ")"

def KeyPair.summary (pair : KeyPair) : String :=
  record "KeyPair"
    [("public_key", pair.publicKey.summary), ("private_key", pair.privateKey.summary)]

def IdentityKey.summary {P : Suite} (key : IdentityKey P) : String :=
  "IdentityKey(" ++ start key.bytes ++ ")"

def Identity.summary (P : Suite) (identity : Identity) : String :=
  record "IdentityKeyPair"
    [("identity_key", (identity.key P).summary), ("signing_key", quotedRedacted)]

def RootKey.summary (_ : RootKey) : String := "RootKey(" ++ redacted ++ ")"

def ChainKey.summary (key : ChainKey) : String :=
  record "ChainKey" [("key", quotedRedacted), ("index", number key.index)]

def MessageKey.summary (key : MessageKey) : String :=
  record "MessageKey" [("key", quotedRedacted), ("index", number key.index)]

def OneTimeKey.summary (key : OneTimeKey) : String :=
  record "OneTimePreKey" [("id", number key.id), ("public_key", key.publicKey.summary)]

def Bundle.summary {P : Suite} (bundle : Bundle P) : String :=
  "PreKeyBundle \x7b identity_key: " ++ bundle.identityKey.summary ++
    ", signed_pre_key_id: " ++ number bundle.signedPreKeyId ++
    ", signed_pre_key: " ++ bundle.signedPreKey.summary ++
    ", one_time_pre_key: " ++ option (bundle.oneTime.map OneTimeKey.summary) ++ ", .. \x7d"

def RatchetMessage.summary (m : RatchetMessage) : String :=
  record "RatchetMessage"
    [("ratchet_key", startBytes m.ratchetKey.bytes), ("counter", number m.counter),
      ("previous_counter", number m.previousCounter),
      ("ciphertext_len", toString m.ciphertext.length)]

def InitialMessage.summary (m : InitialMessage) : String :=
  record "PreKeyMessage"
    [("identity_key", startBytes m.identityKey), ("base_key", startBytes m.baseKey.bytes),
      ("signed_pre_key_id", number m.signedPreKeyId),
      ("pre_key_id", option (m.preKeyId.map number)), ("message", m.message.summary)]

def Message.summary : Message → String
  | .ratchet m => "Ratchet(" ++ m.summary ++ ")"
  | .initial m => "PreKey(" ++ m.summary ++ ")"

end RatchetSession
