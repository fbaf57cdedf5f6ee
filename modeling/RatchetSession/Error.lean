import RatchetSession.Address
import RatchetSession.Hex
set_option autoImplicit false

namespace RatchetSession

inductive CryptoError where
  | keyLength (expected actual : Nat)
  | identityKey
  | signature
  | nonContributory
  | keyDerivation
  | chainExhausted (index : UInt32)
  | encryption
  | authentication
  | entropy (reason : String)
deriving DecidableEq, Repr

namespace CryptoError

def message : CryptoError → String
  | keyLength expected actual =>
    "invalid key length: expected " ++ toString expected ++ ", got " ++ toString actual
  | identityKey => "invalid identity key encoding"
  | signature => "invalid signature"
  | nonContributory => "non-contributory key agreement"
  | keyDerivation => "key derivation failed"
  | chainExhausted index => "chain exhausted at index " ++ toString index.toNat
  | encryption => "encryption failed"
  | authentication => "authentication failed"
  | entropy reason => "entropy source failed: " ++ reason

def label : CryptoError → String
  | keyLength _ _ => "InvalidKeyLength"
  | identityKey => "InvalidIdentityKey"
  | signature => "InvalidSignature"
  | nonContributory => "NonContributoryAgreement"
  | keyDerivation => "KeyDerivation"
  | chainExhausted _ => "ChainExhausted"
  | encryption => "Encryption"
  | authentication => "AuthenticationFailed"
  | entropy _ => "Entropy"

/-- Fatal failures point at a primitive, the others at hostile or damaged input. -/
def isFatal : CryptoError → Bool
  | keyDerivation | encryption | entropy _ | chainExhausted _ => true
  | _ => false

end CryptoError

inductive WireError where
  | truncated (expected actual : Nat)
  | badMagic (first second : UInt8)
  | unsupportedVersion (version : UInt8)
  | unknownKind (kind : UInt8)
  | payloadTooLarge (size max : Nat)
  | trailingBytes (count : Nat)
  | encode (reason : String)
  | decode (reason : String)
deriving DecidableEq, Repr

namespace WireError

def message : WireError → String
  | truncated expected actual =>
    "truncated message: expected " ++ toString expected ++ " bytes, got " ++ toString actual
  | badMagic first second =>
    "bad magic: [" ++ Hex.encode [first] ++ ", " ++ Hex.encode [second] ++ "]"
  | unsupportedVersion version => "unsupported version: " ++ toString version.toNat
  | unknownKind kind => "unknown message kind: " ++ toString kind.toNat
  | payloadTooLarge size max =>
    "payload too large: " ++ toString size ++ " bytes (max " ++ toString max ++ ")"
  | trailingBytes count => toString count ++ " trailing bytes after payload"
  | encode reason => "encode error: " ++ reason
  | decode reason => "decode error: " ++ reason

def label : WireError → String
  | truncated _ _ => "Truncated"
  | badMagic _ _ => "BadMagic"
  | unsupportedVersion _ => "UnsupportedVersion"
  | unknownKind _ => "UnknownKind"
  | payloadTooLarge _ _ => "PayloadTooLarge"
  | trailingBytes _ => "TrailingBytes"
  | encode _ => "Encode"
  | decode _ => "Decode"

end WireError

inductive StoreError where
  | poisoned
  | serialization (reason : String)
  | backend (reason : String)
deriving DecidableEq, Repr

namespace StoreError

def message : StoreError → String
  | poisoned => "store lock poisoned"
  | serialization reason => "serialization error: " ++ reason
  | backend reason => "backend error: " ++ reason

def label : StoreError → String
  | poisoned => "Poisoned"
  | serialization _ => "Serialization"
  | backend _ => "Backend"

/-- A failure as fault plans spell it: `poisoned`, a `serialization:` and its reason, or else the
reason a backend gives. -/
def ofText (text : String) : StoreError :=
  if text = "poisoned" then poisoned
  else if "serialization:".isPrefixOf text then
    serialization (String.ofList (text.toList.drop "serialization:".length))
  else backend text

end StoreError

inductive SessionError where
  | invalidSignature
  | unknownPreKey (id : UInt32)
  | unknownSignedPreKey (id : UInt32)
  | tooManySkipped (current requested maxSkip : UInt32)
  | duplicateMessage (counter : UInt32)
  | authenticationFailed
  | invalidInitialMessage (reason : String)
  | invalidKeyMaterial (cause : CryptoError)
  | primitiveFailure (cause : CryptoError)
  | untrustedIdentity (address : Address)
  | noSession (address : Address)
  | noValidSession
  | invalidPadding
  | invalidLimits (reason : String)
  | wire (cause : WireError)
  | store (cause : StoreError)
deriving DecidableEq, Repr

namespace SessionError

def message : SessionError → String
  | invalidSignature => "invalid signed pre-key signature"
  | unknownPreKey id => "unknown one-time pre-key: " ++ toString id.toNat
  | unknownSignedPreKey id => "unknown signed pre-key: " ++ toString id.toNat
  | tooManySkipped current requested maxSkip =>
    "too many skipped messages: chain at " ++ toString current.toNat ++ ", message at " ++
      toString requested.toNat ++ " (max skip " ++ toString maxSkip.toNat ++ ")"
  | duplicateMessage counter => "duplicate message: counter " ++ toString counter.toNat
  | authenticationFailed => "message authentication failed"
  | invalidInitialMessage reason => "invalid initial message: " ++ reason
  | invalidKeyMaterial cause => "invalid key material: " ++ cause.message
  | primitiveFailure cause => "crypto primitive failure: " ++ cause.message
  | untrustedIdentity address => "untrusted identity for " ++ address.text
  | noSession address => "no session for " ++ address.text
  | noValidSession => "no valid session state"
  | invalidPadding => "invalid message padding"
  | invalidLimits reason => "invalid session config: " ++ reason
  | wire cause => "protocol error: " ++ cause.message
  | store cause => "store error: " ++ cause.message

def label : SessionError → String
  | invalidSignature => "InvalidSignature"
  | unknownPreKey _ => "UnknownPreKeyIdentifier"
  | unknownSignedPreKey _ => "UnknownSignedPreKey"
  | tooManySkipped _ _ _ => "TooManySkippedMessages"
  | duplicateMessage _ => "DuplicateMessage"
  | authenticationFailed => "AuthenticationFailed"
  | invalidInitialMessage _ => "InvalidInitialMessage"
  | invalidKeyMaterial _ => "InvalidKeyMaterial"
  | primitiveFailure _ => "CryptoPrimitiveFailure"
  | untrustedIdentity _ => "UntrustedIdentity"
  | noSession _ => "NoSession"
  | noValidSession => "NoValidSession"
  | invalidPadding => "InvalidPadding"
  | invalidLimits _ => "InvalidConfig"
  | wire _ => "Protocol"
  | store _ => "Store"

def innerLabel : SessionError → Option String
  | invalidKeyMaterial cause => some cause.label
  | primitiveFailure cause => some cause.label
  | wire cause => some cause.label
  | store cause => some cause.label
  | _ => none

/-- Fatal failures point at a primitive, the store or the limits; the others reject one message
or bundle. -/
def isFatal : SessionError → Bool
  | primitiveFailure _ | store _ | invalidLimits _ => true
  | _ => false

def ofCrypto : CryptoError → SessionError
  | .authentication => authenticationFailed
  | .signature => invalidSignature
  | .keyLength expected actual => invalidKeyMaterial (.keyLength expected actual)
  | .identityKey => invalidKeyMaterial .identityKey
  | .nonContributory => invalidKeyMaterial .nonContributory
  | .keyDerivation => primitiveFailure .keyDerivation
  | .chainExhausted index => primitiveFailure (.chainExhausted index)
  | .encryption => primitiveFailure .encryption
  | .entropy reason => primitiveFailure (.entropy reason)

end SessionError

end RatchetSession
