import RatchetSession.Proofs.Session.Step
import RatchetSession.Proofs.Store.Calls
set_option autoImplicit false

/-!
The sessions with which the two sides start. Either draws one key pair, which its first
sending chain carries; the responder's receiving chain ends at its signed pre-key.
-/

namespace RatchetSession.Handshake

open RatchetSession.Computation (bind_eq_ok pure_eq_ok ofExcept_eq_ok mapError_eq_ok
  adaptExcept_eq_ok)

variable {P : Suite}

def initiatorAgreements (identity : Identity) (bundle : Bundle P) (base : KeyPair) :
    List (PrivateKey × PublicKey) :=
  [(identity.agreementKey P, bundle.signedPreKey),
    (base.privateKey, bundle.identityKey.agreementKey), (base.privateKey, bundle.signedPreKey)] ++
  bundle.oneTime.toList.map fun oneTime => (base.privateKey, oneTime.publicKey)

def responderAgreements (identity : Identity) (remote : IdentityKey P) (baseKey : PublicKey)
    (signed : SignedPreKey) (oneTime : Option PreKey) : List (PrivateKey × PublicKey) :=
  [(signed.keyPair.privateKey, remote.agreementKey), (identity.agreementKey P, baseKey),
    (signed.keyPair.privateKey, baseKey)] ++
  oneTime.toList.map fun key => (key.keyPair.privateKey, baseKey)

variable {E : Type} [Randomness E]

theorem outgoing_parts {bundle : Bundle P} {identity : Identity} {s : Session P}
    {source source' : E} (h : outgoing bundle identity source = .ok s source') :
    ∃ seed joined, Randomness.draw 32 source = .ok seed source' ∧
      joinAgreements P (initiatorAgreements identity bundle (.ofSeed P seed)) = .ok joined ∧
      s = .initiator (identity.key P) bundle.identityKey (initialSecrets P joined).1
        ⟨.ofSeed P seed, bundle.signedPreKey, (initialSecrets P joined).2⟩
        ⟨bundle.oneTime.map (·.id), bundle.signedPreKeyId, (KeyPair.ofSeed P seed).publicKey⟩ := by
  obtain ⟨_, _, verified, h⟩ := bind_eq_ok h
  obtain ⟨-, rfl⟩ := ofExcept_eq_ok verified
  obtain ⟨base, _, drawn, h⟩ := bind_eq_ok h
  obtain ⟨seed, _, draw, made⟩ := bind_eq_ok (adaptExcept_eq_ok drawn)
  obtain ⟨rfl, rfl⟩ := pure_eq_ok made
  obtain ⟨joined, _, agreed, h⟩ := bind_eq_ok h
  obtain ⟨whole, rfl⟩ := ofExcept_eq_ok agreed
  obtain ⟨rfl, rfl⟩ := pure_eq_ok h
  exact ⟨seed, joined, draw, mapError_eq_ok.1 whole, rfl⟩

theorem outgoing_eq_ok {bundle : Bundle P} {identity : Identity} {s : Session P}
    {source source' : E} (h : outgoing bundle identity source = .ok s source') :
    ∃ seed rootKey chainKey, Randomness.draw 32 source = .ok seed source' ∧ chainKey.index = 0 ∧
      s = .initiator (identity.key P) bundle.identityKey rootKey
        ⟨.ofSeed P seed, bundle.signedPreKey, chainKey⟩
        ⟨bundle.oneTime.map (·.id), bundle.signedPreKeyId, (KeyPair.ofSeed P seed).publicKey⟩ := by
  obtain ⟨seed, _, draw, -, is⟩ := outgoing_parts h
  exact ⟨seed, _, _, draw, rfl, is⟩

theorem incoming_parts {message : InitialMessage} {remote : IdentityKey P} {identity : Identity}
    {signed : SignedPreKey} {oneTime : Option PreKey} {s : Session P} {source source' : E}
    (h : incoming message remote identity signed oneTime source = .ok s source') :
    ∃ seed joined secret, Randomness.draw 32 source = .ok seed source' ∧
      joinAgreements P (responderAgreements identity remote message.baseKey signed oneTime) =
        .ok joined ∧
      (KeyPair.ofSeed P seed).privateKey.agree P message.baseKey = .ok secret ∧
      s = .responder (identity.key P) remote message.baseKey
        ((initialSecrets P joined).1.ratchet P secret).1
        (.new message.baseKey signed.keyPair.publicKey (initialSecrets P joined).2)
        ⟨.ofSeed P seed, message.baseKey, ((initialSecrets P joined).1.ratchet P secret).2⟩ := by
  obtain ⟨joined, _, agreed, h⟩ := bind_eq_ok h
  obtain ⟨whole, rfl⟩ := ofExcept_eq_ok agreed
  obtain ⟨fresh, _, drawn, h⟩ := bind_eq_ok h
  obtain ⟨seed, _, draw, made⟩ := bind_eq_ok (adaptExcept_eq_ok drawn)
  obtain ⟨rfl, rfl⟩ := pure_eq_ok made
  obtain ⟨secret, _, shared, h⟩ := bind_eq_ok h
  obtain ⟨both, rfl⟩ := ofExcept_eq_ok shared
  obtain ⟨rfl, rfl⟩ := pure_eq_ok h
  exact ⟨seed, joined, secret, draw, mapError_eq_ok.1 whole, mapError_eq_ok.1 both, rfl⟩

theorem incoming_eq_ok {message : InitialMessage} {remote : IdentityKey P} {identity : Identity}
    {signed : SignedPreKey} {oneTime : Option PreKey} {s : Session P} {source source' : E}
    (h : incoming message remote identity signed oneTime source = .ok s source') :
    ∃ seed rootKey receivingKey sendingKey, Randomness.draw 32 source = .ok seed source' ∧
      sendingKey.index = 0 ∧
      s = .responder (identity.key P) remote message.baseKey rootKey
        (.new message.baseKey signed.keyPair.publicKey receivingKey)
        ⟨.ofSeed P seed, message.baseKey, sendingKey⟩ := by
  obtain ⟨seed, _, _, draw, -, -, is⟩ := incoming_parts h
  exact ⟨seed, _, _, _, draw, rfl, is⟩

omit [Randomness E] in
theorem signedPreKey_eq_ok {id : UInt32} {ctx ctx' : Context P E} {signed : SignedPreKey}
    (h : signedPreKey id ctx = .ok signed ctx') :
    ctx.store.signedPreKeys.find? id = some signed ∧ ctx' = ctx.counted := by
  obtain ⟨held, _, loaded, h⟩ := bind_eq_ok h
  obtain ⟨lookup, rfl⟩ := Action.query_eq_ok loaded
  cases held with
  | none => cases h
  | some key =>
    obtain ⟨rfl, rfl⟩ := pure_eq_ok h
    exact ⟨Except.ok.inj lookup, rfl⟩

omit [Randomness E] in
theorem oneTimePreKey_eq_ok {named : Option UInt32} {ctx ctx' : Context P E}
    {oneTime : Option PreKey} (h : oneTimePreKey named ctx = .ok oneTime ctx') :
    named.map ctx.store.preKeys.find? = oneTime.map some ∧ ctx'.source = ctx.source := by
  cases named with
  | none =>
    obtain ⟨rfl, rfl⟩ := pure_eq_ok h
    exact ⟨rfl, rfl⟩
  | some id =>
    obtain ⟨held, _, loaded, h⟩ := bind_eq_ok h
    obtain ⟨lookup, rfl⟩ := Action.query_eq_ok loaded
    cases held with
    | none => cases h
    | some key =>
      obtain ⟨rfl, rfl⟩ := pure_eq_ok h
      exact ⟨congrArg some (Except.ok.inj lookup), rfl⟩

theorem accept_eq_ok {message : InitialMessage} {identity : Identity} {ctx ctx' : Context P E}
    {built : Session P × Option UInt32} (h : accept message identity ctx = .ok built ctx') :
    ∃ remote signed oneTime,
      senderIdentity message = .ok remote ∧
      message.message.ratchetKey = message.baseKey ∧
      ctx.store.signedPreKeys.find? message.signedPreKeyId = some signed ∧
      message.preKeyId.map ctx.store.preKeys.find? = oneTime.map some ∧
      incoming message remote identity signed oneTime ctx.source = .ok built.1 ctx'.source := by
  obtain ⟨remote, _, sender, h⟩ := bind_eq_ok h
  obtain ⟨sent, rfl⟩ := ofExcept_eq_ok sender
  split at h
  · obtain ⟨_, _, failed, -⟩ := bind_eq_ok h
    cases failed
  · rename_i same
    obtain ⟨signed, _, found, h⟩ := bind_eq_ok h
    obtain ⟨held, rfl⟩ := signedPreKey_eq_ok found
    obtain ⟨oneTime, _, named, h⟩ := bind_eq_ok h
    obtain ⟨there, source⟩ := oneTimePreKey_eq_ok named
    obtain ⟨s, _, made, h⟩ := bind_eq_ok h
    obtain ⟨rfl, rfl⟩ := pure_eq_ok h
    obtain ⟨run, -⟩ := Action.onSource_eq_ok made
    rw [source] at run
    exact ⟨remote, signed, oneTime, sent, Classical.not_not.1 same, held, there, run⟩

end RatchetSession.Handshake
