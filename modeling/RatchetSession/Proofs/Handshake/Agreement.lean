import RatchetSession.Proofs.Handshake.Start
import RatchetSession.Proofs.Session.Holds
set_option autoImplicit false

namespace RatchetSession

open RatchetSession.Computation (bind_of_ok adaptExcept_of_ok)

variable {P : Suite}

def KeyPair.Valid (P : Suite) (pair : KeyPair) : Prop :=
  pair.publicKey = pair.privateKey.publicKey P

theorem KeyPair.ofSeed_valid (seed : Octets 32) : (KeyPair.ofSeed P seed).Valid P := rfl

structure SignedPreKey.Valid (P : Suite) (identity : Identity) (key : SignedPreKey) : Prop where
  keyPair : key.keyPair.Valid P
  signature : key.signature = identity.sign P key.keyPair.publicKey.bytes.toList

theorem Bundle.verify_ofKeys (laws : P.Lawful) {identity : Identity} {signed : SignedPreKey}
    (valid : signed.Valid P identity) (oneTime : Option PreKey) :
    (Bundle.ofKeys (identity.key P) signed oneTime).verify = .ok () := by
  have checked := laws.verifies identity.seed signed.keyPair.publicKey.bytes.toList
  simp only [Bundle.verify, Bundle.ofKeys, IdentityKey.verify, Identity.key, valid.signature,
    Identity.sign, checked, if_true]

namespace Handshake

theorem agree?_of_agree {own : Octets 32} {their : PublicKey} {secret : Octets 32}
    (h : PrivateKey.agree P ⟨own⟩ their = .ok secret) : P.agree? own their.bytes = some secret := by
  unfold PrivateKey.agree at h
  split at h
  · rename_i shared
    cases h
    exact shared
  · cases h

theorem agree_comm (laws : P.Commutes) {a b : KeyPair} (first : a.Valid P) (second : b.Valid P) :
    a.privateKey.agree P b.publicKey = b.privateKey.agree P a.publicKey := by
  have same := laws.agrees a.privateKey.bytes b.privateKey.bytes
  simp only [PrivateKey.agree, show a.publicKey = _ from first, show b.publicKey = _ from second,
    PrivateKey.publicKey, same]

def identityPair (P : Suite) (identity : Identity) : KeyPair :=
  ⟨(identity.key P).agreementKey, identity.agreementKey P⟩

theorem identityPair_valid (laws : P.Commutes) (identity : Identity) :
    (identityPair P identity).Valid P := by
  have same := laws.identityAgrees identity.seed
  simp only [KeyPair.Valid, identityPair, IdentityKey.agreementKey, Identity.key,
    Identity.agreementKey, PrivateKey.publicKey, same]

/-- The agreements of each pair of the list, as the first side sees them. -/
def ownSides (pairs : List (KeyPair × KeyPair)) : List (PrivateKey × PublicKey) :=
  pairs.map fun pair => (pair.1.privateKey, pair.2.publicKey)

def theirSides (pairs : List (KeyPair × KeyPair)) : List (PrivateKey × PublicKey) :=
  pairs.map fun pair => (pair.2.privateKey, pair.1.publicKey)

theorem joinAgreements_comm (laws : P.Commutes) {pairs : List (KeyPair × KeyPair)}
    (valid : ∀ pair ∈ pairs, pair.1.Valid P ∧ pair.2.Valid P) :
    joinAgreements P (ownSides pairs) = joinAgreements P (theirSides pairs) := by
  induction pairs with
  | nil => rfl
  | cons pair rest ih =>
    obtain ⟨first, second⟩ := valid pair List.mem_cons_self
    have here := agree_comm laws first second
    have others := ih fun pair member => valid pair (List.mem_cons_of_mem _ member)
    simp only [ownSides, theirSides] at others
    simp only [ownSides, theirSides, List.map_cons, joinAgreements, here, others]

theorem joinAgreements_total (laws : P.Lawful) {pairs : List (KeyPair × KeyPair)}
    (valid : ∀ pair ∈ pairs, pair.2.Valid P) :
    ∃ joined, joinAgreements P (ownSides pairs) = .ok joined := by
  induction pairs with
  | nil => exact ⟨[], rfl⟩
  | cons pair rest ih =>
    obtain ⟨joined, others⟩ := ih fun pair member => valid pair (List.mem_cons_of_mem _ member)
    obtain ⟨secret, shared, -⟩ := laws.agrees pair.1.privateKey.bytes pair.2.privateKey.bytes
    have here : pair.1.privateKey.agree P pair.2.publicKey = .ok secret := by
      simp only [PrivateKey.agree, show pair.2.publicKey = _ from valid pair List.mem_cons_self,
        PrivateKey.publicKey, shared]
    refine ⟨secret.toList ++ joined, ?_⟩
    simp only [ownSides] at others
    simp only [ownSides, List.map_cons, joinAgreements, here, others]
    rfl

/-- The pairs that agree in a handshake, the initiator's first. -/
def agreeing (P : Suite) (initiator responder : Identity) (base : KeyPair) (signed : SignedPreKey)
    (oneTime : Option PreKey) : List (KeyPair × KeyPair) :=
  [(identityPair P initiator, signed.keyPair), (base, identityPair P responder),
    (base, signed.keyPair)] ++
  oneTime.toList.map fun key => (base, key.keyPair)

section Agreeing

variable {initiator responder : Identity} {base : KeyPair} {signed : SignedPreKey}
  {oneTime : Option PreKey}

theorem agreeing_valid (laws : P.Commutes) (baseValid : base.Valid P)
    (signedValid : signed.keyPair.Valid P) (oneTimeValid : ∀ key ∈ oneTime, key.keyPair.Valid P) :
    ∀ pair ∈ agreeing P initiator responder base signed oneTime,
      pair.1.Valid P ∧ pair.2.Valid P := by
  intro pair member
  rcases List.mem_append.1 member with member | member
  · simp only [List.mem_cons, List.not_mem_nil, or_false] at member
    rcases member with rfl | rfl | rfl
    · exact ⟨identityPair_valid laws initiator, signedValid⟩
    · exact ⟨baseValid, identityPair_valid laws responder⟩
    · exact ⟨baseValid, signedValid⟩
  · obtain ⟨key, held, rfl⟩ := List.mem_map.1 member
    exact ⟨baseValid, oneTimeValid key (Option.mem_toList.1 held)⟩

theorem initiatorAgreements_ofKeys : initiatorAgreements initiator
    (.ofKeys (responder.key P) signed oneTime) base =
      ownSides (agreeing P initiator responder base signed oneTime) := by
  cases oneTime <;> rfl

theorem responderAgreements_eq : responderAgreements responder (initiator.key P) base.publicKey signed
    oneTime = theirSides (agreeing P initiator responder base signed oneTime) := by
  cases oneTime <;> rfl

end Agreeing

/-- A dialogue of one epoch, which the responder can take up with these keys. -/
structure Awaits (d : Dialogue P) (e : Epoch) (responder : Identity) (signed : SignedPreKey)
    (oneTime : Option PreKey) : Prop where
  epochs : d.epochs = [e]
  peer : e.peer = signed.keyPair.publicKey
  signedPreKeyId : d.pending.signedPreKeyId = signed.id
  preKeyId : d.pending.preKeyId = oneTime.map (·.id)
  derived : ∃ joined,
    joinAgreements P (responderAgreements responder d.initiator (e.key P) signed oneTime) =
      .ok joined ∧
    initialSecrets P joined = (e.root, ⟨e.start, 0⟩)

def opening (P : Suite) (identity responder : Identity) (signed : SignedPreKey)
    (oneTime : Option PreKey) (e : Epoch) : Dialogue P where
  initiator := identity.key P
  responder := responder.key P
  pending := ⟨oneTime.map (·.id), signed.id, e.key P⟩
  epochs := [e]
  sent _ := 0
  opened _ := []

theorem opening_sound (identity responder : Identity) (signed : SignedPreKey)
    (oneTime : Option PreKey) (e : Epoch) :
    (opening P identity responder signed oneTime e).Sound := by
  refine ⟨fun e' first => ?_, fun k e₁ e₂ _ second => ?_, fun i j e₁ e₂ _ one two _ => ?_,
    fun k e' third => ?_, fun _ _ => rfl, fun _ _ member => (nomatch member),
    fun _ _ member => nomatch member⟩
  · cases first
    rfl
  · cases second
  · obtain ⟨hi, -⟩ := List.getElem?_eq_some_iff.1 one
    obtain ⟨hj, -⟩ := List.getElem?_eq_some_iff.1 two
    simp only [opening, List.length_singleton] at hi hj
    omega
  · cases third

variable {E : Type} [Randomness E]

section Outgoing

variable {identity responder : Identity} {signed : SignedPreKey} {oneTime : Option PreKey}
  {source source' : E}

theorem outgoing_holds (laws : P.Commutes) (signedValid : signed.keyPair.Valid P)
    (oneTimeValid : ∀ key ∈ oneTime, key.keyPair.Valid P) {s : Session P}
    (made : outgoing (.ofKeys (responder.key P) signed oneTime) identity source = .ok s source') :
    ∃ e, Randomness.draw 32 source = .ok e.seed source' ∧
      Holds (opening P identity responder signed oneTime e) 0 e s ∧
      Awaits (opening P identity responder signed oneTime e) e responder signed oneTime := by
  obtain ⟨seed, joined, draw, own, rfl⟩ := outgoing_parts made
  let material := P.initialSecrets joined
  let e : Epoch := ⟨seed, signed.keyPair.publicKey, ⟨material.1⟩, material.2, 0⟩
  have valid : ∀ pair ∈ agreeing P identity responder (.ofSeed P seed) signed oneTime,
      pair.1.Valid P ∧ pair.2.Valid P :=
    agreeing_valid laws (KeyPair.ofSeed_valid seed) signedValid oneTimeValid
  have their : joinAgreements P (responderAgreements responder (identity.key P)
      (KeyPair.ofSeed P seed).publicKey signed oneTime) = .ok joined := by
    rw [responderAgreements_eq, ← joinAgreements_comm laws valid, ← initiatorAgreements_ofKeys, own]
  have named : (Bundle.ofKeys (responder.key P) signed oneTime).oneTime.map (·.id) =
      oneTime.map (·.id) := by
    cases oneTime <;> rfl
  refine ⟨e, draw, ⟨⟨⟨rfl, rfl, rfl, rfl, rfl, rfl, ?_⟩, Nat.le_succ 1, rfl, rfl, List.nodup_nil,
    fun _ member => (nomatch member)⟩, fun j _ lt => absurd lt (Nat.not_lt_zero j), rfl⟩, ?_⟩
  · rw [named]
    rfl
  · exact ⟨rfl, rfl, rfl, rfl, joined, their, rfl⟩

theorem outgoing_total (laws : P.Lawful) (identity : Identity) (valid : signed.Valid P responder)
    (oneTimeValid : ∀ key ∈ oneTime, key.keyPair.Valid P) {seed : Octets 32}
    (draw : Randomness.draw 32 source = .ok seed source') :
    ∃ s, outgoing (.ofKeys (responder.key P) signed oneTime) identity source = .ok s source' := by
  have all : ∀ pair ∈ agreeing P identity responder (.ofSeed P seed) signed oneTime,
      pair.1.Valid P ∧ pair.2.Valid P :=
    agreeing_valid laws.commutes (KeyPair.ofSeed_valid seed) valid.keyPair oneTimeValid
  obtain ⟨joined, own⟩ := joinAgreements_total laws fun pair member => (all pair member).2
  rw [← initiatorAgreements_ofKeys] at own
  have verified : (MonadExcept.ofExcept (Bundle.ofKeys (responder.key P) signed oneTime).verify :
      EStateM SessionError E Unit) source = .ok () source := by
    rw [Bundle.verify_ofKeys laws valid]
    rfl
  have drawn : (Randomness.drawKeyPair P).adaptExcept SessionError.ofCrypto source =
      .ok (KeyPair.ofSeed P seed) source' := adaptExcept_of_ok (drawKeyPair_of_draw P draw)
  have agreements : (MonadExcept.ofExcept (Except.mapError SessionError.ofCrypto
      (joinAgreements P (initiatorAgreements identity
        (.ofKeys (responder.key P) signed oneTime) (KeyPair.ofSeed P seed)))) :
      EStateM SessionError E Bytes) source' = .ok joined source' := by
    rw [own]
    rfl
  unfold outgoing
  rw [bind_of_ok verified, bind_of_ok drawn]
  exact ⟨_, (bind_of_ok agreements).trans rfl⟩

end Outgoing

theorem incoming_holds {d : Dialogue P} {e : Epoch} {responder : Identity} {signed : SignedPreKey}
    {oneTime : Option PreKey} (sound : d.Sound) (awaits : Awaits d e responder signed oneTime)
    (own : d.responder = responder.key P) {message : InitialMessage}
    (base : message.baseKey = e.key P) {source source' : E} {seed secret : Octets 32}
    (draw : Randomness.draw 32 source = .ok seed source')
    (shared : P.agree? seed (P.publicKey e.seed) = some secret) :
    ∃ s e₁, incoming message d.initiator responder signed oneTime source = .ok s source' ∧
      e₁.seed = seed ∧ e₁.previous = 0 ∧ e.Next P e₁ ∧ Holds (d.grow e₁) 1 e₁ s ∧
      s.receiving = [.new (e.key P) signed.keyPair.publicKey ⟨e.start, 0⟩] := by
  obtain ⟨joined, agreed, derived⟩ := awaits.derived
  let material := P.ratchetRoot e.root.bytes secret
  let e₁ : Epoch := ⟨seed, e.key P, ⟨material.1⟩, material.2, 0⟩
  have agreements : (MonadExcept.ofExcept (Except.mapError invalidMessage
      (joinAgreements P (responderAgreements responder d.initiator message.baseKey signed
        oneTime))) : EStateM SessionError E Bytes) source = .ok joined source := by
    rw [base, agreed]
    rfl
  have drawn : (Randomness.drawKeyPair P).adaptExcept SessionError.ofCrypto source =
      .ok (KeyPair.ofSeed P seed) source' := adaptExcept_of_ok (drawKeyPair_of_draw P draw)
  have agreed' : (MonadExcept.ofExcept (Except.mapError invalidMessage
      ((KeyPair.ofSeed P seed).privateKey.agree P message.baseKey)) :
      EStateM SessionError E (Octets 32)) source' = .ok secret source' := by
    have agree : (KeyPair.ofSeed P seed).privateKey.agree P message.baseKey = .ok secret := by
      simp [base, KeyPair.ofSeed, PrivateKey.agree, Epoch.key, shared]
    rw [agree]
    rfl
  let chain : ReceivingChain := .new message.baseKey signed.keyPair.publicKey ⟨e.start, 0⟩
  refine ⟨.responder (responder.key P) d.initiator message.baseKey ⟨material.1⟩ chain
    ⟨KeyPair.ofSeed P seed, message.baseKey, ⟨material.2, 0⟩⟩, e₁, ?_, rfl, rfl,
    ⟨rfl, secret, shared, rfl⟩, ?_, by rw [← base]; rfl⟩
  · unfold incoming
    refine (bind_of_ok agreements).trans ?_
    simp only [derived]
    rw [bind_of_ok drawn, bind_of_ok agreed']
    rfl
  · have length : d.epochs.length = 1 := by rw [awaits.epochs]; rfl
    have first : (d.grow e₁).epochs[0]? = some e := by simp [Dialogue.grow, awaits.epochs]
    have remote : chain.remoteKey = e.key P := base
    have unopened : d.opened 0 = [] := sound.opened_eq_nil (Nat.le_of_eq length)
    have tracks : Tracks (d.grow e₁) 0 e chain := by
      refine ⟨awaits.peer.symm, ?_, Nat.zero_le _⟩
      rw [Dialogue.grow, unopened]
      exact .new _ _
    refine ⟨⟨⟨by simp [Dialogue.grow, awaits.epochs], rfl, own.symm, rfl, ?_, rfl, rfl⟩,
      by simp [Dialogue.grow, awaits.epochs], ?_, rfl, List.nodup_singleton _,
      fun held member => ?_⟩, fun j e' lt _ there => ?_, rfl⟩
    · rw [Dialogue.grow, sound.unsent 1 (Nat.le_of_eq length)]
      simp only [Session.responder, base]
      rfl
    · exact base.trans (sound.base e (by rw [awaits.epochs]; rfl))
    · cases List.mem_singleton.1 member
      exact ⟨0, e, Nat.zero_lt_one, by decide, first, remote, tracks⟩
    · obtain rfl : j = 0 := by omega
      cases first.symm.trans there
      exact List.mem_singleton.2 remote.symm

end Handshake

end RatchetSession
