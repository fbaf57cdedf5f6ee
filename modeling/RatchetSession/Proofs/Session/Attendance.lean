import RatchetSession.Proofs.Entropy.Draws
import RatchetSession.Proofs.Session.Chains
import RatchetSession.Proofs.Session.Dialogue
import RatchetSession.Proofs.Session.Step
import RatchetSession.Proofs.Suite.Laws
set_option autoImplicit false

/-!
One side's part in a dialogue: its session sends in the side's last epoch, and what it
receives is in step with the other side's epochs. Old chains may have been given up.
-/

namespace RatchetSession

open RatchetSession.Computation (bind_of_ok adaptExcept_of_ok)

namespace Session

variable {P : Suite}

theorem ratchet_of_agreed {E : Type} [Randomness E] {limits : Limits} {s : Session P}
    {key : PublicKey} {secret fresh seed : Octets 32} {source source' : E}
    (received : s.sending.ratchetKey.privateKey.agree P key = .ok secret)
    (draw : Randomness.draw 32 source = .ok seed source')
    (sent : (KeyPair.ofSeed P seed).privateKey.agree P key = .ok fresh) :
    s.ratchet limits key source = .ok { s with
      rootKey := ((s.rootKey.ratchet P secret).1.ratchet P fresh).1
      receiving := addChain limits s.receiving
        (.new key s.sending.ratchetKey.publicKey (s.rootKey.ratchet P secret).2)
      previousCounter := s.sending.index
      sending := ⟨KeyPair.ofSeed P seed, key, ((s.rootKey.ratchet P secret).1.ratchet P fresh).2⟩ }
        source' := by
  have receiving : (MonadExcept.ofExcept (s.sending.ratchetKey.privateKey.agree P key) :
      EStateM CryptoError E (Octets 32)) source = .ok secret source := by
    rw [received]
    rfl
  have sending : (MonadExcept.ofExcept ((KeyPair.ofSeed P seed).privateKey.agree P key) :
      EStateM CryptoError E (Octets 32)) source' = .ok fresh source' := by
    rw [sent]
    rfl
  unfold ratchet
  rw [bind_of_ok receiving]
  exact (bind_of_ok (drawKeyPair_of_draw P draw)).trans (bind_of_ok sending)

def remoteKeys (s : Session P) : List PublicKey := s.receiving.map (·.remoteKey)

end Session

structure Speaks {P : Suite} (d : Dialogue P) (k : Nat) (e : Epoch) (s : Session P) : Prop where
  epoch : d.epochs[k]? = some e
  version : s.version = Envelope.version
  localIdentity : s.localIdentity = d.identity (turn k)
  remoteIdentity : s.remoteIdentity = d.identity (turn k).other
  sending : s.sending = ⟨KeyPair.ofSeed P e.seed, e.peer, chainAt P e.start (d.sent k)⟩
  previous : s.previousCounter = e.previous
  pending : s.pending = if k = 0 then some d.pending else none

namespace Speaks

variable {P : Suite} {d : Dialogue P} {k : Nat} {e : Epoch} {s : Session P}

theorem index (h : Speaks d k e s) (short : d.sent k < 2 ^ 32) :
    s.sending.index = .ofNat (d.sent k) := by
  rw [h.sending, SendingChain.index, chainAt_index_eq e.start short]

theorem encrypt (h : Speaks d k e s) (room : d.sent k < lastIndex.toNat) {plaintext : Bytes}
    (fits : plaintext.length ≤ P.maxPlaintext) :
    ∃ sending, s.encrypt plaintext =
        .ok (d.wrap k (d.message k e (.ofNat (d.sent k)) plaintext), { s with sending := sending }) ∧
      Speaks (d.send k) k e { s with sending := sending } := by
  have stepped : s.sending.next P = .ok (keyAt P e.start (.ofNat (d.sent k)),
      ⟨KeyPair.ofSeed P e.seed, e.peer, chainAt P e.start (d.sent k + 1)⟩) := by
    simp only [SendingChain.next, h.sending, advance_chainAt e.start room]
  refine ⟨⟨KeyPair.ofSeed P e.seed, e.peer, chainAt P e.start (d.sent k + 1)⟩, ?_,
    { h with sending := ?_ }⟩
  · simp only [Session.encrypt, stepped, MessageKey.tryEncrypt, if_neg (Nat.not_lt.2 fits),
      keyAt_index, h.version, h.localIdentity, h.remoteIdentity, h.previous, h.pending]
    by_cases first : k = 0
    · subst first
      rfl
    · simp only [if_neg first, Dialogue.wrap]
      rfl
  · simp [Dialogue.send]

theorem encrypt_exhausted (h : Speaks d k e s) (last : d.sent k = lastIndex.toNat)
    (plaintext : Bytes) :
    s.encrypt plaintext = .error (.ofCrypto (.chainExhausted lastIndex)) := by
  have here := h.index (by rw [last]; decide)
  rw [last] at here
  exact Session.encrypt_exhausted here plaintext

theorem encrypt_oversized (h : Speaks d k e s) (room : d.sent k < lastIndex.toNat)
    {plaintext : Bytes} (long : P.maxPlaintext < plaintext.length) :
    s.encrypt plaintext = .error (.ofCrypto .encryption) := by
  have bound : lastIndex.toNat < 2 ^ 32 := by decide
  refine Session.encrypt_oversized (fun last => ?_) long
  have index := congrArg UInt32.toNat ((h.index (by omega)).symm.trans last)
  rw [UInt32.toNat_ofNat'] at index
  omega

theorem sealing (h : Speaks d k e s) (short : d.sent k < 2 ^ 32) :
    s.sealing = d.binding k e (.ofNat (d.sent k)) := by
  simp only [Session.sealing, Dialogue.binding, h.version, h.localIdentity, h.remoteIdentity,
    h.index short, h.previous]
  rw [h.sending]
  rfl

end Speaks

/-- A side's session when its last epoch is the one given: it sends in that epoch, and its receiving
chains are in step with epochs of the other side before it. -/
structure Attends {P : Suite} (d : Dialogue P) (k : Nat) (e : Epoch) (s : Session P) : Prop
    extends Speaks d k e s where
  latest : d.epochs.length ≤ k + 2
  baseKey : s.baseKey = d.pending.baseKey
  rootKey : s.rootKey = e.root
  apart : s.remoteKeys.Nodup
  chains : ∀ chain ∈ s.receiving, ∃ (j : Nat) (e' : Epoch), j < k ∧ turn j ≠ turn k ∧
    d.epochs[j]? = some e' ∧ chain.remoteKey = e'.key P ∧ Tracks d j e' chain

namespace Attends

variable {P : Suite} {d d' : Dialogue P} {k : Nat} {e : Epoch} {s : Session P}

theorem chain?_none (h : Attends d k e s) {key : PublicKey}
    (unheard : ∀ (j : Nat) (e' : Epoch), j < k → turn j ≠ turn k → d.epochs[j]? = some e' →
      e'.key P ≠ key) : s.chain? key = none := by
  refine List.find?_eq_none.2 fun chain member same => ?_
  obtain ⟨j, e', lt, other, epoch, remote, -⟩ := h.chains chain member
  exact unheard j e' lt other epoch (remote.symm.trans (beq_iff_eq.1 same))

theorem chains_of_keeps (h : Attends d k e s)
    (keeps : ∀ j e' chain, j < k → turn j ≠ turn k → d.epochs[j]? = some e' →
      Tracks d j e' chain → d'.epochs[j]? = some e' ∧ Tracks d' j e' chain) :
    ∀ chain ∈ s.receiving, ∃ (j : Nat) (e' : Epoch), j < k ∧ turn j ≠ turn k ∧
      d'.epochs[j]? = some e' ∧ chain.remoteKey = e'.key P ∧ Tracks d' j e' chain := by
  intro chain member
  obtain ⟨j, e', lt, turns, epoch, remote, tracks⟩ := h.chains chain member
  obtain ⟨epoch', tracks'⟩ := keeps j e' chain lt turns epoch tracks
  exact ⟨j, e', lt, turns, epoch', remote, tracks'⟩

theorem of_send (h : Attends d k e s) {i : Nat} (other : i ≠ k) : Attends (d.send i) k e s := by
  refine { h with
    sending := ?_
    chains := h.chains_of_keeps fun _ _ _ _ _ epoch tracks => ⟨epoch, tracks.of_send i⟩ }
  rw [h.sending]
  simp [Dialogue.send, Ne.symm other]

theorem of_hear (h : Attends d k e s) {i : Nat} (own : turn i = turn k) (counter : UInt32) :
    Attends (d.hear i counter) k e s := by
  refine { h with chains := h.chains_of_keeps fun j e' chain lt turns epoch tracks => ⟨epoch, ?_⟩ }
  have away : j ≠ i := fun same => turns (same ▸ own)
  refine ⟨tracks.localKey, ?_, tracks.sent⟩
  simpa [Dialogue.hear, away] using tracks.follows

theorem of_grow (h : Attends d k e s) (latest : d.epochs.length = k + 1) (e' : Epoch) :
    Attends (d.grow e') k e s := by
  have old : ∀ j, j ≤ k → (d.epochs ++ [e'])[j]? = d.epochs[j]? := fun j le =>
    List.getElem?_append_left (by omega)
  refine { h with
    epoch := ?_
    latest := ?_
    chains := h.chains_of_keeps fun j e₁ chain lt turns epoch tracks =>
      ⟨?_, tracks.localKey, tracks.follows, tracks.sent⟩ }
  · simp only [Dialogue.grow, old k (Nat.le_refl k), h.epoch]
  · simp [Dialogue.grow, latest]
  · rw [Dialogue.grow, old j (Nat.le_of_lt lt), epoch]

theorem encrypt (h : Attends d k e s) (room : d.sent k < lastIndex.toNat) {plaintext : Bytes}
    (fits : plaintext.length ≤ P.maxPlaintext) :
    ∃ s', s.encrypt plaintext =
        .ok (d.wrap k (d.message k e (.ofNat (d.sent k)) plaintext), s') ∧
      Attends (d.send k) k e s' ∧ s'.receiving = s.receiving := by
  obtain ⟨sending, sent, speaks⟩ := h.toSpeaks.encrypt room fits
  exact ⟨_, sent, { h with
    toSpeaks := speaks
    chains := h.chains_of_keeps fun _ _ _ _ _ epoch tracks => ⟨epoch, tracks.of_send k⟩ }, rfl⟩

theorem length_of_next (h : Attends d k e s) {e₁ : Epoch} (there : d.epochs[k + 1]? = some e₁) :
    d.epochs.length = k + 2 := by
  have inside := (List.getElem?_eq_some_iff.1 there).1
  have latest := h.latest
  omega

theorem unheard_next (sound : d.Sound) (h : Attends d k e s) {e₁ : Epoch}
    (there : d.epochs[k + 1]? = some e₁) : s.chain? (e₁.key P) = none :=
  h.chain?_none fun j e' lt turns epoch same => by
    have next := turn_eq_of_ne turns (turn_ne_succ k).symm
    have place := sound.distinct j (k + 1) e' e₁ next epoch there same
    omega

section Receive

variable {limits : Limits} {j : Nat} {e' : Epoch} {counter : UInt32} {chain : ReceivingChain}

theorem tracks (h : Attends d k e s) (distinct : d.DistinctBefore k) (lt : j < k)
    (turns : turn j ≠ turn k) (epoch : d.epochs[j]? = some e')
    (found : s.chain? (e'.key P) = some chain) :
    Tracks d j e' chain := by
  obtain ⟨i, e₁, before, turns₁, there, remote, tracks⟩ :=
    h.chains chain (List.mem_of_find?_eq_some found)
  obtain rfl := distinct i j e₁ e' before lt (turn_eq_of_ne turns₁ turns) there epoch
    (remote.symm.trans (Session.chain?_remoteKey found))
  cases there.symm.trans epoch
  exact tracks

theorem setChain (h : Attends d k e s) (lt : j < k) (turns : turn j ≠ turn k)
    (epoch : d.epochs[j]? = some e') {after : ReceivingChain} (same : after.remoteKey = e'.key P)
    {opened : Nat → List UInt32} (others : ∀ i, i ≠ j → opened i = d.opened i)
    (tracks : Tracks { d with opened := opened } j e' after) :
    Attends { d with opened := opened } k e (s.setChain (e'.key P) after) := by
  refine { h with apart := ?_, chains := fun chain member => ?_ }
  · have keys : (s.setChain (e'.key P) after).remoteKeys = s.remoteKeys :=
      Session.map_replaceChain same s.receiving
    rw [keys]
    exact h.apart
  · rcases Session.mem_replaceChain_of_nodup h.apart member with rfl | ⟨member, away⟩
    · exact ⟨j, e', lt, turns, epoch, same, tracks⟩
    · obtain ⟨i, e₁, before, turns₁, there, remote, tracks₁⟩ := h.chains chain member
      have differ : i ≠ j := by
        rintro rfl
        cases there.symm.trans epoch
        exact away remote
      refine ⟨i, e₁, before, turns₁, there, remote, tracks₁.localKey, ?_, tracks₁.sent⟩
      simpa only [others i differ] using tracks₁.follows

theorem receive (laws : P.Commutes) (distinct : d.DistinctBefore k) (h : Attends d k e s)
    (lt : j < k) (turns : turn j ≠ turn k) (epoch : d.epochs[j]? = some e')
    (found : s.chain? (e'.key P) = some chain) (unopened : counter ∉ d.opened j)
    (was : counter.toNat < d.sent j) (short : counter.toNat < lastIndex.toNat)
    (reaches : chain.Reaches limits counter) {plaintext : Bytes}
    (fits : plaintext.length ≤ P.maxPlaintext) :
    ∃ s', s.receive limits (d.message j e' counter plaintext) = .ok (plaintext, s') ∧
      Attends (d.hear j counter) k e s' ∧ s'.remoteKeys = s.remoteKeys ∧
      ∀ held ∈ s'.receiving, held.remoteKey ≠ e'.key P → held ∈ s.receiving := by
  have tracks := h.tracks distinct lt turns epoch found
  obtain ⟨after, taken, follows, ends, index⟩ := tracks.follows.messageKey unopened short reaches
  have binding : (⟨s.version, s.remoteIdentity, s.localIdentity, e'.key P, chain.localKey, counter,
      e'.previous⟩ : Binding P) = d.binding j e' counter := by
    rw [h.version, h.remoteIdentity, h.localIdentity, tracks.localKey, Dialogue.binding,
      ← Origin.eq_other turns, ← Origin.eq_other turns.symm]
  have opened : (keyAt P e'.start counter).decrypt P (d.binding j e' counter).toBytes
      ((keyAt P e'.start counter).encrypt P (d.binding j e' counter).toBytes plaintext) =
        .ok plaintext := by
    simp only [MessageKey.decrypt, MessageKey.encrypt, laws.opens _ _ _ _ fits]
  have tracks' : Tracks (d.hear j counter) j e' after := by
    refine ⟨ends.localKey.trans tracks.localKey, by simpa [Dialogue.hear] using follows, ?_⟩
    have le := tracks.sent
    simp only [Dialogue.hear]
    omega
  have remote := ends.remoteKey.trans (Session.chain?_remoteKey found)
  have next := h.setChain lt turns epoch remote (fun i away => if_neg away) tracks'
  refine ⟨{ s.setChain (e'.key P) after with pending := none }, ?_,
    { next with pending := ?_ }, Session.map_replaceChain remote s.receiving,
    fun held member away => ?_⟩
  · simp only [Session.receive, Dialogue.message, found, taken, binding, opened]
  · rw [if_neg (by omega)]
  · refine (Session.mem_replaceChain member).resolve_left ?_
    rintro rfl
    exact away remote

theorem receive_used (distinct : d.DistinctBefore k) (h : Attends d k e s) (lt : j < k)
    (turns : turn j ≠ turn k) (epoch : d.epochs[j]? = some e')
    (found : s.chain? (e'.key P) = some chain)
    (used : counter ∈ d.opened j) (plaintext : Bytes) :
    s.receive limits (d.message j e' counter plaintext) = .error (.duplicateMessage counter) := by
  have tracks := h.tracks distinct lt turns epoch found
  simp only [Session.receive, Dialogue.message, found, tracks.follows.messageKey_used used]

theorem closeChain (sound : d.Sound) (h : Attends d k e s) {previous : UInt32}
    (announced : ∀ i, k = i + 1 → previous.toNat ≤ d.sent i)
    (reaches : ∀ chain, s.chain? e.peer = some chain → chain.Reaches limits previous) :
    ∃ s', s.closeChain limits previous = .ok s' ∧ Attends d k e s' ∧
      s'.remoteKeys = s.remoteKeys ∧
      ∀ chain ∈ s'.receiving, chain.remoteKey = e.peer → previous ≤ chain.index := by
  have peer : s.sending.remoteKey = e.peer := by rw [h.sending]
  unfold Session.closeChain
  rw [peer]
  cases found : s.chain? e.peer with
  | none =>
    refine ⟨s, rfl, h, rfl, fun chain member same => ?_⟩
    exact absurd (same ▸ List.mem_map_of_mem member) (Session.chain?_eq_none.1 found)
  | some prior =>
    obtain ⟨j, e₀, lt, turns, there, remote, tracks⟩ :=
      h.chains prior (List.mem_of_find?_eq_some found)
    -- the last chain is that of the epoch just before the session's own
    obtain ⟨i, rfl⟩ : ∃ i, k = i + 1 := ⟨k - 1, by omega⟩
    obtain ⟨e₁, last⟩ : ∃ e₁, d.epochs[i]? = some e₁ := by
      obtain ⟨size, -⟩ := List.getElem?_eq_some_iff.1 h.epoch
      exact ⟨_, List.getElem?_eq_getElem (by omega)⟩
    have is : e.peer = e₁.key P := (sound.linked i e₁ e last h.epoch).peer
    obtain rfl := sound.distinct j i e₀ e₁ (turn_eq_of_ne turns (turn_ne_succ i)) there last
      (remote.symm.trans ((Session.chain?_remoteKey found).trans is))
    cases there.symm.trans last
    obtain ⟨after, skipped, follows, ends, index⟩ := tracks.follows.skipTo (reaches prior found)
    have within : after.index.toNat ≤ d.sent j := by
      have le := tracks.sent
      have left := announced j rfl
      omega
    have own := ends.remoteKey.trans remote
    have next := h.setChain lt turns there own (fun _ _ => rfl)
      ⟨ends.localKey.trans tracks.localKey, follows, within⟩
    rw [is]
    refine ⟨s.setChain (e₀.key P) after, by simp only [skipped], next,
      Session.map_replaceChain own s.receiving, fun chain member same => ?_⟩
    rcases Session.mem_replaceChain_of_nodup h.apart member with rfl | ⟨-, away⟩
    · exact UInt32.le_iff_toNat_le.2 (by omega)
    · exact absurd same away

end Receive

theorem extend {limits : Limits} (sound : d.Sound) (h : Attends d k e s)
    (last : d.epochs.length = k + 2) {e₁ : Epoch} (there : d.epochs[k + 1]? = some e₁)
    {chain : ReceivingChain} (remote : chain.remoteKey = e₁.key P)
    (tracks : Tracks d (k + 1) e₁ chain) (e₂ : Epoch) :
    Attends (d.grow e₂) (k + 2) e₂ { s with
      rootKey := e₂.root
      receiving := Session.addChain limits s.receiving chain
      previousCounter := e₂.previous
      sending := ⟨KeyPair.ofSeed P e₂.seed, e₂.peer, ⟨e₂.start, 0⟩⟩
      pending := none } := by
  have old : ∀ j, j < k + 2 → (d.epochs ++ [e₂])[j]? = d.epochs[j]? := fun j lt =>
    List.getElem?_append_left (by omega)
  refine ⟨⟨?_, h.version, ?_, ?_, ?_, rfl, ?_⟩, ?_, h.baseKey, rfl, ?_, fun held member => ?_⟩
  · simp [Dialogue.grow, ← last]
  · rw [turn_add_two]
    exact h.localIdentity
  · rw [turn_add_two]
    exact h.remoteIdentity
  · rw [Dialogue.grow, sound.unsent (k + 2) (by omega)]
    rfl
  · rw [if_neg (by omega)]
  · simp [Dialogue.grow, last]
  · refine Session.nodup_addChain limits h.apart ?_
    rw [remote]
    exact Session.chain?_eq_none.1 (h.unheard_next sound there)
  · rcases Session.mem_addChain member with member | rfl
    · obtain ⟨j, e', lt, turns, epoch, own, follows⟩ := h.chains held member
      exact ⟨j, e', by omega, by rw [turn_add_two]; exact turns,
        by rw [Dialogue.grow, old j (by omega), epoch], own, follows.localKey, follows.follows,
        follows.sent⟩
    · refine ⟨k + 1, e₁, by omega, ?_, by rw [Dialogue.grow, old (k + 1) (by omega), there], remote,
        tracks.localKey, tracks.follows, tracks.sent⟩
      rw [turn_add_two, Ne, turn_eq_iff]
      omega

variable {E : Type} [Randomness E]

theorem ratchet (limits : Limits) (laws : P.Commutes) (sound : d.Sound) (h : Attends d k e s)
    {e₁ : Epoch} (last : d.epochs.length = k + 2) (there : d.epochs[k + 1]? = some e₁)
    (short : d.sent k < 2 ^ 32) {source source' : E} {seed fresh : Octets 32}
    (draw : Randomness.draw 32 source = .ok seed source')
    (contributes : P.agree? seed (P.publicKey e₁.seed) = some fresh) :
    ∃ s' e₂ chain, s.ratchet limits (e₁.key P) source = .ok s' source' ∧ e₂.seed = seed ∧
      e₁.Next P e₂ ∧ e₂.previous = .ofNat (d.sent k) ∧
      s'.receiving = Session.addChain limits s.receiving chain ∧ chain.remoteKey = e₁.key P ∧
      chain.index = 0 ∧ chain.skipped.size = 0 ∧
      Attends (d.grow e₂) (k + 2) e₂ { s' with pending := none } := by
  obtain ⟨peer, secret, shared, derived⟩ := sound.linked k e e₁ h.epoch there
  have their : P.agree? e.seed (P.publicKey e₁.seed) = some secret :=
    (laws.agrees e.seed e₁.seed).trans shared
  have receiving : s.sending.ratchetKey.privateKey.agree P (e₁.key P) = .ok secret := by
    simp [h.sending, KeyPair.ofSeed, PrivateKey.agree, Epoch.key, their]
  have sending : (KeyPair.ofSeed P seed).privateKey.agree P (e₁.key P) = .ok fresh := by
    simp [KeyPair.ofSeed, PrivateKey.agree, Epoch.key, contributes]
  have middle : s.rootKey.ratchet P secret = (e₁.root, ⟨e₁.start, 0⟩) := by
    simp only [RootKey.ratchet, h.rootKey, derived, rootAndChain]
  have index : s.sending.index = .ofNat (d.sent k) := h.index short
  have local_key : s.sending.ratchetKey.publicKey = e.key P := by
    rw [h.sending]
    rfl
  have stepped : s.ratchet limits (e₁.key P) source = .ok _ source' :=
    Session.ratchet_of_agreed receiving draw sending
  simp only [middle, index, local_key] at stepped
  let material := P.ratchetRoot e₁.root.bytes fresh
  let e₂ : Epoch := ⟨seed, e₁.key P, ⟨material.1⟩, material.2, .ofNat (d.sent k)⟩
  have unopened : d.opened (k + 1) = [] := sound.opened_eq_nil (Nat.le_of_eq last)
  have tracks : Tracks d (k + 1) e₁ (.new (e₁.key P) (e.key P) ⟨e₁.start, 0⟩) := by
    refine ⟨peer.symm, ?_, Nat.zero_le _⟩
    rw [unopened]
    exact .new _ _
  exact ⟨_, e₂, _, stepped, rfl, ⟨rfl, fresh, contributes, rfl⟩, rfl, rfl, rfl, rfl, rfl,
    h.extend sound last there rfl tracks e₂⟩

theorem follow_heard {limits : Limits} {e' : Epoch} {chain : ReceivingChain}
    (found : s.chain? (e'.key P) = some chain) (j : Nat) (counter : UInt32) (plaintext : Bytes)
    (source : E) :
    s.follow limits (d.message j e' counter plaintext) source = .ok s source := by
  have heard : (s.chain? (d.message j e' counter plaintext).ratchetKey).isSome = true := by
    simp only [Dialogue.message, found, Option.isSome_some]
  unfold Session.follow
  rw [if_pos heard]
  rfl

theorem decrypt {limits : Limits} {j : Nat} {e' : Epoch} {counter : UInt32}
    {chain : ReceivingChain} (laws : P.Commutes) (distinct : d.DistinctBefore k)
    (h : Attends d k e s) (lt : j < k) (turns : turn j ≠ turn k) (epoch : d.epochs[j]? = some e')
    (found : s.chain? (e'.key P) = some chain) (unopened : counter ∉ d.opened j)
    (was : counter.toNat < d.sent j) (short : counter.toNat < lastIndex.toNat)
    (reaches : chain.Reaches limits counter) {plaintext : Bytes}
    (fits : plaintext.length ≤ P.maxPlaintext) (source : E) :
    ∃ s', s.decrypt limits (d.message j e' counter plaintext) source =
        .ok (plaintext, s') source ∧ Attends (d.hear j counter) k e s' ∧
      s'.remoteKeys = s.remoteKeys := by
  obtain ⟨s', received, next, keys, -⟩ :=
    h.receive laws distinct lt turns epoch found unopened was short reaches fits
  refine ⟨s', ?_, next, keys⟩
  unfold Session.decrypt
  rw [bind_of_ok (follow_heard found j counter plaintext source), received]
  rfl

theorem decrypt_used {limits : Limits} {j : Nat} {e' : Epoch} {counter : UInt32}
    {chain : ReceivingChain} (distinct : d.DistinctBefore k) (h : Attends d k e s) (lt : j < k)
    (turns : turn j ≠ turn k) (epoch : d.epochs[j]? = some e')
    (found : s.chain? (e'.key P) = some chain)
    (used : counter ∈ d.opened j) (plaintext : Bytes) (source : E) :
    s.decrypt limits (d.message j e' counter plaintext) source =
      .error (.duplicateMessage counter) source := by
  unfold Session.decrypt
  rw [bind_of_ok (follow_heard found j counter plaintext source),
    h.receive_used distinct lt turns epoch found used]
  rfl

/-- For the first message of the other side's next epoch the session steps on, and begins an epoch. The
chain of the epoch before it has then passed all that the message announced. -/
theorem follow_next (limits : Limits) {e₁ : Epoch} (laws : P.Commutes) (sound : d.Sound)
    (h : Attends d k e s) (last : d.epochs.length = k + 2) (there : d.epochs[k + 1]? = some e₁)
    (reaches : ∀ chain, s.chain? e.peer = some chain → chain.Reaches limits e₁.previous)
    (room : 0 < limits.maxReceiverChains) (own : d.sent k < 2 ^ 32) (counter : UInt32)
    (plaintext : Bytes) {source source' : E} {seed fresh : Octets 32}
    (draw : Randomness.draw 32 source = .ok seed source')
    (contributes : P.agree? seed (P.publicKey e₁.seed) = some fresh) :
    ∃ s' e₂ new, s.follow limits (d.message (k + 1) e₁ counter plaintext) source = .ok s' source' ∧
      e₂.seed = seed ∧ e₁.Next P e₂ ∧ e₂.previous = .ofNat (d.sent k) ∧
      Attends (d.grow e₂) (k + 2) e₂ { s' with pending := none } ∧
      s'.remoteKeys = (s.remoteKeys ++ [e₁.key P]).rtake limits.maxReceiverChains ∧
      s'.chain? (e₁.key P) = some new ∧ new.index = 0 ∧ new.skipped.size = 0 ∧
      ∀ chain ∈ s'.receiving, chain.remoteKey ≠ e₁.key P → chain.remoteKey = e.peer →
        e₁.previous ≤ chain.index := by
  have announced : ∀ i, k = i + 1 → e₁.previous.toNat ≤ d.sent i := by
    rintro i rfl
    exact sound.previous i e₁ there
  obtain ⟨s₁, closed, attends₁, keys₁, passed⟩ := h.closeChain sound announced reaches
  obtain ⟨s₂, e₂, new, stepped, drawn, next, previous, added, remote, index, skipped, attends₂⟩ :=
    attends₁.ratchet limits laws sound last there own draw contributes
  refine ⟨s₂, e₂, new, ?_, drawn, next, previous, attends₂, ?_, ?_, index, skipped,
    fun chain member away prior => ?_⟩
  · unfold Session.follow
    rw [if_neg (by simp [Dialogue.message, h.unheard_next sound there])]
    have first : (MonadExcept.ofExcept (s.closeChain limits e₁.previous) :
        EStateM SessionError E (Session P)) source = .ok s₁ source := by
      rw [closed]
      rfl
    exact (bind_of_ok first).trans (adaptExcept_of_ok stepped)
  · have keys₂ : s₂.remoteKeys =
        (s₁.remoteKeys ++ [e₁.key P]).rtake limits.maxReceiverChains := by
      rw [Session.remoteKeys, added, Session.map_addChain, remote]
      rfl
    exact keys₂.trans (by rw [keys₁])
  · rw [Session.chain?, added]
    exact Session.find?_addChain room remote (attends₁.unheard_next sound there)
  · rw [added] at member
    rcases Session.mem_addChain member with member₁ | rfl
    · exact passed chain member₁ prior
    · exact absurd remote away

theorem decrypt_next {limits : Limits} {e₁ : Epoch} {counter : UInt32} (laws : P.Commutes)
    (sound : d.Sound) (h : Attends d k e s) (last : d.epochs.length = k + 2)
    (there : d.epochs[k + 1]? = some e₁) (was : counter.toNat < d.sent (k + 1))
    (reaches : ∀ chain, s.chain? e.peer = some chain → chain.Reaches limits e₁.previous)
    (near : counter.toNat ≤ limits.maxSkip.toNat) (fits : counter.toNat ≤ limits.maxMessageKeys)
    (room : 0 < limits.maxReceiverChains) (own : d.sent k < 2 ^ 32)
    (short : counter.toNat < lastIndex.toNat) {plaintext : Bytes}
    (fitting : plaintext.length ≤ P.maxPlaintext)
    {source source' : E} {seed fresh : Octets 32}
    (draw : Randomness.draw 32 source = .ok seed source')
    (contributes : P.agree? seed (P.publicKey e₁.seed) = some fresh) :
    ∃ s' e₂, s.decrypt limits (d.message (k + 1) e₁ counter plaintext) source =
        .ok (plaintext, s') source' ∧ e₂.seed = seed ∧ e₁.Next P e₂ ∧
      e₂.previous = .ofNat (d.sent k) ∧
      Attends ((d.grow e₂).hear (k + 1) counter) (k + 2) e₂ s' ∧
      s'.remoteKeys = (s.remoteKeys ++ [e₁.key P]).rtake limits.maxReceiverChains := by
  obtain ⟨s₂, e₂, new, followed, drawn, next, previous, attends₂, keys₂, found, index, skipped, -⟩ :=
    h.follow_next limits laws sound last there reaches room own counter plaintext draw contributes
  have unopened : counter ∉ (d.grow e₂).opened (k + 1) := by
    rw [Dialogue.grow, sound.opened_eq_nil (Nat.le_of_eq last)]
    exact List.not_mem_nil
  have within : new.Reaches limits counter := by
    constructor <;> simp only [index, skipped] <;> simp <;> omega
  obtain ⟨s₃, received, attends₃, keys₃, -⟩ := attends₂.receive laws (sound.distinct_grow last e₂)
    (Nat.lt_succ_self _) (turn_ne_succ (k + 1)) (getElem?_concat_eq_some.2 (.inl there)) found
    unopened was short within fitting
  refine ⟨s₃, e₂, ?_, drawn, next, previous, attends₃, keys₃.trans keys₂⟩
  unfold Session.decrypt
  rw [bind_of_ok followed]
  have same : s₂.receive limits (d.message (k + 1) e₁ counter plaintext) =
      .ok (plaintext, s₃) := received
  rw [same]
  rfl

end Attends

end RatchetSession
