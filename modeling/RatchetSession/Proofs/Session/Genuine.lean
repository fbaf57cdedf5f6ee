import RatchetSession.Proofs.Session.Attendance
set_option autoImplicit false

namespace RatchetSession

variable {P : Suite} {limits : Limits}

theorem Session.near_of_closeChain {s s' : Session P} {previous : UInt32}
    (h : s.closeChain limits previous = .ok s') {prior : ReceivingChain}
    (found : s.chain? s.sending.remoteKey = some prior) :
    previous.toNat - prior.index.toNat ≤ limits.maxSkip.toNat := by
  simp only [closeChain, found] at h
  split at h
  · rename_i skipped
    exact Follows.near_of_skipTo skipped
  · cases h

theorem Session.fits_of_receive (valid : limits.validate = .ok ()) {s : Session P}
    {message : RatchetMessage} {opened : Bytes × Session P} {chain : ReceivingChain}
    (found : s.chain? message.ratchetKey = some chain) (skipped : chain.skipped.size = 0)
    (ok : s.receive limits message = .ok opened) :
    chain.skipped.size + (message.counter.toNat - chain.index.toNat) ≤ limits.maxMessageKeys := by
  obtain ⟨plaintext, s'⟩ := opened
  obtain ⟨_, key, after, found', taken, -⟩ := receive_eq_ok ok
  cases found.symm.trans found'
  have near := Follows.near_of_messageKey taken
  have held := (Limits.validate_eq_ok valid).2
  omega

namespace Attends

variable {d : Dialogue P} {k : Nat} {e : Epoch} {s s' : Session P} {counter : UInt32}
  {plaintext opened : Bytes}

theorem of_receive {j : Nat} {e' : Epoch} {chain : ReceivingChain} (laws : P.Commutes)
    (distinct : d.DistinctBefore k) (h : Attends d k e s) (lt : j < k) (turns : turn j ≠ turn k)
    (epoch : d.epochs[j]? = some e') (found : s.chain? (e'.key P) = some chain)
    (was : counter.toNat < d.sent j) (fits : plaintext.length ≤ P.maxPlaintext)
    (room : chain.skipped.size + (counter.toNat - chain.index.toNat) ≤ limits.maxMessageKeys)
    (ok : s.receive limits (d.message j e' counter plaintext) = .ok (opened, s')) :
    counter ∉ d.opened j ∧ opened = plaintext ∧ Attends (d.hear j counter) k e s' ∧
      s'.remoteKeys = s.remoteKeys ∧
      ∀ held ∈ s'.receiving, held.remoteKey ≠ e'.key P → held ∈ s.receiving := by
  obtain ⟨_, key, after, found', taken, -⟩ := Session.receive_eq_ok ok
  cases found.symm.trans found'
  obtain ⟨unopened, short, reaches⟩ :=
    (h.tracks distinct lt turns epoch found).follows.of_messageKey room taken
  obtain ⟨s₁, received, rest⟩ :=
    h.receive laws distinct lt turns epoch found unopened was short reaches fits
  cases ok.symm.trans received
  exact ⟨unopened, rfl, rest⟩

variable {E : Type} [Randomness E] {source source' : E}

theorem of_decrypt {j : Nat} {e' : Epoch} {chain : ReceivingChain} (laws : P.Commutes)
    (distinct : d.DistinctBefore k) (h : Attends d k e s) (lt : j < k) (turns : turn j ≠ turn k)
    (epoch : d.epochs[j]? = some e') (found : s.chain? (e'.key P) = some chain)
    (was : counter.toNat < d.sent j) (fits : plaintext.length ≤ P.maxPlaintext)
    (room : chain.skipped.size + (counter.toNat - chain.index.toNat) ≤ limits.maxMessageKeys)
    (ok : s.decrypt limits (d.message j e' counter plaintext) source = .ok (opened, s') source') :
    counter ∉ d.opened j ∧ opened = plaintext ∧ source' = source ∧
      Attends (d.hear j counter) k e s' ∧ s'.remoteKeys = s.remoteKeys := by
  obtain ⟨ready, followed, received⟩ := Session.decrypt_parts ok
  cases followed.symm.trans (follow_heard found j counter plaintext source)
  obtain ⟨unopened, same, attends, keys, -⟩ :=
    h.of_receive laws distinct lt turns epoch found was fits room received
  exact ⟨unopened, same, rfl, attends, keys⟩

theorem of_decrypt_next {e₁ : Epoch} (laws : P.Lawful) (valid : limits.validate = .ok ())
    (sound : d.Sound) (h : Attends d k e s) (last : d.epochs.length = k + 2)
    (there : d.epochs[k + 1]? = some e₁) (was : counter.toNat < d.sent (k + 1))
    (fits : plaintext.length ≤ P.maxPlaintext)
    (room : ∀ prior, s.chain? e.peer = some prior →
      prior.skipped.size + (e₁.previous.toNat - prior.index.toNat) ≤ limits.maxMessageKeys)
    (own : d.sent k < 2 ^ 32)
    (ok : s.decrypt limits (d.message (k + 1) e₁ counter plaintext) source =
      .ok (opened, s') source') :
    ∃ e₂, Randomness.draw 32 source = .ok e₂.seed source' ∧ e₁.Next P e₂ ∧
      e₂.previous = .ofNat (d.sent k) ∧ opened = plaintext ∧
      Attends ((d.grow e₂).hear (k + 1) counter) (k + 2) e₂ s' ∧
      s'.remoteKeys = (s.remoteKeys ++ [e₁.key P]).rtake limits.maxReceiverChains ∧
      ∀ chain ∈ s'.receiving, chain.remoteKey ≠ e₁.key P → chain.remoteKey = e.peer →
        e₁.previous ≤ chain.index := by
  obtain ⟨chains, -⟩ := Limits.validate_eq_ok valid
  obtain ⟨ready, followed, received⟩ := Session.decrypt_parts ok
  have unheard : s.chain? (e₁.key P) = none := h.unheard_next sound there
  obtain ⟨known, -⟩ | ⟨-, closed, closes, stepped⟩ := Session.follow_eq_ok followed
  · exact absurd known (by simp [Dialogue.message, unheard])
  obtain ⟨seed, _, _, _, draw, -⟩ := Session.ratchet_eq_ok stepped
  obtain ⟨fresh, contributes, -⟩ := laws.agrees seed e₁.seed
  have reaches : ∀ prior, s.chain? e.peer = some prior → prior.Reaches limits e₁.previous := by
    intro prior found
    refine ⟨Session.near_of_closeChain closes ?_, room prior found⟩
    rw [h.sending]
    exact found
  obtain ⟨s₂, e₂, new, followed', rfl, next, previous, attends, all, found, -, skipped, passed⟩ :=
    h.follow_next limits laws.commutes sound last there reaches chains own counter plaintext draw
      contributes
  cases followed.symm.trans followed'
  have space := Session.fits_of_receive valid found skipped received
  obtain ⟨-, same, attends', keys', others⟩ := attends.of_receive laws.commutes
    (sound.distinct_grow last e₂) (Nat.lt_succ_self _) (turn_ne_succ (k + 1))
    (getElem?_concat_eq_some.2 (.inl there)) found was fits space received
  exact ⟨e₂, draw, next, previous, same, attends', keys'.trans all,
    fun chain member away => passed chain (others chain member away) away⟩

end Attends

end RatchetSession
