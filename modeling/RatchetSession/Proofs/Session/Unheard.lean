import RatchetSession.Proofs.Session.ChainSteps
import RatchetSession.Proofs.Session.Chains
import RatchetSession.Proofs.Session.Dialogue
import RatchetSession.Proofs.Session.Search
set_option autoImplicit false

/-!
A message under a ratchet key that a session has no chain for. It fails, though never as
a duplicate, or it is opened by a chain that ends at the session's own ratchet key.
-/

namespace RatchetSession

open RatchetSession.Computation (Keeps bind_of_ok bind_of_error adaptExcept_of_ok adaptExcept_of_error)

variable {P : Suite} {limits : Limits}

theorem SessionError.notDuplicate_ofCrypto (error : CryptoError) : (ofCrypto error).NotDuplicate := by
  intro counter
  cases error <;> simp [ofCrypto]

namespace ReceivingChain

theorem SameEnds.refl (chain : ReceivingChain) : chain.SameEnds chain := ⟨rfl, rfl⟩

theorem ends_stepwise : Stepwise P limits SameEnds where
  refl := .refl
  trans := .trans
  file _ := ⟨rfl, rfl⟩
  take _ := ⟨rfl, rfl⟩
  erase _ _ := ⟨rfl, rfl⟩

theorem skipTo_ends (target : UInt32) : Keeps SameEnds (skipTo P limits target) :=
  ends_stepwise.skipTo target

theorem takeNext_ends : Keeps SameEnds (takeNext P) :=
  (ends_stepwise : Stepwise P {} SameEnds).takeNext

theorem messageKey_ends (counter : UInt32) : Keeps SameEnds (messageKey P limits counter) :=
  ends_stepwise.messageKey counter

theorem fileNext_error {count : Nat} {chain chain' : ReceivingChain} {error : SessionError}
    (h : fileNext P limits count chain = .error error chain') : error.NotDuplicate := by
  induction count generalizing chain with
  | zero => cases h
  | succ count ih =>
    unfold fileNext at h
    split at h
    · exact ih h
    · cases h
      exact SessionError.notDuplicate_ofCrypto _

theorem skipTo_error {target : UInt32} {chain chain' : ReceivingChain} {error : SessionError}
    (h : skipTo P limits target chain = .error error chain') : error.NotDuplicate := by
  unfold skipTo at h
  split at h
  · cases h
  · split at h
    · cases h
      rintro _ ⟨⟩
    · exact fileNext_error h

theorem messageKey_ahead {chain : ReceivingChain} (first : chain.index = 0) (limits : Limits)
    (counter : UInt32) :
    (∃ error chain', chain.messageKey P limits counter = .error error chain' ∧
      error.NotDuplicate) ∨
    ∃ key chain', chain.messageKey P limits counter = .ok key chain' ∧ chain.SameEnds chain' := by
  have ahead : ¬ counter < chain.index := by simp [first]
  simp only [messageKey, if_neg ahead]
  cases skipped : skipTo P limits counter chain with
  | error error chain' => exact .inl ⟨error, chain', bind_of_error skipped, skipTo_error skipped⟩
  | ok _ reached =>
    have ends := (skipTo_ends counter).ok skipped
    rw [bind_of_ok skipped]
    cases taken : takeNext P reached with
    | ok key chain' => exact .inr ⟨key, chain', rfl, ends.trans (takeNext_ends.ok taken)⟩
    | error error chain' =>
      refine .inl ⟨error, chain', rfl, ?_⟩
      unfold takeNext at taken
      split at taken
      · cases taken
      · cases taken
        exact SessionError.notDuplicate_ofCrypto _

end ReceivingChain

namespace Session

variable {s : Session P} {key : PublicKey}

theorem closeChain_unheard (unheard : s.chain? key = none) (limits : Limits) (previous : UInt32) :
    (∃ error, s.closeChain limits previous = .error error ∧ error.NotDuplicate) ∨
    ∃ s', s.closeChain limits previous = .ok s' ∧ s'.chain? key = none ∧
      s'.sending = s.sending := by
  unfold closeChain
  split
  · exact .inr ⟨s, rfl, unheard, rfl⟩
  · rename_i prior found
    cases skipped : prior.skipTo P limits previous with
    | error error chain => exact .inl ⟨error, rfl, ReceivingChain.skipTo_error skipped⟩
    | ok _ chain =>
      have ends := (ReceivingChain.skipTo_ends previous).ok skipped
      have remote := ends.remoteKey.trans (chain?_remoteKey found)
      refine .inr ⟨_, rfl, ?_, rfl⟩
      have away : key ≠ s.sending.remoteKey := by
        rintro rfl
        rw [found] at unheard
        cases unheard
      exact (find?_replaceChain remote key s.receiving).trans ((if_neg away).trans unheard)

theorem receive_ahead {message : RatchetMessage} {chain : ReceivingChain}
    (found : s.chain? message.ratchetKey = some chain) (first : chain.index = 0) (limits : Limits) :
    (∃ error, s.receive limits message = .error error ∧ error.NotDuplicate) ∨
    ∃ plaintext s' after, s.receive limits message = .ok (plaintext, s') ∧
      s'.chain? message.ratchetKey = some after ∧ after.localKey = chain.localKey := by
  simp only [receive, found]
  rcases ReceivingChain.messageKey_ahead (P := P) first limits message.counter with
    ⟨error, _, failed, other⟩ | ⟨used, after, taken, ends⟩
  · exact .inl ⟨error, by simp only [failed], other⟩
  · simp only [taken]
    split
    · exact .inl ⟨_, rfl, SessionError.notDuplicate_ofCrypto _⟩
    · refine .inr ⟨_, _, after, rfl, ?_, ends.localKey⟩
      have remote := ends.remoteKey.trans (chain?_remoteKey found)
      have looked := find?_replaceChain remote message.ratchetKey s.receiving
      rw [if_pos rfl] at looked
      simp only [chain?] at found
      simpa only [chain?, setChain, found, Option.map_some] using looked

variable {E : Type} [Randomness E] {source : E}

theorem ratchet_unheard (room : 0 < limits.maxReceiverChains) (unheard : s.chain? key = none)
    (steady : Steady source) :
    (∃ error seeds source', s.ratchet limits key source = .error error source' ∧
      Drawn source seeds source') ∨
    ∃ s' seeds source' chain, s.ratchet limits key source = .ok s' source' ∧
      Drawn source seeds source' ∧ s'.chain? key = some chain ∧ chain.index = 0 ∧
      chain.localKey = s.sending.ratchetKey.publicKey := by
  unfold ratchet
  cases agreed : s.sending.ratchetKey.privateKey.agree P key with
  | error error => exact .inl ⟨error, [], source, rfl, .nil source⟩
  | ok secret =>
    obtain ⟨seed, source', draw⟩ := steady.draw
    have drawn := drawKeyPair_of_draw P draw
    cases sent : (KeyPair.ofSeed P seed).privateKey.agree P key with
    | error error =>
      refine .inl ⟨error, [seed], source', ?_, .one draw⟩
      exact (bind_of_ok drawn).trans (by rw [sent]; rfl)
    | ok fresh =>
      let chain : ReceivingChain :=
        .new key s.sending.ratchetKey.publicKey (s.rootKey.ratchet P secret).2
      let material := (s.rootKey.ratchet P secret).1.ratchet P fresh
      refine .inr ⟨{ s with
          rootKey := material.1
          receiving := addChain limits s.receiving chain
          previousCounter := s.sending.index
          sending := ⟨KeyPair.ofSeed P seed, key, material.2⟩ }, [seed], source', chain, ?_,
        .one draw, find?_addChain room rfl unheard, rfl, rfl⟩
      exact (bind_of_ok drawn).trans (by rw [sent]; rfl)

theorem decrypt_unheard {message : RatchetMessage} (room : 0 < limits.maxReceiverChains)
    (unheard : s.chain? message.ratchetKey = none) (steady : Steady source) :
    (∃ error seeds source', s.decrypt limits message source = .error error source' ∧
      error.NotDuplicate ∧ Drawn source seeds source') ∨
    ∃ plaintext s' source' chain, s.decrypt limits message source = .ok (plaintext, s') source' ∧
      s'.chain? message.ratchetKey = some chain ∧
      chain.localKey = s.sending.ratchetKey.publicKey := by
  have follows : s.follow limits message source =
      (do
        let s ← MonadExcept.ofExcept (s.closeChain limits message.previousCounter)
        (s.ratchet limits message.ratchetKey).adaptExcept .ofCrypto :
        EStateM SessionError E (Session P)) source := by
    unfold follow
    rw [if_neg (by simp [unheard])]
  unfold decrypt
  rcases closeChain_unheard unheard limits message.previousCounter with
    ⟨error, failed, other⟩ | ⟨closed, done, still, sending⟩
  · rw [failed] at follows
    exact .inl ⟨error, [], source, bind_of_error follows, other, .nil source⟩
  · rw [done] at follows
    rcases ratchet_unheard room still steady with
      ⟨error, seeds, source', failed, drawn⟩ |
      ⟨ready, seeds, source', chain, stepped, drawn, found, first, own⟩
    · have failed' := follows.trans (adaptExcept_of_error (f := SessionError.ofCrypto) failed)
      exact .inl ⟨_, seeds, source', bind_of_error failed', SessionError.notDuplicate_ofCrypto error,
        drawn⟩
    · have ready' := follows.trans (adaptExcept_of_ok (f := SessionError.ofCrypto) stepped)
      rw [bind_of_ok ready']
      rcases receive_ahead found first limits with
        ⟨error, failed, other⟩ | ⟨plaintext, s', after, opened, kept, same⟩
      · exact .inl ⟨error, seeds, source', by rw [failed]; rfl, other, drawn⟩
      · refine .inr ⟨plaintext, s', source', after, by rw [opened]; rfl, kept, ?_⟩
        rw [same, own, sending]

end Session

end RatchetSession
