import RatchetSession.Proofs.Session.Opener
import RatchetSession.Proofs.Session.Spent
set_option autoImplicit false

/-!
The receiving chain of a session's handshake. It ends at a key that was not drawn for a
ratchet step, and no step makes another one like it; so it is only carried on, and what it
has used up stays used up.
-/

namespace RatchetSession

variable {P : Suite} {limits : Limits} {drawn : List PublicKey}

namespace Session

variable {s s' : Session P}

structure SameChains (s s' : Session P) : Prop where
  later : ∀ chain' ∈ s'.receiving, ∃ chain ∈ s.receiving, chain.Later chain'
  keys : s'.receiving.map (·.remoteKey) = s.receiving.map (·.remoteKey)

theorem SameChains.of_eq (same : s'.receiving = s.receiving) : s.SameChains s' :=
  ⟨fun chain member => ⟨chain, same ▸ member, .refl chain⟩, by rw [same]⟩

theorem setChain_sameChains {key : PublicKey} {chain after : ReceivingChain}
    (found : s.chain? key = some chain) (later : chain.Later after) :
    s.SameChains (s.setChain key after) := by
  refine ⟨fun chain' member => ?_, ?_⟩
  · rcases mem_replaceChain member with rfl | member
    · exact ⟨chain, List.mem_of_find?_eq_some found, later⟩
    · exact ⟨chain', member, .refl chain'⟩
  · exact map_replaceChain (later.ends.remoteKey.trans (chain?_remoteKey found)) s.receiving

theorem closeChain_sameChains {previousCounter : UInt32}
    (h : s.closeChain limits previousCounter = .ok s') : s.SameChains s' := by
  rcases closeChain_eq_ok h with rfl | ⟨prior, after, found, skipped, rfl⟩
  · exact .of_eq rfl
  · exact setChain_sameChains found ((ReceivingChain.skipTo_later previousCounter).ok skipped)

/-- The session sends under a drawn key, has one chain for each remote key, and has at most one chain
that does not end at a drawn key: that of its base key. -/
structure Anchored (drawn : List PublicKey) (s : Session P) : Prop where
  own : s.sendingKey ∈ drawn
  apart : (s.receiving.map (·.remoteKey)).Nodup
  tidy : ∀ chain ∈ s.receiving, chain.Tidy
  ends : ∀ chain ∈ s.receiving, chain.localKey ∉ drawn → chain.remoteKey = s.baseKey

/-- Some chain does not end at a drawn key. -/
def Answering (drawn : List PublicKey) (s : Session P) : Prop :=
  ∃ chain ∈ s.receiving, chain.localKey ∉ drawn

/-- The same session later, as far as chains go that do not end at a drawn key. -/
structure Heir (drawn : List PublicKey) (s s' : Session P) : Prop where
  baseKey : s'.baseKey = s.baseKey
  chains : ∀ chain' ∈ s'.receiving, chain'.localKey ∉ drawn →
    ∃ chain ∈ s.receiving, chain.Later chain'

namespace Heir

theorem refl (s : Session P) : s.Heir drawn s :=
  ⟨rfl, fun chain member _ => ⟨chain, member, .refl chain⟩⟩

theorem trans {a b c : Session P} (first : a.Heir drawn b) (second : b.Heir drawn c) :
    a.Heir drawn c := by
  refine ⟨second.baseKey.trans first.baseKey, fun chain member outside => ?_⟩
  obtain ⟨chain', member', later'⟩ := second.chains chain member outside
  obtain ⟨chain'', member'', later''⟩ :=
    first.chains chain' member' (later'.ends.localKey ▸ outside)
  exact ⟨chain'', member'', later''.trans later'⟩

theorem of_sameChains (same : s.SameChains s') (baseKey : s'.baseKey = s.baseKey) :
    s.Heir drawn s' := ⟨baseKey, fun chain member _ => same.later chain member⟩

theorem answering (heir : s.Heir drawn s') (h : s'.Answering drawn) : s.Answering drawn := by
  obtain ⟨chain', member', outside⟩ := h
  obtain ⟨chain, member, later⟩ := heir.chains chain' member' outside
  exact ⟨chain, member, later.ends.localKey ▸ outside⟩

end Heir

theorem Anchored.of_sameChains (h : s.Anchored drawn) (same : s.SameChains s')
    (own : s'.sendingKey ∈ drawn) (baseKey : s'.baseKey = s.baseKey) : s'.Anchored drawn := by
  refine ⟨own, by rw [same.keys]; exact h.apart, fun chain' member => ?_,
    fun chain' member outside => ?_⟩
  · obtain ⟨chain, before, later⟩ := same.later chain' member
    exact later.tidy (h.tidy chain before)
  · obtain ⟨chain, before, later⟩ := same.later chain' member
    rw [later.ends.remoteKey, baseKey]
    exact h.ends chain before (later.ends.localKey ▸ outside)

variable {E : Type} [Randomness E] {source source' : E}

theorem ratchet_anchored {key : PublicKey} (h : s.Anchored drawn) (new : s.chain? key = none)
    (ok : s.ratchet limits key source = .ok s' source') (own : s'.sendingKey ∈ drawn) :
    s'.Anchored drawn ∧ s.Heir drawn s' := by
  obtain ⟨seed, rootKey, receivingKey, sendingKey, -, -, -, rfl⟩ := ratchet_eq_ok ok
  -- the new chain ends at the key sent under so far, and that key was drawn
  refine ⟨⟨own, nodup_addChain limits h.apart (chain?_eq_none.1 new), fun chain member => ?_,
    fun chain member outside => ?_⟩, rfl, fun chain member outside => ?_⟩
  · rcases mem_addChain member with old | rfl
    · exact h.tidy chain old
    · exact ReceivingChain.new_tidy key s.sendingKey receivingKey
  · rcases mem_addChain member with old | rfl
    · exact h.ends chain old outside
    · exact absurd h.own outside
  · rcases mem_addChain member with old | rfl
    · exact ⟨chain, old, .refl chain⟩
    · exact absurd h.own outside

theorem follow_anchored {message : RatchetMessage} (h : s.Anchored drawn)
    (ok : s.follow limits message source = .ok s' source') (own : s'.sendingKey ∈ drawn) :
    s'.Anchored drawn ∧ s.Heir drawn s' := by
  rcases follow_eq_ok ok with ⟨-, rfl, -⟩ | ⟨unknown, closed, closes, stepped⟩
  · exact ⟨h, .refl s'⟩
  · have same := closeChain_sameChains closes
    have start := closeChain_start closes
    have sending : closed.sendingKey = s.sendingKey := by
      rcases closeChain_eq_ok closes with rfl | ⟨_, _, -, -, rfl⟩ <;> rfl
    have anchored := h.of_sameChains same (sending ▸ h.own) start.baseKey
    have new : closed.chain? message.ratchetKey = none := by
      rw [chain?_eq_none, same.keys]
      exact chain?_eq_none.1 unknown
    obtain ⟨after, heir⟩ := ratchet_anchored anchored new stepped own
    exact ⟨after, (Heir.of_sameChains same start.baseKey).trans heir⟩

theorem receive_anchored {message : RatchetMessage} {plaintext : Bytes} (h : s.Anchored drawn)
    (ok : s.receive limits message = .ok (plaintext, s')) :
    s'.Anchored drawn ∧ s.Heir drawn s' ∧
      ∀ chain ∈ s'.receiving, chain.remoteKey = message.ratchetKey →
        chain.Spent message.counter := by
  obtain ⟨chain, key, after, found, taken, rfl⟩ := receive_eq_ok ok
  have later := (ReceivingChain.messageKey_later message.counter).ok taken
  have set := setChain_sameChains found later
  have same : s.SameChains { s.setChain message.ratchetKey after with pending := none } :=
    ⟨set.later, set.keys⟩
  have anchored := h.of_sameChains same h.own rfl
  refine ⟨anchored, .of_sameChains same rfl, fun other member carries => ?_⟩
  have spent := ReceivingChain.spent_of_messageKey
    (h.tidy chain (List.mem_of_find?_eq_some found)) taken
  rcases mem_replaceChain member with rfl | old
  · exact spent
  · have remote := later.ends.remoteKey.trans (chain?_remoteKey found)
    have looked := find?_replaceChain remote message.ratchetKey s.receiving
    rw [if_pos rfl] at looked
    simp only [chain?] at found
    rw [found, Option.map_some] at looked
    have first := chain?_of_mem anchored.apart member
    rw [carries] at first
    cases looked.symm.trans first
    exact spent

theorem decrypt_anchored {message : RatchetMessage} {plaintext : Bytes} (h : s.Anchored drawn)
    (ok : s.decrypt limits message source = .ok (plaintext, s') source')
    (own : s'.sendingKey ∈ drawn) :
    s'.Anchored drawn ∧ s.Heir drawn s' ∧
      (∀ chain ∈ s'.receiving, chain.remoteKey = message.ratchetKey →
        chain.Spent message.counter) ∧
      ∀ chain ∈ s.receiving, chain.remoteKey = message.ratchetKey →
        ¬ chain.Spent message.counter := by
  obtain ⟨ready, followed, received⟩ := decrypt_parts ok
  have sends : s'.sendingKey = ready.sendingKey := by
    obtain ⟨_, _, _, -, -, rfl⟩ := receive_eq_ok received
    rfl
  obtain ⟨anchored, first⟩ := follow_anchored h followed (sends ▸ own)
  obtain ⟨after, second, spent⟩ := receive_anchored anchored received
  refine ⟨after, first.trans second, spent, fun chain member carries used => ?_⟩
  have found := chain?_of_mem h.apart member
  rw [carries] at found
  rcases follow_eq_ok followed with ⟨-, rfl, -⟩ | ⟨unknown, -⟩
  · obtain ⟨held, key, _, there, taken, -⟩ := receive_eq_ok received
    cases found.symm.trans there
    rw [ReceivingChain.messageKey_of_spent used] at taken
    cases taken
  · rw [found] at unknown
    cases unknown

end Session

structure Anchorage (drawn : List PublicKey) (sessions : List (Session P)) : Prop where
  each : ∀ s ∈ sessions, s.Anchored drawn
  apart : sessions.Pairwise fun s t =>
    s.Answering drawn → t.Answering drawn → s.baseKey ≠ t.baseKey

namespace Anchorage

variable {sessions kept passed rest : List (Session P)} {s t : Session P}

theorem nil : Anchorage drawn ([] : List (Session P)) := ⟨by simp, .nil⟩

theorem put (h : Anchorage drawn sessions) (fewer : kept.Sublist sessions) (new : t.Anchored drawn)
    (apart : ∀ u ∈ kept, t.Answering drawn → u.Answering drawn → t.baseKey ≠ u.baseKey) :
    Anchorage drawn (t :: kept) := by
  refine ⟨fun u member => ?_, List.pairwise_cons.2 ⟨apart, h.apart.sublist fewer⟩⟩
  rcases List.mem_cons.1 member with rfl | member
  · exact new
  · exact h.each u (fewer.subset member)

theorem of_heir (h : Anchorage drawn (passed ++ s :: rest)) (fewer : kept.Sublist (passed ++ rest))
    (new : t.Anchored drawn) (heir : s.Heir drawn t) : Anchorage drawn (t :: kept) := by
  have others : (passed ++ rest).Sublist (passed ++ s :: rest) :=
    (List.sublist_cons_self s rest).append_left passed
  have front := (List.pairwise_middle fun differ one two same =>
    differ two one same.symm).1 h.apart
  refine h.put (fewer.trans others) new fun u member answers answers' => ?_
  rw [heir.baseKey]
  exact (List.pairwise_cons.1 front).1 u (fewer.subset member) (heir.answering answers) answers'

end Anchorage

end RatchetSession
