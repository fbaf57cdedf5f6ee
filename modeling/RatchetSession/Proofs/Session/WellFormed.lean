import RatchetSession.Proofs.Handshake.Start
import RatchetSession.Proofs.Session.Anchored
set_option autoImplicit false

/-!
Records within their limits. The bounds hold together with what makes the search for a
chain unambiguous: base keys and remote ratchet keys are held once, and the newest
receiving chain is the one that the sending chain answers to.
-/

namespace RatchetSession

open RatchetSession.Computation (Keeps)

variable {P : Suite} {limits : Limits}

namespace ReceivingChain

/-- Not too many keys are kept, each under its own position, and the chain has passed them all. -/
structure WellFormed (limits : Limits) (chain : ReceivingChain) : Prop where
  few : chain.skipped.size ≤ limits.maxMessageKeys
  filed : ∀ entry ∈ chain.skipped.entries, entry.2.index = entry.1 ∧ entry.1 < chain.index

def StaysWellFormed (limits : Limits) (chain chain' : ReceivingChain) : Prop :=
  chain.WellFormed limits → chain'.WellFormed limits

theorem new_wellFormed (remoteKey localKey : PublicKey) (chainKey : ChainKey) :
    (new remoteKey localKey chainKey).WellFormed limits :=
  ⟨Nat.zero_le _, fun _ member => nomatch member⟩

theorem lt_index_of_advance {chain : ReceivingChain} {next : ChainKey} {used : MessageKey}
    (advanced : chain.chainKey.advance P = .ok (next, used)) : chain.index < next.index := by
  have step := (ChainKey.advance_eq_ok advanced).1
  exact UInt32.lt_iff_toNat_lt.2 (by simp only [index]; omega)

/-- A chain that gives up nothing but keys stays well formed when it moves on. -/
theorem WellFormed.advance {chain : ReceivingChain} (h : chain.WellFormed limits)
    {next : ChainKey} {used : MessageKey} (advanced : chain.chainKey.advance P = .ok (next, used)) :
    WellFormed limits { chain with chainKey := next } := by
  refine ⟨h.few, fun entry member => ?_⟩
  obtain ⟨own, behind⟩ := h.filed entry member
  exact ⟨own, UInt32.lt_trans behind (lt_index_of_advance advanced)⟩

theorem WellFormed.file {chain : ReceivingChain} (h : chain.WellFormed limits)
    {next : ChainKey} {used : MessageKey} (advanced : chain.chainKey.advance P = .ok (next, used)) :
    WellFormed limits { chain with chainKey := next, skipped := chain.file limits used } := by
  have inserted : ∀ entry ∈ (chain.skipped.insert used.index used).entries,
      entry.2.index = entry.1 ∧ entry.1 < next.index := by
    intro entry member
    rcases SkippedKeys.mem_insertEntry member with rfl | member
    · have own := (ChainKey.advance_eq_ok advanced).2
      exact ⟨rfl, own ▸ lt_index_of_advance advanced⟩
    · exact (h.advance advanced).filed entry member
  have size := chain.skipped.size_insert_le used.index used
  have few := h.few
  unfold ReceivingChain.file
  dsimp only
  split
  · refine ⟨?_, fun entry member => inserted entry (List.mem_of_mem_tail member)⟩
    simp only [SkippedKeys.size, SkippedKeys.dropLowest, List.length_tail] at size few ⊢
    omega
  · rename_i room
    exact ⟨Nat.le_of_not_lt room, inserted⟩

theorem wellFormed_stepwise : Stepwise P limits (StaysWellFormed limits) where
  refl _ := id
  trans first second h := second (first h)
  file advanced h := h.file advanced
  take advanced h := h.advance advanced
  erase chain counter h := by
    refine ⟨Nat.le_trans (List.length_filter_le _ _) h.few, fun entry member => ?_⟩
    exact h.filed entry (List.mem_of_mem_filter member)

theorem skipTo_wellFormed (target : UInt32) :
    Keeps (StaysWellFormed limits) (skipTo P limits target) :=
  wellFormed_stepwise.skipTo target

theorem messageKey_wellFormed (counter : UInt32) :
    Keeps (StaysWellFormed limits) (messageKey P limits counter) :=
  wellFormed_stepwise.messageKey counter

end ReceivingChain

namespace Session

variable {s s' : Session P}

/-- There are not too many receiving chains, no two of them with the same remote key, and the newest
has the remote key that the sending chain was derived with. -/
structure WellFormed (limits : Limits) (s : Session P) : Prop where
  few : s.receiving.length ≤ limits.maxReceiverChains
  apart : (s.receiving.map (·.remoteKey)).Nodup
  newest : ∀ chain, s.receiving.getLast? = some chain → chain.remoteKey = s.sending.remoteKey
  chains : ∀ chain ∈ s.receiving, chain.WellFormed limits

theorem WellFormed.replace (h : s.WellFormed limits)
    (keys : s'.receiving.map (·.remoteKey) = s.receiving.map (·.remoteKey))
    (answered : s'.sending.remoteKey = s.sending.remoteKey)
    (chains : ∀ chain ∈ s'.receiving, chain.WellFormed limits) : s'.WellFormed limits := by
  have length := congrArg List.length keys
  have newest := congrArg List.getLast? keys
  simp only [List.length_map] at length
  simp only [List.getLast?_map] at newest
  refine ⟨length ▸ h.few, keys ▸ h.apart, fun chain last => ?_, chains⟩
  rw [last, Option.map_some] at newest
  obtain ⟨before, last, same⟩ := Option.map_eq_some_iff.1 newest.symm
  rw [answered, ← same, h.newest before last]

theorem WellFormed.setChain (h : s.WellFormed limits) {key : PublicKey}
    {chain after : ReceivingChain} (found : s.chain? key = some chain) (later : chain.Later after)
    (stays : ReceivingChain.StaysWellFormed limits chain after) :
    (s.setChain key after).WellFormed limits := by
  refine h.replace (setChain_sameChains found later).keys rfl fun other member => ?_
  rcases mem_replaceChain member with rfl | member
  · exact stays (h.chains chain (List.mem_of_find?_eq_some found))
  · exact h.chains other member

theorem closeChain_wellFormed {previousCounter : UInt32} (h : s.WellFormed limits)
    (ok : s.closeChain limits previousCounter = .ok s') : s'.WellFormed limits := by
  rcases closeChain_eq_ok ok with rfl | ⟨prior, after, found, skipped, rfl⟩
  · exact h
  · exact h.setChain found ((ReceivingChain.skipTo_later previousCounter).ok skipped)
      ((ReceivingChain.skipTo_wellFormed previousCounter).ok skipped)

variable {E : Type} [Randomness E] {source source' : E}

theorem ratchet_wellFormed {key : PublicKey} (room : 0 < limits.maxReceiverChains)
    (h : s.WellFormed limits) (new : s.chain? key = none)
    (ok : s.ratchet limits key source = .ok s' source') : s'.WellFormed limits := by
  obtain ⟨seed, rootKey, receivingKey, sendingKey, -, -, -, rfl⟩ := ratchet_eq_ok ok
  refine ⟨length_addChain_le, nodup_addChain limits h.apart (chain?_eq_none.1 new),
    fun chain last => ?_, fun chain member => ?_⟩
  · rw [getLast?_addChain room] at last
    cases last
    rfl
  · rcases mem_addChain member with old | rfl
    · exact h.chains chain old
    · exact ReceivingChain.new_wellFormed _ _ _

theorem follow_wellFormed {message : RatchetMessage} (room : 0 < limits.maxReceiverChains)
    (h : s.WellFormed limits) (ok : s.follow limits message source = .ok s' source') :
    s'.WellFormed limits := by
  rcases follow_eq_ok ok with ⟨-, rfl, -⟩ | ⟨unknown, closed, closes, stepped⟩
  · exact h
  · have new : closed.chain? message.ratchetKey = none := by
      rw [chain?_eq_none, (closeChain_sameChains closes).keys]
      exact chain?_eq_none.1 unknown
    exact ratchet_wellFormed room (closeChain_wellFormed h closes) new stepped

theorem receive_wellFormed {message : RatchetMessage} {plaintext : Bytes}
    (h : s.WellFormed limits) (ok : s.receive limits message = .ok (plaintext, s')) :
    s'.WellFormed limits := by
  obtain ⟨chain, key, after, found, taken, rfl⟩ := receive_eq_ok ok
  have set := h.setChain found ((ReceivingChain.messageKey_later message.counter).ok taken)
    ((ReceivingChain.messageKey_wellFormed message.counter).ok taken)
  exact ⟨set.few, set.apart, set.newest, set.chains⟩

theorem decrypt_wellFormed {message : RatchetMessage} {plaintext : Bytes}
    (room : 0 < limits.maxReceiverChains) (h : s.WellFormed limits)
    (ok : s.decrypt limits message source = .ok (plaintext, s') source') :
    s'.WellFormed limits := by
  obtain ⟨ready, followed, received⟩ := decrypt_parts ok
  exact receive_wellFormed (follow_wellFormed room h followed) received

theorem encrypt_wellFormed {plaintext : Bytes} {message : Message} (h : s.WellFormed limits)
    (ok : s.encrypt plaintext = .ok (message, s')) : s'.WellFormed limits := by
  obtain ⟨-, -, -, -, rfl⟩ := encrypt_eq_ok ok
  exact h.replace rfl rfl h.chains

end Session

namespace Handshake

variable {E : Type} [Randomness E]

theorem outgoing_wellFormed {bundle : Bundle P} {identity : Identity} {s : Session P}
    {source source' : E} (h : outgoing bundle identity source = .ok s source') :
    s.WellFormed limits := by
  obtain ⟨_, _, _, -, -, rfl⟩ := outgoing_eq_ok h
  exact ⟨Nat.zero_le _, List.nodup_nil, fun _ last => (nomatch last), fun _ member => nomatch member⟩

theorem incoming_wellFormed {message : InitialMessage} {remote : IdentityKey P}
    {identity : Identity} {signed : SignedPreKey} {oneTime : Option PreKey} {s : Session P}
    {source source' : E} (room : 0 < limits.maxReceiverChains)
    (h : incoming message remote identity signed oneTime source = .ok s source') :
    s.WellFormed limits := by
  obtain ⟨_, _, _, _, -, -, rfl⟩ := incoming_eq_ok h
  refine ⟨room, List.nodup_singleton _, fun chain last => ?_, fun chain member => ?_⟩
  · cases last
    rfl
  · rw [List.mem_singleton.1 member]
    exact ReceivingChain.new_wellFormed _ _ _

end Handshake

namespace Record

variable {r r' : Record P} {s : Session P}

/-- There are not too many archived sessions, no two sessions with the same base key, and all are
well formed. -/
structure WellFormed (limits : Limits) (r : Record P) : Prop where
  few : r.archived.length ≤ limits.maxArchivedStates
  apart : (r.sessions.map (·.baseKey)).Nodup
  sessions : ∀ s ∈ r.sessions, s.WellFormed limits

theorem empty_wellFormed : (empty : Record P).WellFormed limits :=
  ⟨Nat.zero_le _, List.nodup_nil, fun _ member => nomatch member⟩

theorem WellFormed.promote (h : r.WellFormed limits) (new : s.WellFormed limits)
    (other : ∀ t ∈ r.sessions, t.baseKey ≠ s.baseKey) :
    (r.promote s limits.maxArchivedStates).WellFormed limits := by
  have behind : (r.archiveCurrent limits.maxArchivedStates).archived <+: r.sessions :=
    Record.archived_prefix r limits.maxArchivedStates
  refine ⟨?_, List.nodup_cons.2 ⟨fun member => ?_, ?_⟩, List.forall_mem_cons.2 ⟨new, ?_⟩⟩
  · simp only [Record.promote, archiveCurrent]
    split
    · exact List.length_take_le _ _
    · exact h.few
  · obtain ⟨t, held, same⟩ := List.mem_map.1 member
    exact other t (behind.subset held) same
  · exact (behind.sublist.map _).nodup h.apart
  · exact fun t member => h.sessions t (behind.subset member)

theorem encrypt_wellFormed {plaintext : Bytes} {message : Message} {next : Session P}
    (h : r.WellFormed limits) (current : r.current = some s)
    (ok : s.encrypt plaintext = .ok (message, next)) :
    ({ r with current := some next } : Record P).WellFormed limits := by
  have sessions : r.sessions = s :: r.archived := by simp [Record.sessions, current]
  have front := h.sessions s (by simp [sessions])
  have same : next.baseKey = s.baseKey := by
    obtain ⟨-, -, -, -, rfl⟩ := Session.encrypt_eq_ok ok
    rfl
  refine ⟨h.few, ?_, List.forall_mem_cons.2 ⟨Session.encrypt_wellFormed front ok, ?_⟩⟩
  · have apart := h.apart
    rw [sessions, List.map_cons, ← same] at apart
    exact apart
  · exact fun t member => h.sessions t (by simp [sessions, show t ∈ r.archived from member])

variable {E : Type} [Randomness E] {source source' : E}

theorem decrypt_wellFormed {message : RatchetMessage} {plaintext : Bytes}
    (room : 0 < limits.maxReceiverChains) (h : r.WellFormed limits)
    (ok : decrypt limits message (r, source) = .ok plaintext (r', source')) :
    r'.WellFormed limits := by
  obtain ⟨passed, s, rest, next, split, opens, -, current, fewer⟩ := decrypt_opener ok
  have sessions : r'.sessions = next :: r'.archived := by simp [Record.sessions, current]
  have others : (passed ++ rest).Sublist r.sessions :=
    split ▸ (List.sublist_cons_self s rest).append_left passed
  have kept := fewer.sublist.trans others
  refine ⟨?_, ?_, ?_⟩
  · -- one session has left its place, so that there is room for the current one
    have length := fewer.length_le
    have whole := congrArg List.length split
    have few := h.few
    cases held : r.current with
    | none =>
      simp only [Record.sessions, held, Option.toList_none, List.nil_append, List.length_append,
        List.length_cons] at length whole
      omega
    | some current =>
      simp only [Record.sessions, held, Option.toList_some, List.length_append, List.length_cons,
        List.length_nil] at length whole
      omega
  · rw [sessions, List.map_cons, List.nodup_cons, (Session.decrypt_start opens).baseKey]
    have front := h.apart
    rw [split, List.map_append, List.map_cons, List.nodup_middle, List.nodup_cons,
      ← List.map_append] at front
    exact ⟨fun member => front.1 ((fewer.sublist.map _).subset member),
      (fewer.sublist.map _).nodup front.2⟩
  · rw [sessions]
    have opener := h.sessions s (by simp [split])
    exact List.forall_mem_cons.2 ⟨Session.decrypt_wellFormed room opener opens,
      fun t member => h.sessions t (kept.subset member)⟩

end Record

end RatchetSession
