import RatchetSession.Proofs.Session.Attendance
set_option autoImplicit false

/-!
One side's part in a dialogue that stays within its limits: the session has a chain for
every epoch of the other side that it has heard, and each of them can be brought to the
end of its epoch.
-/

namespace RatchetSession

structure Holds {P : Suite} (d : Dialogue P) (k : Nat) (e : Epoch) (s : Session P) : Prop
    extends Attends d k e s where
  heard : ∀ (j : Nat) (e' : Epoch), j < k → turn j ≠ turn k → d.epochs[j]? = some e' →
    e'.key P ∈ s.remoteKeys
  few : s.receiving.length = (k + 1) / 2

namespace Holds

variable {P : Suite} {d : Dialogue P} {k : Nat} {e : Epoch} {s : Session P}

theorem of_send (h : Holds d k e s) {i : Nat} (other : i ≠ k) : Holds (d.send i) k e s :=
  ⟨h.toAttends.of_send other, h.heard, h.few⟩

theorem of_hear (h : Holds d k e s) {i : Nat} (own : turn i = turn k) (counter : UInt32) :
    Holds (d.hear i counter) k e s :=
  ⟨h.toAttends.of_hear own counter, h.heard, h.few⟩

theorem of_grow (h : Holds d k e s) (latest : d.epochs.length = k + 1) (e' : Epoch) :
    Holds (d.grow e') k e s := by
  refine ⟨h.toAttends.of_grow latest e', fun j e₁ lt turns epoch => ?_, h.few⟩
  rw [Dialogue.grow, List.getElem?_append_left (by omega)] at epoch
  exact h.heard j e₁ lt turns epoch

theorem encrypt (h : Holds d k e s) (room : d.sent k < lastIndex.toNat) {plaintext : Bytes}
    (fits : plaintext.length ≤ P.maxPlaintext) :
    ∃ s', s.encrypt plaintext =
        .ok (d.wrap k (d.message k e (.ofNat (d.sent k)) plaintext), s') ∧
      Holds (d.send k) k e s' := by
  obtain ⟨s', sent, attends, chains⟩ := h.toAttends.encrypt room fits
  have keys : s'.remoteKeys = s.remoteKeys := by rw [Session.remoteKeys, chains, Session.remoteKeys]
  exact ⟨s', sent, attends, by rw [keys]; exact h.heard, by rw [chains]; exact h.few⟩

section Decrypt

variable {E : Type} [Randomness E] {limits : Limits} {j : Nat} {e' : Epoch} {counter : UInt32}

theorem chain (distinct : d.DistinctBefore k) (h : Holds d k e s) (lt : j < k)
    (turns : turn j ≠ turn k) (epoch : d.epochs[j]? = some e') :
    ∃ chain, s.chain? (e'.key P) = some chain ∧ Tracks d j e' chain := by
  cases found : s.chain? (e'.key P) with
  | none => exact absurd (h.heard j e' lt turns epoch) (Session.chain?_eq_none.1 found)
  | some chain => exact ⟨chain, rfl, h.tracks distinct lt turns epoch found⟩

theorem of_attends (h : Holds d k e s) {d' : Dialogue P} {s' : Session P}
    (attends : Attends d' k e s') (epochs : d'.epochs = d.epochs)
    (keys : s'.remoteKeys = s.remoteKeys) : Holds d' k e s' := by
  have many := congrArg List.length keys
  simp only [Session.remoteKeys, List.length_map] at many
  exact ⟨attends, by rw [epochs, keys]; exact h.heard, many.trans h.few⟩

theorem decrypt (laws : P.Lawful) (distinct : d.DistinctBefore k) (h : Holds d k e s) (lt : j < k)
    (turns : turn j ≠ turn k) (epoch : d.epochs[j]? = some e') (unopened : counter ∉ d.opened j)
    (was : counter.toNat < d.sent j) (near : d.sent j ≤ limits.maxSkip.toNat)
    (held : limits.maxSkip.toNat ≤ limits.maxMessageKeys) {plaintext : Bytes}
    (fits : plaintext.length ≤ P.maxPlaintext) (source : E) :
    ∃ s', s.decrypt limits (d.message j e' counter plaintext) source =
        .ok (plaintext, s') source ∧ Holds (d.hear j counter) k e s' := by
  obtain ⟨chain, found, tracks⟩ := h.chain distinct lt turns epoch
  have last : limits.maxSkip.toNat ≤ lastIndex.toNat := Nat.le_of_lt_succ limits.maxSkip.toNat_lt
  have reaches : chain.Reaches limits counter :=
    tracks.follows.reaches (Nat.le_trans tracks.sent near) (by omega) held
  obtain ⟨s', opened, attends, keys⟩ := h.toAttends.decrypt laws.commutes distinct lt turns epoch
    found unopened was (by omega) reaches fits source
  exact ⟨s', opened, h.of_attends attends rfl keys⟩

theorem decrypt_used (distinct : d.DistinctBefore k) (h : Holds d k e s) (limits : Limits)
    (lt : j < k) (turns : turn j ≠ turn k) (epoch : d.epochs[j]? = some e')
    (used : counter ∈ d.opened j) (plaintext : Bytes) (source : E) :
    s.decrypt limits (d.message j e' counter plaintext) source =
      .error (.duplicateMessage counter) source := by
  obtain ⟨chain, found, -⟩ := h.chain distinct lt turns epoch
  exact h.toAttends.decrypt_used distinct lt turns epoch found used plaintext source

theorem decrypt_next {e₁ : Epoch} (laws : P.Lawful) (sound : d.Sound) (h : Holds d k e s)
    (last : d.epochs.length = k + 2) (there : d.epochs[k + 1]? = some e₁)
    (was : counter.toNat < d.sent (k + 1)) (near : ∀ i, d.sent i ≤ limits.maxSkip.toNat)
    (held : limits.maxSkip.toNat ≤ limits.maxMessageKeys)
    (room : s.receiving.length < limits.maxReceiverChains) {plaintext : Bytes}
    (fits : plaintext.length ≤ P.maxPlaintext)
    {source source' : E} {seed : Octets 32} (draw : Randomness.draw 32 source = .ok seed source') :
    ∃ s' e₂, s.decrypt limits (d.message (k + 1) e₁ counter plaintext) source =
        .ok (plaintext, s') source' ∧ e₂.seed = seed ∧ e₁.Next P e₂ ∧
      e₂.previous = .ofNat (d.sent k) ∧
      Holds ((d.grow e₂).hear (k + 1) counter) (k + 2) e₂ s' := by
  obtain ⟨fresh, contributes, -⟩ := laws.agrees seed e₁.seed
  have most : limits.maxSkip.toNat ≤ lastIndex.toNat := Nat.le_of_lt_succ limits.maxSkip.toNat_lt
  have own := near k
  have next := near (k + 1)
  have reaches : ∀ chain, s.chain? e.peer = some chain → chain.Reaches limits e₁.previous := by
    intro chain found
    obtain ⟨j, e', lt, -, -, -, tracks⟩ := h.chains chain (List.mem_of_find?_eq_some found)
    obtain ⟨i, rfl⟩ : ∃ i, k = i + 1 := ⟨k - 1, by omega⟩
    exact tracks.follows.reaches (Nat.le_trans tracks.sent (near j))
      (Nat.le_trans (sound.previous i e₁ there) (near i)) held
  obtain ⟨s', e₂, opened, drawn, follows, previous, attends, keys⟩ :=
    h.toAttends.decrypt_next laws.commutes sound last there was reaches (by omega) (by omega)
      (by omega)
      (Nat.lt_of_le_of_lt own limits.maxSkip.toNat_lt) (by omega) fits draw contributes
  have all : s'.remoteKeys = s.remoteKeys ++ [e₁.key P] := by
    have all : (s.remoteKeys ++ [e₁.key P]).length - limits.maxReceiverChains = 0 := by
      simp only [Session.remoteKeys, List.length_append, List.length_map, List.length_singleton]
      omega
    rw [keys, List.rtake, all, List.drop_zero]
  refine ⟨s', e₂, opened, drawn, follows, previous, attends, fun j e' lt turns epoch => ?_, ?_⟩
  · have old : (d.epochs ++ [e₂])[j]? = d.epochs[j]? := List.getElem?_append_left (by omega)
    have epoch' : d.epochs[j]? = some e' := old.symm.trans epoch
    rw [turn_add_two] at turns
    rw [all]
    by_cases newest : j = k + 1
    · subst newest
      cases there.symm.trans epoch'
      exact List.mem_append_right _ (List.mem_singleton.2 rfl)
    · have away : j ≠ k := fun same => turns (congrArg turn same)
      exact List.mem_append_left _ (h.heard j e' (by omega) turns epoch')
  · have many := congrArg List.length all
    simp only [Session.remoteKeys, List.length_append, List.length_map, List.length_singleton,
      h.few] at many
    omega

end Decrypt

end Holds

end RatchetSession
