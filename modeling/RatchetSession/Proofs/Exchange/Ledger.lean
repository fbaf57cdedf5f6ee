import RatchetSession.Party
import RatchetSession.Simulation.Operation
import RatchetSession.Proofs.Conversation.Delivery
import RatchetSession.Proofs.Handshake.Agreement
import RatchetSession.Proofs.Session.Framing
import RatchetSession.Proofs.Session.Search
set_option autoImplicit false

/-!
Two parties and all dialogues between them. A ledger tells every dialogue by its base
key; it describes the parties' stores when each holds exactly the sessions of the
dialogues it knows of.
-/

namespace RatchetSession

structure Couple (P : Suite) where
  party : Side → Party
  identity : Side → Identity
  apart : ∀ side, (party side).address ≠ (party side.other).address
  signedId : ∀ side, (party side).signedPreKey.id = Party.signedPreKeyId
  signed : ∀ side, (party side).signedPreKey.Valid P (identity side)

/-- A dialogue, the side that started it, and the one-time pre-key of the other side's bundle. -/
structure Talk (P : Suite) where
  starter : Side
  oneTime : Option PreKey
  dialogue : Dialogue P

namespace Talk

variable {P : Suite}

def side (t : Talk P) : Origin → Side
  | .initiator => t.starter
  | .responder => t.starter.other

/-- A side knows of the dialogues that it started and of those that it has taken up. -/
def Known (t : Talk P) (side : Side) : Prop := t.starter = side ∨ 2 ≤ t.dialogue.epochs.length

structure Later (t t' : Talk P) : Prop where
  starter : t'.starter = t.starter
  oneTime : t'.oneTime = t.oneTime
  initiator : t'.dialogue.initiator = t.dialogue.initiator
  responder : t'.dialogue.responder = t.dialogue.responder
  pending : t'.dialogue.pending = t.dialogue.pending
  epochs : t.dialogue.epochs <+: t'.dialogue.epochs
  sent : ∀ k, t.dialogue.sent k ≤ t'.dialogue.sent k

theorem Later.side_eq {t t' : Talk P} (h : t.Later t') (origin : Origin) :
    t'.side origin = t.side origin := by
  cases origin <;> simp only [Talk.side, h.starter]

theorem Later.getElem?_epochs {t t' : Talk P} (h : t.Later t') {k : Nat} {e : Epoch}
    (there : t.dialogue.epochs[k]? = some e) : t'.dialogue.epochs[k]? = some e := by
  obtain ⟨more, same⟩ := h.epochs
  obtain ⟨inside, -⟩ := List.getElem?_eq_some_iff.1 there
  rw [← same, List.getElem?_append_left inside, there]

end Talk

structure Ledger (P : Suite) where
  /-- By base key. -/
  talks : PublicKey → Option (Talk P)
  bases : List PublicKey
  /-- The one-time pre-keys of a side in bundles that were not used. -/
  spare : Side → List PreKey
  ids : Side → List UInt32
  keys : List PublicKey
  sends : Nat
  deliveries : Nat

namespace Ledger

variable {P : Suite}

structure Covers (couple : Couple P) (l : Ledger P) (base : PublicKey) (t : Talk P) : Prop where
  base : t.dialogue.pending.baseKey = base
  initiator : t.dialogue.initiator = (couple.identity t.starter).key P
  responder : t.dialogue.responder = (couple.identity t.starter.other).key P
  sound : t.dialogue.Sound
  begun : 0 < t.dialogue.epochs.length
  peer : ∀ e, t.dialogue.epochs[0]? = some e →
    e.peer = (couple.party t.starter.other).signedPreKey.keyPair.publicKey
  awaits : t.dialogue.epochs.length = 1 → ∃ e, Handshake.Awaits t.dialogue e
    (couple.identity t.starter.other) (couple.party t.starter.other).signedPreKey t.oneTime
  named : t.dialogue.pending.preKeyId = t.oneTime.map (·.id)
  sent : ∀ k, t.dialogue.sent k ≤ l.sends
  epochs : t.dialogue.epochs.length ≤ l.deliveries + 1
  drawn : ∀ e ∈ t.dialogue.epochs, e.key P ∈ l.keys
  unsigned : ∀ e ∈ t.dialogue.epochs, ∀ side,
    e.key P ≠ (couple.party side).signedPreKey.keyPair.publicKey

/-- Sessions, one for each dialogue that the side knows of. -/
structure Files (l : Ledger P) (side : Side) (sessions : List (Session P)) : Prop where
  tracked : ∀ s ∈ sessions, ∃ t k e, l.talks s.baseKey = some t ∧ t.side (turn k) = side ∧
    Holds t.dialogue k e s
  complete : ∀ base t, l.talks base = some t → t.Known side → ∃ s ∈ sessions, s.baseKey = base
  distinct : (sessions.map (·.baseKey)).Nodup

/-- A side's store, as far as sessions with the other side go. -/
structure Describes (couple : Couple P) (l : Ledger P) (side : Side) (st : Store P) : Prop where
  identity : st.identity = couple.identity side
  signed : st.signedPreKeys.find? Party.signedPreKeyId = some (couple.party side).signedPreKey
  trusted : st.trusts (couple.party side.other).address ((couple.identity side.other).key P) = true
  record : ∃ stored, st.loadRecord (couple.party side.other).address = .ok stored ∧
    (∀ r ∈ stored, r.current.isSome = true) ∧ l.Files side (stored.getD .empty).sessions
  oneTime : ∀ base t, l.talks base = some t → t.starter = side.other →
    t.dialogue.epochs.length = 1 → ∀ key ∈ t.oneTime, st.preKeys.find? key.id = some key
  spare : ∀ key ∈ l.spare side, st.preKeys.find? key.id = some key ∧ key.keyPair.Valid P

structure Stocked (l : Ledger P) : Prop where
  once : ∀ base base' t t', l.talks base = some t → l.talks base' = some t' →
    t.starter = t'.starter → ∀ key ∈ t.oneTime, ∀ key' ∈ t'.oneTime, key.id = key'.id → base = base'
  unused : ∀ base t, l.talks base = some t → ∀ key ∈ t.oneTime,
    ∀ key' ∈ l.spare t.starter.other, key.id ≠ key'.id
  spare : ∀ side, ((l.spare side).map (·.id)).Nodup
  used : ∀ base t, l.talks base = some t → ∀ key ∈ t.oneTime, key.id ∈ l.ids t.starter.other
  published : ∀ side, ∀ key ∈ l.spare side, key.id ∈ l.ids side

/-- The ledger describes both stores, and no two dialogues share a key. -/
structure Agrees (couple : Couple P) (l : Ledger P) (st : Side → Store P) : Prop where
  covers : ∀ base t, l.talks base = some t → l.Covers couple base t
  describes : ∀ side, l.Describes couple side (st side)
  bases : ∀ base t, l.talks base = some t → base ∈ l.bases
  apart : ∀ base base' t t', l.talks base = some t → l.talks base' = some t' →
    ∀ e ∈ t.dialogue.epochs, ∀ e' ∈ t'.dialogue.epochs, e.key P = e'.key P → base = base'
  stocked : l.Stocked
  signed : ∀ side, (couple.party side).signedPreKey.keyPair.publicKey ∈ l.keys

theorem known_of_holds {t : Talk P} {k : Nat} {e : Epoch} {s : Session P}
    (holds : Holds t.dialogue k e s) : t.Known (t.side (turn k)) := by
  cases k with
  | zero => exact .inl rfl
  | succ k =>
    obtain ⟨inside, -⟩ := List.getElem?_eq_some_iff.1 holds.epoch
    exact .inr (by omega)

namespace Files

variable {l l' : Ledger P} {side : Side} {sessions : List (Session P)}

theorem nil (unknown : ∀ base t, l.talks base = some t → ¬ t.Known side) : l.Files side [] :=
  ⟨fun _ member => (nomatch member), fun base t there known => absurd known (unknown base t there),
    List.nodup_nil⟩

theorem baseKeys_subset (h : l.Files side sessions)
    (bases : ∀ base t, l.talks base = some t → base ∈ l.bases) :
    sessions.map (·.baseKey) ⊆ l.bases := by
  intro base member
  obtain ⟨s, held, rfl⟩ := List.mem_map.1 member
  obtain ⟨t, _, _, there, -⟩ := h.tracked s held
  exact bases _ t there

theorem length_le (h : l.Files side sessions)
    (bases : ∀ base t, l.talks base = some t → base ∈ l.bases) :
    sessions.length ≤ l.bases.length := by
  simpa using List.Nodup.length_le_of_subset h.distinct (h.baseKeys_subset bases)

theorem baseKey_ne_of_unknown (h : l.Files side sessions) {base : PublicKey} {t : Talk P}
    (found : l.talks base = some t) (unknown : ¬ t.Known side) : ∀ s ∈ sessions, s.baseKey ≠ base := by
  rintro s member rfl
  obtain ⟨t', k, e, there, turns, holds⟩ := h.tracked s member
  cases found.symm.trans there
  exact unknown (turns ▸ known_of_holds holds)

theorem length_lt (h : l.Files side sessions)
    (bases : ∀ base t, l.talks base = some t → base ∈ l.bases) {base : PublicKey} {t : Talk P}
    (found : l.talks base = some t) (unknown : ¬ t.Known side) :
    sessions.length < l.bases.length := by
  have distinct : (base :: sessions.map (·.baseKey)).Nodup := by
    refine List.nodup_cons.2 ⟨fun member => ?_, h.distinct⟩
    obtain ⟨s, held, named⟩ := List.mem_map.1 member
    exact h.baseKey_ne_of_unknown found unknown s held named
  have inside : base :: sessions.map (·.baseKey) ⊆ l.bases :=
    List.cons_subset.2 ⟨bases _ t found, h.baseKeys_subset bases⟩
  have le := List.Nodup.length_le_of_subset distinct inside
  rw [List.length_cons, List.length_map] at le
  exact le

/-- One of the sessions has gone on, together with its dialogue, and stands in front. -/
theorem update {skipped rest : List (Session P)} {s next : Session P}
    (h : l.Files side (skipped ++ s :: rest)) (base : next.baseKey = s.baseKey)
    (others : ∀ other, other ≠ s.baseKey → l'.talks other = l.talks other) {t : Talk P} {k : Nat}
    {e : Epoch} (found : l'.talks s.baseKey = some t) (turns : t.side (turn k) = side)
    (holds : Holds t.dialogue k e next) : l'.Files side (next :: (skipped ++ rest)) := by
  have all := h.distinct
  simp only [List.map_append, List.map_cons, List.nodup_append, List.nodup_cons,
    List.mem_map, not_exists, not_and] at all
  obtain ⟨left, ⟨notRight, right⟩, between⟩ := all
  have away : ∀ old ∈ skipped ++ rest, old.baseKey ≠ s.baseKey := by
    intro old member
    rcases List.mem_append.1 member with member | member
    · exact between _ ⟨old, member, rfl⟩ _ List.mem_cons_self
    · exact notRight old member
  have whole : ∀ old, old ∈ skipped ++ s :: rest ↔ old = s ∨ old ∈ skipped ++ rest := by
    intro old
    simp only [List.mem_append, List.mem_cons]
    exact or_left_comm
  refine ⟨fun old member => ?_, fun other t' there known => ?_, ?_⟩
  · rcases List.mem_cons.1 member with rfl | member
    · exact ⟨t, k, e, base ▸ found, turns, holds⟩
    · rw [others _ (away old member)]
      exact h.tracked old ((whole old).2 (.inr member))
  · by_cases same : other = s.baseKey
    · exact ⟨next, List.mem_cons_self, base.trans same.symm⟩
    · rw [others other same] at there
      obtain ⟨old, member, named⟩ := h.complete other t' there known
      rcases (whole old).1 member with rfl | member
      · exact absurd named.symm same
      · exact ⟨old, List.mem_cons_of_mem _ member, named⟩
  · rw [List.map_cons, base]
    refine List.nodup_cons.2 ⟨fun member => ?_, ?_⟩
    · obtain ⟨old, member, named⟩ := List.mem_map.1 member
      exact away old member named
    · rw [List.map_append, List.nodup_append]
      refine ⟨left, right, fun a inLeft b inRight => between a ?_ b (List.mem_cons_of_mem _ inRight)⟩
      simpa using inLeft

theorem extend {s : Session P} (h : l.Files side sessions)
    (others : ∀ other, other ≠ s.baseKey → l'.talks other = l.talks other) {t : Talk P} {k : Nat}
    {e : Epoch} (found : l'.talks s.baseKey = some t) (turns : t.side (turn k) = side)
    (holds : Holds t.dialogue k e s) (away : ∀ old ∈ sessions, old.baseKey ≠ s.baseKey) :
    l'.Files side (s :: sessions) := by
  refine ⟨fun old member => ?_, fun other t' there known => ?_, ?_⟩
  · rcases List.mem_cons.1 member with rfl | member
    · exact ⟨t, k, e, found, turns, holds⟩
    · rw [others _ (away old member)]
      exact h.tracked old member
  · by_cases same : other = s.baseKey
    · exact ⟨s, List.mem_cons_self, same.symm⟩
    · rw [others other same] at there
      obtain ⟨old, member, named⟩ := h.complete other t' there known
      exact ⟨old, List.mem_cons_of_mem _ member, named⟩
  · refine List.nodup_cons.2 ⟨fun member => ?_, h.distinct⟩
    obtain ⟨old, member, named⟩ := List.mem_map.1 member
    exact away old member named

theorem of_keeps (h : l.Files side sessions) {base : PublicKey} {t t' : Talk P}
    (found : l.talks base = some t) (found' : l'.talks base = some t')
    (others : ∀ other, other ≠ base → l'.talks other = l.talks other)
    (known : t'.Known side → t.Known side)
    (keeps : ∀ k e s, t.side (turn k) = side → Holds t.dialogue k e s →
      t'.side (turn k) = side ∧ Holds t'.dialogue k e s) : l'.Files side sessions := by
  refine ⟨fun s member => ?_, fun other t₁ there knows => ?_, h.distinct⟩
  · obtain ⟨t₁, k, e, there, turns, holds⟩ := h.tracked s member
    by_cases same : s.baseKey = base
    · rw [same] at there ⊢
      cases found.symm.trans there
      obtain ⟨turns', holds'⟩ := keeps k e s turns holds
      exact ⟨t', k, e, found', turns', holds'⟩
    · exact ⟨t₁, k, e, by rw [others _ same]; exact there, turns, holds⟩
  · by_cases same : other = base
    · subst same
      cases found'.symm.trans there
      exact h.complete other t found (known knows)
    · rw [others other same] at there
      exact h.complete other t₁ there knows

end Files

end Ledger

end RatchetSession
