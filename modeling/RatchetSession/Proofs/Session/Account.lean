import RatchetSession.Address
import RatchetSession.Proofs.Session.Step
set_option autoImplicit false

/-!
The sessions that one party holds, against the messages that it has sent. Every sending key
belongs to one session, which stands at the position after the last message sent under that
key; and a ratchet step takes a key out of use for good.
-/

namespace RatchetSession

variable {P : Suite}

def under (key : PublicKey) (sent : List RatchetMessage) : List RatchetMessage :=
  sent.filter (·.ratchetKey = key)

theorem under_append_of_ne {key : PublicKey} {m : RatchetMessage} (differ : m.ratchetKey ≠ key)
    (sent : List RatchetMessage) : under key (sent ++ [m]) = under key sent := by
  simp [under, differ]

theorem under_append_self {key : PublicKey} {m : RatchetMessage} (is : m.ratchetKey = key)
    (sent : List RatchetMessage) : under key (sent ++ [m]) = under key sent ++ [m] := by
  simp [under, is]

theorem under_eq_nil {key : PublicKey} {sent : List RatchetMessage}
    (unused : ∀ m ∈ sent, m.ratchetKey ≠ key) : under key sent = [] := by
  simpa [under] using unused

/-- The number is that of the messages sent under the key that a ratchet step has replaced by this
one, and zero if no step has. -/
structure PreviousCount (sent : List RatchetMessage) (Replaced : PublicKey → PublicKey → Prop)
    (key : PublicKey) (count : UInt32) : Prop where
  replaced : ∀ old, Replaced old key → count.toNat = (under old sent).length
  first : (∀ old, ¬ Replaced old key) → count = 0

structure Session.Counted (sent : List RatchetMessage)
    (Replaced : PublicKey → PublicKey → Prop) (s : Session P) : Prop where
  index : s.sending.index.toNat = (under s.sendingKey sent).length
  previous : PreviousCount sent Replaced s.sendingKey s.previousCounter

/-- The sending keys of the sessions held for each device: all drawn, and no two alike. -/
structure Placed (keys : List PublicKey) (held : Address → List (Session P)) : Prop where
  drawn : ∀ address, ∀ s ∈ held address, s.sendingKey ∈ keys
  distinct : ∀ address, ((held address).map Session.sendingKey).Nodup
  apart : ∀ address other, ∀ s ∈ held address, ∀ t ∈ held other,
    s.sendingKey = t.sendingKey → address = other

/-- One session comes to the front at an address, where others may be given up. -/
structure Put (held : Address → List (Session P)) (address : Address) (kept : List (Session P))
    (t : Session P) (held' : Address → List (Session P)) : Prop where
  fewer : kept.Sublist (held address)
  here : held' address = t :: kept
  others : ∀ other, other ≠ address → held' other = held other

structure Away (held : Address → List (Session P)) (address : Address) (kept : List (Session P))
    (key : PublicKey) : Prop where
  here : ∀ s ∈ kept, s.sendingKey ≠ key
  there : ∀ other, other ≠ address → ∀ s ∈ held other, s.sendingKey ≠ key

section

variable {keys keys' : List PublicKey} {held held' : Address → List (Session P)}
  {address : Address} {s t : Session P} {passed rest kept : List (Session P)}
  {sent : List RatchetMessage} {Replaced : PublicKey → PublicKey → Prop}

theorem Put.mem_cases (put : Put held address kept t held')
    (away : Away held address kept t.sendingKey) {other : Address} {u : Session P}
    (member : u ∈ held' other) :
    (other = address ∧ u = t) ∨ (u ∈ held other ∧ u.sendingKey ≠ t.sendingKey) := by
  by_cases same : other = address
  · subst same
    rw [put.here] at member
    rcases List.mem_cons.1 member with rfl | member
    · exact .inl ⟨rfl, rfl⟩
    · exact .inr ⟨put.fewer.subset member, away.here u member⟩
  · rw [put.others other same] at member
    exact .inr ⟨member, away.there other same u member⟩

namespace Placed

theorem mono (h : Placed keys held) (sub : keys ⊆ keys') : Placed keys' held :=
  ⟨fun address s member => sub (h.drawn address s member), h.distinct, h.apart⟩

theorem away_of_fresh (h : Placed keys held) (put : Put held address kept t held')
    (fresh : t.sendingKey ∉ keys) : Away held address kept t.sendingKey :=
  ⟨fun s member same => fresh (same ▸ h.drawn address s (put.fewer.subset member)),
    fun other _ s member same => fresh (same ▸ h.drawn other s member)⟩

theorem away_of_held (h : Placed keys held) (split : held address = passed ++ s :: rest)
    (sub : kept ⊆ passed ++ rest) : Away held address kept s.sendingKey := by
  have inside : s ∈ held address := by simp [split]
  refine ⟨fun t member same => ?_, fun other differ t member same => ?_⟩
  · have distinct := h.distinct address
    rw [split, List.map_append, List.map_cons, List.nodup_middle, List.nodup_cons,
      ← List.map_append] at distinct
    exact distinct.1 (same ▸ List.mem_map_of_mem (sub member))
  · exact differ (h.apart other address t member s inside same)

theorem put (h : Placed keys held) (put : Put held address kept t held')
    (drawn : t.sendingKey ∈ keys) (away : Away held address kept t.sendingKey) :
    Placed keys held' := by
  refine ⟨fun other u member => ?_, fun other => ?_, fun one two u inOne v inTwo same => ?_⟩
  · rcases put.mem_cases away member with ⟨-, rfl⟩ | ⟨old, -⟩
    · exact drawn
    · exact h.drawn other u old
  · by_cases same : other = address
    · subst same
      rw [put.here, List.map_cons, List.nodup_cons]
      refine ⟨fun member => ?_, (put.fewer.map _).nodup (h.distinct other)⟩
      obtain ⟨u, inside, key⟩ := List.mem_map.1 member
      exact away.here u inside key
    · rw [put.others other same]
      exact h.distinct other
  · rcases put.mem_cases away inOne with ⟨at_one, rfl⟩ | ⟨old, differs⟩ <;>
      rcases put.mem_cases away inTwo with ⟨at_two, rfl⟩ | ⟨old', differs'⟩
    · exact at_one.trans at_two.symm
    · exact absurd same.symm differs'
    · exact absurd same differs
    · exact h.apart one two u old v old' same

end Placed

/-- What a party holds, what it has sent, and which sending keys its ratchet steps have replaced,
all agree. -/
structure Accounted (keys : List PublicKey) (held : Address → List (Session P))
    (sent : List RatchetMessage) (Replaced : PublicKey → PublicKey → Prop) : Prop where
  placed : Placed keys held
  counted : ∀ address, ∀ s ∈ held address, s.Counted sent Replaced
  sentDrawn : ∀ m ∈ sent, m.ratchetKey ∈ keys
  replacedDrawn : ∀ old new, Replaced old new → old ∈ keys ∧ new ∈ keys
  replacedGone : ∀ old new, Replaced old new → ∀ address, ∀ s ∈ held address, s.sendingKey ≠ old
  inOrder : ∀ key, (under key sent).map (·.counter.toNat) = List.range (under key sent).length

namespace Accounted

theorem empty (keys : List PublicKey) :
    Accounted keys (fun _ => ([] : List (Session P))) [] fun _ _ => False where
  placed := ⟨by simp, by simp, by simp⟩
  counted := by simp
  sentDrawn := by simp
  replacedDrawn := by simp
  replacedGone := by simp
  inOrder _ := rfl

theorem mono (h : Accounted keys held sent Replaced) (sub : keys ⊆ keys') :
    Accounted keys' held sent Replaced :=
  ⟨h.placed.mono sub, h.counted, fun m member => sub (h.sentDrawn m member),
    fun old new replaced => (h.replacedDrawn old new replaced).imp (@sub _) (@sub _),
    h.replacedGone, h.inOrder⟩

theorem unsent_of_fresh (h : Accounted keys held sent Replaced) {key : PublicKey} (fresh : key ∉ keys) :
    under key sent = [] ∧ ∀ other, ¬ Replaced other key ∧ ¬ Replaced key other :=
  ⟨under_eq_nil fun _ member same => fresh (same ▸ h.sentDrawn _ member), fun _ =>
    ⟨fun replaced => fresh (h.replacedDrawn _ _ replaced).2,
      fun replaced => fresh (h.replacedDrawn _ _ replaced).1⟩⟩

theorem put_fresh (h : Accounted keys held sent Replaced) (sub : keys ⊆ keys')
    (put : Put held address kept t held') (fresh : t.sendingKey ∉ keys)
    (drawn : t.sendingKey ∈ keys') (index : t.sending.index = 0)
    (previous : t.previousCounter = 0) : Accounted keys' held' sent Replaced := by
  obtain ⟨none, never⟩ := h.unsent_of_fresh fresh
  have away := h.placed.away_of_fresh put fresh
  refine ⟨(h.placed.mono sub).put put drawn away, fun other u member => ?_,
    (h.mono sub).sentDrawn, (h.mono sub).replacedDrawn, fun old key replaced other u member => ?_,
    h.inOrder⟩
  · rcases put.mem_cases away member with ⟨-, rfl⟩ | ⟨member, -⟩
    · exact ⟨by rw [none, index]; rfl, fun old replaced => absurd replaced (never old).1,
        fun _ => previous⟩
    · exact h.counted other u member
  · rcases put.mem_cases away member with ⟨-, rfl⟩ | ⟨member, -⟩
    · rintro rfl
      exact (never key).2 replaced
    · exact h.replacedGone old key replaced other u member

theorem put_sameSending (h : Accounted keys held sent Replaced)
    (split : held address = passed ++ s :: rest) (sub : kept ⊆ passed ++ rest)
    (put : Put held address kept t held') (same : s.SameSending t) :
    Accounted keys held' sent Replaced := by
  have inside : s ∈ held address := by simp [split]
  have key : t.sendingKey = s.sendingKey := by simp only [Session.sendingKey, same.sending]
  have away : Away held address kept t.sendingKey := key ▸ h.placed.away_of_held split sub
  obtain ⟨index, previous⟩ := h.counted address s inside
  refine ⟨h.placed.put put (key ▸ h.placed.drawn address s inside) away, fun other u member => ?_,
    h.sentDrawn, h.replacedDrawn, fun old new replaced other u member => ?_, h.inOrder⟩
  · rcases put.mem_cases away member with ⟨-, rfl⟩ | ⟨member, -⟩
    · refine ⟨?_, ?_⟩
      · rw [key, same.sending]
        exact index
      · rw [key, same.previousCounter]
        exact previous
    · exact h.counted other u member
  · rcases put.mem_cases away member with ⟨-, rfl⟩ | ⟨member, -⟩
    · rw [key]
      exact h.replacedGone old new replaced address s inside
    · exact h.replacedGone old new replaced other u member

theorem put_newSending (h : Accounted keys held sent Replaced) (subset : keys ⊆ keys')
    (split : held address = passed ++ s :: rest) (sub : kept ⊆ passed ++ rest)
    (put : Put held address kept t held') (fresh : t.sendingKey ∉ keys)
    (drawn : t.sendingKey ∈ keys') (first : t.sending.index = 0)
    (count : t.previousCounter = s.sending.index) {Replaced' : PublicKey → PublicKey → Prop}
    (replaces : ∀ old new, Replaced' old new ↔
      Replaced old new ∨ (old = s.sendingKey ∧ new = t.sendingKey)) :
    Accounted keys' held' sent Replaced' := by
  have inside : s ∈ held address := by simp [split]
  have old_drawn := h.placed.drawn address s inside
  obtain ⟨none, never⟩ := h.unsent_of_fresh fresh
  have away := h.placed.away_of_fresh put fresh
  have gone := h.placed.away_of_held split sub
  refine ⟨(h.placed.mono subset).put put drawn away, fun other u member => ?_,
    (h.mono subset).sentDrawn, fun old new replaced => ?_,
    fun old new replaced other u member => ?_, h.inOrder⟩
  · rcases put.mem_cases away member with ⟨-, rfl⟩ | ⟨member, differs⟩
    · refine ⟨by rw [none, first]; rfl, fun old replaced => ?_, fun nowhere => ?_⟩
      · rcases (replaces old _).1 replaced with before | ⟨rfl, -⟩
        · exact absurd before (never old).1
        · rw [count]
          exact (h.counted address s inside).index
      · exact absurd ((replaces _ _).2 (.inr ⟨rfl, rfl⟩)) (nowhere s.sendingKey)
    · obtain ⟨index, replaced, untouched⟩ := h.counted other u member
      have same : ∀ old, Replaced' old u.sendingKey ↔ Replaced old u.sendingKey := fun old =>
        (replaces old _).trans ⟨fun either => either.resolve_right fun is => differs is.2, .inl⟩
      exact ⟨index, fun old is => replaced old ((same old).1 is),
        fun nowhere => untouched fun old is => nowhere old ((same old).2 is)⟩
  · rcases (replaces old new).1 replaced with before | ⟨rfl, rfl⟩
    · exact (h.mono subset).replacedDrawn old new before
    · exact ⟨subset old_drawn, drawn⟩
  -- the key just replaced was the stepping session's alone, and it has a fresh one now
  · rcases (replaces old new).1 replaced with before | ⟨rfl, -⟩
    · rcases put.mem_cases away member with ⟨-, rfl⟩ | ⟨member, -⟩
      · rintro rfl
        exact (never new).2 before
      · exact h.replacedGone old new before other u member
    · by_cases here : other = address
      · subst here
        rw [put.here] at member
        rcases List.mem_cons.1 member with rfl | member
        · intro same
          exact fresh (same ▸ old_drawn)
        · exact gone.here u member
      · rw [put.others other here] at member
        exact gone.there other here u member

theorem put_sent (h : Accounted keys held sent Replaced)
    (split : held address = passed ++ s :: rest) (sub : kept ⊆ passed ++ rest)
    (put : Put held address kept s.advanced held') (room : s.sending.index ≠ lastIndex)
    {m : RatchetMessage} (carries : m.ratchetKey = s.sendingKey)
    (counter : m.counter = s.sending.index) :
    Accounted keys held' (sent ++ [m]) Replaced := by
  have inside : s ∈ held address := by simp [split]
  have key : s.advanced.sendingKey = s.sendingKey := rfl
  have away : Away held address kept s.sendingKey := h.placed.away_of_held split sub
  have drawn := h.placed.drawn address s inside
  obtain ⟨index, previous⟩ := h.counted address s inside
  -- a key that a step has replaced is not the sender's, so that its count stands
  have settled : ∀ old new, Replaced old new → under old (sent ++ [m]) = under old sent :=
    fun old new replaced => under_append_of_ne
      (carries ▸ h.replacedGone old new replaced address s inside) sent
  have recount : ∀ key count, PreviousCount sent Replaced key count →
      PreviousCount (sent ++ [m]) Replaced key count := fun key count held =>
    ⟨fun old replaced => by rw [settled old key replaced]; exact held.replaced old replaced,
      held.first⟩
  have next : s.advanced.sending.index.toNat = s.sending.index.toNat + 1 := by
    have bound : s.sending.index.toNat ≠ lastIndex.toNat := fun same => room (UInt32.toNat.inj same)
    have last : lastIndex.toNat = 2 ^ 32 - 1 := rfl
    have small := s.sending.index.toNat_lt
    show (s.sending.index + 1).toNat = _
    simp only [UInt32.toNat_add, UInt32.reduceToNat]
    omega
  refine ⟨h.placed.put put drawn away, fun other u member => ?_, fun n member => ?_,
    h.replacedDrawn, fun old new replaced other u member => ?_, fun other => ?_⟩
  · rcases put.mem_cases away member with ⟨-, rfl⟩ | ⟨member, differs⟩
    · refine ⟨?_, recount _ _ previous⟩
      rw [next, index, key, under_append_self carries, List.length_append]
      rfl
    · obtain ⟨index, previous⟩ := h.counted other u member
      refine ⟨?_, recount _ _ previous⟩
      rw [under_append_of_ne (fun same => differs (same.symm.trans carries))]
      exact index
  · rcases List.mem_append.1 member with member | member
    · exact h.sentDrawn n member
    · rw [List.mem_singleton.1 member, carries]
      exact drawn
  · rcases put.mem_cases away member with ⟨-, rfl⟩ | ⟨member, -⟩
    · exact h.replacedGone old new replaced address s inside
    · exact h.replacedGone old new replaced other u member
  · by_cases same : m.ratchetKey = other
    · rw [under_append_self same, List.map_append, List.length_append, h.inOrder other,
        List.length_singleton, List.range_succ, List.map_singleton, counter, index, ← carries, same]
    · rw [under_append_of_ne same]
      exact h.inOrder other

end Accounted

end

end RatchetSession
