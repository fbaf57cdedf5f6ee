import Mathlib.Data.List.Nodup
import RatchetSession.Proofs.Session.Dialogue
set_option autoImplicit false

/-!
What one side has sent, against the dialogue: each message is that of a position of one of
the side's epochs, and every position has one.
-/

namespace RatchetSession

variable {P : Suite}

def RatchetMessage.place (message : RatchetMessage) : PublicKey × UInt32 :=
  (message.ratchetKey, message.counter)

theorem Dialogue.inner_wrap (d : Dialogue P) (k : Nat) (message : RatchetMessage) :
    (d.wrap k message).inner = message := by
  unfold wrap
  split <;> rfl

/-- A plaintext and the message that it was sent in, at a position of an epoch. -/
structure Missive (d : Dialogue P) (item : Bytes × Message) (k : Nat) (e : Epoch)
    (counter : UInt32) : Prop where
  epoch : d.epochs[k]? = some e
  was : counter.toNat < d.sent k
  fits : item.1.length ≤ P.maxPlaintext
  is : item.2 = d.wrap k (d.message k e counter item.1)

namespace Missive

variable {d : Dialogue P} {item : Bytes × Message} {k : Nat} {e : Epoch} {counter : UInt32}

theorem inner_eq (h : Missive d item k e counter) : item.2.inner = d.message k e counter item.1 := by
  rw [h.is, Dialogue.inner_wrap]

theorem place_eq (h : Missive d item k e counter) : item.2.inner.place = (e.key P, counter) := by
  rw [h.inner_eq]
  rfl

theorem of_send (h : Missive d item k e counter) (i : Nat) : Missive (d.send i) item k e counter := by
  refine ⟨h.epoch, Nat.lt_of_lt_of_le h.was ?_, h.fits, h.is⟩
  simp only [Dialogue.send]
  split <;> omega

theorem of_hear (h : Missive d item k e counter) (i : Nat) (c : UInt32) :
    Missive (d.hear i c) item k e counter :=
  ⟨h.epoch, h.was, h.fits, h.is⟩

theorem of_grow (h : Missive d item k e counter) (e' : Epoch) : Missive (d.grow e') item k e counter :=
  ⟨getElem?_concat_eq_some.2 (.inl h.epoch), h.was, h.fits, h.is⟩

end Missive

structure Outbox (d : Dialogue P) (side : Origin) (sent : List (Bytes × Message))
    (opened : List Nat) : Prop where
  letters : ∀ (n : Nat) (item : Bytes × Message), sent[n]? = some item → ∃ k e counter,
    turn k = side ∧ Missive d item k e counter ∧ (n ∈ opened ↔ counter ∈ d.opened k)
  /-- An epoch's messages are those under its key. -/
  count : ∀ (k : Nat) (e : Epoch), turn k = side → d.epochs[k]? = some e →
    sent.countP (·.2.inner.ratchetKey = e.key P) = d.sent k
  once : (sent.map (·.2.inner.place)).Nodup
  known : ∀ n ∈ opened, n < sent.length

namespace Outbox

variable {d : Dialogue P} {side : Origin} {sent : List (Bytes × Message)} {opened : List Nat}

theorem empty (nothing : ∀ k, d.sent k = 0) : Outbox d side [] [] :=
  ⟨fun _ _ held => (nomatch held), fun k _ _ _ => (nothing k).symm, List.nodup_nil,
    fun _ member => nomatch member⟩

theorem of_send (h : Outbox d side sent opened) {i : Nat} (other : turn i ≠ side) :
    Outbox (d.send i) side sent opened := by
  refine { h with letters := fun n item held => ?_, count := fun k e own epoch => ?_ }
  · obtain ⟨k, e, counter, own, letter, heard⟩ := h.letters n item held
    exact ⟨k, e, counter, own, letter.of_send i, heard⟩
  · have away : k ≠ i := fun same => other (same ▸ own)
    simp only [Dialogue.send, if_neg away]
    exact h.count k e own epoch

theorem of_hear (h : Outbox d side sent opened) {i : Nat} (other : turn i ≠ side)
    (counter : UInt32) : Outbox (d.hear i counter) side sent opened := by
  refine { h with letters := fun n item held => ?_ }
  obtain ⟨k, e, c, own, letter, heard⟩ := h.letters n item held
  have away : k ≠ i := fun same => other (same ▸ own)
  refine ⟨k, e, c, own, letter.of_hear i counter, ?_⟩
  simpa only [Dialogue.hear, if_neg away] using heard

theorem of_grow (h : Outbox d side sent opened) {e' : Epoch}
    (other : turn d.epochs.length ≠ side) : Outbox (d.grow e') side sent opened := by
  refine { h with letters := fun n item held => ?_, count := fun k e own epoch => ?_ }
  · obtain ⟨k, e, counter, own, letter, heard⟩ := h.letters n item held
    exact ⟨k, e, counter, own, letter.of_grow e', heard⟩
  · rcases getElem?_concat_eq_some.1 epoch with epoch | ⟨rfl, -⟩
    · exact h.count k e own epoch
    · exact absurd own other

theorem grow (h : Outbox d side sent opened) (unsent : d.sent d.epochs.length = 0) {e' : Epoch}
    (fresh : ∀ j e₁, turn j = turn d.epochs.length → d.epochs[j]? = some e₁ →
      e₁.key P ≠ e'.key P) (next : turn d.epochs.length = side) :
    Outbox (d.grow e') side sent opened := by
  refine { h with letters := fun n item held => ?_, count := fun k e own epoch => ?_ }
  · obtain ⟨k, e, counter, own, letter, heard⟩ := h.letters n item held
    exact ⟨k, e, counter, own, letter.of_grow e', heard⟩
  · rcases getElem?_concat_eq_some.1 epoch with epoch | ⟨rfl, rfl⟩
    · exact h.count k e own epoch
    · refine Eq.trans (List.countP_eq_zero.2 fun item member same => ?_) unsent.symm
      obtain ⟨n, held⟩ := List.mem_iff_getElem?.1 member
      obtain ⟨j, e₁, counter, turns, letter, -⟩ := h.letters n item held
      refine fresh j e₁ (turns.trans next.symm) letter.epoch ?_
      exact (congrArg Prod.fst letter.place_eq).symm.trans (of_decide_eq_true same)

theorem send (h : Outbox d side sent opened) (sound : d.Sound) {k : Nat} {e : Epoch}
    (own : turn k = side) (epoch : d.epochs[k]? = some e) (short : d.sent k < 2 ^ 32)
    {plaintext : Bytes} (fits : plaintext.length ≤ P.maxPlaintext) :
    Outbox (d.send k) side
      (sent ++ [(plaintext, d.wrap k (d.message k e (.ofNat (d.sent k)) plaintext))]) opened := by
  have index : (UInt32.ofNat (d.sent k)).toNat = d.sent k := by
    rw [UInt32.toNat_ofNat']
    omega
  let item := (plaintext, d.wrap k (d.message k e (.ofNat (d.sent k)) plaintext))
  have letter : Missive (d.send k) item k e (.ofNat (d.sent k)) :=
    ⟨epoch, by simp only [index, Dialogue.send, if_true]; omega, fits, rfl⟩
  refine ⟨fun n other held => ?_, fun j e₁ turns there => ?_, ?_, fun n member => ?_⟩
  · rcases getElem?_concat_eq_some.1 held with held | ⟨rfl, rfl⟩
    · obtain ⟨j, e₁, counter, turns, letter, heard⟩ := h.letters n other held
      exact ⟨j, e₁, counter, turns, letter.of_send k, heard⟩
    · refine ⟨k, e, .ofNat (d.sent k), own, letter, fun member => ?_, fun heard => ?_⟩
      · exact absurd (h.known _ member) (Nat.lt_irrefl _)
      · have before := sound.was k _ heard
        omega
  · have last : [item].countP (·.2.inner.ratchetKey = e₁.key P) = if j = k then 1 else 0 := by
      have key : item.2.inner.ratchetKey = e.key P := congrArg Prod.fst letter.place_eq
      have same : e.key P = e₁.key P ↔ j = k := by
        refine ⟨fun same => (sound.distinct k j e e₁ (own.trans turns.symm) epoch there same).symm, ?_⟩
        rintro rfl
        cases epoch.symm.trans there
        rfl
      simp only [List.countP_singleton, key, same, decide_eq_true_eq]
    rw [List.countP_append, h.count j e₁ turns there, last]
    simp only [Dialogue.send]
    split <;> rfl
  · rw [List.map_append, List.nodup_append]
    refine ⟨h.once, List.nodup_singleton _, fun place member last is => ?_⟩
    rintro rfl
    obtain ⟨other, held, same⟩ := List.mem_map.1 member
    obtain ⟨n, there⟩ := List.mem_iff_getElem?.1 held
    obtain ⟨j, e₁, counter, turns, letter', -⟩ := h.letters n other there
    have twice : (e₁.key P, counter) = (e.key P, UInt32.ofNat (d.sent k)) :=
      letter'.place_eq.symm.trans (same.trans ((List.mem_singleton.1 is).trans letter.place_eq))
    obtain rfl := sound.distinct j k e₁ e (turns.trans own.symm) letter'.epoch epoch
      (congrArg Prod.fst twice)
    obtain rfl : counter = .ofNat (d.sent j) := congrArg Prod.snd twice
    have before := letter'.was
    rw [index] at before
    exact absurd before (Nat.lt_irrefl _)
  · rw [List.length_append]
    exact Nat.lt_of_lt_of_le (h.known n member) (Nat.le_add_right _ _)

theorem hear (h : Outbox d side sent opened) (sound : d.Sound) {n : Nat} {item : Bytes × Message}
    (held : sent[n]? = some item) {k : Nat} {e : Epoch} {counter : UInt32} (own : turn k = side)
    (letter : Missive d item k e counter) :
    Outbox (d.hear k counter) side sent (n :: opened) := by
  refine { h with letters := fun m other there => ?_, known := fun m member => ?_ }
  · obtain ⟨j, e₁, c, turns, letter₁, heard⟩ := h.letters m other there
    refine ⟨j, e₁, c, turns, letter₁.of_hear k counter, ?_⟩
    have same : m = n ↔ j = k ∧ c = counter := by
      constructor
      · rintro rfl
        cases there.symm.trans held
        have twice := letter₁.place_eq.symm.trans letter.place_eq
        exact ⟨sound.distinct j k e₁ e (turns.trans own.symm) letter₁.epoch letter.epoch
          (congrArg Prod.fst twice), congrArg Prod.snd twice⟩
      · rintro ⟨rfl, rfl⟩
        cases letter₁.epoch.symm.trans letter.epoch
        have places : (sent.map (·.2.inner.place))[m]? = (sent.map (·.2.inner.place))[n]? := by
          simp only [List.getElem?_map, there, held, Option.map_some, letter₁.place_eq, letter.place_eq]
        obtain ⟨inside, -⟩ := List.getElem?_eq_some_iff.1 there
        exact (List.getElem?_inj (by rwa [List.length_map]) h.once).1 places
    simp only [List.mem_cons, same, heard, Dialogue.hear]
    by_cases here : j = k
    · simp [here]
    · simp [here]
  · rcases List.mem_cons.1 member with rfl | member
    · exact (List.getElem?_eq_some_iff.1 held).1
    · exact h.known m member

end Outbox

end RatchetSession
