import RatchetSession.Proofs.Exchange.Opening
import RatchetSession.Proofs.Exchange.Receiving
import RatchetSession.Proofs.Message.Framing
set_option autoImplicit false

namespace RatchetSession

variable {P : Suite}

/-- A message that was sent: what was said, as which letter, in which bytes and sealed with what. -/
structure Dispatch where
  sender : Side
  plaintext : Bytes
  letter : Letter
  bytes : Bytes
  sealed : Bytes

def Letter.Same (a b : Letter) : Prop :=
  a.base = b.base ∧ a.epoch = b.epoch ∧ a.counter = b.counter

namespace Ledger

variable {couple : Couple P} {l l' : Ledger P} {base : PublicKey} {t t' : Talk P} {e : Epoch}
  {st : Side → Store P} {side : Side} {store : Store P} {item : Dispatch} {sent : List Dispatch}

def Opened (l : Ledger P) (letter : Letter) : Prop :=
  ∃ t, l.talks letter.base = some t ∧ letter.counter ∈ t.dialogue.opened letter.epoch

theorem opened_iff {letter : Letter} (found : l.talks letter.base = some t) :
    l.Opened letter ↔ letter.counter ∈ t.dialogue.opened letter.epoch := by
  refine ⟨?_, fun member => ⟨t, found, member⟩⟩
  rintro ⟨t', there, member⟩
  cases found.symm.trans there
  exact member

theorem opened_congr {letter : Letter} (same : l'.talks letter.base = l.talks letter.base) :
    l'.Opened letter ↔ l.Opened letter := by
  simp only [Opened, same]

theorem opened_put_hear {letter : Letter} (found : l.talks letter.base = some t)
    (heard : t'.dialogue.opened = (t.dialogue.hear letter.epoch letter.counter).opened)
    (fresh : List PublicKey) (sends deliveries : Nat) (other : Letter) :
    ((l.pass fresh sends deliveries).put letter.base t').Opened other ↔
      l.Opened other ∨ other.Same letter := by
  by_cases here : other.base = letter.base
  · have found' : l.talks other.base = some t := here ▸ found
    have put : ((l.pass fresh sends deliveries).put letter.base t').talks other.base = some t' := by
      rw [here]
      exact put_self _ _ t'
    rw [opened_iff put, opened_iff found', heard]
    simp only [Dialogue.hear, Letter.Same, here, true_and]
    by_cases epoch : other.epoch = letter.epoch
    · rw [if_pos epoch, List.mem_cons]
      simp [epoch, or_comm]
    · simp [epoch]
  · rw [opened_congr (put_of_ne _ t' here)]
    simp only [Letter.Same, here, false_and, or_false]
    exact opened_congr rfl

theorem opened_put_same {letter : Letter} (found : l.talks letter.base = some t) (t' : Talk P)
    (same : t'.dialogue.opened = t.dialogue.opened) (fresh : List PublicKey)
    (sends deliveries : Nat) (other : Letter) :
    ((l.pass fresh sends deliveries).put letter.base t').Opened other ↔ l.Opened other := by
  by_cases here : other.base = letter.base
  · have put : ((l.pass fresh sends deliveries).put letter.base t').talks other.base = some t' := by
      rw [here]
      exact put_self _ _ t'
    rw [opened_iff put, opened_iff (here ▸ found), same]
  · exact (opened_congr (put_of_ne _ t' here)).trans (opened_congr rfl)

def Grows (l l' : Ledger P) : Prop :=
  ∀ base t, l.talks base = some t → ∃ t', l'.talks base = some t' ∧ t.Later t'

theorem Grows.of_talks (same : l'.talks = l.talks) : l.Grows l' := by
  intro base t found
  exact ⟨t, by rw [same]; exact found, .refl t⟩

theorem grows_put (found : l.talks base = some t) (later : t.Later t') (fresh : List PublicKey)
    (sends deliveries : Nat) : l.Grows ((l.pass fresh sends deliveries).put base t') := by
  intro other t₁ there
  by_cases here : other = base
  · subst here
    cases found.symm.trans there
    exact ⟨t', put_self _ _ t', later⟩
  · exact ⟨t₁, (put_of_ne _ t' here).trans there, .refl t₁⟩

theorem grows_begin (unused : l.talks base = none) (t : Talk P) : l.Grows (l.begin base t) := by
  intro other t₁ there
  refine ⟨t₁, (put_of_ne l t ?_).trans there, .refl t₁⟩
  rintro rfl
  rw [unused] at there
  cases there

structure Written (l : Ledger P) (item : Dispatch) (t : Talk P) (e : Epoch) : Prop where
  talk : l.talks item.letter.base = some t
  epoch : t.dialogue.epochs[item.letter.epoch]? = some e
  was : item.letter.counter.toNat < t.dialogue.sent item.letter.epoch
  own : t.side (turn item.letter.epoch) = item.sender
  fits : item.letter.plaintext.length ≤ P.maxPlaintext
  padded : item.letter.plaintext = Padding.pad item.plaintext
  encoded : Envelope.encode (t.write e item.letter) = .ok item.bytes
  sealed : item.sealed =
    (t.dialogue.binding item.letter.epoch e item.letter.counter).toBytes

theorem Written.grow (h : l.Written item t e) (grows : l.Grows l') :
    ∃ t', l'.Written item t' e := by
  obtain ⟨t', there, later⟩ := grows _ t h.talk
  refine ⟨t', there, later.getElem?_epochs h.epoch, Nat.lt_of_lt_of_le h.was (later.sent _),
    (later.side_eq _).trans h.own, h.fits, h.padded, ?_, ?_⟩
  · rw [later.write]
    exact h.encoded
  · rw [later.binding]
    exact h.sealed

structure Mail (l : Ledger P) (sent : List Dispatch) : Prop where
  written : ∀ item ∈ sent, ∃ t e, l.Written item t e
  distinct : sent.Pairwise fun a b => ¬ a.letter.Same b.letter

theorem Mail.grow (h : l.Mail sent) (grows : l.Grows l') : l'.Mail sent := by
  refine ⟨fun item member => ?_, h.distinct⟩
  obtain ⟨t, e, written⟩ := h.written item member
  obtain ⟨t', written'⟩ := written.grow grows
  exact ⟨t', e, written'⟩

theorem Mail.number_eq (h : l.Mail sent) {n m : Nat} {a b : Dispatch} (one : sent[n]? = some a)
    (two : sent[m]? = some b) (same : a.letter.Same b.letter) : n = m := by
  obtain ⟨inside, rfl⟩ := List.getElem?_eq_some_iff.1 one
  obtain ⟨inside', rfl⟩ := List.getElem?_eq_some_iff.1 two
  rcases Nat.lt_trichotomy n m with before | rfl | after
  · exact absurd same (List.pairwise_iff_getElem.1 h.distinct n m inside inside' before)
  · rfl
  · refine absurd ?_ (List.pairwise_iff_getElem.1 h.distinct m n inside' inside after)
    exact ⟨same.1.symm, same.2.1.symm, same.2.2.symm⟩

theorem Sends.post {E : Type} {source : E} {letter : Letter}
    (h : Sends couple l st side source letter t e store) (mail : l.Mail sent)
    (item : Dispatch) (is : item.letter = letter)
    (written : ((l.pass [] 1 0).put letter.base
      (t.withDialogue (t.dialogue.send letter.epoch))).Written item
        (t.withDialogue (t.dialogue.send letter.epoch)) e) :
    ((l.pass [] 1 0).put letter.base
      (t.withDialogue (t.dialogue.send letter.epoch))).Mail (sent ++ [item]) := by
  have kept := mail.grow (grows_put h.talk (t.later_send letter.epoch) [] 1 0)
  refine ⟨fun other member => ?_, ?_⟩
  · rcases List.mem_append.1 member with old | new
    · exact kept.written other old
    · cases List.mem_singleton.1 new
      exact ⟨_, e, written⟩
  · refine List.pairwise_append.2 ⟨mail.distinct, List.pairwise_singleton _ _, ?_⟩
    intro other old new only
    cases List.mem_singleton.1 only
    rintro ⟨base, epoch, counter⟩
    obtain ⟨t₁, e₁, before⟩ := mail.written other old
    rw [is] at base epoch counter
    have talk := before.talk
    rw [base] at talk
    cases h.talk.symm.trans talk
    have lt := before.was
    rw [epoch, counter, h.counter] at lt
    exact Nat.lt_irrefl _ lt

theorem Opened.of_same {a b : Letter} (h : l.Opened a) (same : b.Same a) : l.Opened b := by
  obtain ⟨t, found, member⟩ := h
  obtain ⟨base, epoch, counter⟩ := same
  exact ⟨t, base ▸ found, by rw [epoch, counter]; exact member⟩

/-- The messages that were sent, of which those delivered are the letters that were opened. -/
structure Mailbox (l : Ledger P) (sent : List Dispatch) (delivered : Nat → Prop) : Prop where
  mail : l.Mail sent
  past : ∀ n, delivered n → n < sent.length
  opened : ∀ n item, sent[n]? = some item → (delivered n ↔ l.Opened item.letter)

namespace Mailbox

variable {delivered delivered' : Nat → Prop}

theorem empty (l : Ledger P) (none : ∀ n, ¬ delivered n) : l.Mailbox [] delivered where
  mail := ⟨fun _ member => absurd member List.not_mem_nil, .nil⟩
  past n now := absurd now (none n)
  opened _ _ found := absurd found (by simp)

theorem mono (h : l.Mailbox sent delivered) (grows : l.Grows l')
    (opened : ∀ item ∈ sent, l'.Opened item.letter ↔ l.Opened item.letter)
    (same : ∀ n, delivered' n ↔ delivered n) : l'.Mailbox sent delivered' where
  mail := h.mail.grow grows
  past n now := h.past n ((same n).1 now)
  opened n item found := by
    rw [same, h.opened n item found, opened item (List.mem_of_getElem? found)]

theorem post (h : l.Mailbox sent delivered) (mail : l'.Mail (sent ++ [item]))
    (unopened : ¬ l'.Opened item.letter) (opened : ∀ letter, l'.Opened letter ↔ l.Opened letter)
    (same : ∀ n, delivered' n ↔ delivered n) : l'.Mailbox (sent ++ [item]) delivered' := by
  refine ⟨mail, fun n now => ?_, fun n other found => ?_⟩
  · rw [List.length_append]
    exact Nat.lt_add_right _ (h.past n ((same n).1 now))
  · rw [same]
    rcases getElem?_concat_eq_some.1 found with old | ⟨rfl, rfl⟩
    · exact (h.opened n other old).trans (opened _).symm
    · exact ⟨fun now => absurd (h.past _ now) (Nat.lt_irrefl _), fun now => absurd now unopened⟩

theorem deliver (h : l.Mailbox sent delivered) (grows : l.Grows l') {n : Nat}
    (there : sent[n]? = some item)
    (opened : ∀ letter, l'.Opened letter ↔ l.Opened letter ∨ letter.Same item.letter)
    (now : ∀ m, delivered' m ↔ delivered m ∨ m = n) : l'.Mailbox sent delivered' := by
  refine ⟨h.mail.grow grows, fun m done => ?_, fun m other found => ?_⟩
  · rcases (now m).1 done with old | rfl
    · exact h.past m old
    · exact (List.getElem?_eq_some_iff.1 there).1
  · rw [now, opened, h.opened m other found]
    refine or_congr_right ⟨?_, fun same => h.mail.number_eq found there same⟩
    rintro rfl
    cases there.symm.trans found
    exact ⟨rfl, rfl, rfl⟩

end Mailbox

end Ledger

end RatchetSession
