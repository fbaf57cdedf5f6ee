import RatchetSession.Proofs.Conversation.Journal
import RatchetSession.Proofs.Correspondence.Run
set_option autoImplicit false

/-!
The two ratchets of a session stay in lockstep. What a side has not heard of yet was all
sent under one key, which answers the side's own newest; so the one number that each
message announces of the chain before is all that the side needs to close that chain.
-/

namespace RatchetSession

variable {P : Suite} {E : Type}

/-- What was sent under ratchet keys of which the recipient has never had a chain. -/
def Correspondence.unheard (x : Correspondence P E) (sender : Origin) : List (Bytes × Message) :=
  (x.station sender).sent.filter (·.2.inner.ratchetKey ∉ (x.station sender.other).heard)

def Correspondence.sentUnder (x : Correspondence P E) (sender : Origin) (key : PublicKey) : Nat :=
  (x.station sender).sent.countP (·.2.inner.ratchetKey = key)

/-- The chain has filed the key that a message was encrypted with. -/
def ReceivingChain.Files (P : Suite) (chain : ReceivingChain) (item : Bytes × Message) : Prop :=
  ∃ key bytes, chain.skipped.find? item.2.inner.counter = some key ∧
    item.2.inner.ciphertext = key.encrypt P bytes item.1

/-- The recipient has stepped on to a new session and closed the chain of its last remote key: that has
passed all that was sent under the key, and keeps the keys of all that was not opened. -/
structure Correspondence.Closed (x : Correspondence P E) (sender : Origin) (limits : Limits)
    (t t' : Session P) : Prop where
  held : 2 ≤ limits.maxReceiverChains → 0 < x.sentUnder sender t.sending.remoteKey →
    (t'.chain? t.sending.remoteKey).isSome
  whole : ∀ prior, t'.chain? t.sending.remoteKey = some prior →
    prior.index.toNat = x.sentUnder sender t.sending.remoteKey
  outstanding : ∀ prior, t'.chain? t.sending.remoteKey = some prior → ∀ n item,
    (x.station sender).sent[n]? = some item → item.2.inner.ratchetKey = t.sending.remoteKey →
    n ∉ (x.station sender.other).opened → prior.Files P item

/-- The recipient's session can step on to the key of a message, and closes the chain before. -/
structure Correspondence.Advances [Randomness E] (x : Correspondence P E) (sender : Origin)
    (limits : Limits) (t : Session P) (item : Bytes × Message) : Prop where
  opens : item.2.inner.counter ≤ limits.maxSkip →
    (∀ prior, t.chain? t.sending.remoteKey = some prior →
      item.2.inner.previousCounter.toNat - prior.index.toNat ≤ limits.maxSkip.toNat) →
    ∀ seed source, Randomness.draw 32 x.source = .ok seed source →
      ∃ t', t.decrypt limits item.2.inner x.source = .ok (item.1, t') source
  closes : ∀ opened t' source, t.decrypt limits item.2.inner x.source = .ok (opened, t') source →
    opened = item.1 ∧ x.Closed sender limits t t'

/-- One direction is in lockstep: what the recipient has not heard of carries the sender's current
key, announces how much was sent under the last key that the recipient has stepped to, and is one
step ahead of it, which the recipient can make. -/
structure Meeting.Lockstep [Randomness E] (c : Meeting P) (x : Correspondence P E)
    (sender : Origin) : Prop where
  current : ∀ item ∈ x.unheard sender, ∃ s, (x.station sender).session = some s ∧
    item.2.inner.ratchetKey = s.sendingKey
  announced : ∀ t, (x.station sender.other).session = some t → ∀ item ∈ x.unheard sender,
    item.2.inner.previousCounter.toNat = x.sentUnder sender t.sending.remoteKey
  answers : ∀ s t, (x.station sender).session = some s → (x.station sender.other).session = some t →
    x.unheard sender ≠ [] → s.sending.remoteKey = t.sendingKey
  advances : ∀ t, (x.station sender.other).session = some t → ∀ item ∈ x.unheard sender,
    t.hasRoom (c.limits sender.other) (x.station sender.other).heard item.2.inner = true →
    x.Advances sender (c.limits sender.other) t item

namespace Corresponds

variable {c : Meeting P} {d : Dialogue P} {x : Correspondence P (Recorder E)} {sender : Origin}

theorem mem_unheard {item : Bytes × Message} (member : item ∈ x.unheard sender) :
    item ∈ (x.station sender).sent ∧
      item.2.inner.ratchetKey ∉ (x.station sender.other).heard := by
  obtain ⟨sent, unheard⟩ := List.mem_filter.1 member
  exact ⟨sent, of_decide_eq_true unheard⟩

/-- Who has sent something unheard is one epoch ahead of the recipient, or the recipient waits. -/
theorem seated_of_mem_unheard (h : Corresponds c d x) {item : Bytes × Message}
    (member : item ∈ x.unheard sender) :
    ∃ k e s counter, Seated d k e s (x.station sender) ∧ Missive d item k e counter ∧
      ((x.station sender.other).session = none ∨ ∃ i e₀ t, k = i + 1 ∧ turn i = sender.other ∧
        Seated d i e₀ t (x.station sender.other)) := by
  obtain ⟨sent, unheard⟩ := mem_unheard member
  obtain ⟨n, held⟩ := List.mem_iff_getElem?.1 sent
  obtain ⟨k, e, counter, own, letter, -⟩ := (h.outbox sender).letters n item held
  have inside := (List.getElem?_eq_some_iff.1 letter.epoch).1
  have last : d.epochs.length = k + 1 ∧ ((x.station sender.other).session = none ∨
      ∃ i e₀ t, k = i + 1 ∧ turn i = sender.other ∧
        Seated d i e₀ t (x.station sender.other)) := by
    cases h.sits sender.other with
    | waits _ none _ awaits =>
      have one : d.epochs.length = 1 := by rw [awaits.epochs]; rfl
      exact ⟨by omega, .inl none⟩
    | @seated i e₀ t their seated =>
      have latest := seated.attends.latest
      have turns : turn k ≠ turn i := by
        rw [own, their]
        exact sender.other_ne.symm
      have after : ¬ k < i := fun before => unheard <| (seated.heard _).2
        ⟨k, e, before, turns, letter.epoch, (congrArg Prod.fst letter.place_eq).symm⟩
      have away : k ≠ i := fun same => turns (congrArg turn same)
      exact ⟨by omega, .inr ⟨i, e₀, t, by omega, their, seated⟩⟩
  cases h.sits sender with
  | waits responder _ _ awaits =>
    have one : d.epochs.length = 1 := by rw [awaits.epochs]; rfl
    obtain rfl : k = 0 := by omega
    exact absurd (own.trans responder) (by decide)
  | @seated j e' s own' seated =>
    have inside' := (List.getElem?_eq_some_iff.1 seated.attends.epoch).1
    have latest := seated.attends.latest
    have parity := (turn_eq_iff k j).1 (own.trans own'.symm)
    obtain rfl : j = k := by omega
    cases letter.epoch.symm.trans seated.attends.epoch
    exact ⟨j, e, s, counter, seated, letter, last.2⟩

section Prior

variable {i : Nat} {e₀ e : Epoch} {t : Session P}

theorem remoteKey_cases (h : Corresponds c d x) (attends : Attends d i e₀ t) :
    (i = 0 ∧ t.sending.remoteKey = c.signed.keyPair.publicKey) ∨
      ∃ j e₁, i = j + 1 ∧ d.epochs[j]? = some e₁ ∧ t.sending.remoteKey = e₁.key P := by
  have peer : t.sending.remoteKey = e₀.peer := by rw [attends.sending]
  rw [peer]
  cases i with
  | zero => exact .inl ⟨rfl, h.proceeds.signed e₀ attends.epoch⟩
  | succ j =>
    obtain ⟨inside, -⟩ := List.getElem?_eq_some_iff.1 attends.epoch
    have there : d.epochs[j]? = some d.epochs[j] := List.getElem?_eq_getElem (by omega)
    exact .inr ⟨j, d.epochs[j], rfl, there,
      (h.proceeds.sound.linked j _ _ there attends.epoch).peer⟩

theorem sentUnder_signed_eq_zero (h : Corresponds c d x)
    (unused : c.signed.keyPair.publicKey ∉ x.source.keys P) :
    x.sentUnder sender c.signed.keyPair.publicKey = 0 := by
  refine List.countP_eq_zero.2 fun item member same => unused ?_
  obtain ⟨n, held⟩ := List.mem_iff_getElem?.1 member
  obtain ⟨k, e, counter, -, letter, -⟩ := (h.outbox sender).letters n item held
  have key : e.key P = c.signed.keyPair.publicKey :=
    (congrArg Prod.fst letter.place_eq).symm.trans (of_decide_eq_true same)
  exact key ▸ h.drawn e (List.mem_of_getElem? letter.epoch)

theorem previous_eq_sentUnder (h : Corresponds c d x)
    (unused : c.signed.keyPair.publicKey ∉ x.source.keys P)
    (their : turn i = sender.other) (attends : Attends d i e₀ t)
    (next : d.epochs[i + 1]? = some e) :
    e.previous.toNat = x.sentUnder sender t.sending.remoteKey := by
  rcases h.remoteKey_cases attends with ⟨rfl, signed⟩ | ⟨j, e₁, rfl, there, last⟩
  · rw [signed, h.sentUnder_signed_eq_zero unused, h.proceeds.first 1 e (Nat.lt_succ_self 1) next]
    rfl
  · have own : turn j = sender := by
      rw [← (turn j).other_other, ← turn_succ, their, sender.other_other]
    rw [last]
    exact (h.proceeds.settled j e next).trans ((h.outbox sender).count j e₁ own there).symm

theorem remoteKey_ne_key (h : Corresponds c d x)
    (unused : c.signed.keyPair.publicKey ∉ x.source.keys P) (attends : Attends d i e₀ t)
    (next : d.epochs[i + 1]? = some e) : t.sending.remoteKey ≠ e.key P := by
  intro same
  rcases h.remoteKey_cases attends with ⟨-, signed⟩ | ⟨j, e₁, rfl, there, last⟩
  · rw [← signed, same] at unused
    exact unused (h.drawn e (List.mem_of_getElem? next))
  · have place := h.proceeds.sound.distinct j (j + 2) e₁ e (turn_add_two j).symm there next
      (last.symm.trans same)
    omega

theorem prior_follows (h : Corresponds c d x) (unused : c.signed.keyPair.publicKey ∉ x.source.keys P)
    (their : turn i = sender.other) (attends : Attends d i e₀ t) (last : d.epochs.length = i + 2)
    (next : d.epochs[i + 1]? = some e) {e₂ : Epoch} {counter : UInt32} {t' : Session P}
    (attends' : Attends ((d.grow e₂).hear (i + 1) counter) (i + 2) e₂ t')
    (passed : ∀ chain ∈ t'.receiving, chain.remoteKey ≠ e.key P → chain.remoteKey = e₀.peer →
      e.previous ≤ chain.index)
    {prior : ReceivingChain} (found : t'.chain? t.sending.remoteKey = some prior) :
    ∃ j e₁, turn j = sender ∧ d.epochs[j]? = some e₁ ∧ t.sending.remoteKey = e₁.key P ∧
      Follows P e₁.start (d.opened j) prior ∧ prior.index.toNat = d.sent j := by
  have member := List.mem_of_find?_eq_some found
  have remote := Session.chain?_remoteKey found
  have peer : t.sending.remoteKey = e₀.peer := by rw [attends.sending]
  have differ := h.remoteKey_ne_key unused attends next
  obtain ⟨j, e₁, lt, turns, there, is, tracks⟩ := attends'.chains prior member
  have epoch : d.epochs[j]? = some e₁ :=
    (List.getElem?_append_left (by omega)).symm.trans there
  have own : turn j = sender := by
    rw [turn_add_two, their] at turns
    exact (Origin.eq_other turns).trans sender.other_other
  have key : t.sending.remoteKey = e₁.key P := remote.symm.trans is
  have away : j ≠ i + 1 := by
    rintro rfl
    cases epoch.symm.trans next
    exact differ key
  refine ⟨j, e₁, own, epoch, key, ?_, Nat.le_antisymm tracks.sent ?_⟩
  · simpa only [Dialogue.hear, Dialogue.grow, if_neg away] using tracks.follows
  · have announced := h.previous_eq_sentUnder unused their attends next
    rw [key] at announced
    rw [← (h.outbox sender).count j e₁ own epoch]
    refine Nat.le_trans (Nat.le_of_eq announced.symm) (UInt32.le_iff_toNat_le.1 ?_)
    exact passed prior member (remote ▸ differ) (remote.trans peer)

variable [Randomness E] {limits : Limits} {item : Bytes × Message} {counter : UInt32}
  {opened : Bytes} {t' : Session P} {source : Recorder E}

theorem decrypt_closes (laws : P.Lawful) (limited : limits.validate = .ok ()) (h : Corresponds c d x)
    (unused : c.signed.keyPair.publicKey ∉ x.source.keys P) (their : turn i = sender.other)
    (seated : Seated d i e₀ t (x.station sender.other)) (letter : Missive d item (i + 1) e counter)
    (room : t.hasRoom limits (x.station sender.other).heard item.2.inner = true)
    (ok : t.decrypt limits item.2.inner x.source = .ok (opened, t') source) :
    opened = item.1 ∧ x.Closed sender limits t t' := by
  have sound := h.proceeds.sound
  have attends := seated.attends
  have last := attends.length_of_next letter.epoch
  rw [letter.inner_eq] at ok room
  obtain ⟨e₂, -, -, -, same, attends', keys, passed⟩ := attends.of_decrypt_next laws limited sound
    last letter.epoch letter.was letter.fits (attends.fits_of_hasRoom sound letter.epoch room)
    (h.proceeds.sent_lt i) ok
  have tracked := fun {prior} (found : t'.chain? t.sending.remoteKey = some prior) =>
    h.prior_follows unused their attends last letter.epoch attends' passed found
  refine ⟨same, ⟨fun many sent => ?_, fun prior found => ?_,
    fun prior found n other held key late => ?_⟩⟩
  · have positive : 0 < i := by
      rcases h.remoteKey_cases attends with ⟨-, signed⟩ | ⟨j, _, rfl, -⟩
      · rw [signed, h.sentUnder_signed_eq_zero unused] at sent
        exact absurd sent (Nat.lt_irrefl 0)
      · exact Nat.succ_pos j
    obtain ⟨before, held⟩ := List.getLast?_eq_some_iff.1 (seated.newest positive)
    obtain ⟨most, is⟩ := Nat.exists_eq_add_of_le many
    have kept : t.sending.remoteKey ∈ t'.remoteKeys := by
      rw [keys, held, is, show 2 + most = most + 1 + 1 by omega, List.rtake_concat_succ,
        List.rtake_concat_succ, attends.sending]
      simp
    by_contra gone
    exact Session.chain?_eq_none.1 (Option.not_isSome_iff_eq_none.1 gone) kept
  · obtain ⟨j, e₁, own, epoch, key, -, index⟩ := tracked found
    rw [index, key]
    exact ((h.outbox sender).count j e₁ own epoch).symm
  · obtain ⟨j, e₁, own, epoch, last, follows, index⟩ := tracked found
    obtain ⟨j', e', counter', own', letter', heard⟩ := (h.outbox sender).letters n other held
    have key' : e'.key P = e₁.key P :=
      (congrArg Prod.fst letter'.place_eq).symm.trans (key.trans last)
    obtain rfl := sound.distinct j' j e' e₁ (own'.trans own.symm) letter'.epoch epoch key'
    cases letter'.epoch.symm.trans epoch
    have behind : counter' < prior.index := UInt32.lt_iff_toNat_lt.2 (index ▸ letter'.was)
    refine ⟨keyAt P e₁.start counter', (d.binding j' e₁ counter').toBytes, ?_, ?_⟩
    · rw [letter'.inner_eq]
      exact (follows.filed counter').trans (if_pos ⟨behind, fun member => late (heard.2 member)⟩)
    · rw [letter'.inner_eq]
      rfl

theorem decrypt_next_ok (laws : P.Lawful) (limited : limits.validate = .ok ()) (h : Corresponds c d x)
    (seated : Seated d i e₀ t (x.station sender.other)) (letter : Missive d item (i + 1) e counter)
    (room : t.hasRoom limits (x.station sender.other).heard item.2.inner = true)
    (near : item.2.inner.counter ≤ limits.maxSkip)
    (jump : ∀ prior, t.chain? t.sending.remoteKey = some prior →
      item.2.inner.previousCounter.toNat - prior.index.toNat ≤ limits.maxSkip.toNat)
    {seed : Octets 32} (draw : Randomness.draw 32 x.source = .ok seed source) :
    ∃ t', t.decrypt limits item.2.inner x.source = .ok (item.1, t') source := by
  have attends := seated.attends
  have last := attends.length_of_next letter.epoch
  have peer : t.sending.remoteKey = e₀.peer := by rw [attends.sending]
  rw [letter.inner_eq] at room near jump ⊢
  rw [peer] at jump
  have space := attends.fits_of_hasRoom h.proceeds.sound letter.epoch room
  obtain ⟨chains, held⟩ := Limits.validate_eq_ok limited
  obtain ⟨fresh, contributes, -⟩ := laws.agrees seed e.seed
  have few : counter.toNat ≤ limits.maxSkip.toNat := UInt32.le_iff_toNat_le.1 near
  obtain ⟨t', _, opened, -⟩ := attends.decrypt_next laws.commutes h.proceeds.sound last letter.epoch
    letter.was (fun prior found => ⟨jump prior found, space prior found⟩) few (by omega) chains
    (h.proceeds.sent_lt i) (Nat.lt_of_lt_of_le letter.was (h.proceeds.whole (i + 1))) letter.fits draw
    contributes
  exact ⟨t', opened⟩

end Prior

variable [Randomness E]

theorem toLockstep (laws : P.Lawful) (valid : c.Valid) (h : Corresponds c d x)
    (unused : c.signed.keyPair.publicKey ∉ x.source.keys P) (sender : Origin) :
    c.Lockstep x sender where
  current item member := by
    obtain ⟨k, e, s, counter, seated, letter, -⟩ := h.seated_of_mem_unheard member
    refine ⟨s, seated.session, ?_⟩
    rw [Session.sendingKey, seated.attends.sending]
    exact congrArg Prod.fst letter.place_eq
  announced t there item member := by
    obtain ⟨k, e, s, counter, -, letter, none | ⟨i, e₀, t', rfl, their, seated⟩⟩ :=
      h.seated_of_mem_unheard member
    · cases none.symm.trans there
    · cases there.symm.trans seated.session
      rw [letter.inner_eq]
      exact h.previous_eq_sentUnder unused their seated.attends letter.epoch
  answers s t own there unheard := by
    obtain ⟨item, member⟩ := List.exists_mem_of_ne_nil _ unheard
    obtain ⟨k, e, s', counter, seated, letter, none | ⟨i, e₀, t', rfl, -, their⟩⟩ :=
      h.seated_of_mem_unheard member
    · cases none.symm.trans there
    · cases there.symm.trans their.session
      cases own.symm.trans seated.session
      have linked := h.proceeds.sound.linked i e₀ e their.attends.epoch letter.epoch
      rw [Session.sendingKey, seated.attends.sending, their.attends.sending]
      exact linked.peer
  advances t there item member room := by
    obtain ⟨k, e, s, counter, -, letter, none | ⟨i, e₀, t', rfl, their, seated⟩⟩ :=
      h.seated_of_mem_unheard member
    · cases none.symm.trans there
    · cases there.symm.trans seated.session
      have limited := valid.limits sender.other
      exact ⟨fun near jump seed source draw =>
          h.decrypt_next_ok laws limited seated letter room near jump draw,
        fun opened t' source ok => h.decrypt_closes laws limited unused their seated letter room ok⟩

end Corresponds

/-- At every moment of a run in which every move keeps within the limits and all key pairs are
different, both directions are in lockstep. -/
theorem Meeting.lockstep [Randomness E] (laws : P.Lawful) {c : Meeting P} (valid : c.Valid)
    {source : E} {x : Correspondence P (Recorder E)} (begun : c.begin (.ofSource source) = .ok x)
    {moves : List Move} (within : c.within x moves = true)
    (distinct : (c.signed.keyPair.publicKey :: (c.run x moves).source.keys P).Nodup)
    (sender : Origin) : c.Lockstep (c.run x moves) sender := by
  obtain ⟨unused, apart⟩ := List.nodup_cons.1 distinct
  obtain ⟨_, start⟩ := Corresponds.exists_of_begin laws valid begun
  obtain ⟨_, now⟩ := start.run laws valid within apart
  exact now.toLockstep laws valid unused sender

def newcomersMeeting : Meeting Suite.plain :=
  ⟨⟨Ticker.seed 32 0⟩, ⟨Ticker.seed 32 1000⟩, newcomerSigned 1000, some (newcomerOneTime 1000),
    (newcomer 1000).store, fun _ => {}⟩

/-- The first of two messages is left out, the second answered, and two more sent in reply. -/
def newcomersMoves : List Move :=
  [.send .initiator [1], .send .initiator [2], .deliver .responder 1, .send .responder [3],
    .deliver .initiator 0, .send .initiator [4], .send .initiator [5]]

/-- Whether the moves keep the limits, all pairs drawn are different, and the responder has not heard
of the last two messages. -/
def newcomersKeep (x : Correspondence Suite.plain (Recorder Ticker)) : Bool :=
  newcomersMeeting.within x newcomersMoves &&
    decide (newcomersMeeting.signed.keyPair.publicKey ::
      (newcomersMeeting.run x newcomersMoves).source.keys Suite.plain).Nodup &&
    ((newcomersMeeting.run x newcomersMoves).unheard .initiator).length == 2

set_option maxRecDepth 100000 in
theorem newcomers_keep :
    (newcomersMeeting.begin (Recorder.ofSource (⟨3⟩ : Ticker))).toOption.any newcomersKeep = true := by
  decide +kernel

theorem newcomers_lockstep : ∃ x, newcomersMeeting.begin (Recorder.ofSource (⟨3⟩ : Ticker)) = .ok x ∧
    ((newcomersMeeting.run x newcomersMoves).unheard .initiator).length = 2 ∧
    ∀ sender, newcomersMeeting.Lockstep (newcomersMeeting.run x newcomersMoves) sender := by
  have valid : newcomersMeeting.Valid := by
    refine ⟨rfl, ?_, rfl, ?_, fun _ => rfl⟩
    all_goals
      rintro key ⟨⟩
      rfl
  have keep := newcomers_keep
  cases begun : newcomersMeeting.begin (Recorder.ofSource (⟨3⟩ : Ticker)) with
  | error error =>
    rw [begun] at keep
    cases keep
  | ok x =>
    rw [begun] at keep
    simp only [Except.toOption, Option.any_some, newcomersKeep, Bool.and_eq_true, decide_eq_true_eq,
      beq_iff_eq] at keep
    obtain ⟨⟨within, distinct⟩, two⟩ := keep
    exact ⟨x, rfl, two,
      Meeting.lockstep Suite.plain_lawful valid begun within distinct⟩

end RatchetSession
