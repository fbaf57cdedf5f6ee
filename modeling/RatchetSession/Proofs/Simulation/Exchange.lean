import RatchetSession.Simulation.Exchange
import RatchetSession.Proofs.Exchange.Parties
import RatchetSession.Proofs.Session.Binding
import RatchetSession.Proofs.Simulation.Creation
import RatchetSession.Proofs.Suite.Laws
set_option autoImplicit false

namespace RatchetSession

open RatchetSession.Computation (bind_of_ok)

variable {P : Suite} {couple : Couple P} {l l' : Ledger P} {side : Side}

def Couple.offer (couple : Couple P) (owner : Side) (oneTime : Option PreKey) : Offer P :=
  ⟨owner, .ofKeys ((couple.identity owner).key P) (couple.party owner).signedPreKey oneTime⟩

theorem Couple.oneTimeId_offer (couple : Couple P) (owner : Side) (oneTime : Option PreKey) :
    (couple.offer owner oneTime).oneTimeId = oneTime.map (·.id) := by
  cases oneTime <;> rfl

namespace Ledger

variable {offers : List (Offer P)} {used : List Nat}

/-- The bundles published: each names a one-time pre-key of its own, spare until it is used. -/
structure Shelf (couple : Couple P) (l : Ledger P) (offers : List (Offer P)) (used : List Nat) :
    Prop where
  bundles : ∀ (n : Nat) (offer : Offer P), offers[n]? = some offer → ∃ oneTime,
    offer = couple.offer offer.owner oneTime ∧
      (n ∉ used → ∀ key ∈ oneTime, key ∈ l.spare offer.owner)
  apart : ∀ (n m : Nat) (a b : Offer P), offers[n]? = some a → offers[m]? = some b →
    a.owner = b.owner → ∀ id, a.oneTimeId = some id → b.oneTimeId = some id → n = m
  ids : ∀ side, ∀ id ∈ l.ids side, ∃ offer ∈ offers, offer.owner = side ∧ offer.oneTimeId = some id

namespace Shelf

theorem empty (none : ∀ side, l.ids side = []) : l.Shelf couple [] [] := by
  refine ⟨fun n offer found => ?_, fun n m a b one => ?_, fun side id member => ?_⟩
  · cases found
  · cases one
  · rw [none] at member
    cases member

theorem of_same (h : l.Shelf couple offers used) (spare : l'.spare = l.spare) (ids : l'.ids = l.ids) :
    l'.Shelf couple offers used :=
  ⟨by rw [spare]; exact h.bundles, h.apart, by rw [ids]; exact h.ids⟩

theorem publish (h : l.Shelf couple offers used) {owner : Side} {oneTime : Option PreKey}
    (fresh : ∀ key ∈ oneTime, ∀ offer ∈ offers, offer.owner = owner → offer.oneTimeId ≠ some key.id)
    (spare : ∀ side, ∀ key ∈ l.spare side, key ∈ l'.spare side)
    (held : ∀ key ∈ oneTime, key ∈ l'.spare owner)
    (ids : ∀ side, ∀ id ∈ l'.ids side,
      id ∈ l.ids side ∨ owner = side ∧ oneTime.map (·.id) = some id) :
    l'.Shelf couple (offers ++ [couple.offer owner oneTime]) used := by
  have unlike : ∀ (n : Nat) (offer : Offer P), offers[n]? = some offer → offer.owner = owner → ∀ id,
      offer.oneTimeId = some id → (couple.offer owner oneTime).oneTimeId ≠ some id := by
    intro n offer found owned id one two
    rw [Couple.oneTimeId_offer] at two
    obtain ⟨key, named, rfl⟩ := Option.map_eq_some_iff.1 two
    exact fresh key named offer (List.mem_of_getElem? found) owned one
  refine ⟨fun n offer found => ?_, fun n m a b one two owned id left right => ?_,
    fun side id member => ?_⟩
  · rcases getElem?_concat_eq_some.1 found with old | ⟨-, rfl⟩
    · obtain ⟨oneTime', is, unused⟩ := h.bundles n offer old
      exact ⟨oneTime', is, fun free key named => spare _ key (unused free key named)⟩
    · exact ⟨oneTime, rfl, fun _ => held⟩
  · rcases getElem?_concat_eq_some.1 one with first | ⟨rfl, rfl⟩ <;>
      rcases getElem?_concat_eq_some.1 two with second | ⟨rfl, rfl⟩
    · exact h.apart n m a b first second owned id left right
    · exact absurd right (unlike n a first owned id left)
    · exact absurd left (unlike m b second owned.symm id right)
    · rfl
  · rcases ids side id member with old | ⟨rfl, named⟩
    · obtain ⟨offer, there, owned⟩ := h.ids side id old
      exact ⟨offer, List.mem_append_left _ there, owned⟩
    · exact ⟨_, List.mem_append_right _ (List.mem_singleton_self _), rfl,
        (couple.oneTimeId_offer owner oneTime).trans named⟩

theorem use (h : l.Shelf couple offers used) {n : Nat} {t : Talk P}
    (found : offers[n]? = some (couple.offer t.starter.other t.oneTime)) (base : PublicKey) :
    (l.begin base t).Shelf couple offers (n :: used) := by
  refine ⟨fun m offer there => ?_, h.apart, h.ids⟩
  obtain ⟨oneTime, is, unused⟩ := h.bundles m offer there
  refine ⟨oneTime, is, fun free key named => ?_⟩
  simp only [List.mem_cons, not_or] at free
  refine mem_spare_begin_of_ne (unused free.2 key named) fun same taken isTaken id => free.1 ?_
  refine h.apart m n offer _ there found same key.id ?_ ?_
  · rw [is, Couple.oneTimeId_offer, show oneTime = some key from named, Option.map_some]
  · rw [Couple.oneTimeId_offer, show t.oneTime = some taken from isTaken, Option.map_some, id]

end Shelf

structure Counted (l : Ledger P) (past : List Act) : Prop where
  starts : l.bases.length ≤ past.countP (·.isStart)
  sends : l.sends ≤ past.countP (·.isSend)
  deliveries : l.deliveries ≤ past.countP (·.isDeliver)

theorem Counted.append {past : List Act} (h : l.Counted past) (act : Act)
    (starts : l'.bases.length ≤ l.bases.length + act.isStart.toNat)
    (sends : l'.sends ≤ l.sends + act.isSend.toNat)
    (deliveries : l'.deliveries ≤ l.deliveries + act.isDeliver.toNat) :
    l'.Counted (past ++ [act]) := by
  have counted : ∀ p : Act → Bool, (past ++ [act]).countP p = past.countP p + (p act).toNat := by
    intro p
    rw [List.countP_append, List.countP_singleton]
    cases p act <;> rfl
  obtain ⟨starts', sends', deliveries'⟩ := h
  refine ⟨?_, ?_, ?_⟩ <;> rw [counted] <;> omega

theorem Counted.of_continues {past : List Act} (h : l.Counted past) {fresh : List PublicKey}
    {sends deliveries : Nat} (follows : l.Continues l' fresh sends deliveries) (act : Act)
    (sent : act.isSend.toNat = sends) (delivered : act.isDeliver.toNat = deliveries) :
    l'.Counted (past ++ [act]) := by
  refine h.append act ?_ ?_ ?_
  · rw [follows.bases]
    exact Nat.le_add_right _ _
  · exact Nat.le_of_eq (by rw [follows.sends, sent])
  · exact Nat.le_of_eq (by rw [follows.deliveries, delivered])

end Ledger

theorem Store.current?_eq {store : Store P} {remote : Address} {r : Record P}
    (held : store.loadRecord remote = .ok (some r)) : store.current? remote = r.current := by
  unfold current?
  rw [held]

/-- The limits leave room for all that the acts start, send and deliver. -/
structure Roomy (limits : Side → Limits) (acts : List Act) : Prop where
  starts : ∀ side, acts.countP (·.isStart) ≤ (limits side).maxArchivedStates
  sends : ∀ side, acts.countP (·.isSend) ≤ (limits side).maxSkip.toNat
  deliveries : ∀ side, acts.countP (·.isDeliver) ≤ (limits side).maxReceiverChains

theorem Roomy.of_append {limits : Side → Limits} {acts more : List Act}
    (h : Roomy limits (acts ++ more)) : Roomy limits acts := by
  have fewer : ∀ p : Act → Bool, acts.countP p ≤ (acts ++ more).countP p := fun p => by
    rw [List.countP_append]
    exact Nat.le_add_right _ _
  exact ⟨fun side => Nat.le_trans (fewer _) (h.starts side),
    fun side => Nat.le_trans (fewer _) (h.sends side),
    fun side => Nat.le_trans (fewer _) (h.deliveries side)⟩

def Dispatch.log (couple : Couple P) (sent : List Dispatch) : Courier :=
  ⟨sent.mapIdx fun n item => Dispatch.parcel couple (n, item), sent.length⟩

theorem Dispatch.log_concat (couple : Couple P) (sent : List Dispatch) (item : Dispatch) :
    ((log couple sent).post (couple.address item.sender) (couple.address item.sender.other)
      item.bytes).2 = log couple (sent ++ [item]) := by
  simp [log, Courier.post, List.mapIdx_concat, Dispatch.parcel]

def Dispatch.posted (item : Dispatch) : Posted := ⟨item.sender, item.plaintext, some item.sealed⟩

variable {E : Type} [Randomness E] {source now : E} {past : List Act} {sent : List Dispatch}
  {st : Side → Store P} {x : Exchange P E}

namespace Exchange

/-- The exchange is what these acts have made of it, and the ledger tells of them. -/
structure Recorded (couple : Couple P) (source : E) (past : List Act) (l : Ledger P)
    (sent : List Dispatch) (st : Side → Store P) (now : E) (x : Exchange P E) : Prop where
  net : x.net = couple.network st (Dispatch.log couple sent) now
  posted : x.posted = sent.map Dispatch.posted
  agrees : l.Agrees couple st
  trail : Trail P source l.keys now
  shelf : l.Shelf couple x.offers x.used
  mailbox : l.Mailbox sent fun n => .deliver n ∈ past
  counted : l.Counted past

def Reached (couple : Couple P) (source : E) (past : List Act) (x : Exchange P E) : Prop :=
  ∃ l sent st now, Recorded couple source past l sent st now x

theorem deliver_mem_append {act : Act} (other : act.isDeliver = false) (n : Nat) :
    .deliver n ∈ past ++ [act] ↔ Act.deliver n ∈ past := by
  rw [List.mem_append, List.mem_singleton]
  refine or_iff_left ?_
  rintro rfl
  cases other

theorem Recorded.publish_none (h : Recorded couple source past l sent st now x) (owner : Side) :
    Reached couple source (past ++ [.publish owner none]) (x.step (.publish owner none)) := by
  have performed := Network.perform_does couple st owner (Dispatch.log couple sent)
    (fun party => party.publish none) (h.agrees.publish_none owner now)
  rw [setStore_id, ← h.net] at performed
  refine ⟨l, sent, st, now, ?_⟩
  simp only [Exchange.step, performed]
  exact ⟨h.net, h.posted, h.agrees, h.trail, h.shelf.publish nofun (fun _ _ held => held) nofun
    (fun _ _ old => .inl old),
    h.mailbox.mono (.of_talks rfl) (fun _ _ => Iff.rfl) (deliver_mem_append rfl),
    h.counted.append _ (Nat.le_refl _) (Nat.le_refl _) (Nat.le_refl _)⟩

theorem Recorded.publish_some (steady : Steady source)
    (h : Recorded couple source past l sent st now x)
    (owner : Side) (id : UInt32) (permitted : x.permits (.publish owner (some id)) = true) :
    Reached couple source (past ++ [.publish owner (some id)]) (x.step (.publish owner (some id))) := by
  have unlike : ∀ offer ∈ x.offers, offer.owner = owner → offer.oneTimeId ≠ some id := by
    intro offer member owned named
    simpa [owned, named] using List.all_eq_true.1 permitted offer member
  have fresh : id ∉ l.ids owner := by
    intro old
    obtain ⟨offer, member, owned, named⟩ := h.shelf.ids owner id old
    exact unlike offer member owned named
  obtain ⟨seed, source', draw, does, agrees⟩ :=
    h.agrees.publish owner id fresh (h.trail.steady steady)
  have performed := Network.perform_does couple st owner (Dispatch.log couple sent)
    (fun party => party.publish (some id)) does
  rw [← h.net] at performed
  refine ⟨l.offer owner ⟨id, .ofSeed P seed⟩, sent,
    setStore st owner ((st owner).addPreKey ⟨id, .ofSeed P seed⟩), source', ?_⟩
  simp only [Exchange.step, performed]
  refine ⟨rfl, h.posted, agrees, h.trail.draw (.one draw), h.shelf.publish ?_ ?_ ?_ ?_,
    h.mailbox.mono (.of_talks rfl) (fun _ _ => Iff.rfl) (deliver_mem_append rfl),
    h.counted.append _ (Nat.le_refl _) (Nat.le_refl _) (Nat.le_refl _)⟩
  · rintro key ⟨⟩ offer member owned
    exact unlike offer member owned
  · exact fun _ _ held => Ledger.mem_spare_offer held
  · rintro key ⟨⟩
    simp [Ledger.offer]
  · exact fun _ _ => Ledger.of_mem_ids_offer

theorem Recorded.start (laws : P.Lawful) (steady : Steady source)
    (h : Recorded couple source past l sent st now x) (starter : Side) (number : Nat)
    (permitted : x.permits (.start starter number) = true)
    (room : Roomy couple.limits (past ++ [.start starter number]))
    (distinct : DistinctPairs P source (x.step (.start starter number)).net.source) :
    Reached couple source (past ++ [.start starter number]) (x.step (.start starter number)) := by
  obtain ⟨offer, found, owner, free⟩ : ∃ offer, x.offers[number]? = some offer ∧
      offer.owner = starter.other ∧ (offer.oneTimeId = none ∨ number ∉ x.used) := by
    simp only [Exchange.permits] at permitted
    split at permitted
    · cases permitted
    · rename_i offer found
      simp only [Bool.and_eq_true, beq_iff_eq, Bool.or_eq_true, Option.isNone_iff_eq_none,
        Bool.not_eq_true', List.contains_eq_mem, decide_eq_false_iff_not] at permitted
      exact ⟨offer, found, permitted⟩
  obtain ⟨oneTime, is, unused⟩ := h.shelf.bundles number offer found
  rw [owner] at is unused
  have held : ∀ key ∈ oneTime, key ∈ l.spare starter.other := by
    intro key named
    refine unused (free.resolve_left fun none => ?_) key named
    rw [is, Couple.oneTimeId_offer, show oneTime = some key from named] at none
    cases none
  have few : l.bases.length ≤ (couple.limits starter).maxArchivedStates :=
    Nat.le_trans h.counted.starts (room.of_append.starts starter)
  obtain ⟨seed, source', store, t, draw, does, rfl, rfl, unknown, agrees⟩ :=
    h.agrees.start laws starter held few (h.trail.steady steady)
  have began := Network.start_does (Dispatch.log couple sent) does
  rw [← h.net] at began
  have stepped : x.step (.start t.starter number) =
      { x with
        net := couple.network (setStore st t.starter store) (Dispatch.log couple sent) source'
        used := number :: x.used } := by
    simp only [Exchange.step, found]
    rw [is]
    simp only [Couple.offer, began]
  rw [stepped] at distinct ⊢
  have fresh : (KeyPair.ofSeed P seed).publicKey ∉ l.keys := fun old =>
    h.trail.keys_notMem (.one draw) distinct _ old (List.mem_singleton_self _)
  have unused := h.agrees.talks_eq_none fresh
  refine ⟨l.begin (KeyPair.ofSeed P seed).publicKey t, sent, setStore st t.starter store, source',
    rfl, h.posted, agrees fresh, h.trail.draw (.one draw), h.shelf.use (is ▸ found) _,
    h.mailbox.mono (Ledger.grows_begin unused t) (fun item member => ?_) (deliver_mem_append rfl),
    h.counted.append _ (Nat.le_refl _) (Nat.le_refl _) (Nat.le_refl _)⟩
  obtain ⟨t₁, e, written⟩ := h.mailbox.mail.written item member
  refine Ledger.opened_congr (Ledger.put_of_ne l t fun same => ?_)
  have there := written.talk
  rw [same, unused] at there
  cases there

theorem Recorded.sealing_eq (h : Recorded couple source past l sent st now x) {sender : Side}
    {bound : Bytes} (sealed : ∃ r s, (st sender).loadRecord (couple.address sender.other) =
      .ok (some r) ∧ r.current = some s ∧ s.sealing.toBytes = bound) :
    x.sealing sender = some bound := by
  obtain ⟨r, s, held, is, rfl⟩ := sealed
  have looked : x.sealing sender =
      ((st sender).current? (couple.address sender.other)).bind fun s => some s.sealing.toBytes := by
    unfold Exchange.sealing
    rw [h.net]
    cases sender <;> rfl
  rw [looked, Store.current?_eq held, is, Option.bind_some]

theorem Recorded.send_nothing (h : Recorded couple source past l sent st now x) {sender : Side}
    {plaintext : Bytes} {error : SessionError}
    (fails : Fails ((couple.party sender).send (couple.address sender.other) plaintext) (st sender)
      now error (st sender) now) :
    Reached couple source (past ++ [.send sender plaintext]) (x.step (.send sender plaintext)) := by
  have failed := Network.send_fails (Dispatch.log couple sent) fails
  rw [setStore_id, ← h.net] at failed
  refine ⟨l, sent, st, now, ?_⟩
  simp only [Exchange.step, failed]
  exact ⟨h.net, h.posted, h.agrees, h.trail, h.shelf,
    h.mailbox.mono (.of_talks rfl) (fun _ _ => Iff.rfl) (deliver_mem_append rfl),
    h.counted.append _ (Nat.le_refl _) (Nat.le_succ _) (Nat.le_refl _)⟩

theorem Recorded.send (laws : P.Lawful) (h : Recorded couple source past l sent st now x)
    (sender : Side) (plaintext : Bytes) (room : Roomy couple.limits (past ++ [.send sender plaintext])) :
    Reached couple source (past ++ [.send sender plaintext]) (x.step (.send sender plaintext)) := by
  by_cases knows : l.Knows sender
  · have few : l.sends < (couple.limits sender).maxSkip.toNat := by
      refine Nat.lt_of_le_of_lt h.counted.sends (Nat.lt_of_lt_of_le ?_ (room.sends sender))
      simp [Act.isSend]
    rcases h.agrees.dispatch laws h.mailbox.mail knows few plaintext now with
      ⟨item, does, rfl, rfl, sealing, follows, agrees, mail, unopened, opened, -⟩ |
      ⟨-, fails, follows, agrees, mail, opened, -⟩ | ⟨-, fails⟩
    · rename_i store l'
      have done := Network.send_does (Dispatch.log couple sent) does
      rw [← h.net, Dispatch.log_concat] at done
      refine ⟨l', sent ++ [item], setStore st item.sender store, now, ?_⟩
      simp only [Exchange.step, done, h.sealing_eq sealing]
      refine ⟨rfl, ?_, agrees, follows.trail h.trail (.nil now),
        h.shelf.of_same follows.spare follows.ids,
        h.mailbox.post mail unopened opened (deliver_mem_append rfl),
        h.counted.of_continues follows _ rfl rfl⟩
      rw [h.posted, List.map_append]
      rfl
    · rename_i error store l'
      have failed := Network.send_fails (Dispatch.log couple sent) fails
      rw [← h.net] at failed
      refine ⟨l', sent, setStore st sender store, now, ?_⟩
      simp only [Exchange.step, failed]
      exact ⟨rfl, h.posted, agrees, follows.trail h.trail (.nil now),
        h.shelf.of_same follows.spare follows.ids,
        h.mailbox.mono follows.grows (fun _ _ => opened _) (deliver_mem_append rfl),
        h.counted.of_continues follows _ rfl rfl⟩
    · exact h.send_nothing fails
  · exact h.send_nothing (h.agrees.send_unknown knows plaintext now)

theorem Recorded.opening_eq (h : Recorded couple source past l sent st now x) {n : Nat}
    {item : Dispatch} (there : sent[n]? = some item) {t : Talk P} {e : Epoch}
    (written : l.Written item t e) {plaintext : Bytes} {store : Store P} {source' : E}
    (does : Does ((couple.conversation item.sender.other).decrypt (t.write e item.letter))
      (st item.sender.other) now plaintext store source') {r : Record P} {next : Session P}
    (held : store.loadRecord (couple.address item.sender.other.other) = .ok (some r))
    (is : r.current = some next) :
    x.opening n = (next.opening (t.write e item.letter).inner).map (·.toBytes) := by
  have named : couple.conversation item.sender.other =
      (couple.party item.sender.other).conversation (couple.address item.sender) := by
    rw [Couple.conversation, Side.other_other]
  rw [named] at does
  rw [Side.other_other] at held
  obtain ⟨calls, ran⟩ : ∃ calls, ((couple.party item.sender.other).conversation
      (couple.address item.sender)).decrypt (t.write e item.letter) ⟨st item.sender.other, .none,
        (couple.network st (Dispatch.log couple sent) now).source⟩ =
      .ok plaintext ⟨store, .quiet calls, source'⟩ := does 0
  have parcel : (Dispatch.log couple sent).inFlight[n]? = some (Dispatch.parcel couple (n, item)) := by
    simp [Dispatch.log, there]
  have place := Network.findIdx?_address couple st item.sender.other (Dispatch.log couple sent) now
  have member : (couple.network st (Dispatch.log couple sent) now).members[
      Network.place item.sender.other]? =
        some ⟨couple.party item.sender.other, st item.sender.other⟩ := by
    cases item.sender <;> rfl
  have decoded : (Envelope.decode item.bytes).toOption = some (t.write e item.letter) := by
    rw [Envelope.decode_encode written.encoded]
    rfl
  unfold Exchange.opening
  rw [h.net, show (couple.network st (Dispatch.log couple sent) now).courier.inFlight[n]? = _ from
    parcel]
  simp only [Option.bind_eq_bind, Option.bind_some, Dispatch.parcel, place, member, decoded, ran,
    Store.current?_eq held, is]
  cases next.opening (t.write e item.letter).inner <;> rfl

theorem Recorded.not_strays (h : Recorded couple source past l sent st now x) {n : Nat}
    {item : Dispatch} (there : sent[n]? = some item) {t : Talk P} {e : Epoch} (written : l.Written item t e)
    (genuine : x.genuine (.deliver n) = true) :
    ¬ Ledger.Strays couple l t st item.sender.other e item.letter now := by
  rintro ⟨plaintext, store, source', r, next, does, held, is, stray⟩
  obtain ⟨chain, found, elsewhere⟩ := stray.chain
  obtain ⟨bound, bound_to, receiver⟩ : ∃ bound : Binding P,
      next.opening (t.write e item.letter).inner = some bound ∧ bound.receiverKey = chain.localKey := by
    have same : next.chain? (t.dialogue.message item.letter.epoch e item.letter.counter
        item.letter.plaintext).ratchetKey = some chain := found
    rw [t.write_inner, Session.opening, same]
    exact ⟨_, rfl, rfl⟩
  have opened := h.opening_eq there written does held is
  rw [bound_to, Option.map_some] at opened
  have sealed : (x.posted[n]?).bind (·.sealed) = some item.sealed := by
    rw [h.posted, List.getElem?_map, there]
    rfl
  simp only [Exchange.genuine, opened, sealed, beq_iff_eq, Option.some.injEq] at genuine
  rw [written.sealed] at genuine
  exact elsewhere (receiver.symm.trans (Binding.receiverKey_of_toBytes genuine).symm)

theorem Recorded.ledger_within (h : Recorded couple source past l sent st now x) {n : Nat}
    (room : Roomy couple.limits (past ++ [.deliver n])) : l.Within couple := by
  refine ⟨fun side => Nat.le_trans h.counted.sends (room.of_append.sends side), fun side => ?_,
    fun side => Nat.le_succ_of_le (Nat.le_trans h.counted.starts (room.of_append.starts side))⟩
  refine Nat.lt_of_le_of_lt h.counted.deliveries (Nat.lt_of_lt_of_le ?_ (room.deliveries side))
  simp [Act.isDeliver]

theorem Recorded.deliver (h : Recorded couple source past l sent st now x) {n : Nat} {item : Dispatch}
    (there : sent[n]? = some item) {l' : Ledger P} {st' : Side → Store P} {later : E}
    {seeds : List (Octets 32)} (drawn : Drawn now seeds later)
    (follows : l.Continues l' (publicKeys P seeds) 0 1) (agrees : l'.Agrees couple st')
    (opened : ∀ letter, l'.Opened letter ↔ l.Opened letter ∨ letter.Same item.letter) :
    Recorded couple source (past ++ [.deliver n]) l' sent st' later
      { x with net := couple.network st' (Dispatch.log couple sent) later } := by
  have now_past : ∀ m, .deliver m ∈ past ++ [.deliver n] ↔ Act.deliver m ∈ past ∨ m = n := by
    simp
  exact ⟨rfl, h.posted, agrees, follows.trail h.trail drawn,
    h.shelf.of_same follows.spare follows.ids,
    h.mailbox.deliver follows.grows there opened now_past, h.counted.of_continues follows _ rfl rfl⟩

theorem Reached.deliver (laws : P.Lawful) (steady : Steady source) (h : Reached couple source past x)
    (n : Nat) (permitted : x.permits (.deliver n) = true) (genuine : x.genuine (.deliver n) = true)
    (room : Roomy couple.limits (past ++ [.deliver n]))
    (distinct : DistinctPairs P source (x.deliver n).2.net.source) :
    Reached couple source (past ++ [.deliver n]) (x.deliver n).2 ∧
    ∃ item, x.posted[n]? = some item ∧
      (.deliver n ∉ past → (x.deliver n).1 = .ok item.plaintext) ∧
      (.deliver n ∈ past → ∃ counter,
        (x.deliver n).1 = .error (.failed (.duplicateMessage counter)) ∧
        (x.deliver n).2.net.members = x.net.members) := by
  obtain ⟨l, sent, st, now, h⟩ := h
  obtain ⟨item, there⟩ : ∃ item, sent[n]? = some item := by
    have inside : n < sent.length := by simpa [Exchange.permits, h.posted] using permitted
    exact ⟨_, List.getElem?_eq_getElem inside⟩
  have posted : x.posted[n]? = some item.posted := by
    rw [h.posted, List.getElem?_map, there]
    rfl
  obtain ⟨t, e, written⟩ := h.mailbox.mail.written item (List.mem_of_getElem? there)
  have parcel : x.net.courier.inFlight[n]? = some (Dispatch.parcel couple (n, item)) := by
    simp [h.net, Couple.network, Dispatch.log, there]
  rcases h.agrees.collect laws (h.ledger_within room) written (Side.other_other _).symm
      (h.trail.steady steady) (h.not_strays there written genuine) with
    ⟨drawn, old, fails, follows, agrees, opened, -⟩ | ⟨drawn, new, does, follows, agrees, opened⟩
  · rename_i seeds source' l'
    have handed := Network.hand_fails (Dispatch.log couple sent) (n, item) fails
    rw [setStore_id, ← h.net] at handed
    have delivered : x.deliver n = (.error (.failed (.duplicateMessage item.letter.counter)),
        { x with net := couple.network st (Dispatch.log couple sent) source' }) := by
      simp only [Exchange.deliver, parcel, handed]
    rw [delivered]
    have again : ∀ letter, l'.Opened letter ↔ l.Opened letter ∨ letter.Same item.letter :=
      fun letter => (opened letter).trans ⟨.inl, fun either => either.elim id old.of_same⟩
    refine ⟨⟨l', sent, st, source', h.deliver there drawn follows agrees again⟩, item.posted, posted,
      fun first => absurd ?_ first, fun _ => ⟨_, rfl, by rw [h.net]; rfl⟩⟩
    exact (h.mailbox.opened n item there).2 old
  · rename_i seeds source' store l'
    have handed := Network.hand_does (Dispatch.log couple sent) (n, item) does
    rw [← h.net] at handed
    have delivered : x.deliver n = (.ok item.plaintext, { x with
        net := couple.network (setStore st item.sender.other store) (Dispatch.log couple sent)
          source' }) := by
      simp only [Exchange.deliver, parcel, handed]
    rw [delivered] at distinct ⊢
    have agreed := agrees (h.trail.keys_notMem drawn distinct)
    refine ⟨⟨l', sent, setStore st item.sender.other store, source',
      h.deliver there drawn follows agreed opened⟩, item.posted, posted, fun _ => rfl,
      fun again => absurd ?_ new⟩
    exact (h.mailbox.opened n item there).1 again

/-- Every act keeps to the rules when it is done, opens nothing but what was sealed so, and the key
pairs drawn are all different. -/
def Fair (source : E) : Exchange P E → List Act → Prop
  | x, [] => DistinctPairs P source x.net.source
  | x, act :: acts => DistinctPairs P source x.net.source ∧ x.permits act = true ∧
      x.genuine act = true ∧ Fair source (x.step act) acts

theorem Fair.distinctPairs {acts : List Act} (h : Fair source x acts) :
    DistinctPairs P source x.net.source := by
  cases acts with
  | nil => exact h
  | cons act acts => exact h.1

theorem Reached.step (laws : P.Lawful) (steady : Steady source) (h : Reached couple source past x)
    (act : Act) (permitted : x.permits act = true) (genuine : x.genuine act = true)
    (room : Roomy couple.limits (past ++ [act]))
    (distinct : DistinctPairs P source (x.step act).net.source) :
    Reached couple source (past ++ [act]) (x.step act) := by
  obtain ⟨l, sent, st, now, recorded⟩ := id h
  cases act with
  | publish owner oneTimeId =>
    cases oneTimeId with
    | none => exact recorded.publish_none owner
    | some id => exact recorded.publish_some steady owner id permitted
  | start starter number => exact recorded.start laws steady starter number permitted room distinct
  | send sender plaintext => exact recorded.send laws sender plaintext room
  | deliver n => exact (h.deliver laws steady n permitted genuine room distinct).1

theorem Reached.run (laws : P.Lawful) (steady : Steady source) {acts rest : List Act}
    (h : Reached couple source past x) (fair : Fair source x (acts ++ rest))
    (room : Roomy couple.limits (past ++ acts)) :
    Reached couple source (past ++ acts) (x.run acts) ∧ Fair source (x.run acts) rest := by
  induction acts generalizing past x with
  | nil => exact ⟨by rw [List.append_nil]; exact h, fair⟩
  | cons act acts ih =>
    obtain ⟨-, permitted, genuine, fair⟩ := fair
    rw [List.append_cons] at room ⊢
    exact ih (h.step laws steady act permitted genuine room.of_append fair.distinctPairs) fair room

theorem begin_reached (names : Side → String) (apart : names .first ≠ names .second)
    (limits : Side → Limits) (valid : ∀ side, (limits side).validate = .ok ())
    (steady : Steady source) :
    ∃ (couple : Couple P) (x : Exchange P E), begin P names limits source = .ok x ∧
      couple.limits = limits ∧ Reached couple source [] x := by
  obtain ⟨identity, pairs, now, drawn, created⟩ :=
    Network.create_ok (P := P) names limits valid apart steady
  let couple := Couple.ofSeeds P names limits valid apart identity pairs
  let st : Side → Store P := fun side => .ofSeeds P (identity side) (pairs side)
  let x : Exchange P E := ⟨couple.network st .empty now, [], [], []⟩
  have begun : begin P names limits source = .ok x := by simp only [begin, created, x, couple, st]
  have recorded : Recorded couple source [] (.initial couple) [] st now x :=
    ⟨rfl, rfl, Ledger.initial_agrees names limits valid apart identity pairs,
      ⟨_, _, _, _, _, drawn, rfl⟩, .empty fun _ => rfl, Ledger.Mailbox.empty _ fun _ => List.not_mem_nil,
      ⟨Nat.le_refl _, Nat.le_refl _, Nat.le_refl _⟩⟩
  exact ⟨couple, x, begun, rfl, _, _, _, _, recorded⟩

/-- Whatever sessions two parties start, and however their messages are reordered, repeated and
lost: the first delivery of a message gives its plaintext, and every later one is refused as a
duplicate and changes no store. -/
theorem delivers_once (laws : P.Lawful) {names : Side → String} (apart : names .first ≠ names .second)
    {limits : Side → Limits} (valid : ∀ side, (limits side).validate = .ok ())
    (steady : Steady source) {acts : List Act} {n : Nat} (room : Roomy limits (acts ++ [.deliver n]))
    (fair : ∀ x, begin P names limits source = .ok x → Fair source x (acts ++ [.deliver n])) :
    ∃ x item, begin P names limits source = .ok x ∧ (x.run acts).posted[n]? = some item ∧
      (.deliver n ∉ acts → ((x.run acts).deliver n).1 = .ok item.plaintext) ∧
      (.deliver n ∈ acts → ∃ counter,
        ((x.run acts).deliver n).1 = .error (.failed (.duplicateMessage counter)) ∧
        ((x.run acts).deliver n).2.net.members = (x.run acts).net.members) := by
  obtain ⟨couple, x, begun, rfl, reached⟩ := begin_reached (P := P) names apart limits valid steady
  obtain ⟨later, -, permitted, genuine, distinct⟩ :=
    reached.run laws steady (fair x begun) room.of_append
  obtain ⟨-, item, posted, first, again⟩ :=
    later.deliver laws steady n permitted genuine room distinct
  exact ⟨x, item, begun, posted, first, again⟩

def checked : Exchange .plain Ticker → List Act → Bool
  | x, [] => x.net.source.drawn ≤ 2 ^ 64
  | x, act :: acts => x.net.source.drawn ≤ 2 ^ 64 && x.permits act && x.genuine act &&
      checked (x.step act) acts

theorem fair_of_checked {acts : List Act} {x : Exchange .plain Ticker} (h : x.checked acts = true) :
    Fair ⟨0⟩ x acts := by
  induction acts generalizing x with
  | nil => exact Ticker.distinctPairs (of_decide_eq_true h)
  | cons act acts ih =>
    simp only [checked, Bool.and_eq_true, decide_eq_true_eq] at h
    obtain ⟨⟨⟨few, permitted⟩, genuine⟩, rest⟩ := h
    exact ⟨Ticker.distinctPairs few, permitted, genuine, ih rest⟩

/-- Both sides start a session at the same time, and one of them another one before it has heard the
answer in the first. -/
def crossing : List Act :=
  [.publish .second none, .publish .first (some 1), .start .first 0, .start .second 1,
    .send .first [1], .deliver 0, .send .second [2], .start .first 0]

def callers : Side → String := Side.pick "alice" "bob"

set_option maxRecDepth 100000 in
theorem crossing_checked : (match begin .plain callers (fun _ => {}) (⟨0⟩ : Ticker) with
    | .error _ => true
    | .ok x => x.checked (crossing ++ [.deliver 1])) = true := by
  decide +kernel

theorem crossing_delivers : ∃ x item, begin .plain callers (fun _ => {}) (⟨0⟩ : Ticker) = .ok x ∧
    (x.run crossing).posted[1]? = some item ∧
      (.deliver 1 ∉ crossing → ((x.run crossing).deliver 1).1 = .ok item.plaintext) ∧
      (.deliver 1 ∈ crossing → ∃ counter,
        ((x.run crossing).deliver 1).1 = .error (.failed (.duplicateMessage counter)) ∧
        ((x.run crossing).deliver 1).2.net.members = (x.run crossing).net.members) := by
  refine delivers_once Suite.plain_lawful (by decide) (fun _ => rfl) (Ticker.steady _) ?_ fun x begun => ?_
  · exact ⟨fun _ => by decide, fun _ => by decide, fun _ => by decide⟩
  · have all := crossing_checked
    rw [begun] at all
    exact fair_of_checked all

end Exchange

end RatchetSession
