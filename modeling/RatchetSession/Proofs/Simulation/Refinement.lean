import Mathlib.Data.List.InsertIdx
import RatchetSession.Simulation.Reference
import RatchetSession.Proofs.Exchange.Parties
import RatchetSession.Proofs.Padding
import RatchetSession.Proofs.Simulation.Creation
set_option autoImplicit false

namespace RatchetSession

open Reference (World)
open RatchetSession.Computation (bind_of_ok bind_of_error)

variable {P : Suite} {E : Type} [Randomness E] {couple : Couple P} {source : E}

namespace Dispatch

def shadow (entry : Nat × Dispatch) : Reference.Parcel :=
  ⟨entry.1, entry.2.sender.other, entry.2.plaintext⟩

def inSlot (flight : List (Nat × Dispatch)) (slot : UInt8) : Option (Nat × Nat × Dispatch) := do
  let position ← slotPosition flight.length slot
  let entry ← flight[position]?
  return (position, entry)

theorem courier_find? (flight : List (Nat × Dispatch)) (next : Nat) (slot : UInt8) :
    Courier.find? ⟨flight.map (parcel couple), next⟩ slot =
      (inSlot flight slot).map fun found => (found.1, parcel couple found.2) := by
  unfold Courier.find? inSlot
  rw [List.length_map]
  cases slotPosition flight.length slot with
  | none => rfl
  | some position =>
    simp only [Option.bind_eq_bind, Option.bind_some, List.getElem?_map]
    cases flight[position]? <;> rfl

theorem world_find? {w : World} {flight : List (Nat × Dispatch)}
    (same : w.inFlight = flight.map shadow) (slot : UInt8) :
    w.find? slot = (inSlot flight slot).map fun found => (found.1, shadow found.2) := by
  unfold World.find? inSlot
  rw [same, List.length_map]
  cases slotPosition flight.length slot with
  | none => rfl
  | some position =>
    simp only [Option.bind_eq_bind, Option.bind_some, List.getElem?_map]
    cases flight[position]? <;> rfl

theorem mem_of_inSlot {flight : List (Nat × Dispatch)} {slot : UInt8} {position : Nat}
    {entry : Nat × Dispatch} (found : inSlot flight slot = some (position, entry)) :
    entry ∈ flight := by
  unfold inSlot at found
  cases place : slotPosition flight.length slot with
  | none =>
    rw [place] at found
    cases found
  | some there =>
    cases held : flight[there]? with
    | none => simp [place, held] at found
    | some other =>
      simp only [place, held, Option.bind_eq_bind, Option.bind_some, Option.pure_def,
        Option.some.injEq, Prod.mk.injEq] at found
      exact found.2 ▸ List.mem_of_getElem? held

end Dispatch

/-- The network and the reference world are in the same state: what is in flight are the same
letters, those delivered were opened, and the sides that have a session know of the dialogue. -/
structure Mirrors (couple : Couple P) (source : E) (l : Ledger P) (sent : List Dispatch)
    (st : Side → Store P) (flight : List (Nat × Dispatch)) (now : E) (w : World) : Prop where
  agrees : l.Agrees couple st
  trail : Trail P source l.keys now
  single : ∃ base, l.bases = [base]
  mailbox : l.Mailbox sent (· ∈ w.delivered)
  numbered : ∀ entry ∈ flight, sent[entry.1]? = some entry.2
  inFlight : w.inFlight = flight.map Dispatch.shadow
  next : w.next = sent.length
  started : l.Knows .first
  answered : w.answered = true ↔ l.Knows .second

namespace Mirrors

variable {l : Ledger P} {sent : List Dispatch} {st : Side → Store P}
  {flight : List (Nat × Dispatch)} {now : E} {w : World}

def network (couple : Couple P) (st : Side → Store P) (flight : List (Nat × Dispatch)) (next : Nat)
    (now : E) : Network P E :=
  couple.network st ⟨flight.map (Dispatch.parcel couple), next⟩ now

theorem hasSession (h : Mirrors couple source l sent st flight now w) (side : Side) :
    w.hasSession side = true ↔ l.Knows side := by
  cases side
  · exact ⟨fun _ => h.started, fun _ => rfl⟩
  · exact h.answered

/-- Only the one dialogue is there to stray from. -/
theorem not_strays (h : Mirrors couple source l sent st flight now w) {side : Side} {t : Talk P}
    {e : Epoch} {letter : Letter} (found : l.talks letter.base = some t) :
    ¬ Ledger.Strays couple l t st side e letter now := by
  rintro ⟨_, _, _, _, _, _, _, _, stray⟩
  obtain ⟨other, away, there⟩ := stray.another
  obtain ⟨t', found'⟩ := Option.isSome_iff_exists.1 there
  obtain ⟨base, only⟩ := h.single
  have one := h.agrees.bases _ t found
  have two := h.agrees.bases _ t' found'
  rw [only, List.mem_singleton] at one two
  exact away (two.trans one.symm)

theorem content_short (content : Content) :
    2 * ((Padding.pad content.toBytes).length + tagSize) + 500 ≤ Envelope.maxPayload := by
  have short : content.toBytes.length ≤ 200 := by
    simp only [Content.toBytes, List.length_map, List.length_range, Content.length]
    repeat' split
    all_goals omega
  have padded : (Padding.pad content.toBytes).length ≤ 400 := by
    simp only [Padding.length_pad, Padding.blockSize]
    omega
  simp only [tagSize, Envelope.maxPayload]
  omega

/-- One operation gives the same outcome in both, and leaves both in the same state. -/
def Matches (couple : Couple P) (source : E) (sends deliveries : Nat) (result : Network.Event × Network P E)
    (expected : Outcome × World) : Prop :=
  result.1.outcome = expected.1 ∧ ∃ l sent st flight now,
    result.2 = network couple st flight sent.length now ∧
    Mirrors couple source l sent st flight now expected.2 ∧ l.sends ≤ sends ∧ l.deliveries ≤ deliveries

theorem send_known (laws : P.Lawful) (h : Mirrors couple source l sent st flight now w)
    {sender : Side} (content : Content) (room : l.sends < (couple.limits sender).maxSkip.toNat)
    (has : w.hasSession sender = true) :
    Matches couple source (l.sends + 1) l.deliveries
      ((network couple st flight sent.length now).apply (.send sender content))
      (w.send sender content) := by
  rcases h.agrees.dispatch laws h.mailbox.mail ((h.hasSession sender).1 has) room content.toBytes now with
    ⟨item, does, rfl, spoken, sealing, follows, agrees, mail, unopened, opened, knows⟩ |
    ⟨large, _⟩ | ⟨long, _⟩
  case lost => exact absurd (content_short content) (Nat.not_le.2 large)
  case refused =>
    have short := content_short content
    have ample := laws.ample
    omega
  rename_i store l'
  have posted := Network.send_does ⟨flight.map (Dispatch.parcel couple), sent.length⟩ does
  have operated : Network.operate (.send item.sender content)
      (network couple st flight sent.length now) =
        .ok (.sent sent.length item.bytes) (network couple (setStore st item.sender store)
          (flight ++ [(sent.length, item)]) (sent.length + 1) now) := by
    refine (bind_of_ok posted).trans ?_
    simp [network, Courier.post, Dispatch.parcel, pure, EStateM.pure]
  have applied : (network couple st flight sent.length now).apply (.send item.sender content) = _ :=
    Network.apply_of_ok operated
  refine ⟨by rw [applied, World.send, if_pos has]; rfl, l', sent ++ [item],
    setStore st item.sender store, flight ++ [(sent.length, item)], now,
    by rw [applied, List.length_append]; rfl, ?_, Nat.le_of_eq follows.sends,
    Nat.le_of_eq follows.deliveries⟩
  · simp only [World.send, if_pos has]
    refine ⟨agrees, ?_, ?_, h.mailbox.post mail unopened opened fun _ => Iff.rfl,
      fun entry member => ?_, ?_, ?_, (knows .first).2 h.started,
      h.answered.trans (knows .second).symm⟩
    · rw [follows.keys]
      exact h.trail.draw (.nil now)
    · rw [follows.bases]
      exact h.single
    · rcases List.mem_append.1 member with old | new
      · have there := h.numbered entry old
        obtain ⟨inside, -⟩ := List.getElem?_eq_some_iff.1 there
        rwa [List.getElem?_append_left inside]
      · cases List.mem_singleton.1 new
        exact List.getElem?_concat_length
    · simp [h.inFlight, Dispatch.shadow, h.next, spoken]
    · simp [h.next]

theorem send_unknown (h : Mirrors couple source l sent st flight now w) {sender : Side}
    (content : Content) (has : ¬ w.hasSession sender = true) :
    Matches couple source l.sends l.deliveries
      ((network couple st flight sent.length now).apply (.send sender content))
      (w.send sender content) := by
  have unknown : ¬ l.Knows sender := fun knows => has ((h.hasSession sender).2 knows)
  have refused := Network.send_fails ⟨flight.map (Dispatch.parcel couple), sent.length⟩
    (h.agrees.send_unknown unknown content.toBytes now)
  rw [setStore_id] at refused
  have applied : (network couple st flight sent.length now).apply (.send sender content) = _ :=
    Network.apply_of_error (bind_of_error refused)
  refine ⟨by rw [applied, World.send, if_neg has]; rfl, l, sent, st, flight, now, by rw [applied]; rfl,
    ?_, Nat.le_refl _, Nat.le_refl _⟩
  rw [World.send, if_neg has]
  exact h

theorem erase (h : Mirrors couple source l sent st flight now w) (position : Nat) :
    Mirrors couple source l sent st (flight.eraseIdx position) now
      { w with inFlight := w.inFlight.eraseIdx position } :=
  { h with
    numbered := fun entry member => h.numbered entry (List.mem_of_mem_eraseIdx member)
    inFlight := by simp only [h.inFlight, List.eraseIdx_map] }

theorem append (h : Mirrors couple source l sent st flight now w) {entry : Nat × Dispatch}
    (there : sent[entry.1]? = some entry.2) :
    Mirrors couple source l sent st (flight ++ [entry]) now
      { w with inFlight := w.inFlight ++ [Dispatch.shadow entry] } :=
  { h with
    numbered := fun other member => by
      rcases List.mem_append.1 member with old | new
      · exact h.numbered other old
      · exact List.mem_singleton.1 new ▸ there
    inFlight := by simp only [h.inFlight, List.map_append, List.map_cons, List.map_nil] }

theorem courier_duplicate (couple : Couple P) (flight : List (Nat × Dispatch)) (next : Nat)
    (slot : UInt8) :
    Courier.duplicate ⟨flight.map (Dispatch.parcel couple), next⟩ slot =
      (Dispatch.inSlot flight slot).map fun found =>
        (found.2.1, ⟨(flight ++ [found.2]).map (Dispatch.parcel couple), next⟩) := by
  unfold Courier.duplicate
  rw [Dispatch.courier_find?]
  cases Dispatch.inSlot flight slot with
  | none => rfl
  | some found => simp [Dispatch.parcel]

theorem courier_take (couple : Couple P) (flight : List (Nat × Dispatch)) (next : Nat)
    (slot : UInt8) :
    Courier.take ⟨flight.map (Dispatch.parcel couple), next⟩ slot =
      (Dispatch.inSlot flight slot).map fun found => (Dispatch.parcel couple found.2,
        ⟨(flight.eraseIdx found.1).map (Dispatch.parcel couple), next⟩) := by
  unfold Courier.take
  rw [Dispatch.courier_find?]
  cases Dispatch.inSlot flight slot with
  | none => rfl
  | some found => simp [List.eraseIdx_map]

theorem courier_lose (couple : Couple P) (flight : List (Nat × Dispatch)) (next : Nat)
    (slot : UInt8) :
    Courier.lose ⟨flight.map (Dispatch.parcel couple), next⟩ slot =
      (Dispatch.inSlot flight slot).map fun found =>
        (found.2.1, ⟨(flight.eraseIdx found.1).map (Dispatch.parcel couple), next⟩) := by
  unfold Courier.lose
  rw [courier_take]
  cases Dispatch.inSlot flight slot with
  | none => rfl
  | some found => simp [Dispatch.parcel]

theorem duplicate (h : Mirrors couple source l sent st flight now w) (slot : UInt8) :
    Matches couple source l.sends l.deliveries
      ((network couple st flight sent.length now).apply (.duplicate slot))
      (.idle, w.duplicate slot) := by
  have applied : (network couple st flight sent.length now).apply (.duplicate slot) = _ :=
    Network.apply_of_ok (Network.operate_duplicate _ slot)
  have couriered := courier_duplicate couple flight sent.length slot
  have found := Dispatch.world_find? h.inFlight slot
  cases held : Dispatch.inSlot flight slot with
  | none =>
    rw [held] at couriered found
    refine ⟨by rw [applied]; rfl, l, sent, st, flight, now, ?_, ?_, Nat.le_refl _, Nat.le_refl _⟩
    · rw [applied]
      simp only [network, Couple.network, couriered]
      rfl
    · simp only [World.duplicate, found]
      exact h
  | some place =>
    rw [held] at couriered found
    refine ⟨by rw [applied]; rfl, l, sent, st, flight ++ [place.2], now, ?_, ?_, Nat.le_refl _,
      Nat.le_refl _⟩
    · rw [applied]
      simp only [network, Couple.network, couriered]
      rfl
    · simp only [World.duplicate, found]
      exact h.append (h.numbered _ (Dispatch.mem_of_inSlot held))

theorem lose (h : Mirrors couple source l sent st flight now w) (slot : UInt8) :
    Matches couple source l.sends l.deliveries
      ((network couple st flight sent.length now).apply (.lose slot)) (.idle, w.lose slot) := by
  have applied : (network couple st flight sent.length now).apply (.lose slot) = _ :=
    Network.apply_of_ok (Network.operate_lose _ slot)
  have couriered := courier_lose couple flight sent.length slot
  have found := Dispatch.world_find? h.inFlight slot
  cases held : Dispatch.inSlot flight slot with
  | none =>
    rw [held] at couriered found
    refine ⟨by rw [applied]; rfl, l, sent, st, flight, now, ?_, ?_, Nat.le_refl _, Nat.le_refl _⟩
    · rw [applied]
      simp only [network, Couple.network, couriered]
      rfl
    · simp only [World.lose, found]
      exact h
  | some place =>
    rw [held] at couriered found
    refine ⟨by rw [applied]; rfl, l, sent, st, flight.eraseIdx place.1, now, ?_, ?_, Nat.le_refl _,
      Nat.le_refl _⟩
    · rw [applied]
      simp only [network, Couple.network, couriered]
      rfl
    · simp only [World.lose, found]
      exact h.erase place.1

theorem collect (laws : P.Lawful) (steady : Steady source)
    (h : Mirrors couple source l sent st flight now w)
    (sends : ∀ side, l.sends ≤ (couple.limits side).maxSkip.toNat)
    (deliveries : ∀ side, l.deliveries < (couple.limits side).maxReceiverChains)
    {entry : Nat × Dispatch} (there : sent[entry.1]? = some entry.2) :
    Ledger.Collected couple l st entry.2.sender.other entry.2 now := by
  obtain ⟨t, e, written⟩ := h.mailbox.mail.written entry.2 (List.mem_of_getElem? there)
  obtain ⟨base, only⟩ := h.single
  have within : l.Within couple := by
    refine ⟨sends, deliveries, fun side => ?_⟩
    rw [only]
    exact Nat.le_add_left 1 _
  exact h.agrees.collect laws within written (Side.other_other _).symm (h.trail.steady steady)
    (h.not_strays written.talk)

theorem of_continues (h : Mirrors couple source l sent st flight now w) {l' : Ledger P}
    {seeds : List (Octets 32)} {later : E} {sends deliveries : Nat} (drawn : Drawn now seeds later)
    (follows : l.Continues l' (publicKeys P seeds) sends deliveries) (agrees : l'.Agrees couple st)
    (opened : ∀ letter, l'.Opened letter ↔ l.Opened letter)
    (knows : ∀ any, l'.Knows any ↔ l.Knows any) :
    Mirrors couple source l' sent st flight later w where
  agrees := agrees
  trail := by
    rw [follows.keys]
    exact h.trail.draw drawn
  single := by
    rw [follows.bases]
    exact h.single
  mailbox := h.mailbox.mono follows.grows (fun item _ => opened item.letter) fun _ => Iff.rfl
  numbered := h.numbered
  inFlight := h.inFlight
  next := h.next
  started := (knows .first).2 h.started
  answered := h.answered.trans (knows .second).symm

theorem mark_delivered (h : Mirrors couple source l sent st flight now w) {l' : Ledger P}
    {st' : Side → Store P} {seeds : List (Octets 32)} {later : E} {sends deliveries number : Nat}
    {item : Dispatch} (there : sent[number]? = some item) (drawn : Drawn now seeds later)
    (follows : l.Continues l' (publicKeys P seeds) sends deliveries)
    (agrees : l'.Agrees couple st')
    (opened : ∀ letter, l'.Opened letter ↔ l.Opened letter ∨ letter.Same item.letter) :
    Mirrors couple source l' sent st' flight later
      { w with
        delivered := number :: w.delivered
        answered := w.answered || item.sender.other == .second } := by
  have now_opened : l'.Opened item.letter := (opened _).2 (.inr ⟨rfl, rfl, rfl⟩)
  refine ⟨agrees, ?_, ?_, h.mailbox.deliver follows.grows there opened fun m => ?_, h.numbered,
    h.inFlight, h.next, h.started.grow follows.grows, ?_⟩
  · rw [follows.keys]
    exact h.trail.draw drawn
  · rw [follows.bases]
    exact h.single
  · exact List.mem_cons.trans or_comm
  · refine ⟨fun _ => agrees.knows_of_opened now_opened .second, fun _ => ?_⟩
    -- either the second side has opened it, or it has sent it
    cases by_whom : item.sender with
    | first => simp [Side.other]
    | second =>
      obtain ⟨t, e, written⟩ := h.mailbox.mail.written item (List.mem_of_getElem? there)
      rw [h.answered.2 (by_whom ▸ written.sender_knows)]
      rfl

theorem deliver (laws : P.Lawful) (steady : Steady source)
    (h : Mirrors couple source l sent st flight now w)
    (sends : ∀ side, l.sends ≤ (couple.limits side).maxSkip.toNat)
    (deliveries : ∀ side, l.deliveries < (couple.limits side).maxReceiverChains) (slot : UInt8)
    (distinct : DistinctPairs P source
      ((network couple st flight sent.length now).apply (.deliver slot)).2.source) :
    Matches couple source l.sends (l.deliveries + 1)
      ((network couple st flight sent.length now).apply (.deliver slot)) (w.deliver slot) := by
  have taken := courier_take couple flight sent.length slot
  have found := Dispatch.world_find? h.inFlight slot
  cases held : Dispatch.inSlot flight slot with
  | none =>
    rw [held] at taken found
    have applied : (network couple st flight sent.length now).apply (.deliver slot) = _ :=
      Network.apply_of_ok (Network.operate_deliver_none taken)
    refine ⟨?_, l, sent, st, flight, now, by rw [applied], ?_, Nat.le_refl _, Nat.le_succ _⟩
    · simp only [applied, World.deliver, found]
      rfl
    · simp only [World.deliver, found]
      exact h
  | some place =>
    obtain ⟨position, number, item⟩ := place
    rw [held] at taken found
    have there := h.numbered _ (Dispatch.mem_of_inSlot held)
    rcases h.collect laws steady sends deliveries there with
      ⟨drawn, old, fails, follows, agrees, opened, knows⟩ |
      ⟨drawn, new, does, follows, agrees, opened⟩
    · rename_i seeds source' l'
      have handed := Network.hand_fails ⟨(flight.eraseIdx position).map (Dispatch.parcel couple),
        sent.length⟩ (number, item) fails
      rw [setStore_id] at handed
      have applied : (network couple st flight sent.length now).apply (.deliver slot) = _ :=
        Network.apply_of_error (Network.operate_deliver_error taken handed)
      have known : w.delivered.contains number = true :=
        List.contains_iff_mem.2 ((h.mailbox.opened number item there).2 old)
      refine ⟨?_, l', sent, st, flight.eraseIdx position, source', by rw [applied]; rfl, ?_,
        Nat.le_of_eq follows.sends, Nat.le_of_eq follows.deliveries⟩
      · simp only [applied, World.deliver, found, Option.map_some, Dispatch.shadow, if_pos known]
        rfl
      · simp only [World.deliver, found, Option.map_some, Dispatch.shadow, if_pos known]
        exact (h.erase position).of_continues drawn follows agrees opened knows
    · rename_i seeds source' store l'
      have handed := Network.hand_does ⟨(flight.eraseIdx position).map (Dispatch.parcel couple),
        sent.length⟩ (number, item) does
      have applied : (network couple st flight sent.length now).apply (.deliver slot) = _ :=
        Network.apply_of_ok (Network.operate_deliver_ok taken handed)
      rw [applied] at distinct
      have unknown : ¬ w.delivered.contains number = true := fun known =>
        new ((h.mailbox.opened number item there).1 (List.contains_iff_mem.1 known))
      refine ⟨?_, l', sent, setStore st item.sender.other store, flight.eraseIdx position, source',
        by rw [applied]; rfl, ?_, Nat.le_of_eq follows.sends, Nat.le_of_eq follows.deliveries⟩
      · simp only [applied, World.deliver, found, Option.map_some, Dispatch.shadow, if_neg unknown]
        rfl
      · simp only [World.deliver, found, Option.map_some, Dispatch.shadow, if_neg unknown]
        exact (h.erase position).mark_delivered there drawn follows
          (agrees (h.trail.keys_notMem drawn distinct)) opened

end Mirrors

end RatchetSession
