import RatchetSession.Simulation.Network
import RatchetSession.Proofs.Exchange.Mail
set_option autoImplicit false

namespace RatchetSession

open RatchetSession.Computation (bind_of_ok bind_of_error)

variable {P : Suite} {E α : Type} {couple : Couple P} {st : Side → Store P} {side : Side}
  {courier : Courier} {source source' : E} {store : Store P}

def Couple.network (couple : Couple P) (st : Side → Store P) (courier : Courier) (source : E) :
    Network P E :=
  ⟨[⟨couple.party .first, st .first⟩, ⟨couple.party .second, st .second⟩], courier, source⟩

def Dispatch.parcel (couple : Couple P) (entry : Nat × Dispatch) : Parcel :=
  ⟨entry.1, couple.address entry.2.sender, couple.address entry.2.sender.other, entry.2.bytes⟩

namespace Network

theorem member_place (couple : Couple P) (st : Side → Store P) (side : Side) (courier : Courier)
    (source : E) :
    (member (place side) : Step P E _) (couple.network st courier source) =
      .ok ⟨couple.party side, st side⟩ (couple.network st courier source) := by
  cases side <;> rfl

theorem set_place (couple : Couple P) (st : Side → Store P) (side : Side) (store : Store P)
    (courier : Courier) (source source' : E) :
    { couple.network st courier source with
      members := (couple.network st courier source).members.set (place side)
        ⟨couple.party side, store⟩
      source := source' } = couple.network (setStore st side store) courier source' := by
  cases side <;> rfl

theorem perform_does (couple : Couple P) (st : Side → Store P) (side : Side) (courier : Courier)
    (act : Party → Action P E α) {answer : α}
    (does : Does (act (couple.party side)) (st side) source answer store source') :
    perform (place side) act (couple.network st courier source) =
      .ok answer (couple.network (setStore st side store) courier source') := by
  obtain ⟨_, ran⟩ := does 0
  refine (bind_of_ok (member_place couple st side courier source)).trans ?_
  have now : act (couple.party side) ⟨st side, .none, source⟩ = .ok answer ⟨store, _, source'⟩ := ran
  simp only [Couple.network] at now ⊢
  simp only [now]
  exact congrArg _ (set_place couple st side store courier source source')

theorem perform_fails (couple : Couple P) (st : Side → Store P) (side : Side) (courier : Courier)
    (act : Party → Action P E α) {error : SessionError}
    (fails : Fails (act (couple.party side)) (st side) source error store source') :
    perform (place side) act (couple.network st courier source) =
      .error (.failed error) (couple.network (setStore st side store) courier source') := by
  obtain ⟨_, ran⟩ := fails 0
  refine (bind_of_ok (member_place couple st side courier source)).trans ?_
  have now : act (couple.party side) ⟨st side, .none, source⟩ = .error error ⟨store, _, source'⟩ :=
    ran
  simp only [Couple.network] at now ⊢
  simp only [now]
  exact congrArg _ (set_place couple st side store courier source source')

theorem address_place (couple : Couple P) (st : Side → Store P) (side : Side) (courier : Courier)
    (source : E) :
    (address (place side) : Step P E _) (couple.network st courier source) =
      .ok (couple.address side) (couple.network st courier source) := by
  cases side <;> rfl

theorem send_does (courier : Courier) {plaintext bytes : Bytes}
    (does : Does ((couple.party side).send (couple.address side.other) plaintext) (st side) source
      bytes store source') :
    send (place side) (place side.other) plaintext (couple.network st courier source) =
      .ok (courier.next, bytes) (couple.network (setStore st side store)
        (courier.post (couple.address side) (couple.address side.other) bytes).2 source') := by
  unfold send
  rw [bind_of_ok (address_place couple st side courier source),
    bind_of_ok (address_place couple st side.other courier source)]
  exact bind_of_ok (perform_does couple st side _ (fun party => party.send _ _) does)

theorem send_fails (courier : Courier) {plaintext : Bytes} {error : SessionError}
    (fails : Fails ((couple.party side).send (couple.address side.other) plaintext) (st side) source
      error store source') :
    send (place side) (place side.other) plaintext (couple.network st courier source) =
      .error (.failed error) (couple.network (setStore st side store) courier source') := by
  unfold send
  rw [bind_of_ok (address_place couple st side courier source),
    bind_of_ok (address_place couple st side.other courier source)]
  exact bind_of_error (perform_fails couple st side _ (fun party => party.send _ _) fails)

theorem get_eq (net : Network P E) : (get : Step P E _) net = .ok net net := rfl

theorem modify_eq (net : Network P E) (f : Network P E → Network P E) :
    (modify f : Step P E Unit) net = .ok () (f net) := rfl

theorem findIdx?_address (couple : Couple P) (st : Side → Store P) (side : Side) (courier : Courier)
    (source : E) :
    (couple.network st courier source).members.findIdx? (·.party.address == couple.address side) =
      some (place side) := by
  have apart := couple.apart .first
  cases side
  · simp [Couple.network, Couple.address, place, List.findIdx?_cons]
  · simp only [Side.other] at apart
    simp [Couple.network, Couple.address, place, List.findIdx?_cons, apart]

variable [Randomness E]

theorem start_does (courier : Courier) {bundle : Bundle P}
    (does : Does ((couple.party side).start (couple.address side.other) bundle) (st side) source ()
      store source') :
    start (place side) (place side.other) bundle (couple.network st courier source) =
      .ok () (couple.network (setStore st side store) courier source') := by
  unfold start
  rw [bind_of_ok (address_place couple st side.other courier source)]
  exact perform_does couple st side courier (fun party => party.start _ bundle) does

theorem hand_parcel (courier : Courier) (entry : Nat × Dispatch) (source : E) :
    hand id (Dispatch.parcel couple entry) (couple.network st courier source) =
      (perform (place entry.2.sender.other) (fun party =>
        party.receive (couple.address entry.2.sender) entry.2.bytes) >>= fun plaintext =>
          pure (entry.1, plaintext) : Step P E _) (couple.network st courier source) := by
  unfold hand
  rw [bind_of_ok (get_eq _)]
  have found := findIdx?_address couple st entry.2.sender.other courier source
  simp only [Dispatch.parcel, found]
  rfl

theorem hand_does (courier : Courier) (entry : Nat × Dispatch) {plaintext : Bytes}
    (does : Does ((couple.party entry.2.sender.other).receive
      (couple.address entry.2.sender.other.other) entry.2.bytes) (st entry.2.sender.other) source
      plaintext store source') :
    hand id (Dispatch.parcel couple entry) (couple.network st courier source) =
      .ok (entry.1, plaintext)
        (couple.network (setStore st entry.2.sender.other store) courier source') := by
  rw [Side.other_other] at does
  rw [hand_parcel]
  exact bind_of_ok (perform_does couple st _ _ (fun party => party.receive _ _) does)

theorem hand_fails (courier : Courier) (entry : Nat × Dispatch) {error : SessionError}
    (fails : Fails ((couple.party entry.2.sender.other).receive
      (couple.address entry.2.sender.other.other) entry.2.bytes) (st entry.2.sender.other) source
      error store source') :
    hand id (Dispatch.parcel couple entry) (couple.network st courier source) =
      .error (.failed error)
        (couple.network (setStore st entry.2.sender.other store) courier source') := by
  rw [Side.other_other] at fails
  rw [hand_parcel]
  exact bind_of_error (perform_fails couple st _ _ (fun party => party.receive _ _) fails)

theorem apply_of_ok {net net' : Network P E} {op : Operation} {event : Event}
    (h : operate op net = .ok event net') : net.apply op = (event, net') := by
  simp only [apply, h]

theorem apply_of_error {net net' : Network P E} {op : Operation} {trouble : Trouble}
    (h : operate op net = .error trouble net') : net.apply op = (.troubled trouble, net') := by
  simp only [apply, h]

theorem operate_deliver_none {net : Network P E} {slot : UInt8}
    (empty : net.courier.take slot = none) : operate (.deliver slot) net = .ok .idle net := by
  have handed : deliver slot id net = .ok none net := by
    unfold deliver
    rw [bind_of_ok (get_eq net)]
    simp only [empty]
    rfl
  exact (bind_of_ok handed).trans rfl

theorem operate_deliver_ok {net net' : Network P E} {slot : UInt8} {parcel : Parcel}
    {courier : Courier} {number : Nat} {plaintext : Bytes}
    (taken : net.courier.take slot = some (parcel, courier))
    (handed : hand id parcel { net with courier := courier } = .ok (number, plaintext) net') :
    operate (.deliver slot) net = .ok (.delivered number plaintext) net' := by
  have all : deliver slot id net = .ok (some (number, plaintext)) net' := by
    unfold deliver
    rw [bind_of_ok (get_eq net)]
    simp only [taken]
    refine (bind_of_ok (modify_eq net _)).trans ?_
    simp only [Functor.map, EStateM.map, handed]
  exact (bind_of_ok all).trans rfl

theorem operate_deliver_error {net net' : Network P E} {slot : UInt8} {parcel : Parcel}
    {courier : Courier} {trouble : Trouble}
    (taken : net.courier.take slot = some (parcel, courier))
    (handed : hand id parcel { net with courier := courier } = .error trouble net') :
    operate (.deliver slot) net = .error trouble net' := by
  have all : deliver slot id net = .error trouble net' := by
    unfold deliver
    rw [bind_of_ok (get_eq net)]
    simp only [taken]
    refine (bind_of_ok (modify_eq net _)).trans ?_
    simp only [Functor.map, EStateM.map, handed]
  exact bind_of_error all

theorem operate_duplicate (net : Network P E) (slot : UInt8) :
    operate (.duplicate slot) net = .ok (.couriered ((net.courier.duplicate slot).map (·.1)))
      { net with courier := ((net.courier.duplicate slot).map (·.2)).getD net.courier } := by
  have all : duplicate slot net = .ok ((net.courier.duplicate slot).map (·.1))
      { net with courier := ((net.courier.duplicate slot).map (·.2)).getD net.courier } := by
    unfold duplicate
    rw [bind_of_ok (get_eq net)]
    cases net.courier.duplicate slot <;> rfl
  simp only [operate, Functor.map, EStateM.map, all]

theorem operate_lose (net : Network P E) (slot : UInt8) :
    operate (.lose slot) net = .ok (.couriered ((net.courier.lose slot).map (·.1)))
      { net with courier := ((net.courier.lose slot).map (·.2)).getD net.courier } := by
  have all : lose slot net = .ok ((net.courier.lose slot).map (·.1))
      { net with courier := ((net.courier.lose slot).map (·.2)).getD net.courier } := by
    unfold lose
    rw [bind_of_ok (get_eq net)]
    cases net.courier.lose slot <;> rfl
  simp only [operate, Functor.map, EStateM.map, all]

end Network

end RatchetSession
