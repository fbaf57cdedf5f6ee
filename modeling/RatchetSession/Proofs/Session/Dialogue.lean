import RatchetSession.Session
import RatchetSession.Proofs.Session.Chain
set_option autoImplicit false

/-!
A dialogue: the ratchet of both sides seen at once, as the sequence of its epochs. The
sides take turns; an epoch begins when its side first opens a message of the one before.
-/

namespace RatchetSession

theorem Origin.eq_other {a b : Origin} (h : a ≠ b) : a = b.other := by
  cases a <;> cases b <;> first | rfl | exact absurd rfl h

theorem Origin.other_ne (side : Origin) : side.other ≠ side := by cases side <;> decide

@[simp] theorem Origin.other_other (side : Origin) : side.other.other = side := by
  cases side <;> rfl

/-- The side whose epoch this is. The initiator's is the first. -/
def turn (k : Nat) : Origin := if k % 2 = 0 then .initiator else .responder

theorem turn_eq_of_ne {i j k : Nat} (hi : turn i ≠ turn k) (hj : turn j ≠ turn k) :
    turn i = turn j :=
  (Origin.eq_other hi).trans (Origin.eq_other hj).symm

theorem turn_add_two (k : Nat) : turn (k + 2) = turn k := by simp [turn]

theorem turn_eq_iff (i j : Nat) : turn i = turn j ↔ i % 2 = j % 2 := by
  unfold turn
  rcases Nat.mod_two_eq_zero_or_one i with hi | hi <;>
    rcases Nat.mod_two_eq_zero_or_one j with hj | hj <;> simp [hi, hj]

theorem turn_succ (k : Nat) : turn (k + 1) = (turn k).other := by
  refine Origin.eq_other fun same => ?_
  have parity := (turn_eq_iff (k + 1) k).1 same
  omega

theorem turn_ne_succ (k : Nat) : turn k ≠ turn (k + 1) := by
  rw [turn_succ]
  exact (turn k).other_ne.symm

theorem getElem?_concat_eq_some {α : Type} {xs : List α} {x y : α} {n : Nat} :
    (xs ++ [x])[n]? = some y ↔ xs[n]? = some y ∨ n = xs.length ∧ x = y := by
  rw [List.getElem?_append]
  split
  · rename_i inside
    exact ⟨.inl, fun either => either.resolve_right fun last => by omega⟩
  · rename_i outside
    have none : xs[n]? = none := List.getElem?_eq_none (Nat.le_of_not_lt outside)
    rw [none, List.getElem?_singleton]
    split
    · have last : n = xs.length := by omega
      simp [last]
    · have other : n ≠ xs.length := by omega
      simp [other]

/-- One side's ratchet key and what was derived with it. -/
structure Epoch where
  seed : Octets 32
  /-- The other side's key of that time. -/
  peer : PublicKey
  root : RootKey
  start : Octets 32
  /-- The length of the same side's chain before. -/
  previous : UInt32

def Epoch.key (P : Suite) (e : Epoch) : PublicKey := ⟨P.publicKey e.seed⟩

/-- The epoch that follows, from the root key before and an agreement of both ratchet keys. -/
structure Epoch.Next (P : Suite) (e e' : Epoch) : Prop where
  peer : e'.peer = e.key P
  derived : ∃ secret, P.agree? e'.seed (P.publicKey e.seed) = some secret ∧
    P.ratchetRoot e.root.bytes secret = (e'.root.bytes, e'.start)

structure Dialogue (P : Suite) where
  initiator : IdentityKey P
  responder : IdentityKey P
  pending : PendingPreKey
  epochs : List Epoch
  sent : Nat → Nat
  opened : Nat → List UInt32

namespace Dialogue

variable {P : Suite}

def identity (d : Dialogue P) : Origin → IdentityKey P
  | .initiator => d.initiator
  | .responder => d.responder

def send (d : Dialogue P) (k : Nat) : Dialogue P :=
  { d with sent := fun j => if j = k then d.sent j + 1 else d.sent j }

def hear (d : Dialogue P) (k : Nat) (counter : UInt32) : Dialogue P :=
  { d with opened := fun j => if j = k then counter :: d.opened j else d.opened j }

def grow (d : Dialogue P) (e : Epoch) : Dialogue P := { d with epochs := d.epochs ++ [e] }

def binding (d : Dialogue P) (k : Nat) (e : Epoch) (counter : UInt32) : Binding P :=
  ⟨Envelope.version, d.identity (turn k), d.identity (turn k).other, e.key P, e.peer, counter,
    e.previous⟩

def message (d : Dialogue P) (k : Nat) (e : Epoch) (counter : UInt32) (plaintext : Bytes) :
    RatchetMessage :=
  ⟨e.key P, counter, e.previous,
    (keyAt P e.start counter).encrypt P (d.binding k e counter).toBytes plaintext⟩

/-- A message as it is sent: the first epoch's are initial ones. -/
def wrap (d : Dialogue P) (k : Nat) (message : RatchetMessage) : Message :=
  if k = 0 then
    .initial ⟨d.initiator.bytes, d.pending.baseKey, d.pending.signedPreKeyId, d.pending.preKeyId,
      message⟩
  else .ratchet message

def DistinctBefore (d : Dialogue P) (k : Nat) : Prop :=
  ∀ (i j : Nat) (e e' : Epoch), i < k → j < k → turn i = turn j → d.epochs[i]? = some e →
    d.epochs[j]? = some e' → e.key P = e'.key P → i = j

/-- The epochs follow from each other, those of one side under different keys, and nothing is
announced or opened that was not sent. -/
structure Sound (d : Dialogue P) : Prop where
  base : ∀ e, d.epochs[0]? = some e → e.key P = d.pending.baseKey
  linked : ∀ (k : Nat) (e e' : Epoch), d.epochs[k]? = some e → d.epochs[k + 1]? = some e' → e.Next P e'
  distinct : ∀ (i j : Nat) (e e' : Epoch), turn i = turn j → d.epochs[i]? = some e →
    d.epochs[j]? = some e' → e.key P = e'.key P → i = j
  previous : ∀ k e, d.epochs[k + 2]? = some e → e.previous.toNat ≤ d.sent k
  unsent : ∀ k, d.epochs.length ≤ k → d.sent k = 0
  heard : ∀ k counter, counter ∈ d.opened k → k + 1 < d.epochs.length
  was : ∀ k counter, counter ∈ d.opened k → counter.toNat < d.sent k

theorem Sound.opened_eq_nil {d : Dialogue P} (h : d.Sound) {k : Nat}
    (last : d.epochs.length ≤ k + 1) : d.opened k = [] :=
  List.eq_nil_iff_forall_not_mem.2 fun counter member =>
    absurd (h.heard k counter member) (Nat.not_lt.2 last)

theorem Sound.send {d : Dialogue P} (h : d.Sound) {k : Nat} (old : k < d.epochs.length) :
    (d.send k).Sound := by
  refine { h with
    previous := fun j e there => ?_
    unsent := fun j new => ?_
    was := fun j counter member => ?_ }
  · have le := h.previous j e there
    simp only [Dialogue.send]
    split <;> omega
  · have none := h.unsent j new
    have away : j ≠ k := by
      rintro rfl
      exact absurd old (Nat.not_lt.2 new)
    simp only [Dialogue.send, if_neg away, none]
  · have lt := h.was j counter member
    simp only [Dialogue.send]
    split <;> omega

theorem Sound.hear {d : Dialogue P} (h : d.Sound) {k : Nat} (followed : k + 1 < d.epochs.length)
    {counter : UInt32} (was : counter.toNat < d.sent k) : (d.hear k counter).Sound := by
  have all : ∀ j c, c ∈ (d.hear k counter).opened j →
      c ∈ d.opened j ∨ j = k ∧ c = counter := by
    intro j c member
    simp only [Dialogue.hear] at member
    split at member
    · rename_i same
      exact (List.mem_cons.1 member).symm.imp_right fun is => ⟨same, is⟩
    · exact .inl member
  refine { h with heard := fun j c member => ?_, was := fun j c member => ?_ }
  · rcases all j c member with old | ⟨rfl, -⟩
    · exact h.heard j c old
    · exact followed
  · rcases all j c member with old | ⟨rfl, rfl⟩
    · exact h.was j c old
    · exact was

theorem Sound.grow {d : Dialogue P} (h : d.Sound) {k : Nat} {e e' : Epoch}
    (last : d.epochs.length = k + 1) (there : d.epochs[k]? = some e) (next : e.Next P e')
    (fresh : ∀ j e₁, turn j = turn (k + 1) → d.epochs[j]? = some e₁ → e₁.key P ≠ e'.key P)
    (previous : ∀ i, k = i + 1 → e'.previous.toNat ≤ d.sent i) : (d.grow e').Sound := by
  have inside : ∀ {j : Nat} {e₁ : Epoch}, d.epochs[j]? = some e₁ → j < k + 1 := fun found =>
    last ▸ (List.getElem?_eq_some_iff.1 found).1
  refine ⟨fun e₁ first => ?_, fun j e₁ e₂ one two => ?_, fun i j e₁ e₂ turns one two same => ?_,
    fun j e₁ found => ?_, fun j beyond => ?_, fun j counter member => ?_, h.was⟩
  · rcases getElem?_concat_eq_some.1 first with first | ⟨none, -⟩
    · exact h.base e₁ first
    · omega
  · rcases getElem?_concat_eq_some.1 one with one | ⟨above, -⟩ <;>
      rcases getElem?_concat_eq_some.1 two with two | ⟨here, rfl⟩
    · exact h.linked j e₁ e₂ one two
    · obtain rfl : j = k := by omega
      cases one.symm.trans there
      exact next
    · have below := inside two
      omega
    · omega
  · rcases getElem?_concat_eq_some.1 one with one | ⟨first, rfl⟩ <;>
      rcases getElem?_concat_eq_some.1 two with two | ⟨second, rfl⟩
    · exact h.distinct i j e₁ e₂ turns one two same
    · exact absurd same (fresh i e₁ (by rw [turns, second, last]) one)
    · exact absurd same.symm (fresh j e₂ (by rw [← turns, first, last]) two)
    · omega
  · rcases getElem?_concat_eq_some.1 found with found | ⟨here, rfl⟩
    · exact h.previous j e₁ found
    · exact previous j (by omega)
  · simp only [Dialogue.grow, List.length_append, List.length_singleton] at beyond
    exact h.unsent j (by omega)
  · have heard := h.heard j counter member
    simp only [Dialogue.grow, List.length_append, List.length_singleton]
    omega

theorem Sound.distinct_grow {d : Dialogue P} (h : d.Sound) {k : Nat} (last : d.epochs.length = k)
    (e : Epoch) : (d.grow e).DistinctBefore k := by
  intro i j e₁ e₂ hi hj turns one two
  have old : ∀ n, n < k → (d.grow e).epochs[n]? = d.epochs[n]? := fun n lt =>
    List.getElem?_append_left (by omega)
  rw [old i hi] at one
  rw [old j hj] at two
  exact h.distinct i j e₁ e₂ turns one two

theorem Sound.distinctBefore {d : Dialogue P} (h : d.Sound) (k : Nat) : d.DistinctBefore k :=
  fun i j e e' _ _ => h.distinct i j e e'

end Dialogue

/-- A receiving chain in step with an epoch: the messages opened are the epoch's. -/
structure Tracks {P : Suite} (d : Dialogue P) (k : Nat) (e : Epoch) (chain : ReceivingChain) :
    Prop where
  localKey : chain.localKey = e.peer
  follows : Follows P e.start (d.opened k) chain
  sent : chain.index.toNat ≤ d.sent k

theorem Tracks.of_send {P : Suite} {d : Dialogue P} {k : Nat} {e : Epoch} {chain : ReceivingChain}
    (h : Tracks d k e chain) (i : Nat) : Tracks (d.send i) k e chain := by
  refine ⟨h.localKey, h.follows, Nat.le_trans h.sent ?_⟩
  simp only [Dialogue.send]
  split <;> omega

end RatchetSession
