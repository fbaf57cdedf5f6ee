import Mathlib.Data.List.Infix
import RatchetSession.Proofs.Simulation.Refinement
import RatchetSession.Proofs.Suite.Laws
set_option autoImplicit false

namespace RatchetSession

open Reference (World)
open RatchetSession.Computation (bind_of_ok)

variable {P : Suite} {E : Type} [Randomness E] {couple : Couple P} {source : E} {l : Ledger P}
  {sent : List Dispatch} {st : Side → Store P} {flight : List (Nat × Dispatch)} {now : E} {w : World}

namespace Mirrors

theorem apply (laws : P.Lawful) (steady : Steady source)
    (h : Mirrors couple source l sent st flight now w) (op : Operation)
    (sends : ∀ side, l.sends + op.isSend.toNat ≤ (couple.limits side).maxSkip.toNat)
    (deliveries : ∀ side,
      l.deliveries + op.isDeliver.toNat ≤ (couple.limits side).maxReceiverChains)
    (distinct : DistinctPairs P source
      ((network couple st flight sent.length now).apply op).2.source) :
    Matches couple source (l.sends + op.isSend.toNat) (l.deliveries + op.isDeliver.toNat)
      ((network couple st flight sent.length now).apply op) (w.apply op) := by
  cases op with
  | send sender content =>
    by_cases has : w.hasSession sender = true
    · exact h.send_known laws content (sends sender) has
    · obtain ⟨same, l', sent', st', flight', now', is, mirrors, fewer, few⟩ :=
        h.send_unknown content has
      exact ⟨same, l', sent', st', flight', now', is, mirrors, Nat.le_succ_of_le fewer, few⟩
  | deliver slot => exact h.deliver laws steady sends deliveries slot distinct
  | duplicate slot => exact h.duplicate slot
  | lose slot => exact h.lose slot

theorem outcomes (laws : P.Lawful) (steady : Steady source) (ops : List Operation)
    (h : Mirrors couple source l sent st flight now w)
    (sends : ∀ side, l.sends + ops.countP (·.isSend) ≤ (couple.limits side).maxSkip.toNat)
    (deliveries : ∀ side,
      l.deliveries + ops.countP (·.isDeliver) ≤ (couple.limits side).maxReceiverChains)
    (distinct : ∀ before, before <+: ops →
      DistinctPairs P source ((network couple st flight sent.length now).after before).source) :
    (network couple st flight sent.length now).outcomes ops = w.outcomes ops := by
  induction ops generalizing l sent st flight now w with
  | nil => rfl
  | cons op ops ih =>
    have counted : ∀ p : Operation → Bool,
        (op :: ops).countP p = ops.countP p + (p op).toNat := by
      intro p
      rw [List.countP_cons]
      cases p op <;> rfl
    simp only [counted] at sends deliveries
    obtain ⟨same, l', sent', st', flight', now', is, mirrors, few, fewer⟩ :=
      h.apply laws steady op (fun side => by have := sends side; omega)
        (fun side => by have := deliveries side; omega)
        (distinct [op] (List.prefix_append [op] ops))
    have later := ih mirrors (fun side => by have := sends side; omega)
      (fun side => by have := deliveries side; omega) fun before shorter => by
        rw [← is]
        exact distinct (op :: before) (List.cons_prefix_cons.2 ⟨rfl, shorter⟩)
    have left : ((network couple st flight sent.length now).apply op).2.courier.inFlight.length =
        (w.apply op).2.inFlight.length := by
      rw [is, mirrors.inFlight]
      simp [network, Couple.network]
    simp only [Network.outcomes, World.outcomes, same, left]
    rw [is, later]

end Mirrors

namespace Network

theorem pair_starts (laws : P.Lawful) {first second : String} (apart : first ≠ second)
    {limits : Limits} (valid : limits.validate = .ok ()) (steady : Steady source)
    (oneTimeId : UInt32) :
    ∃ (couple : Couple P) (l : Ledger P) (st : Side → Store P) (now : E),
      pair P first second limits source oneTimeId = .ok (Mirrors.network couple st [] 0 now) ∧
      (∀ side, couple.limits side = limits) ∧ l.sends = 0 ∧ l.deliveries = 0 ∧
      (DistinctPairs P source now → Mirrors couple source l [] st [] now .initial) := by
  let names := Side.pick first second
  obtain ⟨identity, pairs, source₀, drawn, created⟩ :=
    create_ok (P := P) names (fun _ => limits) (fun _ => valid) apart steady
  let couple := Couple.ofSeeds P names (fun _ => limits) (fun _ => valid) apart identity pairs
  have agrees := Ledger.initial_agrees (P := P) names (fun _ => limits) (fun _ => valid) apart
    identity pairs
  obtain ⟨seed, source₁, draw, publishes, offered⟩ :=
    agrees.publish .second oneTimeId (by simp [Ledger.initial]) (steady.later drawn)
  have later := drawn.append (.one draw)
  obtain ⟨base, source₂, store, t, draw', starts, starter, -, unknown, started⟩ :=
    offered.start laws .first (show ∀ key ∈ some (PreKey.mk oneTimeId (.ofSeed P seed)), _ by
      simp [Ledger.offer, Side.other]) (Nat.zero_le _) (steady.later later)
  let stocked := (Ledger.initial couple).offer .second ⟨oneTimeId, .ofSeed P seed⟩
  let new : Side → Store P := fun side => .ofSeeds P (identity side) (pairs side)
  let st := setStore new .second ((new .second).addPreKey ⟨oneTimeId, .ofSeed P seed⟩)
  refine ⟨couple, stocked.begin (KeyPair.ofSeed P base).publicKey t, setStore st .first store,
    source₂, ?_, fun _ => rfl, rfl, rfl, fun distinct => ?_⟩
  · have published := perform_does couple new .second .empty
      (fun party => party.publish (some oneTimeId)) publishes
    have addressed := address_place couple st .second .empty source₁
    have begun := perform_does couple st .first .empty
      (fun party => party.start (couple.address .second) _) starts
    have prepared : (do
        let bundle ← perform 1 fun party => party.publish (some oneTimeId)
        let remote ← address 1
        perform 0 fun party => party.start remote bundle : Step P E Unit)
          (couple.network new .empty source₀) = .ok () _ :=
      (bind_of_ok published).trans ((bind_of_ok addressed).trans begun)
    have made : create P [(first, limits), (second, limits)] source =
      .ok (couple.network new .empty source₀) := created
    simp only [pair, made, prepared]
    rfl
  · have trail : Trail P source stocked.keys source₁ := ⟨_, _, _, _, _, later, rfl⟩
    have fresh : (KeyPair.ofSeed P base).publicKey ∉ stocked.keys := fun old =>
      trail.keys_notMem (.one draw') distinct _ old (List.mem_singleton_self _)
    have knows : ∀ base' t', (stocked.begin (KeyPair.ofSeed P base).publicKey t).talks base' = some t' →
        t' = t := by
      intro base' t' there
      rcases Ledger.put_eq_some there with ⟨-, rfl⟩ | ⟨-, there⟩
      · rfl
      · cases there
    refine ⟨started fresh, trail.draw (.one draw'), ⟨_, rfl⟩,
      Ledger.Mailbox.empty _ fun _ => List.not_mem_nil, by simp, rfl, rfl, ⟨_, t, Ledger.put_self _ _ t, .inl starter⟩, fun answered => Bool.noConfusion answered, ?_⟩
    rintro ⟨base', t', there, known⟩
    exact absurd (knows base' t' there ▸ known) unknown

/-- Two parties that talk over a courier behave as the reference world does, whatever is sent,
delivered, copied and lost, in any order. -/
theorem pair_refines (laws : P.Lawful) {first second : String} (apart : first ≠ second)
    {limits : Limits} (valid : limits.validate = .ok ()) (steady : Steady source)
    {oneTimeId : UInt32} {ops : List Operation} (sends : ops.countP (·.isSend) ≤ limits.maxSkip.toNat)
    (deliveries : ops.countP (·.isDeliver) ≤ limits.maxReceiverChains)
    (distinct : ∀ net, pair P first second limits source oneTimeId = .ok net →
      ∀ before, before <+: ops → DistinctPairs P source (net.after before).source) :
    ∃ net, pair P first second limits source oneTimeId = .ok net ∧
      net.outcomes ops = World.initial.outcomes ops := by
  obtain ⟨couple, l, st, now, made, same, none, none', mirrors⟩ :=
    pair_starts laws apart valid steady oneTimeId
  have differ := distinct _ made
  refine ⟨_, made, (mirrors (differ [] List.nil_prefix)).outcomes laws steady ops (fun side => ?_)
    (fun side => ?_) differ⟩
  · rw [none, Nat.zero_add, same]
    exact sends
  · rw [none', Nat.zero_add, same]
    exact deliveries

/-- Both sides send; messages overtake each other, and are repeated and lost. -/
def smallTalk : List Operation :=
  [.send .second ⟨7, 1⟩, .send .first ⟨1, 1⟩, .send .first ⟨2, 3⟩, .deliver 1, .send .second ⟨3, 1⟩,
    .duplicate 0, .deliver 0, .deliver 1, .send .first ⟨4, 2⟩, .lose 0, .deliver 0, .deliver 9]

set_option maxRecDepth 100000 in
theorem smallTalk_draws : ∀ net,
    pair .plain "alice" "bob" ⟨2000, 2000, 8, 5⟩ (⟨0⟩ : Ticker) = .ok net →
      ∀ before, before <+: smallTalk → (net.after before).source.drawn ≤ 50 := by
  have few : (match pair .plain "alice" "bob" ⟨2000, 2000, 8, 5⟩ (⟨0⟩ : Ticker) with
      | .error _ => true
      | .ok net => smallTalk.inits.all fun before => (net.after before).source.drawn ≤ 50) = true := by
    decide +kernel
  intro net made before shorter
  rw [made] at few
  exact of_decide_eq_true (List.all_eq_true.1 few before ((List.mem_inits _ _).2 shorter))

theorem smallTalk_refines : ∃ net,
    pair .plain "alice" "bob" ⟨2000, 2000, 8, 5⟩ (⟨0⟩ : Ticker) = .ok net ∧
      net.outcomes smallTalk = World.initial.outcomes smallTalk :=
  pair_refines Suite.plain_lawful (by decide) (by decide) (Ticker.steady _) (by decide) (by decide)
    fun net made before shorter =>
      Ticker.distinctPairs (Nat.le_trans (smallTalk_draws net made before shorter) (by decide))

end Network

end RatchetSession
