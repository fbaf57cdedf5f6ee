import RatchetSession.Proofs.Simulation.Network
set_option autoImplicit false

namespace RatchetSession

open RatchetSession.Computation (bind_of_ok adaptExcept_of_ok)

variable {P : Suite} {E : Type} [Randomness E]

def SignedPreKey.ofSeeds (P : Suite) (identity pair : Octets 32) : SignedPreKey :=
  ⟨Party.signedPreKeyId, KeyPair.ofSeed P pair,
    Identity.sign P ⟨identity⟩ (KeyPair.ofSeed P pair).publicKey.bytes.toList⟩

def Store.ofSeeds (P : Suite) (identity pair : Octets 32) : Store P :=
  (ofIdentity ⟨identity⟩).addSignedPreKey (.ofSeeds P identity pair)

theorem Party.create_ok {limits : Limits} (valid : limits.validate = .ok ()) (name : String)
    {source mid last : E} {identity pair : Octets 32}
    (first : Randomness.draw 32 source = .ok identity mid)
    (second : Randomness.draw 32 mid = .ok pair last) :
    Party.create P name limits source =
      .ok (⟨⟨name, 1⟩, limits, valid, .ofSeeds P identity pair⟩, .ofSeeds P identity pair) last := by
  have signed : (SignedPreKey.generate P signedPreKeyId ⟨identity⟩).adaptExcept
      SessionError.ofCrypto mid = .ok (.ofSeeds P identity pair) last :=
    adaptExcept_of_ok (bind_of_ok (drawKeyPair_of_draw P second))
  have begins : (Party.create P name limits : EStateM SessionError E _) = do
      let seed ← (Randomness.draw 32).adaptExcept .ofCrypto
      let signed ← (SignedPreKey.generate P signedPreKeyId ⟨seed⟩).adaptExcept .ofCrypto
      return (⟨⟨name, 1⟩, limits, valid, signed⟩,
        (Store.ofIdentity ⟨seed⟩).addSignedPreKey signed) := by
    unfold Party.create
    split
    · rename_i error failed
      rw [valid] at failed
      cases failed
    · rfl
  rw [begins, bind_of_ok (adaptExcept_of_ok first), bind_of_ok signed]
  rfl

def Couple.ofSeeds (P : Suite) (names : Side → String) (limits : Side → Limits)
    (valid : ∀ side, (limits side).validate = .ok ()) (apart : names .first ≠ names .second)
    (identity pair : Side → Octets 32) : Couple P where
  party side := ⟨⟨names side, 1⟩, limits side, valid side, .ofSeeds P (identity side) (pair side)⟩
  identity side := ⟨identity side⟩
  apart side same := by
    have names := congrArg Address.name same
    cases side
    · exact apart names
    · exact apart names.symm
  signedId _ := rfl
  signed _ := ⟨KeyPair.ofSeed_valid _, rfl⟩

def Ledger.initial (couple : Couple P) : Ledger P where
  talks _ := none
  bases := []
  spare _ := []
  ids _ := []
  keys := [(couple.party .first).signedPreKey.keyPair.publicKey,
    (couple.party .second).signedPreKey.keyPair.publicKey]
  sends := 0
  deliveries := 0

theorem Ledger.initial_agrees (names : Side → String) (limits : Side → Limits)
    (valid : ∀ side, (limits side).validate = .ok ()) (apart : names .first ≠ names .second)
    (identity pair : Side → Octets 32) :
    (initial (.ofSeeds P names limits valid apart identity pair)).Agrees
      (.ofSeeds P names limits valid apart identity pair)
      fun side => .ofSeeds P (identity side) (pair side) := by
  refine ⟨nofun, fun side => ⟨rfl, ?_, rfl, ⟨none, rfl, nofun, ?_⟩, nofun, nofun⟩, nofun, nofun,
    ⟨nofun, nofun, fun _ => List.nodup_nil, nofun, nofun⟩, fun side => ?_⟩
  · exact Table.find?_insert_self _ _ _
  · exact Files.nil nofun
  · cases side
    · exact List.mem_cons_self
    · exact List.mem_cons_of_mem _ List.mem_cons_self

theorem Network.createMembers_cons {name : String} {limits : Limits}
    {others : List (String × Limits)} {party : Party} {store : Store P} {members : List (Member P)}
    {source mid last : E} (first : Party.create P name limits source = .ok (party, store) mid)
    (rest : createMembers P others mid = .ok members last) :
    createMembers P ((name, limits) :: others) source = .ok (⟨party, store⟩ :: members) last := by
  unfold createMembers
  exact (bind_of_ok first).trans (bind_of_ok rest)

theorem Network.create_ok (names : Side → String) (limits : Side → Limits)
    (valid : ∀ side, (limits side).validate = .ok ()) (apart : names .first ≠ names .second)
    {source : E} (steady : Steady source) :
    ∃ (identity pair : Side → Octets 32) (source' : E),
      Drawn source [identity .first, pair .first, identity .second, pair .second] source' ∧
      Network.create P [(names .first, limits .first), (names .second, limits .second)] source =
        .ok ((Couple.ofSeeds P names limits valid apart identity pair).network
          (fun side => .ofSeeds P (identity side) (pair side)) .empty source') := by
  obtain ⟨i₁, source₁, draw₁⟩ := steady.draw
  have one := Drawn.one draw₁
  obtain ⟨s₁, source₂, draw₂⟩ := (steady.later one).draw
  have two := one.append (.one draw₂)
  obtain ⟨i₂, source₃, draw₃⟩ := (steady.later two).draw
  have three := two.append (.one draw₃)
  obtain ⟨s₂, source₄, draw₄⟩ := (steady.later three).draw
  refine ⟨Side.pick i₁ i₂, Side.pick s₁ s₂, source₄,
    three.append (.one draw₄), ?_⟩
  have first := Party.create_ok (P := P) (valid .first) (names .first) draw₁ draw₂
  have second := Party.create_ok (P := P) (valid .second) (names .second) draw₃ draw₄
  have made := createMembers_cons first (createMembers_cons second
    (show createMembers P [] source₄ = .ok [] source₄ from rfl))
  unfold Network.create
  simp only [made]
  rfl

end RatchetSession
