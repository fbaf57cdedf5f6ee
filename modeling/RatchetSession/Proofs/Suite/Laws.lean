import Mathlib.Data.List.Nodup
import RatchetSession.Envelope.Header
import RatchetSession.Proofs.Entropy.Draws
import RatchetSession.Proofs.Octets
set_option autoImplicit false

/-!
What the primitives of a suite are relied on for, and a suite for which that can be
computed: it keeps no secret, but its laws hold.
-/

namespace RatchetSession

def tagSize : Nat := 16

/-- Both sides of an agreement get the same secret, an identity agrees and verifies as the one it
shows, and decryption undoes encryption, which takes all plaintexts that an envelope has room for. -/
structure Suite.Lawful (P : Suite) : Prop where
  agrees : ∀ a b, ∃ secret, P.agree? a (P.publicKey b) = some secret ∧
    P.agree? b (P.publicKey a) = some secret
  identityAgrees : ∀ seed,
    P.publicKey (P.identitySecret seed) = P.identityAgreement (P.identityKey seed).val
  verifies : ∀ seed message,
    P.verify (P.identityKey seed).val message (P.sign seed message) = true
  opens : ∀ key nonce associated plaintext, plaintext.length ≤ P.maxPlaintext →
    P.decrypt? key nonce associated (P.encrypt key nonce associated plaintext) = some plaintext
  ample : Envelope.maxPayload ≤ P.maxPlaintext
  overhead : ∀ key nonce associated plaintext,
    (P.encrypt key nonce associated plaintext).length = plaintext.length + tagSize

/-- Both sides of an agreement get the same secret or none, an identity agrees as the one it shows,
and decryption undoes encryption. -/
structure Suite.Commutes (P : Suite) : Prop where
  agrees : ∀ a b, P.agree? a (P.publicKey b) = P.agree? b (P.publicKey a)
  identityAgrees : ∀ seed,
    P.publicKey (P.identitySecret seed) = P.identityAgreement (P.identityKey seed).val
  opens : ∀ key nonce associated plaintext, plaintext.length ≤ P.maxPlaintext →
    P.decrypt? key nonce associated (P.encrypt key nonce associated plaintext) = some plaintext

theorem Suite.Lawful.commutes {P : Suite} (laws : P.Lawful) : P.Commutes where
  agrees a b := by
    obtain ⟨secret, own, their⟩ := laws.agrees a b
    rw [own, their]
  identityAgrees := laws.identityAgrees
  opens := laws.opens

/-- The remainder by a large prime of everything a ciphertext depends on. -/
def plainTag (key : Octets 32) (nonce : Octets 24) (associated plaintext : Bytes) : Bytes :=
  natLE tagSize
    (leNat (key.toList ++ nonce.toList ++ associated ++ plaintext) % (2 ^ 128 - 159))

/-- Keys are their own public halves, and an agreement is a sum. A ciphertext is its plaintext
behind a tag. -/
def Suite.plain : Suite where
  publicKey seed := seed
  agree? own their := some (.ofNatLE 32 (leNat own.toList + leNat their.toList))
  isIdentity _ := true
  identityKey seed := ⟨seed, rfl⟩
  identitySecret seed := seed
  identityAgreement key := key
  sign seed _ := .fit 64 seed.toList
  verify key _ signature := signature = .fit 64 key.toList
  initialSecrets agreements :=
    (.ofNatLE 32 (leNat agreements % 1000003), .ofNatLE 32 (leNat agreements % 1000033))
  ratchetRoot root secret :=
    (.ofNatLE 32 (3 * leNat root.toList + 5 * leNat secret.toList),
      .ofNatLE 32 (7 * leNat root.toList + 11 * leNat secret.toList))
  nextChain key := .ofNatLE 32 (3 * leNat key.toList + 1)
  messageKey key := (key, .fit 24 key.toList)
  maxPlaintext := 2 ^ 38
  encrypt key nonce associated plaintext := plainTag key nonce associated plaintext ++ plaintext
  decrypt? key nonce associated ciphertext :=
    let plaintext := ciphertext.drop tagSize
    if ciphertext.take tagSize = plainTag key nonce associated plaintext then some plaintext
    else none

theorem Suite.plain_lawful : Suite.plain.Lawful where
  agrees a b := ⟨_, rfl, by simp [plain, Nat.add_comm]⟩
  identityAgrees _ := rfl
  verifies _ _ := by simp [plain]
  opens key nonce associated plaintext _ := by
    have length : (plainTag key nonce associated plaintext).length = tagSize := natLE_length _ _
    simp [plain, length]
  ample := by decide
  overhead key nonce associated plaintext := by
    have length : (plainTag key nonce associated plaintext).length = tagSize := natLE_length _ _
    simp [plain, length, Nat.add_comm]

/-- A source that counts its draws and gives numbers far apart. -/
structure Ticker where
  drawn : Nat

namespace Ticker

def seed (n k : Nat) : Octets n := .ofNatLE n (1000003 * k + 12345)

instance : Randomness Ticker :=
  ⟨fun n ticker => .ok (seed n ticker.drawn) ⟨ticker.drawn + 1⟩⟩

theorem steady (ticker : Ticker) : Steady ticker := fun _ _ _ => ⟨_, _, rfl⟩

theorem drawn_seeds {ticker last : Ticker} {seeds : List (Octets 32)}
    (h : Drawn ticker seeds last) :
    seeds = (List.range' ticker.drawn seeds.length).map (seed 32) ∧
      last.drawn = ticker.drawn + seeds.length := by
  induction h with
  | nil => exact ⟨rfl, rfl⟩
  | cons draw rest ih =>
    cases draw
    obtain ⟨same, count⟩ := ih
    refine ⟨?_, by rw [count, List.length_cons, Nat.add_right_comm]; rfl⟩
    rw [List.length_cons, List.range'_succ, List.map_cons, ← same]

theorem seed_injective {j k : Nat} (few : j < 2 ^ 64) (few' : k < 2 ^ 64)
    (same : seed 32 j = seed 32 k) : j = k := by
  have small : ∀ n, n < 2 ^ 64 → 1000003 * n + 12345 < 256 ^ 32 := by
    intro n few
    have most : 1000003 * 2 ^ 64 + 12345 < 256 ^ 32 := by decide
    omega
  have numbers := congrArg (fun seed => leNat seed.toList) same
  simp only [seed, Octets.ofNatLE, leNat_natLE, Nat.mod_eq_of_lt (small _ few),
    Nat.mod_eq_of_lt (small _ few')] at numbers
  omega

theorem distinctPairs {last : Ticker} (few : last.drawn ≤ 2 ^ 64) :
    DistinctPairs Suite.plain (⟨0⟩ : Ticker) last := by
  intro i₁ s₁ i₂ s₂ rest drawn
  obtain ⟨same, count⟩ := drawn_seeds drawn
  have all : (i₁ :: s₁ :: i₂ :: s₂ :: rest).Nodup := by
    rw [same]
    refine List.Nodup.map_on (fun j inside k inside' => ?_) List.nodup_range'
    rw [List.mem_range'_1] at inside inside'
    exact seed_injective (by omega) (by omega)
  have pairs : (s₁ :: s₂ :: rest).Nodup := by
    simp only [List.nodup_cons, List.mem_cons, not_or] at all ⊢
    exact ⟨all.2.1.2, all.2.2.2⟩
  exact pairs.map fun one two same => congrArg (·.bytes) same

end Ticker

end RatchetSession
