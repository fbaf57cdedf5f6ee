import RatchetSession.Entropy
import RatchetSession.Proofs.Computation
set_option autoImplicit false

namespace RatchetSession

variable {E : Type} [Randomness E]

inductive Drawn : E → List (Octets 32) → E → Prop where
  | nil (source : E) : Drawn source [] source
  | cons {source next last : E} {seed : Octets 32} {seeds : List (Octets 32)}
      (draw : Randomness.draw 32 source = .ok seed next) (rest : Drawn next seeds last) :
      Drawn source (seed :: seeds) last

theorem Drawn.append {source mid last : E} {seeds more : List (Octets 32)}
    (first : Drawn source seeds mid) (second : Drawn mid more last) :
    Drawn source (seeds ++ more) last := by
  induction first with
  | nil => exact second
  | cons draw rest ih => exact .cons draw (ih second)

theorem Drawn.one {source next : E} {seed : Octets 32}
    (draw : Randomness.draw 32 source = .ok seed next) : Drawn source [seed] next :=
  .cons draw (.nil next)

/-- No draw of 32 bytes ever fails from here on. -/
def Steady (source : E) : Prop :=
  ∀ seeds next, Drawn source seeds next → ∃ seed last, Randomness.draw 32 next = .ok seed last

theorem Steady.later {source next : E} {seeds : List (Octets 32)} (steady : Steady source)
    (drawn : Drawn source seeds next) : Steady next :=
  fun more last further => steady (seeds ++ more) last (drawn.append further)

theorem Steady.draw {source : E} (steady : Steady source) :
    ∃ seed next, Randomness.draw 32 source = .ok seed next :=
  steady [] source (.nil source)

theorem drawKeyPair_of_draw (P : Suite) {source next : E} {seed : Octets 32}
    (draw : Randomness.draw 32 source = .ok seed next) :
    Randomness.drawKeyPair P source = .ok (.ofSeed P seed) next := by
  unfold Randomness.drawKeyPair
  rw [Computation.bind_of_ok draw]
  rfl

def publicKeys (P : Suite) (seeds : List (Octets 32)) : List PublicKey :=
  seeds.map fun seed => (KeyPair.ofSeed P seed).publicKey

/-- The key pairs that two parties have drawn from a common source are all different. The first and
the third draw are no pairs, but the parties' identities. -/
def DistinctPairs (P : Suite) (source now : E) : Prop :=
  ∀ identity₁ pair₁ identity₂ pair₂ rest,
    Drawn source (identity₁ :: pair₁ :: identity₂ :: pair₂ :: rest) now →
      (publicKeys P (pair₁ :: pair₂ :: rest)).Nodup

variable {P : Suite} {source : E}

def Trail (P : Suite) (source : E) (keys : List PublicKey) (now : E) : Prop :=
  ∃ identity₁ pair₁ identity₂ pair₂ rest,
    Drawn source (identity₁ :: pair₁ :: identity₂ :: pair₂ :: rest) now ∧
    keys = publicKeys P (pair₁ :: pair₂ :: rest)

theorem Trail.draw {keys : List PublicKey} {now later : E} {seeds : List (Octets 32)}
    (h : Trail P source keys now) (drawn : Drawn now seeds later) :
    Trail P source (keys ++ publicKeys P seeds) later := by
  obtain ⟨i₁, s₁, i₂, s₂, rest, before, same⟩ := h
  exact ⟨i₁, s₁, i₂, s₂, rest ++ seeds, before.append drawn, by rw [same]; simp [publicKeys]⟩

theorem Trail.nodup {keys : List PublicKey} {now : E} (h : Trail P source keys now)
    (distinct : DistinctPairs P source now) : keys.Nodup := by
  obtain ⟨i₁, s₁, i₂, s₂, rest, drawn, rfl⟩ := h
  exact distinct i₁ s₁ i₂ s₂ rest drawn

theorem Trail.keys_notMem {keys : List PublicKey} {now later : E} {seeds : List (Octets 32)}
    (h : Trail P source keys now) (drawn : Drawn now seeds later)
    (distinct : DistinctPairs P source later) : ∀ key ∈ keys, key ∉ publicKeys P seeds := by
  intro key old new
  exact (List.nodup_append.1 ((h.draw drawn).nodup distinct)).2.2 key old key new rfl

theorem Trail.steady {keys : List PublicKey} {now : E} (h : Trail P source keys now)
    (steady : Steady source) : Steady now := by
  obtain ⟨_, _, _, _, _, drawn, -⟩ := h
  exact steady.later drawn

end RatchetSession
