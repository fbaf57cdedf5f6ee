import RatchetSession.Proofs.Exchange.Ledger
set_option autoImplicit false

/-!
How a ledger goes on: one dialogue advances, a new one begins, or nothing happens but
draws. The stores are described as before if the side that acted is.
-/

namespace RatchetSession

theorem Side.eq_other {a b : Side} (h : a ≠ b) : a = b.other := by
  cases a <;> cases b <;> first | rfl | exact absurd rfl h

@[simp] theorem Side.other_other (side : Side) : side.other.other = side := by cases side <;> rfl

theorem Side.other_ne (side : Side) : side.other ≠ side := by cases side <;> nofun

variable {P : Suite}

def setStore (st : Side → Store P) (side : Side) (store : Store P) : Side → Store P :=
  fun other => if other = side then store else st other

@[simp] theorem setStore_self (st : Side → Store P) (side : Side) (store : Store P) :
    setStore st side store side = store := if_pos rfl

@[simp] theorem setStore_other (st : Side → Store P) (side : Side) (store : Store P) :
    setStore st side store side.other = st side.other := if_neg side.other_ne

theorem setStore_id (st : Side → Store P) (side : Side) : setStore st side (st side) = st := by
  funext other
  unfold setStore
  split
  · rename_i same
    rw [same]
  · rfl

theorem Side.forall_of_both {motive : Side → Prop} (side : Side) (own : motive side)
    (their : motive side.other) (any : Side) : motive any := by
  by_cases same : any = side
  · exact same ▸ own
  · exact Side.eq_other same ▸ their

namespace Talk

theorem side_turn_ne {t : Talk P} {i j : Nat} {side : Side} (their : t.side (turn i) = side.other)
    (own : t.side (turn j) = side) : turn i ≠ turn j := by
  intro same
  rw [same, own] at their
  exact side.other_ne their.symm

theorem side_injective {t : Talk P} {a b : Origin} (h : t.side a = t.side b) : a = b := by
  cases a <;> cases b
  · rfl
  · exact absurd h.symm t.starter.other_ne
  · exact absurd h t.starter.other_ne
  · rfl

def withDialogue (t : Talk P) (d : Dialogue P) : Talk P := { t with dialogue := d }

end Talk

namespace Ledger

variable {couple : Couple P} {l l' : Ledger P} {base : PublicKey} {t t' : Talk P}
  {st : Side → Store P} {side : Side} {store : Store P}

/-- The ledger after draws, sends and deliveries that change no dialogue. -/
def pass (l : Ledger P) (fresh : List PublicKey) (sends deliveries : Nat) : Ledger P :=
  { l with
    keys := l.keys ++ fresh
    sends := l.sends + sends
    deliveries := l.deliveries + deliveries }

def put (l : Ledger P) (base : PublicKey) (t : Talk P) : Ledger P :=
  { l with talks := fun other => if other = base then some t else l.talks other }

@[simp] theorem put_self (l : Ledger P) (base : PublicKey) (t : Talk P) :
    (l.put base t).talks base = some t := by simp [put]

theorem put_of_ne (l : Ledger P) {base other : PublicKey} (t : Talk P) (h : other ≠ base) :
    (l.put base t).talks other = l.talks other := by simp [put, h]

theorem put_eq_some {other : PublicKey} {t₁ : Talk P} (h : (l.put base t).talks other = some t₁) :
    other = base ∧ t₁ = t ∨ other ≠ base ∧ l.talks other = some t₁ := by
  by_cases same : other = base
  · subst same
    rw [put_self] at h
    exact .inl ⟨rfl, (Option.some.inj h).symm⟩
  · exact .inr ⟨same, by rwa [put_of_ne l t same] at h⟩

/-- A ledger in which no less has been drawn and done. -/
structure Bounds (l l' : Ledger P) : Prop where
  keys : ∀ key ∈ l.keys, key ∈ l'.keys
  sends : l.sends ≤ l'.sends
  deliveries : l.deliveries ≤ l'.deliveries

theorem bounds_pass (l : Ledger P) (fresh : List PublicKey) (sends deliveries : Nat) :
    l.Bounds (l.pass fresh sends deliveries) :=
  ⟨fun _ member => List.mem_append_left _ member, Nat.le_add_right _ _, Nat.le_add_right _ _⟩

theorem Covers.mono (h : l.Covers couple base t) (more : l.Bounds l') : l'.Covers couple base t :=
  { h with
    sent := fun k => Nat.le_trans (h.sent k) more.sends
    epochs := Nat.le_trans h.epochs (Nat.succ_le_succ more.deliveries)
    drawn := fun e member => more.keys _ (h.drawn e member) }

theorem Covers.send (h : l.Covers couple base t) {k : Nat} (old : k < t.dialogue.epochs.length)
    (more : l.Bounds l') (sends : l.sends + 1 ≤ l'.sends) :
    l'.Covers couple base (t.withDialogue (t.dialogue.send k)) :=
  { h.mono more with
    sound := h.sound.send old
    awaits := fun one => by
      obtain ⟨e, awaits⟩ := h.awaits one
      exact ⟨e, awaits.epochs, awaits.peer, awaits.signedPreKeyId, awaits.preKeyId, awaits.derived⟩
    sent := fun j => by
      have le := h.sent j
      simp only [Talk.withDialogue, Dialogue.send]
      split <;> omega }

theorem Covers.hear (h : l.Covers couple base t) {k : Nat} {counter : UInt32}
    (followed : k + 1 < t.dialogue.epochs.length) (was : counter.toNat < t.dialogue.sent k) :
    l.Covers couple base (t.withDialogue (t.dialogue.hear k counter)) :=
  { h with
    sound := h.sound.hear followed was
    awaits := fun one => by
      simp only [Talk.withDialogue, Dialogue.hear] at one
      omega }

theorem Covers.grow (h : l.Covers couple base t) {k : Nat} {e e' : Epoch}
    (last : t.dialogue.epochs.length = k + 1) (there : t.dialogue.epochs[k]? = some e)
    (next : e.Next P e') (previous : ∀ i, k = i + 1 → e'.previous.toNat ≤ t.dialogue.sent i)
    (unused : e'.key P ∉ l.keys)
    (signed : ∀ side, (couple.party side).signedPreKey.keyPair.publicKey ∈ l.keys)
    (more : l.Bounds l') (drawn : e'.key P ∈ l'.keys)
    (deliveries : l.deliveries + 1 ≤ l'.deliveries) :
    l'.Covers couple base (t.withDialogue (t.dialogue.grow e')) := by
  have length : (t.dialogue.grow e').epochs.length = k + 2 := by simp [Dialogue.grow, last]
  have each : ∀ e₁ ∈ (t.dialogue.grow e').epochs, e₁ ∈ t.dialogue.epochs ∨ e₁ = e' := by
    intro e₁ member
    simpa [Dialogue.grow] using member
  refine { h.mono more with
    sound := ?_, begun := ?_, peer := ?_, awaits := ?_, epochs := ?_, drawn := ?_, unsigned := ?_ }
  · exact h.sound.grow last there next
      (fun _ e₁ _ held same => unused (same ▸ h.drawn e₁ (List.mem_of_getElem? held)))
      previous
  · exact Nat.lt_of_lt_of_eq (Nat.succ_pos _) length.symm
  · intro e₁ first
    refine h.peer e₁ ?_
    rwa [Talk.withDialogue, Dialogue.grow, List.getElem?_append_left h.begun] at first
  · intro one
    exact absurd (length.symm.trans one) (by omega)
  · have le := h.epochs
    simp only [Talk.withDialogue, length]
    omega
  · intro e₁ member
    rcases each e₁ member with old | rfl
    · exact more.keys _ (h.drawn e₁ old)
    · exact drawn
  · intro e₁ member side
    rcases each e₁ member with old | rfl
    · exact h.unsigned e₁ old side
    · exact fun same => unused (same ▸ signed side)

theorem Files.of_talks {sessions : List (Session P)} (h : l.Files side sessions)
    (talks : l'.talks = l.talks) : l'.Files side sessions :=
  ⟨by rw [talks]; exact h.tracked, by rw [talks]; exact h.complete, h.distinct⟩

theorem Files.put (skipped : List (Session P)) {rest : List (Session P)} {s next : Session P}
    (h : l.Files side (skipped ++ s :: rest)) (named : s.baseKey = base)
    (same : next.baseKey = s.baseKey) {k : Nat} {e : Epoch} (turns : t.side (turn k) = side)
    (holds : Holds t.dialogue k e next) : (l.put base t).Files side (next :: (skipped ++ rest)) := by
  subst named
  exact h.update same (fun other away => put_of_ne l t away) (put_self l _ t) turns holds

theorem Describes.pass (h : l.Describes couple side store) (fresh : List PublicKey)
    (sends deliveries : Nat) : (l.pass fresh sends deliveries).Describes couple side store := by
  obtain ⟨stored, held, current, files⟩ := h.record
  exact { h with record := ⟨stored, held, current, files.of_talks rfl⟩ }

theorem Agrees.pass (h : l.Agrees couple st) (fresh : List PublicKey) (sends deliveries : Nat) :
    (l.pass fresh sends deliveries).Agrees couple st where
  covers base t there := (h.covers base t there).mono (l.bounds_pass fresh sends deliveries)
  describes side := (h.describes side).pass fresh sends deliveries
  bases := h.bases
  apart := h.apart
  stocked := ⟨h.stocked.once, h.stocked.unused, h.stocked.spare, h.stocked.used,
    h.stocked.published⟩
  signed side := List.mem_append_left _ (h.signed side)

theorem Stocked.put (h : l.Stocked) (found : l.talks base = some t) (later : t.Later t') :
    (l.put base t').Stocked := by
  have old : ∀ other t₁, (l.put base t').talks other = some t₁ →
      ∃ t₀, l.talks other = some t₀ ∧ t₁.starter = t₀.starter ∧ t₁.oneTime = t₀.oneTime := by
    intro other t₁ there
    rcases put_eq_some there with ⟨rfl, rfl⟩ | ⟨-, there⟩
    · exact ⟨t, found, later.starter, later.oneTime⟩
    · exact ⟨t₁, there, rfl, rfl⟩
  refine ⟨fun b b' t₁ t₂ one two starter key named key' named' same => ?_,
    fun b t₁ there key named key' free => ?_, h.spare, fun b t₁ there key named => ?_, h.published⟩
  · obtain ⟨t₃, one, starter₁, oneTime₁⟩ := old b t₁ one
    obtain ⟨t₄, two, starter₂, oneTime₂⟩ := old b' t₂ two
    rw [starter₁, starter₂] at starter
    exact h.once b b' t₃ t₄ one two starter key (oneTime₁ ▸ named) key' (oneTime₂ ▸ named') same
  · obtain ⟨t₀, there, starter, oneTime⟩ := old b t₁ there
    rw [starter] at free
    exact h.unused b t₀ there key (oneTime ▸ named) key' free
  · obtain ⟨t₀, there, starter, oneTime⟩ := old b t₁ there
    rw [starter]
    exact h.used b t₀ there key (oneTime ▸ named)

/-- After a step in one dialogue the ledger agrees with the stores if it does so for the dialogue
and for the side that acted, and the other side keeps its sessions. -/
theorem Agrees.put (h : l.Agrees couple st) (found : l.talks base = some t) (later : t.Later t')
    {fresh : List PublicKey} {sends deliveries : Nat}
    (covers : (l.pass fresh sends deliveries).Covers couple base t')
    (new : ∀ e ∈ t'.dialogue.epochs, e ∈ t.dialogue.epochs ∨ e.key P ∈ fresh)
    (unused : ∀ key ∈ l.keys, key ∉ fresh)
    (describes : ((l.pass fresh sends deliveries).put base t').Describes couple side store)
    (keeps : ∀ sessions, l.Files side.other sessions →
      ((l.pass fresh sends deliveries).put base t').Files side.other sessions)
    (waits : t'.dialogue.epochs.length = 1 → t.dialogue.epochs.length = 1) :
    ((l.pass fresh sends deliveries).put base t').Agrees couple (setStore st side store) := by
  have passed := h.pass fresh sends deliveries
  have olds : ∀ other t₁, l.talks other = some t₁ → other ≠ base → ∀ e ∈ t₁.dialogue.epochs,
      ∀ e' ∈ t'.dialogue.epochs, e.key P ≠ e'.key P := by
    intro other t₁ there away e member e' member' same
    have drawn := (h.covers other t₁ there).drawn e member
    rcases new e' member' with old | drawnNow
    · exact away (h.apart other base t₁ t there found e member e' old same)
    · exact unused _ drawn (same ▸ drawnNow)
  refine ⟨fun other t₁ there => ?_, side.forall_of_both ?_ ?_, fun other t₁ there => ?_,
    fun b b' t₁ t₂ one two e member e' member' same => ?_, passed.stocked.put found later,
    passed.signed⟩
  · rcases put_eq_some there with ⟨rfl, rfl⟩ | ⟨-, there⟩
    · exact { covers with }
    · exact { passed.covers other t₁ there with }
  · rw [setStore_self]
    exact describes
  · rw [setStore_other]
    have old := h.describes side.other
    obtain ⟨stored, held, current, files⟩ := old.record
    refine { old with
      record := ⟨stored, held, current, keeps _ files⟩
      oneTime := fun b t₁ there starter one => ?_ }
    rcases put_eq_some there with ⟨rfl, rfl⟩ | ⟨-, there⟩
    · have kept := old.oneTime b t found (later.starter.symm.trans starter) (waits one)
      rwa [later.oneTime]
    · exact old.oneTime b t₁ there starter one
  · rcases put_eq_some there with ⟨rfl, rfl⟩ | ⟨-, there⟩
    · exact h.bases other t found
    · exact h.bases other t₁ there
  · rcases put_eq_some one with ⟨rfl, rfl⟩ | ⟨away, first⟩ <;>
      rcases put_eq_some two with ⟨rfl, rfl⟩ | ⟨away', second⟩
    · rfl
    · exact absurd same.symm (olds b' t₂ second away' e' member' e member)
    · exact absurd same (olds b t₁ first away e member e' member')
    · exact h.apart b b' t₁ t₂ first second e member e' member' same

end Ledger

end RatchetSession
