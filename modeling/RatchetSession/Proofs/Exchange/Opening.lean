import RatchetSession.Proofs.Exchange.Sending
set_option autoImplicit false

namespace RatchetSession

variable {P : Suite}

def Talk.opening (couple : Couple P) (side : Side) (oneTime : Option PreKey) (e : Epoch) : Talk P :=
  ⟨side, oneTime, Handshake.opening P (couple.identity side) (couple.identity side.other)
    (couple.party side.other).signedPreKey oneTime e⟩

theorem Talk.opening_unknown (couple : Couple P) (side : Side) (oneTime : Option PreKey) (e : Epoch) :
    ¬ (opening couple side oneTime e).Known side.other := by
  rintro (same | two)
  · exact side.other_ne same.symm
  · exact absurd two (by simp [opening, Handshake.opening])

namespace Ledger

/-- The ledger with a dialogue more, under a base key that was drawn for it. The one-time pre-key
that it names is spare no longer. -/
def begin (l : Ledger P) (base : PublicKey) (t : Talk P) : Ledger P :=
  { l.put base t with
    bases := base :: l.bases
    spare := fun side =>
      if side = t.starter.other then
        (l.spare side).filter fun key => t.oneTime.all (key.id != ·.id)
      else l.spare side
    keys := l.keys ++ [base] }

def offer (l : Ledger P) (side : Side) (key : PreKey) : Ledger P :=
  { l with
    spare := fun other => if other = side then key :: l.spare other else l.spare other
    ids := fun other => if other = side then key.id :: l.ids other else l.ids other
    keys := l.keys ++ [key.keyPair.publicKey] }

variable {couple : Couple P} {l : Ledger P} {base : PublicKey} {t : Talk P}
  {st : Side → Store P} {side : Side} {store : Store P}

theorem spare_begin (l : Ledger P) (base : PublicKey) (t : Talk P) (side : Side) :
    ((l.begin base t).spare side).Sublist (l.spare side) := by
  simp only [begin]
  split
  · exact List.filter_sublist
  · exact List.Sublist.refl _

theorem mem_spare_begin {key : PreKey}
    (member : key ∈ (l.begin base t).spare t.starter.other) : ∀ used ∈ t.oneTime, key.id ≠ used.id := by
  intro used named
  simp only [begin, if_true, List.mem_filter, show t.oneTime = some used from named, Option.all_some,
    bne_iff_ne] at member
  exact member.2

theorem mem_spare_begin_of_ne {key : PreKey} (member : key ∈ l.spare side)
    (other : side = t.starter.other → ∀ used ∈ t.oneTime, key.id ≠ used.id) :
    key ∈ (l.begin base t).spare side := by
  simp only [begin]
  split
  · rename_i same
    refine List.mem_filter.2 ⟨member, ?_⟩
    cases named : t.oneTime with
    | none => rfl
    | some used => simpa using other same used named
  · exact member

theorem Stocked.begin (h : l.Stocked) (held : ∀ key ∈ t.oneTime, key ∈ l.spare t.starter.other) :
    (l.begin base t).Stocked := by
  have taken : ∀ b t₁, l.talks b = some t₁ → t₁.starter = t.starter → ∀ key ∈ t₁.oneTime,
      ∀ key' ∈ t.oneTime, key.id ≠ key'.id := by
    intro b t₁ there starter key named key' named'
    exact h.unused b t₁ there key named key' (starter ▸ held key' named')
  refine ⟨fun b b' t₁ t₂ one two starter key named key' named' same => ?_,
    fun b t₁ there key named key' free => ?_, fun side => ?_, fun b t₁ there key named => ?_,
    fun side key member => h.published side key ((spare_begin l base t side).subset member)⟩
  · rcases put_eq_some one with ⟨rfl, rfl⟩ | ⟨-, first⟩ <;>
      rcases put_eq_some two with ⟨rfl, rfl⟩ | ⟨-, second⟩
    · rfl
    · exact absurd same.symm (taken b' t₂ second starter.symm key' named' key named)
    · exact absurd same (taken b t₁ first starter key named key' named')
    · exact h.once b b' t₁ t₂ first second starter key named key' named' same
  · rcases put_eq_some there with ⟨rfl, rfl⟩ | ⟨-, there⟩
    · exact (mem_spare_begin free key named).symm
    · exact h.unused b t₁ there key named key' ((spare_begin l base t _).subset free)
  · exact List.Nodup.sublist ((spare_begin l base t side).map _) (h.spare side)
  · rcases put_eq_some there with ⟨rfl, rfl⟩ | ⟨-, there⟩
    · exact h.published _ key (held key named)
    · exact h.used b t₁ there key named

theorem Agrees.base_mem_keys (h : l.Agrees couple st) (found : l.talks base = some t) :
    base ∈ l.keys := by
  have covers := h.covers base t found
  have first := List.getElem?_eq_getElem covers.begun
  rw [← covers.base, ← covers.sound.base _ first]
  exact covers.drawn _ (List.getElem_mem _)

theorem Agrees.talks_eq_none (h : l.Agrees couple st) (fresh : base ∉ l.keys) :
    l.talks base = none := by
  cases there : l.talks base with
  | none => rfl
  | some t => exact absurd (h.base_mem_keys there) fresh

theorem Describes.begin_own (h : l.Describes couple side store) (starter : t.starter = side)
    {r : Record P} (current : r.current.isSome = true)
    (files : (l.begin base t).Files side r.sessions) :
    (l.begin base t).Describes couple side
      ((store.saveIdentity (couple.address side.other) ((couple.identity side.other).key P)).2.saveRecord
        (couple.address side.other) r) where
  identity := h.identity
  signed := h.signed
  trusted := by simp [Store.trusts, Store.saveRecord, Store.saveIdentity, Couple.address]
  record := by
    refine ⟨some r, Store.loadRecord_saveRecord _ _ r, fun r' is => ?_, files⟩
    cases is
    exact current
  oneTime b t₁ there starts one := by
    rcases put_eq_some there with ⟨-, rfl⟩ | ⟨-, there⟩
    · exact absurd (starter.symm.trans starts).symm side.other_ne
    · exact h.oneTime b t₁ there starts one
  spare key member := h.spare key ((spare_begin l base t side).subset member)

theorem Describes.begin_other (h : l.Describes couple side store)
    (unused : l.talks base = none) (unknown : ¬ t.Known side)
    (held : ∀ key ∈ t.oneTime, key ∈ l.spare side) : (l.begin base t).Describes couple side store := by
  obtain ⟨stored, loaded, current, files⟩ := h.record
  have files' : (l.begin base t).Files side (stored.getD .empty).sessions := by
    refine ⟨fun s member => ?_, fun b t₁ there knows => ?_, files.distinct⟩
    · obtain ⟨t₁, k, e, there, turns, holds⟩ := files.tracked s member
      have away : s.baseKey ≠ base := by
        rintro rfl
        rw [unused] at there
        cases there
      exact ⟨t₁, k, e, (put_of_ne l t away).trans there, turns, holds⟩
    · rcases put_eq_some there with ⟨-, rfl⟩ | ⟨-, there⟩
      · exact absurd knows unknown
      · exact files.complete b t₁ there knows
  refine { h with
    record := ⟨stored, loaded, current, files'⟩
    oneTime := fun b t₁ there starts one key named => ?_
    spare := fun key member => h.spare key ((spare_begin l base t side).subset member) }
  rcases put_eq_some there with ⟨-, rfl⟩ | ⟨-, there⟩
  · exact (h.spare key (held key named)).1
  · exact h.oneTime b t₁ there starts one key named

theorem Agrees.begin (h : l.Agrees couple st) (starter : t.starter = side) (fresh : base ∉ l.keys)
    (covers : (l.begin base t).Covers couple base t)
    (alone : ∀ e ∈ t.dialogue.epochs, e.key P = base)
    (unknown : ¬ t.Known side.other) (held : ∀ key ∈ t.oneTime, key ∈ l.spare side.other)
    (describes : (l.begin base t).Describes couple side store) :
    (l.begin base t).Agrees couple (setStore st side store) := by
  have unused := h.talks_eq_none fresh
  have more : l.Bounds (l.begin base t) :=
    ⟨fun _ member => List.mem_append_left _ member, Nat.le_refl _, Nat.le_refl _⟩
  have olds : ∀ b t₁, l.talks b = some t₁ → ∀ e ∈ t₁.dialogue.epochs, ∀ e' ∈ t.dialogue.epochs,
      e.key P ≠ e'.key P := by
    intro b t₁ there e member e' member' same
    exact fresh (alone e' member' ▸ same ▸ (h.covers b t₁ there).drawn e member)
  refine ⟨fun b t₁ there => ?_, side.forall_of_both ?_ ?_, fun b t₁ there => ?_,
    fun b b' t₁ t₂ one two e member e' member' same => ?_, h.stocked.begin (by rw [starter]; exact held),
    fun other => List.mem_append_left _ (h.signed other)⟩
  · rcases put_eq_some there with ⟨rfl, rfl⟩ | ⟨-, there⟩
    · exact covers
    · exact (h.covers b t₁ there).mono more
  · rw [setStore_self]
    exact describes
  · rw [setStore_other]
    exact (h.describes side.other).begin_other unused unknown held
  · rcases put_eq_some there with ⟨rfl, rfl⟩ | ⟨-, there⟩
    · exact List.mem_cons_self
    · exact List.mem_cons_of_mem _ (h.bases b t₁ there)
  · rcases put_eq_some one with ⟨rfl, rfl⟩ | ⟨-, first⟩ <;>
      rcases put_eq_some two with ⟨rfl, rfl⟩ | ⟨-, second⟩
    · rfl
    · exact absurd same.symm (olds b' t₂ second e' member' e member)
    · exact absurd same (olds b t₁ first e member e' member')
    · exact h.apart b b' t₁ t₂ first second e member e' member' same

theorem spare_offer {key : PreKey} {other : Side} {held : PreKey}
    (member : held ∈ (l.offer side key).spare other) : other = side ∧ held = key ∨
      held ∈ l.spare other := by
  simp only [offer] at member
  split at member
  · rename_i same
    exact (List.mem_cons.1 member).imp_left fun is => ⟨same, is⟩
  · exact .inr member

theorem mem_spare_offer {key : PreKey} {other : Side} {held : PreKey} (member : held ∈ l.spare other) :
    held ∈ (l.offer side key).spare other := by
  simp only [offer]
  split
  · exact List.mem_cons_of_mem _ member
  · exact member

theorem of_mem_ids_offer {key : PreKey} {other : Side} {id : UInt32}
    (member : id ∈ (l.offer side key).ids other) :
    id ∈ l.ids other ∨ side = other ∧ some key.id = some id := by
  simp only [offer] at member
  split at member
  · rename_i same
    exact (List.mem_cons.1 member).symm.imp_right fun is => ⟨same.symm, congrArg some is.symm⟩
  · exact .inl member

theorem ids_offer {key : PreKey} {other : Side} {id : UInt32} (member : id ∈ l.ids other) :
    id ∈ (l.offer side key).ids other := by
  simp only [offer]
  split
  · exact List.mem_cons_of_mem _ member
  · exact member

theorem Stocked.offer (h : l.Stocked) {key : PreKey} (fresh : key.id ∉ l.ids side) :
    (l.offer side key).Stocked := by
  refine ⟨h.once, fun b t there used named held free => ?_, fun other => ?_,
    fun b t there used named => ids_offer (h.used b t there used named),
    fun other held member => ?_⟩
  · rcases spare_offer free with ⟨same, rfl⟩ | old
    · intro id
      exact fresh (id ▸ same ▸ h.used b t there used named)
    · exact h.unused b t there used named held old
  · simp only [Ledger.offer]
    split
    · rename_i same
      refine List.nodup_cons.2 ⟨fun member => ?_, h.spare other⟩
      obtain ⟨held, old, id⟩ := List.mem_map.1 member
      have published := h.published other held old
      rw [id, same] at published
      exact fresh published
    · exact h.spare other
  · rcases spare_offer member with ⟨rfl, rfl⟩ | old
    · simp [Ledger.offer]
    · exact ids_offer (h.published other held old)

theorem Describes.offer_own (h : l.Describes couple side store) (stocked : l.Stocked) {key : PreKey}
    (fresh : key.id ∉ l.ids side) (valid : key.keyPair.Valid P) :
    (l.offer side key).Describes couple side (store.addPreKey key) := by
  have found : ∀ id, id ≠ key.id →
      (store.addPreKey key).preKeys.find? id = store.preKeys.find? id := fun id away =>
    Table.find?_insert_of_ne away
  obtain ⟨stored, loaded, current, files⟩ := h.record
  refine ⟨h.identity, h.signed, h.trusted, ⟨stored, loaded, current, files.of_talks rfl⟩,
    fun b t there starts one other named => ?_, fun other member => ?_⟩
  · refine (found other.id fun same => ?_).trans (h.oneTime b t there starts one other named)
    have used := stocked.used b t there other named
    rw [starts, Side.other_other, same] at used
    exact fresh used
  · rcases spare_offer member with ⟨-, rfl⟩ | old
    · exact ⟨Table.find?_insert_self _ _ _, valid⟩
    · obtain ⟨held, ok⟩ := h.spare other old
      refine ⟨(found other.id fun same => ?_).trans held, ok⟩
      exact fresh (same ▸ stocked.published side other old)

theorem Describes.offer_other (h : l.Describes couple side.other store) (key : PreKey) :
    (l.offer side key).Describes couple side.other store := by
  obtain ⟨stored, loaded, current, files⟩ := h.record
  refine { h with
    record := ⟨stored, loaded, current, files.of_talks rfl⟩
    spare := fun held member => ?_ }
  rcases spare_offer member with ⟨same, -⟩ | old
  · exact absurd same side.other_ne
  · exact h.spare held old

theorem Agrees.offer (h : l.Agrees couple st) {key : PreKey} (fresh : key.id ∉ l.ids side)
    (valid : key.keyPair.Valid P) :
    (l.offer side key).Agrees couple (setStore st side ((st side).addPreKey key)) := by
  have more : l.Bounds (l.offer side key) :=
    ⟨fun _ member => List.mem_append_left _ member, Nat.le_refl _, Nat.le_refl _⟩
  refine ⟨fun b t there => (h.covers b t there).mono more, side.forall_of_both ?_ ?_, h.bases, h.apart,
    h.stocked.offer fresh, fun other => List.mem_append_left _ (h.signed other)⟩
  · rw [setStore_self]
    exact (h.describes side).offer_own h.stocked fresh valid
  · rw [setStore_other]
    exact (h.describes side.other).offer_other key

variable {E : Type} [Randomness E] {source : E}

theorem Agrees.initiate (h : l.Agrees couple st) {oneTime : Option PreKey}
    (held : ∀ key ∈ oneTime, key ∈ l.spare side.other) {e : Epoch} {s : Session P}
    (holds : Holds (Talk.opening couple side oneTime e).dialogue 0 e s)
    (awaits : Handshake.Awaits (Talk.opening couple side oneTime e).dialogue e
      (couple.identity side.other) (couple.party side.other).signedPreKey oneTime)
    (fresh : e.key P ∉ l.keys) {sessions : List (Session P)} (files : l.Files side sessions)
    {r : Record P} (current : r.current.isSome = true) (filed : r.sessions = s :: sessions) :
    (l.begin (e.key P) (Talk.opening couple side oneTime e)).Agrees couple
      (setStore st side (((st side).saveIdentity (couple.address side.other)
        ((couple.identity side.other).key P)).2.saveRecord (couple.address side.other) r)) := by
  have named : s.baseKey = e.key P := holds.baseKey
  have away : ∀ old ∈ sessions, old.baseKey ≠ s.baseKey := by
    intro old member same
    obtain ⟨t', _, _, there, -⟩ := files.tracked old member
    exact fresh (named ▸ same ▸ h.base_mem_keys there)
  have files' : (l.begin (e.key P) (Talk.opening couple side oneTime e)).Files side r.sessions := by
    rw [filed]
    refine (files.of_talks rfl).extend (t := Talk.opening couple side oneTime e)
      (fun other other_ne => put_of_ne l _ (named ▸ other_ne)) ?_ rfl holds away
    rw [named]
    exact put_self l _ _
  have covers : (l.begin (e.key P) (Talk.opening couple side oneTime e)).Covers couple (e.key P)
      (Talk.opening couple side oneTime e) := by
    refine ⟨rfl, rfl, rfl, Handshake.opening_sound _ _ _ _ e, Nat.one_pos, fun e₁ first => ?_,
      fun _ => ⟨e, awaits⟩, rfl, fun _ => Nat.zero_le _, Nat.le_add_left 1 _, fun e₁ member => ?_,
      fun e₁ member other same => ?_⟩
    · cases first
      exact awaits.peer
    · cases List.mem_singleton.1 member
      exact List.mem_append_right _ List.mem_cons_self
    · cases List.mem_singleton.1 member
      exact fresh (same ▸ h.signed other)
  refine h.begin rfl fresh covers (fun e₁ member => ?_) (Talk.opening_unknown couple side oneTime e)
    held ((h.describes side).begin_own rfl current files')
  cases List.mem_singleton.1 member
  rfl

theorem Agrees.start (laws : P.Lawful) (h : l.Agrees couple st) (side : Side)
    {oneTime : Option PreKey} (held : ∀ key ∈ oneTime, key ∈ l.spare side.other)
    (room : l.bases.length ≤ (couple.limits side).maxArchivedStates) (steady : Steady source) :
    ∃ seed source' store t, Randomness.draw 32 source = .ok seed source' ∧
      Does ((couple.conversation side).start (.ofKeys ((couple.identity side.other).key P)
        (couple.party side.other).signedPreKey oneTime)) (st side) source () store source' ∧
      t.starter = side ∧ t.oneTime = oneTime ∧ ¬ t.Known side.other ∧
      ((KeyPair.ofSeed P seed).publicKey ∉ l.keys →
        (l.begin (KeyPair.ofSeed P seed).publicKey t).Agrees couple (setStore st side store)) := by
  have describes := h.describes side
  have their := h.describes side.other
  obtain ⟨stored, loaded, current, files⟩ := describes.record
  obtain ⟨seed, source', draw⟩ := steady.draw
  have valid := couple.signed side.other
  have oneTimeValid : ∀ key ∈ oneTime, key.keyPair.Valid P :=
    fun key named => (their.spare key (held key named)).2
  obtain ⟨s, made⟩ := Handshake.outgoing_total laws (couple.identity side) valid oneTimeValid draw
  obtain ⟨e, draw', holds, awaits⟩ :=
    Handshake.outgoing_holds laws.commutes valid.keyPair oneTimeValid made
  have base : e.key P = (KeyPair.ofSeed P seed).publicKey := by
    cases draw'.symm.trans draw
    rfl
  have few : (stored.getD .empty).sessions.length ≤ (couple.limits side).maxArchivedStates :=
    Nat.le_trans (files.length_le h.bases) room
  refine ⟨seed, source', _, .opening couple side oneTime e, draw,
    (couple.conversation side).start_does (Bundle.verify_ofKeys laws valid oneTime)
      describes.trusted (by rw [describes.identity]; exact made) loaded, rfl, rfl,
    Talk.opening_unknown couple side oneTime e, fun fresh => ?_⟩
  rw [← base] at fresh ⊢
  exact h.initiate held holds awaits fresh files rfl (Record.sessions_promote few)

theorem Agrees.publish (h : l.Agrees couple st) (side : Side) (id : UInt32) (fresh : id ∉ l.ids side)
    (steady : Steady source) :
    ∃ seed source', Randomness.draw 32 source = .ok seed source' ∧
      Does ((couple.party side).publish (some id)) (st side) source
        (.ofKeys ((couple.identity side).key P) (couple.party side).signedPreKey
          (some ⟨id, KeyPair.ofSeed P seed⟩))
        ((st side).addPreKey ⟨id, KeyPair.ofSeed P seed⟩) source' ∧
      (l.offer side ⟨id, KeyPair.ofSeed P seed⟩).Agrees couple
        (setStore st side ((st side).addPreKey ⟨id, KeyPair.ofSeed P seed⟩)) := by
  obtain ⟨seed, source', draw⟩ := steady.draw
  have generated : (PreKey.generate P id).adaptExcept SessionError.ofCrypto source =
      .ok ⟨id, KeyPair.ofSeed P seed⟩ source' := by
    refine Computation.adaptExcept_of_ok ?_
    unfold PreKey.generate
    simp only [Functor.map, EStateM.map, drawKeyPair_of_draw P draw]
  have identity : (.ok (st side).identity : Except StoreError Identity) =
      .ok (couple.identity side) := by
    rw [(h.describes side).identity]
  refine ⟨seed, source', draw, ?_, h.offer fresh (KeyPair.ofSeed_valid seed)⟩
  exact .bind (.onSource generated) (.bind (.query identity) (.bind (.write _ _) (.pure _)))

theorem Agrees.publish_none (h : l.Agrees couple st) (side : Side) (source : E) :
    Does ((couple.party side).publish none) (st side) source
      (.ofKeys ((couple.identity side).key P) (couple.party side).signedPreKey none) (st side)
      source := by
  have identity : (.ok (st side).identity : Except StoreError Identity) =
      .ok (couple.identity side) := by
    rw [(h.describes side).identity]
  exact .bind (.query identity) (.pure _)

end Ledger

end RatchetSession
