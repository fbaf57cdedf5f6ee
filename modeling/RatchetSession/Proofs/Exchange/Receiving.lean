import RatchetSession.Proofs.Exchange.Sending
import RatchetSession.Proofs.Session.Unheard
set_option autoImplicit false

/-!
A side receives a letter: it builds the letter's session, or finds it among those it has,
or strays to a session of another dialogue. A letter that was opened before is a
duplicate.
-/

namespace RatchetSession

variable {P : Suite}

namespace Ledger

structure Within (couple : Couple P) (l : Ledger P) : Prop where
  sends : ∀ side, l.sends ≤ (couple.limits side).maxSkip.toNat
  deliveries : ∀ side, l.deliveries < (couple.limits side).maxReceiverChains
  bases : ∀ side, l.bases.length ≤ (couple.limits side).maxArchivedStates + 1

variable {couple : Couple P} {l : Ledger P} {base : PublicKey} {t : Talk P}
  {st : Side → Store P} {side : Side} {store : Store P}

theorem Agrees.hear (h : l.Agrees couple st) (found : l.talks base = some t) {j : Nat}
    (followed : j + 1 < t.dialogue.epochs.length) {counter : UInt32}
    (was : counter.toNat < t.dialogue.sent j) (turns : t.side (turn j) = side.other)
    {fresh : List PublicKey} (unused : ∀ key ∈ l.keys, key ∉ fresh)
    (describes : ((l.pass fresh 0 1).put base
      (t.withDialogue (t.dialogue.hear j counter))).Describes couple side store) :
    ((l.pass fresh 0 1).put base (t.withDialogue (t.dialogue.hear j counter))).Agrees couple
      (setStore st side store) := by
  have covers := (h.covers base t found).hear followed was
  refine h.put found (t.later_hear j counter) (covers.mono (l.bounds_pass fresh 0 1))
    (fun e member => .inl member) unused describes (fun sessions filed => ?_) fun one => one
  refine filed.of_keeps found (put_self _ _ _) (fun other away => put_of_ne _ _ away)
    (fun knows => knows) fun k e s turns' holds => ⟨turns', holds.of_hear ?_ counter⟩
  exact Talk.side_injective (turns.trans turns'.symm)

theorem Agrees.grow (h : l.Agrees couple st) (found : l.talks base = some t) {j : Nat}
    {e e' : Epoch} (last : t.dialogue.epochs.length = j + 1)
    (there : t.dialogue.epochs[j]? = some e) (next : e.Next P e')
    (previous : ∀ i, j = i + 1 → e'.previous.toNat ≤ t.dialogue.sent i) {counter : UInt32}
    (was : counter.toNat < t.dialogue.sent j) (turns : t.side (turn j) = side.other)
    {fresh : List PublicKey} (unused : ∀ key ∈ l.keys, key ∉ fresh) (drawn : e'.key P ∈ fresh)
    (describes : ((l.pass fresh 0 1).put base
      (t.withDialogue ((t.dialogue.grow e').hear j counter))).Describes couple side store) :
    ((l.pass fresh 0 1).put base
      (t.withDialogue ((t.dialogue.grow e').hear j counter))).Agrees couple
        (setStore st side store) := by
  have length : (t.dialogue.grow e').epochs.length = j + 2 := by simp [Dialogue.grow, last]
  have grown : (l.pass fresh 0 1).Covers couple base (t.withDialogue (t.dialogue.grow e')) :=
    (h.covers base t found).grow last there next previous (fun old => unused _ old drawn) h.signed
      (l.bounds_pass fresh 0 1) (List.mem_append_right _ drawn) (Nat.le_refl _)
  have covers : (l.pass fresh 0 1).Covers couple base
      (t.withDialogue ((t.dialogue.grow e').hear j counter)) :=
    grown.hear (Nat.lt_of_lt_of_eq (Nat.lt_succ_self _) length.symm) was
  refine h.put found ((t.later_grow e').trans ((t.withDialogue (t.dialogue.grow e')).later_hear j
    counter)) covers (fun e₁ member => ?_) unused describes (fun sessions filed => ?_) fun one => ?_
  · rcases List.mem_append.1 member with old | new
    · exact .inl old
    · exact .inr (List.mem_singleton.1 new ▸ drawn)
  · refine filed.of_keeps found (put_self _ _ _) (fun other away => put_of_ne _ _ away)
      (fun knows => ?_) fun k e₁ s turns' holds => ⟨turns', ?_⟩
    · cases j with
      | zero => exact .inl turns
      | succ j => exact .inr (by omega)
    · have same := Talk.side_injective (turns.trans turns'.symm)
      have at_last : k = j := by
        have latest := holds.latest
        have inside := (List.getElem?_eq_some_iff.1 holds.epoch).1
        have parity := (turn_eq_iff j k).1 same
        omega
      subst at_last
      exact (holds.of_grow last e').of_hear rfl counter
  · exact absurd (length.symm.trans one) (by omega)

theorem Agrees.peer_ne (h : l.Agrees couple st) (found : l.talks base = some t) {k : Nat}
    {e : Epoch} (epoch : t.dialogue.epochs[k]? = some e) {other : PublicKey} {t' : Talk P}
    (found' : l.talks other = some t') (away : other ≠ base) {e' : Epoch}
    (member : e' ∈ t'.dialogue.epochs) : e'.key P ≠ e.peer := by
  have covers := h.covers base t found
  cases k with
  | zero =>
    rw [covers.peer e epoch]
    exact (h.covers other t' found').unsigned e' member _
  | succ k =>
    obtain ⟨inside, -⟩ := List.getElem?_eq_some_iff.1 epoch
    have before := List.getElem?_eq_getElem (show k < t.dialogue.epochs.length by omega)
    rw [(covers.sound.linked k _ e before epoch).peer]
    intro same
    exact away (h.apart other base t' t found' found e' member _ (List.getElem_mem _) same)

/-- A session that has taken a letter of another dialogue for its own, on a chain that ends
elsewhere than the letter does. -/
structure Stray (couple : Couple P) (l : Ledger P) (side : Side) (base : PublicKey) (e : Epoch)
    (next : Session P) : Prop where
  another : ∃ other, other ≠ base ∧ (l.talks other).isSome = true
  remoteIdentity : next.remoteIdentity = (couple.identity side.other).key P
  localIdentity : next.localIdentity = (couple.identity side).key P
  version : next.version = Envelope.version
  chain : ∃ chain, next.chain? (e.key P) = some chain ∧ chain.localKey ≠ e.peer

theorem Agrees.misses (h : l.Agrees couple st) (found : l.talks base = some t) {k : Nat} {e : Epoch}
    (epoch : t.dialogue.epochs[k]? = some e) {sessions : List (Session P)}
    (files : l.Files side sessions) {s : Session P} (member : s ∈ sessions)
    (away : s.baseKey ≠ base) {limits : Limits} (room : 0 < limits.maxReceiverChains)
    {message : RatchetMessage} (under : message.ratchetKey = e.key P) (E : Type) [Randomness E] :
    Record.Misses E limits message (Stray couple l side base e) s := by
  obtain ⟨t', k', e', found', turns, holds⟩ := files.tracked s member
  have epochs := List.mem_of_getElem? epoch
  have unheard : s.chain? message.ratchetKey = none := by
    rw [under]
    refine holds.chain?_none fun j e₁ _ _ there same => away ?_
    exact h.apart _ base t' t found' found e₁ (List.mem_of_getElem? there) e epochs same
  intro source steady
  rcases Session.decrypt_unheard room unheard steady with
    ⟨error, seeds, source', failed, other, drawn⟩ | ⟨plaintext, next, source', chain, opened, held, own⟩
  · exact .inl ⟨error, seeds, source', failed, other, drawn⟩
  · have start := Session.decrypt_start opened
    obtain ⟨localIdentity, remoteIdentity⟩ := identities (h.covers _ t' found') holds turns
    refine .inr ⟨plaintext, next, source', opened, ⟨s.baseKey, away, by rw [found']; rfl⟩,
      start.remoteIdentity.trans remoteIdentity, start.localIdentity.trans localIdentity,
      start.version.trans holds.version, chain, under ▸ held, ?_⟩
    rw [own, holds.sending]
    exact h.peer_ne found epoch found' away (List.mem_of_getElem? holds.epoch)

section Receive

variable {E : Type} [Randomness E]

variable (couple l st side t) in
def Strays (e : Epoch) (letter : Letter) (source : E) : Prop :=
  ∃ (plaintext : Bytes) (store : Store P) (source' : E) (r : Record P) (next : Session P),
    Does ((couple.conversation side).decrypt (t.write e letter)) (st side) source plaintext store
      source' ∧
    store.loadRecord (couple.address side.other) = .ok (some r) ∧ r.current = some next ∧
    Stray couple l side letter.base e next

variable (couple l st side t) in
inductive Received (e : Epoch) (letter : Letter) (source : E) : Prop where
  | strayed (strays : Strays couple l t st side e letter source)
  | used {seeds : List (Octets 32)} {source' : E} (drawn : Drawn source seeds source')
      (old : letter.counter ∈ t.dialogue.opened letter.epoch)
      (fails : Fails ((couple.conversation side).decrypt (t.write e letter)) (st side) source
        (.duplicateMessage letter.counter) (st side) source')
  | opened {seeds : List (Octets 32)} {source' : E} {store : Store P} {t' : Talk P}
      (drawn : Drawn source seeds source')
      (new : letter.counter ∉ t.dialogue.opened letter.epoch)
      (does : Does ((couple.conversation side).decrypt (t.write e letter)) (st side) source
        letter.plaintext store source')
      (later : t.Later t')
      (heard : t'.dialogue.opened = (t.dialogue.hear letter.epoch letter.counter).opened)
      (agrees : (∀ key ∈ l.keys, key ∉ publicKeys P seeds) →
        ((l.pass (publicKeys P seeds) 0 1).put letter.base t').Agrees couple
          (setStore st side store))

variable {e : Epoch} {letter : Letter} {source : E}

theorem Within.maxReceiverChains_pos (h : l.Within couple) (side : Side) :
    0 < (couple.limits side).maxReceiverChains :=
  Nat.lt_of_le_of_lt (Nat.zero_le _) (h.deliveries side)

theorem Covers.sent_le_maxSkip (h : l.Covers couple base t) (within : l.Within couple) (side : Side)
    (k : Nat) : t.dialogue.sent k ≤ (couple.limits side).maxSkip.toNat :=
  Nat.le_trans (h.sent k) (within.sends side)

variable (couple l side base t) in
/-- A record in which the session of a dialogue stands, between those that are searched before and
after it. -/
structure Located (store : Store P) (r : Record P) (skipped rest : List (Session P))
    (s : Session P) (k : Nat) (e : Epoch) : Prop where
  held : store.loadRecord (couple.address side.other) = .ok (some r)
  current : r.current.isSome = true
  split : r.sessions = skipped ++ s :: rest
  files : l.Files side (skipped ++ s :: rest)
  named : s.baseKey = base
  own : t.side (turn k) = side
  holds : Holds t.dialogue k e s

theorem Agrees.locate (h : l.Agrees couple st) (found : l.talks base = some t)
    (known : t.Known side) :
    ∃ r skipped rest s k e, Located couple l base t side (st side) r skipped rest s k e := by
  obtain ⟨stored, held, current, files⟩ := (h.describes side).record
  obtain ⟨s, member, named⟩ := files.complete _ t found known
  obtain ⟨r, is⟩ : ∃ r, stored = some r := by
    cases stored with
    | some r => exact ⟨r, rfl⟩
    | none => cases member
  subst is
  obtain ⟨skipped, rest, split⟩ := List.append_of_mem member
  obtain ⟨t₁, k, e, there, own, holds⟩ := files.tracked s member
  rw [named] at there
  cases found.symm.trans there
  exact ⟨r, skipped, rest, s, k, e, held, current r rfl, split, split ▸ files, named, own, holds⟩

variable (couple t st side) in
/-- The search for the letter's session has come to it, and ends as it does. -/
structure Tries (e : Epoch) (letter : Letter) (source : E) (others : List (Session P))
    (s : Session P) (seeds : List (Octets 32)) (tried : E) : Prop where
  drawn : Drawn source seeds tried
  opens : ∀ next source',
    s.decrypt (couple.limits side)
        (t.dialogue.message letter.epoch e letter.counter letter.plaintext) tried =
      .ok (letter.plaintext, next) source' →
    ∃ r', r'.current = some next ∧ r'.sessions = next :: others ∧
      Does ((couple.conversation side).decrypt (t.write e letter)) (st side) source
        letter.plaintext ((st side).saveRecord (couple.address side.other) r') source'
  repeats : ∀ counter source',
    s.decrypt (couple.limits side)
        (t.dialogue.message letter.epoch e letter.counter letter.plaintext) tried =
      .error (.duplicateMessage counter) source' →
    Fails ((couple.conversation side).decrypt (t.write e letter)) (st side) source
      (.duplicateMessage counter) (st side) source'

section Located

variable {r : Record P} {skipped rest : List (Session P)} {s : Session P} {k : Nat} {e₁ : Epoch}
  {seeds : List (Octets 32)} {tried : E}

theorem Located.reaches (at_ : Located couple l letter.base t side (st side) r skipped rest s k e₁)
    (h : l.Agrees couple st) (within : l.Within couple) (found : l.talks letter.base = some t)
    (epoch : t.dialogue.epochs[letter.epoch]? = some e) (steady : Steady source) :
    Strays couple l t st side e letter source ∨
      ∃ seeds tried, Tries couple t st side e letter source (skipped ++ rest) s seeds tried := by
  have covers := h.covers _ t found
  have describes := h.describes side
  have misses : ∀ other ∈ skipped, Record.Misses E (couple.limits side) (t.write e letter).inner
      (Stray couple l side letter.base e) other := by
    intro other front
    refine h.misses found epoch at_.files (List.mem_append_left _ front) ?_
      (within.maxReceiverChains_pos side) (by rw [t.write_inner]; rfl) E
    have distinct := at_.files.distinct
    rw [List.map_append, List.nodup_append] at distinct
    rw [← at_.named]
    exact distinct.2.2 _ (List.mem_map_of_mem front) _ List.mem_cons_self
  have few : r.sessions.length ≤ (couple.limits side).maxArchivedStates + 1 := by
    rw [at_.split]
    exact Nat.le_trans (at_.files.length_le h.bases) (within.bases side)
  have base : ∀ m, t.write e letter = .initial m → r.hasBaseKey m.baseKey = true := by
    intro m same
    have key : m.baseKey = t.dialogue.pending.baseKey := by
      unfold Talk.write Dialogue.wrap at same
      split at same <;> cases same
      rfl
    rw [key, covers.base, ← at_.named, Record.hasBaseKey, at_.split]
    exact List.any_eq_true.2 ⟨s, by simp, beq_self_eq_true _⟩
  obtain ⟨answers, refuses⟩ :=
    (couple.conversation side).decrypt_known at_.held base source
  rcases Record.decrypt_reaches at_.current at_.split misses few steady with
    ⟨plaintext, r', next, source', opened, is, stray⟩ | ⟨seeds, tried, drawn, opens, repeats⟩
  · refine .inl ⟨plaintext, _, source', r', next, answers
      ((couple.conversation side).decryptWith_does opened ?_), Store.loadRecord_saveRecord _ _ r', is,
      stray⟩
    intro next' is'
    cases is.symm.trans is'
    rw [stray.remoteIdentity]
    exact describes.trusted
  · refine .inr ⟨seeds, tried, drawn, fun next source' opened => ?_, fun counter source' used => ?_⟩
    · rw [← t.write_inner] at opened
      obtain ⟨r', done, is, sessions⟩ := opens _ _ _ opened
      refine ⟨r', is, sessions, answers ((couple.conversation side).decryptWith_does done ?_)⟩
      intro next' is'
      cases is.symm.trans is'
      rw [(Session.decrypt_start opened).remoteIdentity]
      exact describes.trusts covers at_.holds at_.own
    · rw [← t.write_inner] at used
      exact refuses ((couple.conversation side).decryptWith_fails (repeats _ _ used))

theorem Located.receive_heard
    (at_ : Located couple l letter.base t side (st side) r skipped rest s k e₁)
    (tries : Tries couple t st side e letter source (skipped ++ rest) s seeds tried)
    (laws : P.Lawful) (h : l.Agrees couple st) (within : l.Within couple)
    (found : l.talks letter.base = some t) (epoch : t.dialogue.epochs[letter.epoch]? = some e)
    (was : letter.counter.toNat < t.dialogue.sent letter.epoch)
    (fits : letter.plaintext.length ≤ P.maxPlaintext)
    (their : t.side (turn letter.epoch) = side.other) (before : letter.epoch < k) :
    Received couple l t st side e letter source := by
  have covers := h.covers _ t found
  have distinct := covers.sound.distinctBefore k
  have holds := at_.holds
  have turns : turn letter.epoch ≠ turn k := Talk.side_turn_ne their at_.own
  have reached := (List.getElem?_eq_some_iff.1 holds.epoch).1
  by_cases old : letter.counter ∈ t.dialogue.opened letter.epoch
  · have repeated := holds.decrypt_used distinct (couple.limits side) before turns epoch old
      letter.plaintext tried
    exact .used tries.drawn old (tries.repeats _ _ repeated)
  · obtain ⟨next, opened, holds'⟩ := holds.decrypt laws distinct before turns epoch old was
      (covers.sent_le_maxSkip within side _) (couple.maxSkip_le_maxMessageKeys side) fits tried
    obtain ⟨r', is, sessions, does⟩ := tries.opens _ _ opened
    have later := t.later_hear letter.epoch letter.counter
    refine .opened tries.drawn old does later rfl fun unused =>
      h.hear found (by omega) was their unused
        ((h.describes side).saveRecord found later (fun one => one) (by rw [is]; rfl) ?_)
    rw [sessions]
    have same := holds'.baseKey.trans holds.baseKey.symm
    exact Files.put (t := t.withDialogue _) skipped (at_.files.of_talks rfl) at_.named same at_.own
      holds'

theorem Located.receive_next (at_ : Located couple l letter.base t side (st side) r skipped rest s k e₁)
    (tries : Tries couple t st side e letter source (skipped ++ rest) s seeds tried)
    (laws : P.Lawful) (h : l.Agrees couple st) (within : l.Within couple)
    (found : l.talks letter.base = some t) (epoch : t.dialogue.epochs[letter.epoch]? = some e)
    (was : letter.counter.toNat < t.dialogue.sent letter.epoch)
    (fits : letter.plaintext.length ≤ P.maxPlaintext)
    (their : t.side (turn letter.epoch) = side.other) (next : letter.epoch = k + 1)
    (steady : Steady tried) : Received couple l t st side e letter source := by
  have covers := h.covers _ t found
  have holds := at_.holds
  have inside := (List.getElem?_eq_some_iff.1 epoch).1
  have latest := holds.latest
  have last : t.dialogue.epochs.length = k + 2 := by omega
  obtain ⟨seed, source', draw⟩ := steady.draw
  have capacity : s.receiving.length < (couple.limits side).maxReceiverChains := by
    have most := covers.epochs
    have lt := within.deliveries side
    rw [holds.few]
    omega
  have opens := tries.opens
  rw [next] at epoch was their opens
  obtain ⟨next', e₂, opened, seeded, follows, previous, holds'⟩ :=
    holds.decrypt_next laws covers.sound last epoch was (covers.sent_le_maxSkip within side)
      (couple.maxSkip_le_maxMessageKeys side) capacity fits draw
  obtain ⟨r', is, sessions, does⟩ := opens _ _ opened
  have later := (t.later_grow e₂).trans
    ((t.withDialogue (t.dialogue.grow e₂)).later_hear (k + 1) letter.counter)
  have new : letter.counter ∉ t.dialogue.opened (k + 1) := by
    rw [covers.sound.opened_eq_nil (Nat.le_of_eq last)]
    exact List.not_mem_nil
  have fresh : e₂.key P ∈ publicKeys P (seeds ++ [seed]) := by
    simp [publicKeys, Epoch.key, seeded, KeyPair.ofSeed, PrivateKey.publicKey]
  refine .opened (tries.drawn.append (.one draw)) (next ▸ new) does later (by rw [next]; rfl)
    fun unused => h.grow found last epoch follows ?_ was their unused fresh
      ((h.describes side).saveRecord found later ?_ (by rw [is]; rfl) ?_)
  · intro i at_end
    obtain rfl : i = k := by omega
    rw [previous, UInt32.toNat_ofNat']
    exact Nat.mod_le _ _
  · intro one
    have length : (t.dialogue.grow e₂).epochs.length = k + 3 := by simp [Dialogue.grow, last]
    exact absurd (length.symm.trans one) (by omega)
  · rw [sessions]
    have same := holds'.baseKey.trans holds.baseKey.symm
    refine Files.put (t := t.withDialogue _) skipped (at_.files.of_talks rfl) at_.named same ?_ holds'
    rw [turn_add_two]
    exact at_.own

end Located

theorem Agrees.receive_known (laws : P.Lawful) (h : l.Agrees couple st)
    (within : l.Within couple) (found : l.talks letter.base = some t)
    (epoch : t.dialogue.epochs[letter.epoch]? = some e)
    (was : letter.counter.toNat < t.dialogue.sent letter.epoch)
    (fits : letter.plaintext.length ≤ P.maxPlaintext)
    (their : t.side (turn letter.epoch) = side.other) (known : t.Known side)
    (steady : Steady source) : Received couple l t st side e letter source := by
  obtain ⟨r, skipped, rest, s, k, e₁, at_⟩ := h.locate found known
  rcases at_.reaches h within found epoch steady with strays | ⟨seeds, tried, tries⟩
  · exact .strayed strays
  have inside := (List.getElem?_eq_some_iff.1 epoch).1
  have latest := at_.holds.latest
  have place : letter.epoch ≠ k := fun same =>
    Talk.side_turn_ne their at_.own (congrArg turn same)
  by_cases before : letter.epoch < k
  · exact at_.receive_heard tries laws h within found epoch was fits their before
  · exact at_.receive_next tries laws h within found epoch was fits their (by omega)
      (steady.later tries.drawn)

theorem Describes.establish (h : l.Describes couple side store) (stocked : l.Stocked)
    (found : l.talks base = some t) (starter : t.starter = side.other) {t' : Talk P}
    (grown : t'.dialogue.epochs.length ≠ 1) {fresh : List PublicKey} {sends deliveries : Nat}
    {r : Record P} (current : r.current.isSome = true)
    (files : ((l.pass fresh sends deliveries).put base t').Files side r.sessions) :
    let saved := (store.saveIdentity (couple.address side.other)
      ((couple.identity side.other).key P)).2.saveRecord (couple.address side.other) r
    ((l.pass fresh sends deliveries).put base t').Describes couple side
      ((t.oneTime.map (·.id)).elim saved saved.removePreKey) := by
  intro saved
  have trusted : saved.trusts (couple.address side.other) ((couple.identity side.other).key P) =
      true := by
    simp [saved, Store.trusts, Store.saveRecord, Store.saveIdentity]
  have record : ∃ stored, saved.loadRecord (couple.address side.other) = .ok stored ∧
      (∀ r ∈ stored, r.current.isSome = true) ∧
      ((l.pass fresh sends deliveries).put base t').Files side (stored.getD .empty).sessions := by
    refine ⟨some r, Store.loadRecord_saveRecord _ _ r, fun r' is => ?_, files⟩
    cases is
    exact current
  have others : ∀ b t₁, ((l.pass fresh sends deliveries).put base t').talks b = some t₁ →
      t₁.dialogue.epochs.length = 1 → b ≠ base ∧ l.talks b = some t₁ := by
    intro b t₁ there one
    rcases put_eq_some there with ⟨-, rfl⟩ | away
    · exact absurd one grown
    · exact away
  cases used : t.oneTime with
  | none =>
    exact ⟨h.identity, h.signed, trusted, record, fun b t₁ there starts one =>
      h.oneTime b t₁ (others b t₁ there one).2 starts one, h.spare⟩
  | some key =>
    have erased : ∀ id, id ≠ key.id →
        (saved.removePreKey key.id).preKeys.find? id = store.preKeys.find? id := by
      intro id away
      exact (Table.find?_erase _ _ _).trans (if_neg away)
    refine ⟨h.identity, h.signed, trusted, record, fun b t₁ there starts one other named => ?_,
      fun other free => ?_⟩
    · obtain ⟨away, there⟩ := others b t₁ there one
      refine (erased other.id fun same => away ?_).trans (h.oneTime b t₁ there starts one other named)
      exact stocked.once b base t₁ t there found (starts.trans starter.symm) other named key used same
    · obtain ⟨held, valid⟩ := h.spare other free
      refine ⟨(erased other.id fun same => ?_).trans held, valid⟩
      refine stocked.unused base t found key used other ?_ same.symm
      rw [starter, Side.other_other]
      exact free

theorem Agrees.accept (laws : P.Lawful) (h : l.Agrees couple st)
    (found : l.talks base = some t) (starter : t.starter = side.other)
    (one : t.dialogue.epochs.length = 1)
    (awaits : Handshake.Awaits t.dialogue e (couple.identity side)
      (couple.party side).signedPreKey t.oneTime) (inner : RatchetMessage)
    (under : inner.ratchetKey = e.key P) {source' : E} {seed : Octets 32}
    (draw : Randomness.draw 32 source = .ok seed source') :
    ∃ s e₁, Does (Handshake.accept ⟨t.dialogue.initiator.bytes, t.dialogue.pending.baseKey,
          t.dialogue.pending.signedPreKeyId, t.dialogue.pending.preKeyId, inner⟩
          (st side).identity) (st side) source (s, t.dialogue.pending.preKeyId) (st side) source' ∧
      e₁.seed = seed ∧ e.Next P e₁ ∧ Holds (t.dialogue.grow e₁) 1 e₁ s := by
  have covers := h.covers base t found
  have describes := h.describes side
  have first : e.key P = t.dialogue.pending.baseKey :=
    covers.sound.base e (by rw [awaits.epochs]; rfl)
  have own : t.dialogue.responder = (couple.identity side).key P := by
    rw [covers.responder, starter, Side.other_other]
  let message : InitialMessage := ⟨t.dialogue.initiator.bytes, t.dialogue.pending.baseKey,
    t.dialogue.pending.signedPreKeyId, t.dialogue.pending.preKeyId, inner⟩
  obtain ⟨secret, shared, -⟩ := laws.agrees seed e.seed
  obtain ⟨s, e₁, built, seeded, -, next, holds, -⟩ := Handshake.incoming_holds covers.sound awaits
    own (show message.baseKey = _ from first.symm) draw shared
  refine ⟨s, e₁, ?_, seeded, next, holds⟩
  rw [describes.identity]
  refine Handshake.accept_does rfl (under.trans first) ?_ awaits.preKeyId ?_ built
  · rw [awaits.signedPreKeyId, couple.signedId]
    exact describes.signed
  · exact describes.oneTime base t found starter one

theorem Covers.begun_by_other (h : l.Covers couple base t) (unknown : ¬ t.Known side) :
    t.starter = side.other ∧ t.dialogue.epochs.length = 1 := by
  have begun := h.begun
  have short : ¬ 2 ≤ t.dialogue.epochs.length := fun two => unknown (.inr two)
  exact ⟨Side.eq_other fun same => unknown (.inl same), by omega⟩

theorem Agrees.build (laws : P.Lawful) (h : l.Agrees couple st) (within : l.Within couple)
    (found : l.talks letter.base = some t) (starter : t.starter = side.other)
    (one : t.dialogue.epochs.length = 1)
    (awaits : Handshake.Awaits t.dialogue e (couple.identity side)
      (couple.party side).signedPreKey t.oneTime) (first : letter.epoch = 0)
    (was : letter.counter.toNat < t.dialogue.sent 0)
    (fits : letter.plaintext.length ≤ P.maxPlaintext) {stored : Option (Record P)}
    (held : (st side).loadRecord (couple.address side.other) = .ok stored)
    (away : ∀ old ∈ (stored.getD .empty).sessions, old.baseKey ≠ letter.base)
    (room : (stored.getD .empty).sessions.length ≤ (couple.limits side).maxArchivedStates)
    {source' : E} {seed : Octets 32} (draw : Randomness.draw 32 source = .ok seed source') :
    ∃ r s e₁, r.current = some s ∧ r.sessions = s :: (stored.getD .empty).sessions ∧
      e₁.seed = seed ∧ e.Next P e₁ ∧
      Holds ((t.dialogue.grow e₁).hear 0 letter.counter) 1 e₁ s ∧
      let saved := ((st side).saveIdentity (couple.address side.other)
        ((couple.identity side.other).key P)).2.saveRecord (couple.address side.other) r
      Does ((couple.conversation side).decrypt (t.write e letter)) (st side) source
        letter.plaintext ((t.oneTime.map (·.id)).elim saved saved.removePreKey) source' := by
  have covers := h.covers _ t found
  let inner := t.dialogue.message 0 e letter.counter letter.plaintext
  obtain ⟨s, e₁, accepted, seeded, next, holds⟩ :=
    h.accept laws found starter one awaits inner rfl draw
  have zero : (t.dialogue.grow e₁).epochs[0]? = some e := by
    simp [Dialogue.grow, awaits.epochs]
  have distinct : (t.dialogue.grow e₁).DistinctBefore 1 := fun i j _ _ hi hj _ _ _ _ => by omega
  have unopened : letter.counter ∉ (t.dialogue.grow e₁).opened 0 := by
    rw [Dialogue.grow, covers.sound.opened_eq_nil (Nat.le_of_eq one)]
    exact List.not_mem_nil
  obtain ⟨s', opened, holds'⟩ := holds.decrypt laws distinct Nat.zero_lt_one (by decide) zero unopened
    was (covers.sent_le_maxSkip within side 0) (couple.maxSkip_le_maxMessageKeys side) fits source'
  let promoted := (stored.getD .empty).promote s (couple.limits side).maxArchivedStates
  have sessions : promoted.sessions = s :: (stored.getD .empty).sessions :=
    Record.sessions_promote room
  have archived : promoted.archived = (stored.getD .empty).sessions := (List.cons.inj sessions).2
  have unheld : (stored.getD .empty).hasBaseKey t.dialogue.pending.baseKey = false := by
    refine List.any_eq_false.2 fun old member same => away old member ?_
    rw [beq_iff_eq.1 same, covers.base]
  have initiator : t.dialogue.initiator = (couple.identity side.other).key P := by
    rw [covers.initiator, starter]
  have is : t.write e letter = .initial ⟨t.dialogue.initiator.bytes, t.dialogue.pending.baseKey,
      t.dialogue.pending.signedPreKeyId, t.dialogue.pending.preKeyId, inner⟩ := by
    simp only [Talk.write, first, Dialogue.wrap, if_true, inner]
  have does := (couple.conversation side).decrypt_new held unheld rfl
    (by rw [initiator]; exact (h.describes side).trusted) accepted
    (Record.decrypt_of_ok (r := promoted) rfl opened)
  rw [← is, initiator] at does
  simp only [awaits.preKeyId] at does
  exact ⟨{ promoted with current := some s' }, s', e₁, rfl, congrArg (s' :: ·) archived, seeded,
    next, holds', does⟩

theorem Agrees.receive_new (laws : P.Lawful) (h : l.Agrees couple st)
    (within : l.Within couple) (found : l.talks letter.base = some t)
    (epoch : t.dialogue.epochs[letter.epoch]? = some e)
    (was : letter.counter.toNat < t.dialogue.sent letter.epoch)
    (fits : letter.plaintext.length ≤ P.maxPlaintext)
    (their : t.side (turn letter.epoch) = side.other) (unknown : ¬ t.Known side)
    (steady : Steady source) : Received couple l t st side e letter source := by
  have covers := h.covers _ t found
  have describes := h.describes side
  obtain ⟨stored, held, current, files⟩ := describes.record
  obtain ⟨starter, one⟩ := covers.begun_by_other unknown
  have first : letter.epoch = 0 := by
    obtain ⟨inside, -⟩ := List.getElem?_eq_some_iff.1 epoch
    omega
  obtain ⟨e₀, awaits⟩ := covers.awaits one
  obtain rfl : e₀ = e := by
    rw [first, awaits.epochs] at epoch
    exact Option.some.inj epoch
  rw [starter, Side.other_other] at awaits
  have away := files.baseKey_ne_of_unknown found unknown
  have room : (stored.getD .empty).sessions.length ≤ (couple.limits side).maxArchivedStates := by
    have few := files.length_lt h.bases found unknown
    have most := within.bases side
    omega
  obtain ⟨seed, built, draw⟩ := steady.draw
  obtain ⟨r, s, e₁, is, sessions, seeded, next, holds, does⟩ := h.build laws within found starter
    one awaits first (first ▸ was) fits held away room draw
  have later := (t.later_grow e₁).trans
    ((t.withDialogue (t.dialogue.grow e₁)).later_hear 0 letter.counter)
  have grown : ((t.dialogue.grow e₁).hear 0 letter.counter).epochs.length ≠ 1 := by
    simp [Dialogue.hear, Dialogue.grow, one]
  have unopened : letter.counter ∉ t.dialogue.opened 0 := by
    rw [covers.sound.opened_eq_nil (Nat.le_of_eq one)]
    exact List.not_mem_nil
  have fresh : e₁.key P ∈ publicKeys P [seed] := by
    simp [publicKeys, Epoch.key, seeded, KeyPair.ofSeed, PrivateKey.publicKey]
  rw [first] at epoch was their
  refine .opened (.one draw) (first ▸ unopened) does later (by rw [first]; rfl) fun unused =>
    h.grow found one epoch next (fun i at_end => absurd at_end (Nat.succ_ne_zero i).symm) was their
      unused fresh (describes.establish h.stocked found starter grown (by rw [is]; rfl) ?_)
  have named : s.baseKey = letter.base := holds.baseKey.trans covers.base
  rw [sessions]
  refine (files.of_talks rfl).extend (fun other other_ne => put_of_ne _ _ (named ▸ other_ne)) ?_
    (t := t.withDialogue _) (k := 1) ?_ holds fun old member => ?_
  · rw [named]
    exact put_self _ _ _
  · show t.starter.other = side
    rw [starter, Side.other_other]
  · rw [named]
    exact away old member

/-- Whatever dialogue it belongs to, a letter that was sent is opened once, and a duplicate ever
after, unless the search for its session strays. -/
theorem Agrees.receive (laws : P.Lawful) (h : l.Agrees couple st) (within : l.Within couple)
    (found : l.talks letter.base = some t) (epoch : t.dialogue.epochs[letter.epoch]? = some e)
    (was : letter.counter.toNat < t.dialogue.sent letter.epoch)
    (fits : letter.plaintext.length ≤ P.maxPlaintext)
    (their : t.side (turn letter.epoch) = side.other) (steady : Steady source) :
    Received couple l t st side e letter source := by
  by_cases known : t.Known side
  · exact h.receive_known laws within found epoch was fits their known steady
  · exact h.receive_new laws within found epoch was fits their known steady

end Receive

end Ledger

end RatchetSession
