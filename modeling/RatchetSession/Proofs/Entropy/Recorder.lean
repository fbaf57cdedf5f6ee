import RatchetSession.Entropy.Recorder
import RatchetSession.Proofs.Entropy.Draws
import RatchetSession.Proofs.Handshake.Start
import RatchetSession.Proofs.Session.Opener
set_option autoImplicit false

/-!
A source that keeps the seeds of what is drawn from it: it never forgets one, and whoever
draws from it gets the same as from the bare source.
-/

namespace RatchetSession

open RatchetSession.Computation (Keeps Alike SameEnd endState)

variable {P : Suite} {E α β : Type}

namespace Recorder

def Grew (r r' : Recorder E) : Prop := r.seeds <+: r'.seeds

theorem Grew.refl (r : Recorder E) : r.Grew r := List.prefix_rfl

theorem Grew.trans {a b c : Recorder E} (first : a.Grew b) (second : b.Grew c) : a.Grew c :=
  List.IsPrefix.trans first second

def keys (P : Suite) (r : Recorder E) : List PublicKey := publicKeys P r.seeds

theorem Grew.keys {r r' : Recorder E} (h : r.Grew r') : r.keys P <+: r'.keys P := h.map _

/-- A source over its bare form, after some seeds have been kept. -/
structure Over (start r : Recorder E) (source : E) : Prop where
  grew : start.Grew r
  bare : r.source = source

theorem grew_of_alike {ε : Type} {m : EStateM ε (Recorder E) α} {m' : EStateM ε E α}
    (alike : ∀ start : Recorder E, Alike start.Over m m') : Keeps Grew m :=
  fun r => (alike r r r.source ⟨.refl r, rfl⟩).related.grew

variable [Randomness E]

theorem draw_eq_ok {r r' : Recorder E} {seed : Octets 32}
    (h : Randomness.draw 32 r = .ok seed r') : r'.seeds = r.seeds ++ [seed] := by
  simp only [Randomness.draw] at h
  split at h
  · cases h
    rfl
  · cases h

theorem keys_of_draw {r r' : Recorder E} {seed : Octets 32}
    (draw : Randomness.draw 32 r = .ok seed r') :
    r'.keys P = r.keys P ++ [(KeyPair.ofSeed P seed).publicKey] := by
  simp only [keys, publicKeys, draw_eq_ok draw, List.map_append, List.map_singleton]

theorem mem_keys_of_draw {r r' : Recorder E} {seed : Octets 32}
    (draw : Randomness.draw 32 r = .ok seed r') :
    (KeyPair.ofSeed P seed).publicKey ∈ r'.keys P := by simp [keys_of_draw draw]

theorem fresh_of_draw {r r' : Recorder E} {seed : Octets 32}
    (draw : Randomness.draw 32 r = .ok seed r') (distinct : (r'.keys P).Nodup) :
    (KeyPair.ofSeed P seed).publicKey ∉ r.keys P := by
  intro member
  rw [keys_of_draw draw] at distinct
  exact (List.nodup_append.1 distinct).2.2 _ member _ (List.mem_singleton_self _) rfl

section Alike

variable {start : Recorder E}

theorem draw_alike (n : Nat) :
    Alike start.Over (Randomness.draw n : EStateM CryptoError (Recorder E) _)
      (Randomness.draw n) := by
  rintro r _ ⟨grew, rfl⟩
  simp only [Randomness.draw]
  cases Randomness.draw n r.source with
  | ok bytes source =>
    refine .ok bytes ⟨grew.trans ?_, rfl⟩
    unfold Grew keep
    split
    · exact List.prefix_append _ _
    · exact List.prefix_rfl
  | error error source => exact .error error ⟨grew, rfl⟩

theorem drawKeyPair_alike :
    Alike start.Over (Randomness.drawKeyPair P : EStateM CryptoError (Recorder E) _)
      (Randomness.drawKeyPair P) :=
  .bind (draw_alike 32) fun _ => .pure _

theorem ratchet_alike (limits : Limits) (s : Session P) (key : PublicKey) :
    Alike start.Over (s.ratchet limits key : EStateM CryptoError (Recorder E) _)
      (s.ratchet limits key) :=
  .bind (.ofExcept _) fun _ => .bind drawKeyPair_alike fun _ => .bind (.ofExcept _) fun _ => .pure _

theorem decrypt_alike (limits : Limits) (s : Session P) (message : RatchetMessage) :
    Alike start.Over (s.decrypt limits message : EStateM SessionError (Recorder E) _)
      (s.decrypt limits message) := by
  have follow : Alike start.Over (s.follow limits message : EStateM SessionError (Recorder E) _)
      (s.follow limits message) := by
    unfold Session.follow
    split
    · exact .pure _
    · exact .bind (.ofExcept _) fun closed => (ratchet_alike limits closed _).adaptExcept _
  exact .bind follow fun _ => .ofExcept _

theorem search_alike (limits : Limits) (message : RatchetMessage) (sessions : List (Session P))
    (position : Nat) (failure : Option SessionError) :
    Alike start.Over
      (Record.search limits message sessions position failure :
        EStateM SessionError (Recorder E) _)
      (Record.search limits message sessions position failure) := by
  induction sessions generalizing position failure with
  | nil => exact .throw _
  | cons s rest ih =>
    intro r source above
    have tried := decrypt_alike limits s message r source above
    unfold Record.search
    generalize s.decrypt limits message r = x, s.decrypt limits message source = y at tried
    cases tried with
    | ok result above => exact .ok _ above
    | error error above =>
      cases error <;> first | exact .error _ above | exact ih _ _ _ _ above

theorem decryptArchived_alike (limits : Limits) (record : Record P) (message : RatchetMessage)
    (failure : Option SessionError) :
    Alike start.Over
      (record.edit (Record.decryptArchived limits message failure) :
        EStateM SessionError (Recorder E) _)
      (record.edit (Record.decryptArchived limits message failure)) := by
  intro r source above
  have searched := search_alike limits message record.archived 0 failure r source above
  generalize here : Record.search limits message record.archived 0 failure r = x,
    there : Record.search limits message record.archived 0 failure source = y at searched
  cases searched with
  | ok found above =>
    rw [Record.edit_eq_ok.2 (Record.decryptArchived_of_ok here),
      Record.edit_eq_ok.2 (Record.decryptArchived_of_ok there)]
    exact .ok _ above
  | error error above =>
    rw [Record.edit_of_error (Record.decryptArchived_of_error here),
      Record.edit_of_error (Record.decryptArchived_of_error there)]
    exact .error _ above

theorem record_decrypt_alike (limits : Limits) (record : Record P) (message : RatchetMessage) :
    Alike start.Over
      (record.edit (Record.decrypt limits message) : EStateM SessionError (Recorder E) _)
      (record.edit (Record.decrypt limits message)) := by
  intro r source above
  cases is : record.current with
  | none =>
    rw [Record.edit_congr (Record.decrypt_of_none is), Record.edit_congr (Record.decrypt_of_none is)]
    exact decryptArchived_alike limits record message none r source above
  | some s =>
    have tried := decrypt_alike limits s message r source above
    generalize here : s.decrypt limits message r = x,
      there : s.decrypt limits message source = y at tried
    cases tried with
    | ok result above =>
      rw [Record.edit_eq_ok.2 (Record.decrypt_of_ok is here),
        Record.edit_eq_ok.2 (Record.decrypt_of_ok is there)]
      exact .ok _ above
    | error error above =>
      rcases error.duplicate_or with ⟨counter, rfl⟩ | other
      · rw [Record.edit_of_error (Record.decrypt_of_duplicate is here),
          Record.edit_of_error (Record.decrypt_of_duplicate is there)]
        exact .error _ above
      · rw [Record.edit_congr (Record.decrypt_of_error is here other),
          Record.edit_congr (Record.decrypt_of_error is there other)]
        exact decryptArchived_alike limits record message (some error) _ _ above

theorem opener?_bare (limits : Limits) (message : RatchetMessage) (sessions : List (Session P))
    (r : Recorder E) :
    Record.opener? limits message sessions r.source = Record.opener? limits message sessions r := by
  induction sessions generalizing r with
  | nil => rfl
  | cons s rest ih =>
    have tried := decrypt_alike limits s message r r.source ⟨.refl r, rfl⟩
    unfold Record.opener?
    generalize s.decrypt limits message r = x, s.decrypt limits message r.source = y at tried
    cases tried with
    | ok result above => rfl
    | error error above => exact above.bare ▸ ih _

theorem outgoing_alike (bundle : Bundle P) (identity : Identity) :
    Alike start.Over (Handshake.outgoing bundle identity : EStateM SessionError (Recorder E) _)
      (Handshake.outgoing bundle identity) :=
  .bind (.ofExcept _) fun _ => .bind (drawKeyPair_alike.adaptExcept _) fun _ =>
    .bind (.ofExcept _) fun _ => .pure _

theorem incoming_alike (message : InitialMessage) (remote : IdentityKey P) (identity : Identity)
    (signed : SignedPreKey) (oneTime : Option PreKey) :
    Alike start.Over
      (Handshake.incoming message remote identity signed oneTime :
        EStateM SessionError (Recorder E) _)
      (Handshake.incoming message remote identity signed oneTime) :=
  .bind (.ofExcept _) fun _ => .bind (drawKeyPair_alike.adaptExcept _) fun _ =>
    .bind (.ofExcept _) fun _ => .pure _

end Alike

theorem draw_grew (n : Nat) :
    Keeps Grew (Randomness.draw n : EStateM CryptoError (Recorder E) _) :=
  grew_of_alike fun _ => draw_alike n

theorem decrypt_grew (limits : Limits) (s : Session P) (message : RatchetMessage) :
    Keeps Grew (s.decrypt limits message : EStateM SessionError (Recorder E) _) :=
  grew_of_alike fun _ => decrypt_alike limits s message

theorem triedOn_grew (limits : Limits) (message : RatchetMessage) (passed : List (Session P))
    (r : Recorder E) : r.Grew (Record.triedOn limits message passed r) := by
  induction passed generalizing r with
  | nil => exact .refl r
  | cons s rest ih => exact (decrypt_grew limits s message r).trans (ih _)

theorem record_decrypt_grew (limits : Limits) (record : Record P) (message : RatchetMessage) :
    Keeps Grew
      (record.edit (Record.decrypt limits message) : EStateM SessionError (Recorder E) _) :=
  grew_of_alike fun _ => record_decrypt_alike limits record message

end Recorder

/-- The party's side of things, with a source that keeps the seeds from here on. -/
def Context.recording (ctx : Context P E) : Context P (Recorder E) :=
  ⟨ctx.store, ctx.faults, .ofSource ctx.source⟩

def Context.bare (ctx : Context P (Recorder E)) : Context P E :=
  ⟨ctx.store, ctx.faults, ctx.source.source⟩

/-- The same party later: no seed is forgotten, and the same calls to the store are going to
fail. -/
structure Onward (ctx ctx' : Context P (Recorder E)) : Prop where
  seeds : ctx.source.Grew ctx'.source
  plan : ctx'.faults.plan = ctx.faults.plan

namespace Onward

theorem refl (ctx : Context P (Recorder E)) : Onward ctx ctx := ⟨.refl _, rfl⟩

theorem trans {a b c : Context P (Recorder E)} (first : Onward a b) (second : Onward b c) :
    Onward a c :=
  ⟨first.seeds.trans second.seeds, second.plan.trans first.plan⟩

end Onward

structure Recorded (start ctx : Context P (Recorder E)) (plain : Context P E) : Prop where
  onward : Onward start ctx
  bare : ctx.bare = plain

namespace Recorded

variable {start : Context P (Recorder E)}

theorem call_alike (kind : StoreCall) (run : Store P → Except StoreError (α × Store P)) :
    Alike (Recorded start) (Action.call kind run) (Action.call kind run) := by
  rintro ctx _ ⟨onward, rfl⟩
  simp only [Action.call, Context.bare]
  cases ctx.faults.plan ctx.faults.calls kind with
  | some error => exact .error _ ⟨onward.trans ⟨.refl _, rfl⟩, rfl⟩
  | none =>
    cases run ctx.store with
    | ok result => exact .ok _ ⟨onward.trans ⟨.refl _, rfl⟩, rfl⟩
    | error error => exact .error _ ⟨onward.trans ⟨.refl _, rfl⟩, rfl⟩

theorem query_alike (kind : StoreCall) (value : Store P → Except StoreError α) :
    Alike (Recorded start) (Action.query kind value) (Action.query kind value) := call_alike kind _

theorem storeRecord_alike (address : Address) (record : Record P) :
    Alike (Recorded start) (Action.storeRecord address record)
      (Action.storeRecord address record) :=
  call_alike .storeSession fun store => .ok ((), store.saveRecord address record)

theorem removePreKey_alike (id : UInt32) :
    Alike (Recorded start) (Action.removePreKey id) (Action.removePreKey id) :=
  call_alike .removePreKey fun store => .ok ((), store.removePreKey id)

theorem attempt_alike {run : Action P (Recorder E) Unit} {run' : Action P E Unit}
    (alike : Alike (Recorded start) run run') :
    Alike (Recorded start) (Action.attempt run) (Action.attempt run') := by
  intro ctx plain recorded
  have ended := alike ctx plain recorded
  unfold Action.attempt
  generalize run ctx = x, run' plain = y at ended
  cases ended with
  | ok _ recorded => exact .ok () recorded
  | error _ recorded => exact .ok () recorded

theorem onSource_alike {run : EStateM SessionError (Recorder E) α} {run' : EStateM SessionError E α}
    (alike : ∀ before : Recorder E, Alike before.Over run run') :
    Alike (Recorded start) (Action.onSource run) (Action.onSource run') := by
  rintro ctx _ ⟨onward, rfl⟩
  have ended := alike ctx.source ctx.source ctx.bare.source ⟨.refl _, rfl⟩
  unfold Action.onSource
  generalize run ctx.source = x, run' ctx.bare.source = y at ended
  cases ended with
  | ok value above =>
    exact .ok value ⟨onward.trans ⟨above.grew, rfl⟩, above.bare ▸ rfl⟩
  | error error above =>
    exact .error error ⟨onward.trans ⟨above.grew, rfl⟩, above.bare ▸ rfl⟩

theorem signedPreKey_alike (id : UInt32) :
    Alike (Recorded start) (Handshake.signedPreKey id) (Handshake.signedPreKey id) := by
  refine .bind (query_alike _ _) fun found => ?_
  cases found with
  | some key => exact .pure _
  | none => exact .throw _

theorem oneTimePreKey_alike (id : Option UInt32) :
    Alike (Recorded start) (Handshake.oneTimePreKey id) (Handshake.oneTimePreKey id) := by
  cases id with
  | none => exact .pure _
  | some id =>
    refine .bind (query_alike _ _) fun found => ?_
    cases found with
    | some key => exact .pure _
    | none => exact .throw _

variable [Randomness E]

theorem accept_alike (message : InitialMessage) (identity : Identity) :
    Alike (Recorded start) (Handshake.accept message identity)
      (Handshake.accept message identity) := by
  refine .bind (.ofExcept _) fun remote => ?_
  split
  on_goal 1 => refine .bind (.throw _) fun _ => ?_
  all_goals
    exact .bind (signedPreKey_alike _) fun _ => .bind (oneTimePreKey_alike _) fun _ =>
      .bind (onSource_alike fun _ => Recorder.incoming_alike _ _ _ _ _) fun _ => .pure _

end Recorded

end RatchetSession
