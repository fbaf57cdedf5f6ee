import RatchetSession.Proofs.Conversation.Counting
import RatchetSession.Proofs.Session.WellFormed
set_option autoImplicit false

namespace RatchetSession

variable {P : Suite} {E : Type} [Randomness E] {limits : Limits}

/-- Every record can be read, and is well formed. -/
def Store.WithinLimits (limits : Limits) (st : Store P) : Prop :=
  st.Holding fun _ r => r.WellFormed limits

namespace Entry

/-- The base key that a start would draw is not that of a session held for the device. -/
def FreshBaseKey (e : Entry P E) : Prop :=
  ∀ bundle seed source, e.call.request = .start bundle →
    Randomness.draw 32 e.before.source = .ok seed source →
    ∀ s ∈ e.before.store.sessions e.remote, s.baseKey ≠ (KeyPair.ofSeed P seed).publicKey

variable {e : Entry P E}

theorem wellFormed_started (same : e.call.conversation.limits = limits)
    (h : e.before.store.WithinLimits limits) (new : e.FreshBaseKey)
    {bundle : Bundle P} (asked : e.call.request = .start bundle)
    (ok : e.call.conversation.start bundle e.before = .ok () e.after) :
    ∃ r, e.after.store.loadRecord e.remote = .ok (some r) ∧ r.WellFormed limits := by
  obtain ⟨s, stored, made, loaded, written, -⟩ := Conversation.start_eq_ok _ ok
  have wellFormed : s.WellFormed limits := Handshake.outgoing_wellFormed made
  obtain ⟨seed, _, _, draw, -, is⟩ := Handshake.outgoing_eq_ok made
  have sessions : e.before.store.sessions e.remote = (stored.getD .empty).sessions :=
    Store.sessions_of_loaded loaded
  have base : s.baseKey = (KeyPair.ofSeed P seed).publicKey := by rw [is]; rfl
  refine ⟨_, written, ?_⟩
  rw [same]
  refine (h.of_loaded loaded).promote wellFormed fun t member => ?_
  rw [base]
  exact new bundle seed _ asked draw t (sessions ▸ member)

theorem wellFormed_sent (h : e.before.store.WithinLimits limits)
    {plaintext : Bytes} {message : Message}
    (ok : e.call.conversation.encrypt plaintext e.before = .ok message e.after) :
    ∃ r, e.after.store.loadRecord e.remote = .ok (some r) ∧ r.WellFormed limits := by
  obtain ⟨r, s, next, loaded, current, encrypted, written, -⟩ := Conversation.encrypt_eq_ok _ ok
  exact ⟨_, written, Record.encrypt_wellFormed (h.of_loaded loaded) current encrypted⟩

theorem wellFormed_tried {c : Conversation} {ctx : Context P E} {message : Message} {r : Record P}
    {tried : E} (h : ctx.store.WithinLimits c.limits)
    (tries : c.Tried ctx message r tried) : r.WellFormed c.limits := by
  cases tries with
  | ratchet loaded => exact h.of_loaded loaded
  | known loaded held => exact h.of_loaded loaded
  | unknown loaded lacking offers =>
    obtain ⟨_, _, _, -, -, -, -, run⟩ := offers.eq_incoming
    have room := (Limits.validate_eq_ok c.limits_valid).1
    have wellFormed := Handshake.incoming_wellFormed room run
    obtain ⟨_, _, _, _, -, -, rfl⟩ := Handshake.incoming_eq_ok run
    exact (h.of_loaded loaded).promote wellFormed
      fun t member => Conversation.baseKey_of_unknown lacking member

theorem wellFormed_opened (same : e.call.conversation.limits = limits)
    (h : e.before.store.WithinLimits limits) {plaintext : Bytes}
    {message : Message}
    (ok : e.call.conversation.decrypt message e.before = .ok plaintext e.after) :
    ∃ r, e.after.store.loadRecord e.remote = .ok (some r) ∧ r.WellFormed limits := by
  subst same
  obtain ⟨r, tried, after, tries, run, written, -⟩ := Conversation.decrypt_eq_ok _ ok
  have room := (Limits.validate_eq_ok e.call.conversation.limits_valid).1
  exact ⟨after, written, Record.decrypt_wellFormed room (wellFormed_tried h tries) run⟩

theorem wellFormed_after (h : e.before.store.WithinLimits limits)
    (admissible : e.call.conversation.limits = limits ∧ e.FreshBaseKey) :
    e.after.store.WithinLimits limits := by
  obtain ⟨same, new⟩ := admissible
  exact e.holding_after h (fun _ _ => id) (fun _ => wellFormed_started same h new)
    (fun _ _ => wellFormed_sent h) fun _ _ => wellFormed_opened same h

end Entry

/-- In a run that begins without sessions and whose conversations all have the same limits, every
record stored is within the limits and well formed at all stages, whatever comes in; only a base key
that is drawn must not be held already. -/
theorem records_within_limits (calls : List (Call P)) (ctx : Context P E)
    (fresh : ctx.store.records = .empty)
    (same : ∀ call ∈ calls, call.conversation.limits = limits)
    (new : ∀ e ∈ journal calls ctx, e.FreshBaseKey) :
    ∀ now ∈ stages calls ctx, ∀ address, ∃ stored, now.store.loadRecord address = .ok stored ∧
      ∀ r, stored = some r → r.WellFormed limits := by
  have start : ctx.store.WithinLimits limits :=
    Store.holding_of_fresh fresh fun _ => Record.empty_wellFormed
  have step : ∀ e : Entry P E, e.before.store.WithinLimits limits →
      e.call.conversation.limits = limits ∧ e.FreshBaseKey → e.after.store.WithinLimits limits :=
    fun _ => Entry.wellFormed_after
  have admissible : ∀ e ∈ journal calls ctx,
      e.call.conversation.limits = limits ∧ e.FreshBaseKey :=
    fun e member => ⟨same e.call (call_mem member), new e member⟩
  have each : ∀ now ∈ stages calls ctx, now.store.WithinLimits limits :=
    stages_invariant step calls start admissible
  intro now member address
  obtain ⟨stored, loaded, wellFormed⟩ := each now member address
  exact ⟨stored, loaded, fun r is => by rw [is] at wellFormed; exact wellFormed⟩

def restart : Call Suite.plain := ⟨.standard ⟨"bob", 1⟩, .start (newcomerBundle 1000 true)⟩

def freshBaseKey (e : Entry Suite.plain Ticker) : Bool :=
  match Randomness.draw 32 e.before.source with
  | .ok seed _ => (e.before.store.sessions e.remote).all fun s =>
      s.baseKey != (KeyPair.ofSeed Suite.plain seed).publicKey
  | .error _ _ => true

theorem freshBaseKey_sound {e : Entry Suite.plain Ticker} (h : freshBaseKey e = true) :
    e.FreshBaseKey := by
  intro bundle seed source _ draw s member
  simp only [freshBaseKey, draw, List.all_eq_true, bne_iff_ne] at h
  exact h s member

/-- Whether all base keys are new and the first session is archived with a receiving chain. -/
def talkArchives (calls : List (Call Suite.plain)) : Bool :=
  (journal (calls ++ [restart]) (newcomer 0)).all freshBaseKey &&
  (calls ++ [restart]).all (fun call => call.conversation.limits = {}) &&
  match (outcome (calls ++ [restart]) (newcomer 0)).store.loadRecord ⟨"bob", 1⟩ with
  | .ok (some r) => r.archived.map (·.receiving.length) == [1]
  | _ => false

set_option maxRecDepth 100000 in
theorem talk_archives : (talk.any talkArchives) = true := by
  decide +kernel

/-- After a talk and a second start the record holds two sessions within the limits. -/
theorem talk_within_limits :
    ∃ calls r, talk = some calls ∧ (newcomer 0).store.records = .empty ∧
      (∀ call ∈ calls ++ [restart], call.conversation.limits = {}) ∧
      (∀ e ∈ journal (calls ++ [restart]) (newcomer 0), e.FreshBaseKey) ∧
      (outcome (calls ++ [restart]) (newcomer 0)).store.loadRecord ⟨"bob", 1⟩ = .ok (some r) ∧
      r.archived.map (·.receiving.length) = [1] ∧ r.WellFormed {} := by
  obtain ⟨calls, is, archives⟩ := (Option.any_eq_true _ _).1 talk_archives
  simp only [talkArchives, Bool.and_eq_true, List.all_eq_true, decide_eq_true_eq] at archives
  obtain ⟨⟨new, same⟩, ends⟩ := archives
  split at ends
  · rename_i r loaded
    have fresh := fun e member => freshBaseKey_sound (new e member)
    obtain ⟨stored, loaded', wellFormed⟩ := records_within_limits (calls ++ [restart]) (newcomer 0)
      rfl same fresh _ (outcome_mem_stages _ _) ⟨"bob", 1⟩
    cases loaded.symm.trans loaded'
    exact ⟨calls, r, is, rfl, same, fresh, loaded, beq_iff_eq.1 ends, wellFormed r rfl⟩
  · cases ends

end RatchetSession
