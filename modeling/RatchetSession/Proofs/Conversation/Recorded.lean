import RatchetSession.Proofs.Conversation.Journal
import RatchetSession.Proofs.Entropy.Recorder
set_option autoImplicit false

/-!
Runs over a source that keeps the seeds: at its end the source knows of every key pair that
was drawn on the way, and otherwise the run is the one over the bare source.
-/

namespace RatchetSession

open RatchetSession.Computation (Keeps Alike SameEnd)

variable {P : Suite} {E : Type}

namespace Recorded

variable {start : Context P (Recorder E)} (c : Conversation)

theorem record_alike : Alike (Recorded start) c.record c.record :=
  .bind (query_alike _ _) fun _ => .pure _

theorem hasSession_alike : Alike (Recorded start) c.hasSession c.hasSession :=
  .bind (record_alike c) fun _ => .pure _

theorem checkTrust_alike (key : IdentityKey P) :
    Alike (Recorded start) (c.checkTrust key) (c.checkTrust key) := by
  refine .bind (query_alike _ _) fun trusted => ?_
  cases trusted with
  | true => exact .pure _
  | false => exact .throw _

theorem checkCurrent_alike (record : Record P) :
    Alike (Recorded start) (c.checkCurrent record) (c.checkCurrent record) := by
  unfold Conversation.checkCurrent
  cases record.current with
  | some session => exact checkTrust_alike c _
  | none => exact .pure _

theorem encrypt_alike (plaintext : Bytes) :
    Alike (Recorded start) (c.encrypt plaintext) (c.encrypt plaintext) := by
  refine .bind (query_alike _ _) fun found => ?_
  cases found with
  | none => exact .throw _
  | some record =>
    dsimp only
    split
    on_goal 1 => refine .bind (.throw _) fun _ => ?_
    all_goals
      exact .bind (checkCurrent_alike c _) fun _ => .bind (.ofExcept _) fun _ =>
        .bind (storeRecord_alike _ _) fun _ => .pure _

variable [Randomness E]

theorem start_alike (bundle : Bundle P) :
    Alike (Recorded start) (c.start bundle) (c.start bundle) :=
  .bind (.ofExcept _) fun _ => .bind (checkTrust_alike c _) fun _ => .bind (query_alike _ _) fun _ =>
    .bind (onSource_alike fun _ => Recorder.outgoing_alike _ _) fun _ => .bind (record_alike c) fun _ =>
    .bind (call_alike _ _) fun _ => storeRecord_alike _ _

theorem decryptWith_alike (record : Record P) (message : RatchetMessage) :
    Alike (Recorded start) (c.decryptWith record message) (c.decryptWith record message) :=
  .bind (onSource_alike fun _ => Recorder.record_decrypt_alike _ _ _) fun _ =>
    .bind (checkCurrent_alike c _) fun _ => .bind (storeRecord_alike _ _) fun _ => .pure _

theorem establish_alike (record : Record P) (message : InitialMessage) :
    Alike (Recorded start) (c.establish record message) (c.establish record message) := by
  refine .bind (.ofExcept _) fun remote => .bind (checkTrust_alike c _) fun _ =>
    .bind (query_alike _ _) fun _ => .bind (accept_alike _ _) fun built =>
    .bind (onSource_alike fun _ => Recorder.record_decrypt_alike _ _ _) fun _ =>
    .bind (call_alike _ _) fun _ => .bind (storeRecord_alike _ _) fun _ => ?_
  cases built.2 with
  | none => exact .pure _
  | some id => exact .bind (attempt_alike (removePreKey_alike id)) fun _ => .pure _

theorem decrypt_alike (message : Message) :
    Alike (Recorded start) (c.decrypt message) (c.decrypt message) := by
  cases message with
  | ratchet message =>
    refine .bind (query_alike _ _) fun found => ?_
    cases found with
    | none => exact .throw _
    | some record => exact decryptWith_alike c record message
  | initial message =>
    refine .bind (record_alike c) fun record => ?_
    split
    · exact decryptWith_alike c _ _
    · exact establish_alike c _ _

theorem decryptBytes_alike (bytes : Bytes) :
    Alike (Recorded start) (c.decryptBytes bytes) (c.decryptBytes bytes) :=
  .bind (.ofExcept _) (decrypt_alike c)

theorem perform_alike (call : Call P) : Alike (Recorded start) call.perform call.perform := by
  obtain ⟨c, request⟩ := call
  cases request with
  | hasSession => exact .bind (hasSession_alike c) fun _ => .pure _
  | start bundle => exact .bind (start_alike c bundle) fun _ => .pure _
  | encrypt plaintext => exact .bind (encrypt_alike c plaintext) fun _ => .pure _
  | decrypt message => exact .bind (decrypt_alike c message) fun _ => .pure _
  | decryptBytes bytes => exact .bind (decryptBytes_alike c bytes) fun _ => .pure _

end Recorded

variable [Randomness E]

namespace Onward

theorem perform_onward (call : Call P) : Keeps Onward (call.perform : Action P (Recorder E) _) :=
  fun ctx => (Recorded.perform_alike call ctx ctx.bare ⟨.refl ctx, rfl⟩).related.onward

theorem outcome_onward (calls : List (Call P)) (ctx : Context P (Recorder E)) :
    Onward ctx (outcome calls ctx) := by
  induction calls generalizing ctx with
  | nil => exact .refl ctx
  | cons call rest ih => exact (perform_onward call ctx).trans (ih _)

theorem of_mem_journal {calls : List (Call P)} {ctx : Context P (Recorder E)}
    {e : Entry P (Recorder E)} (member : e ∈ journal calls ctx) :
    Onward ctx e.before ∧ Onward e.after (outcome calls ctx) := by
  induction calls generalizing ctx with
  | nil => cases member
  | cons call rest ih =>
    rcases List.mem_cons.1 member with rfl | member
    · exact ⟨.refl ctx, outcome_onward rest _⟩
    · obtain ⟨before, after⟩ := ih member
      exact ⟨(perform_onward call ctx).trans before, after⟩

end Onward

namespace Entry

def bare (e : Entry P (Recorder E)) : Entry P E := ⟨e.call, e.before.bare⟩

variable (e : Entry P (Recorder E))

theorem result_bare : SameEnd (Recorded e.before) e.result e.bare.result :=
  Recorded.perform_alike e.call e.before e.before.bare ⟨.refl e.before, rfl⟩

theorem after_bare : e.bare.after = e.after.bare := e.result_bare.related.bare.symm

theorem sent_bare : e.bare.sent? = e.sent? := by
  have same := e.result_bare
  unfold sent?
  generalize e.result = x, e.bare.result = y at same
  cases same with
  | ok reply related => cases reply <;> rfl
  | error error related => rfl

theorem opened_bare : e.bare.opened? = e.opened? := by
  have same := e.result_bare
  unfold opened?
  generalize e.result = x, e.bare.result = y at same
  cases same with
  | ok reply related => cases reply <;> rfl
  | error error related => rfl

end Entry

def drawnKeys (calls : List (Call P)) (ctx : Context P E) : List PublicKey :=
  (outcome calls ctx.recording).source.keys P

theorem journal_recording (calls : List (Call P)) (ctx : Context P E) :
    journal calls ctx = (journal calls ctx.recording).map Entry.bare := by
  -- after the first call the recorder is no longer empty
  suffices all : ∀ recorded : Context P (Recorder E),
      journal calls recorded.bare = (journal calls recorded).map Entry.bare from all ctx.recording
  induction calls with
  | nil => exact fun _ => rfl
  | cons call rest ih =>
    intro recorded
    have next : Entry.after ⟨call, recorded.bare⟩ = (Entry.after ⟨call, recorded⟩).bare :=
      Entry.after_bare ⟨call, recorded⟩
    rw [journal, journal, List.map_cons, next, ih]
    rfl

theorem journal_split {calls : List (Call P)} {ctx : Context P E} {earlier later : List (Entry P E)}
    {e : Entry P E} (split : journal calls ctx = earlier ++ e :: later) :
    ∃ past now rest, journal calls ctx.recording = past ++ now :: rest ∧
      earlier = past.map Entry.bare ∧ e = now.bare ∧ later = rest.map Entry.bare := by
  rw [journal_recording] at split
  obtain ⟨past, others, is, rfl, behind⟩ := List.map_eq_append_iff.1 split
  obtain ⟨now, rest, rfl, rfl, rfl⟩ := List.map_eq_cons_iff.1 behind
  exact ⟨past, now, rest, is, rfl, rfl, rfl⟩

end RatchetSession
