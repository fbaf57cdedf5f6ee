import RatchetSession.Proofs.Conversation.Atomic
import RatchetSession.Proofs.Conversation.Effect
import RatchetSession.Proofs.Session.Answers
import RatchetSession.Proofs.Session.Selection
import RatchetSession.Proofs.Store.Quiet
set_option autoImplicit false

/-!
Calls on a store that does its part. One that fails leaves the store as it was, and one
that succeeds never does: a message which is sent takes a position of its chain, and a
message which is opened uses up its key.
-/

namespace RatchetSession

open RatchetSession.Computation (Keeps bind_eq_ok bind_of_ok bind_of_error ofExcept_eq_ok)

variable {P : Suite} {E α β : Type}

theorem Reads.quiet {ctx ctx' : Context P E} (h : Reads ctx ctx') (quiet : ctx.Quiet) :
    ctx'.Quiet := by
  intro n kind
  rw [h.plan]
  exact quiet n kind

/-- When no store call fails, the computation does not either. -/
def Certain (act : Action P E α) : Prop :=
  ∀ ctx, ctx.Quiet → ∃ a ctx', act ctx = .ok a ctx' ∧ ctx'.Quiet

/-- When no store call fails and the computation does, the store is as before. -/
def Harmless (act : Action P E α) : Prop :=
  ∀ ctx, ctx.Quiet → ∀ error ctx', act ctx = .error error ctx' → ctx'.store = ctx.store

theorem Certain.pure (a : α) : Certain (pure a : Action P E α) :=
  fun ctx quiet => ⟨a, ctx, rfl, quiet⟩

theorem Certain.bind {m : Action P E α} {f : α → Action P E β} (first : Certain m)
    (second : ∀ a, Certain (f a)) : Certain (m >>= f) := by
  intro ctx quiet
  obtain ⟨a, mid, ran, still⟩ := first ctx quiet
  rw [bind_of_ok ran]
  exact second a mid still

theorem Certain.call (kind : StoreCall) (run : Store P → α × Store P) :
    Certain (Action.call kind fun st => .ok (run st) : Action P E α) := by
  intro ctx quiet
  simp only [Action.call, quiet ctx.faults.calls kind]
  exact ⟨_, _, rfl, quiet⟩

theorem Certain.write (kind : StoreCall) (change : Store P → Store P) :
    Certain (Action.write kind change : Action P E Unit) :=
  .call kind fun st => ((), change st)

theorem Certain.attempt {run : Action P E Unit} (h : Certain run) :
    Certain (Action.attempt run) := by
  intro ctx quiet
  obtain ⟨_, ctx', ran, still⟩ := h ctx quiet
  exact ⟨(), ctx', by simp only [Action.attempt, ran], still⟩

theorem Certain.harmless {act : Action P E α} (h : Certain act) : Harmless act := by
  intro ctx quiet error ctx' failed
  obtain ⟨_, _, ran, -⟩ := h ctx quiet
  rw [ran] at failed
  cases failed

theorem Harmless.of_reads {act : Action P E α} (h : Keeps Reads act) : Harmless act :=
  fun _ _ _ _ failed => (h.error failed).store

theorem Harmless.throw_bind (e : SessionError) (f : α → Action P E β) :
    Harmless (throw e >>= f : Action P E β) := by
  intro ctx _ error ctx' failed
  cases failed
  rfl

theorem Harmless.bind_reads {m : Action P E α} {f : α → Action P E β} (keeps : Keeps Reads m)
    (next : ∀ a, Harmless (f a)) : Harmless (m >>= f) := by
  intro ctx quiet error ctx' failed
  cases ran : m ctx with
  | ok a mid =>
    have reads := keeps.ok ran
    rw [bind_of_ok ran] at failed
    exact (next a mid (reads.quiet quiet) error ctx' failed).trans reads.store
  | error e mid =>
    rw [bind_of_error ran] at failed
    cases failed
    exact (keeps.error ran).store

namespace Conversation

variable (c : Conversation)

theorem storeRecord_certain (record : Record P) (a : α) :
    Certain (Action.storeRecord c.remote record >>= fun _ => pure a : Action P E α) :=
  .bind (.write _ _) fun _ => .pure a

theorem encrypt_harmless (plaintext : Bytes) : Harmless (c.encrypt plaintext : Action P E _) := by
  refine .bind_reads (Action.query_reads _ _) fun found => ?_
  cases found with
  | none => exact .of_reads (Action.throw_reads _)
  | some record =>
    dsimp only
    split
    · exact .throw_bind _ _
    · exact .bind_reads (c.checkCurrent_reads _) fun _ => .bind_reads (Action.ofExcept_reads _) fun _ =>
        (c.storeRecord_certain _ _).harmless

variable [Randomness E]

theorem decryptWith_harmless (record : Record P) (message : RatchetMessage) :
    Harmless (c.decryptWith record message : Action P E _) :=
  .bind_reads (Action.onSource_reads _) fun _ => .bind_reads (c.checkCurrent_reads _) fun _ =>
    (c.storeRecord_certain _ _).harmless

theorem establish_harmless (record : Record P) (message : InitialMessage) :
    Harmless (c.establish record message : Action P E _) := by
  refine .bind_reads (Action.ofExcept_reads _) fun _ => .bind_reads (c.checkTrust_reads _) fun _ => ?_
  refine .bind_reads (Action.query_reads _ _) fun _ =>
    .bind_reads (Handshake.accept_reads _ _) fun built => ?_
  refine .bind_reads (Action.onSource_reads _) fun _ => Certain.harmless ?_
  refine .bind (.call _ _) fun _ => .bind (.write _ _) fun _ => ?_
  cases built.2 with
  | none => exact .pure _
  | some id => exact .bind (.attempt (.write _ _)) fun _ => .pure _

theorem decrypt_harmless (message : Message) :
    Harmless (c.decrypt message : Action P E _) := by
  cases message with
  | ratchet message =>
    refine .bind_reads (Action.query_reads _ _) fun found => ?_
    cases found with
    | none => exact .of_reads (Action.throw_reads _)
    | some record => exact c.decryptWith_harmless record message
  | initial message =>
    refine .bind_reads c.record_reads fun record => ?_
    split
    · exact c.decryptWith_harmless record message.message
    · exact c.establish_harmless record message

theorem decryptBytes_harmless (bytes : Bytes) :
    Harmless (c.decryptBytes bytes : Action P E _) :=
  .bind_reads (Action.ofExcept_reads _) fun message => c.decrypt_harmless message

end Conversation

section Moves

variable {limits : Limits} {message : RatchetMessage} {plaintext : Bytes}

/-- A chain that has given out a key has lost a kept one, or stands at another position. -/
theorem ReceivingChain.messageKey_ne {chain chain' : ReceivingChain} {counter : UInt32}
    {key : MessageKey} (taken : chain.messageKey P limits counter = .ok key chain') :
    chain' ≠ chain := by
  have answered := messageKey_answered P limits chain counter
  rw [taken] at answered
  intro same
  cases answered with
  | kept behind found =>
    have gone : chain.skipped.find? counter = none := by
      rw [← same, SkippedKeys.find?_erase, if_pos rfl]
    rw [found] at gone
    cases gone
  | @next mid ahead near short skipped there =>
    have room : mid.chainKey.index ≠ lastIndex := by
      rw [show mid.chainKey.index = counter from there]
      exact ChainKey.lt_lastIndex.1 short
    have index : chain.index.toNat = counter.toNat + 1 := by
      rw [← same, ← there]
      exact ChainKey.next_index room
    have le := UInt32.le_iff_toNat_le.1 ahead
    omega

variable [Randomness E] {source source' : E}

theorem Session.decrypt_ne {s s' : Session P}
    (h : s.decrypt limits message source = .ok (plaintext, s') source') : s' ≠ s := by
  obtain ⟨ready, followed, received⟩ := decrypt_parts h
  obtain ⟨chain, key, after, found, taken, -, looked⟩ := receive_chain received
  rintro rfl
  rcases follow_eq_ok followed with ⟨-, rfl, -⟩ | ⟨unknown, -⟩
  · cases found.symm.trans looked
    exact ReceivingChain.messageKey_ne taken rfl
  · rw [looked] at unknown
    cases unknown

namespace Record

variable {r r' : Record P}

theorem decrypt_ne (h : decrypt limits message (r, source) = .ok plaintext (r', source')) :
    r' ≠ r := by
  obtain ⟨passed, s, rest, next, split, opens, -, current, archived⟩ := decrypt_opener h
  rintro rfl
  have all : next :: r'.archived = passed ++ s :: rest := by
    rw [← split, sessions, current]
    rfl
  have lengths := congrArg List.length all
  simp only [List.length_cons, List.length_append] at lengths
  have whole : r'.archived = passed ++ rest :=
    archived.eq_of_length (by rw [List.length_append]; omega)
  -- the successor would stand with the same sessions with which the opener stood
  have same : (next :: (passed ++ rest)).Perm (s :: (passed ++ rest)) := by
    rw [← whole, all, whole]
    exact List.perm_middle
  have unchanged : next = s :=
    List.singleton_perm_singleton.1 ((List.perm_append_right_iff (passed ++ rest)).1 same)
  exact Session.decrypt_ne opens unchanged

theorem promote_decrypt_hasBaseKey {offered : Session P} (held : r.current.isSome = true)
    (h : decrypt limits message (r.promote offered limits.maxArchivedStates, source) =
      .ok plaintext (r', source')) : r'.hasBaseKey offered.baseKey = true := by
  obtain ⟨passed, _, _, s, rest, next, split, -, opens, current, -, archived⟩ := decrypt_first h
  obtain ⟨front, is⟩ := Option.isSome_iff_exists.1 held
  have room : (r.promote offered limits.maxArchivedStates).archived.length ≤
      limits.maxArchivedStates := by
    simp only [promote, archiveCurrent, is]
    exact List.length_take_le _ _
  have behind := archived room
  have all : offered :: (r.promote offered limits.maxArchivedStates).archived =
    passed ++ s :: rest := split
  rw [hasBaseKey, List.any_eq_true]
  cases passed with
  | nil =>
    obtain ⟨rfl, -⟩ := List.cons.inj all
    refine ⟨next, by simp [sessions, current], ?_⟩
    rw [(Session.decrypt_start opens).baseKey, beq_self_eq_true]
  | cons first passed =>
    obtain ⟨rfl, -⟩ := List.cons.inj all
    exact ⟨offered, by simp [sessions, behind], by simp⟩

end Record

end Moves

namespace Conversation

variable {ctx ctx' : Context P E} {plaintext : Bytes} (c : Conversation)

theorem encrypt_moves {message : Message} (h : c.encrypt plaintext ctx = .ok message ctx') :
    ctx'.store ≠ ctx.store := by
  obtain ⟨r, s, next, loaded, current, sealed, stored, -⟩ := c.encrypt_eq_ok h
  intro same
  rw [same, loaded] at stored
  have unchanged : s = next := by
    have records : r = { r with current := some next } := Option.some.inj (Except.ok.inj stored)
    rw [records] at current
    exact (Option.some.inj current).symm
  obtain ⟨room, -, -, -, advanced⟩ := Session.encrypt_eq_ok sealed
  have index : s.sending.index.toNat = s.sending.index.toNat + 1 := by
    calc s.sending.index.toNat = next.sending.index.toNat := by rw [← unchanged]
      _ = s.advanced.sending.index.toNat := by rw [advanced]
      _ = s.sending.index.toNat + 1 := ChainKey.next_index room
  omega

variable [Randomness E]

theorem decrypt_moves {message : Message} (h : c.decrypt message ctx = .ok plaintext ctx') :
    ctx'.store ≠ ctx.store := by
  obtain ⟨r, tried, after, tries, run, stored, -⟩ := c.decrypt_eq_ok h
  intro same
  rw [same] at stored
  cases tries with
  | ratchet loaded | known loaded =>
    cases stored.symm.trans loaded
    exact Record.decrypt_ne run rfl
  | @unknown m _ offered _ loaded lacking offers =>
    cases stored.symm.trans loaded
    -- the record in the store lacks the base key of the session that came with the message
    obtain ⟨_, _, _, -, -, -, -, incoming⟩ := offers.eq_incoming
    have held : after.current.isSome = true := by
      obtain ⟨_, _, _, next, -, -, -, current, -⟩ := Record.decrypt_opener run
      rw [current]
      rfl
    have kept : after.hasBaseKey m.baseKey = true :=
      (Handshake.incoming_start incoming).1 ▸ Record.promote_decrypt_hasBaseKey held run
    rw [show (some after).getD .empty = after from rfl, kept] at lacking
    cases lacking

theorem decryptBytes_moves {bytes : Bytes} (h : c.decryptBytes bytes ctx = .ok plaintext ctx') :
    ctx'.store ≠ ctx.store := by
  obtain ⟨message, _, decoded, opened⟩ := bind_eq_ok h
  obtain ⟨-, rfl⟩ := ofExcept_eq_ok decoded
  exact c.decrypt_moves opened

end Conversation

end RatchetSession
