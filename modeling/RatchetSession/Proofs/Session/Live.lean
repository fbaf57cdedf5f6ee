import RatchetSession.Proofs.Session.Anchored
import RatchetSession.Proofs.Session.Answers
import RatchetSession.Proofs.Session.Selection
set_option autoImplicit false

namespace RatchetSession

open RatchetSession.Computation (endState bind_of_ok bind_of_error ofExcept_ok
  ofExcept_error adaptExcept_eq_error)

variable {P : Suite} {E : Type} [Randomness E] {limits : Limits} {message : RatchetMessage}

/-- A session, and the source that it draws from. -/
structure Live (P : Suite) (E : Type) where
  session : Session P
  source : E

inductive Live.Act where
  | send (plaintext : Bytes)
  | hear (limits : Limits) (message : RatchetMessage)
deriving DecidableEq

namespace Live

def encrypt (plaintext : Bytes) : EStateM SessionError (Live P E) Message := fun live =>
  match live.session.encrypt plaintext with
  | .ok (message, s) => .ok message { live with session := s }
  | .error error => .error error live

/-- What was drawn for an attempt that fails stays drawn. -/
def decrypt (limits : Limits) (message : RatchetMessage) : EStateM SessionError (Live P E) Bytes :=
  fun live =>
    match live.session.decrypt limits message live.source with
    | .ok (plaintext, s) source => .ok plaintext ⟨s, source⟩
    | .error error source => .error error { live with source := source }

def after (live : Live P E) : Act → Live P E
  | .send plaintext => endState (encrypt plaintext live)
  | .hear limits message => endState (decrypt limits message live)

def run (live : Live P E) (acts : List Act) : Live P E := acts.foldl after live

variable {live live' : Live P E} {plaintext : Bytes}

theorem decrypt_eq_ok (h : decrypt limits message live = .ok plaintext live') :
    live.session.decrypt limits message live.source =
      .ok (plaintext, live'.session) live'.source := by
  cases ended : live.session.decrypt limits message live.source with
  | ok result source =>
    simp only [decrypt, ended] at h
    cases h
    rfl
  | error error source =>
    simp only [decrypt, ended] at h
    cases h

omit [Randomness E] in
theorem encrypt_eq_ok {sealed : Message} (h : encrypt plaintext live = .ok sealed live') :
    live.session.encrypt plaintext = .ok (sealed, live'.session) ∧ live'.source = live.source := by
  cases ended : live.session.encrypt plaintext with
  | ok result =>
    simp only [encrypt, ended] at h
    cases h
    exact ⟨rfl, rfl⟩
  | error error =>
    simp only [encrypt, ended] at h
    cases h

theorem after_cases (live : Live P E) (act : Act) :
    (live.after act).session = live.session ∨
      (∃ plaintext message, act = .send plaintext ∧
        live.session.encrypt plaintext = .ok (message, (live.after act).session)) ∨
      ∃ limits message plaintext, act = .hear limits message ∧
        live.session.decrypt limits message live.source =
          .ok (plaintext, (live.after act).session) (live.after act).source := by
  cases act with
  | send plaintext =>
    simp only [after]
    cases ended : encrypt plaintext live with
    | ok message next => exact .inr (.inl ⟨plaintext, message, rfl, (encrypt_eq_ok ended).1⟩)
    | error error next =>
      simp only [encrypt] at ended
      split at ended <;> cases ended
      exact .inl rfl
  | hear limits message =>
    simp only [after]
    cases ended : decrypt limits message live with
    | ok plaintext next =>
      exact .inr (.inr ⟨limits, message, plaintext, rfl, decrypt_eq_ok ended⟩)
    | error error next =>
      simp only [decrypt] at ended
      split at ended <;> cases ended
      exact .inl rfl

end Live

namespace Session

variable {s s' : Session P} {source source' : E} {plaintext : Bytes}

theorem closeChain_error {previousCounter : UInt32} {error : SessionError}
    (h : s.closeChain limits previousCounter = .error error) : error.NotDuplicate := by
  unfold closeChain at h
  split at h
  · cases h
  · split at h
    · cases h
    · rename_i failed
      cases h
      exact ReceivingChain.skipTo_error failed

theorem follow_error {error : SessionError}
    (h : s.follow limits message source = .error error source') : error.NotDuplicate := by
  unfold follow at h
  split at h
  · cases h
  · cases closes : s.closeChain limits message.previousCounter with
    | error failure =>
      rw [closes, bind_of_error (ofExcept_error failure source)] at h
      cases h
      exact closeChain_error closes
    | ok closed =>
      rw [closes, bind_of_ok (ofExcept_ok closed source)] at h
      obtain ⟨failure, -, rfl⟩ := adaptExcept_eq_error h
      exact SessionError.notDuplicate_ofCrypto failure

theorem receive_duplicate {counter : UInt32}
    (h : s.receive limits message = .error (.duplicateMessage counter)) :
    counter = message.counter := by
  simp only [receive] at h
  split at h
  · cases h
  · split at h
    · rename_i failed
      cases h
      rcases ReceivingChain.messageKey_error failed with ⟨is | is, -⟩ | ⟨is, -⟩ <;> cases is
      rfl
    · split at h
      · rename_i error _
        injection h with is
        exact absurd is (SessionError.notDuplicate_ofCrypto error counter)
      · cases h

theorem decrypt_duplicate {counter : UInt32}
    (h : s.decrypt limits message source = .error (.duplicateMessage counter) source') :
    counter = message.counter := by
  unfold decrypt at h
  cases followed : s.follow limits message source with
  | error error after =>
    rw [bind_of_error followed] at h
    cases h
    exact absurd rfl (follow_error followed counter)
  | ok ready after =>
    rw [bind_of_ok followed] at h
    cases received : ready.receive limits message with
    | ok result =>
      rw [received] at h
      cases h
    | error error =>
      rw [received] at h
      cases h
      exact receive_duplicate received

section Chains

variable {Q : ReceivingChain → Prop}

theorem follow_chains
    (steps : ReceivingChain.Stepwise P limits fun chain chain' => Q chain → Q chain')
    (new : ∀ remoteKey localKey chainKey, Q (.new remoteKey localKey chainKey))
    (all : ∀ chain ∈ s.receiving, Q chain) (h : s.follow limits message source = .ok s' source') :
    ∀ chain ∈ s'.receiving, Q chain := by
  rcases follow_eq_ok h with ⟨-, rfl, -⟩ | ⟨-, closed, closes, stepped⟩
  · exact all
  · have closed_all : ∀ chain ∈ closed.receiving, Q chain := by
      rcases closeChain_eq_ok closes with rfl | ⟨prior, after, found, skipped, rfl⟩
      · exact all
      · intro chain member
        rcases mem_replaceChain member with rfl | old
        · exact (steps.skipTo _).ok skipped (all prior (List.mem_of_find?_eq_some found))
        · exact all chain old
    obtain ⟨_, _, _, _, -, -, -, rfl⟩ := ratchet_eq_ok stepped
    intro chain member
    rcases mem_addChain member with old | rfl
    · exact closed_all chain old
    · exact new _ _ _

theorem decrypt_chains
    (steps : ReceivingChain.Stepwise P limits fun chain chain' => Q chain → Q chain')
    (new : ∀ remoteKey localKey chainKey, Q (.new remoteKey localKey chainKey))
    (all : ∀ chain ∈ s.receiving, Q chain)
    (h : s.decrypt limits message source = .ok (plaintext, s') source') :
    ∀ chain ∈ s'.receiving, Q chain := by
  obtain ⟨ready, followed, received⟩ := decrypt_parts h
  have before := follow_chains steps new all followed
  obtain ⟨chain, key, after, found, taken, rfl⟩ := receive_eq_ok received
  intro other member
  rcases mem_replaceChain member with rfl | old
  · exact (steps.messageKey _).ok taken (before chain (List.mem_of_find?_eq_some found))
  · exact before other old

end Chains

/-- No chain keeps a key for a position that it has not passed. -/
def Tidy (s : Session P) : Prop := ∀ chain ∈ s.receiving, chain.Tidy

def chainsFor (s : Session P) (key : PublicKey) : Nat :=
  (s.receiving.map (·.remoteKey)).count key

/-- The chain for a key has passed the position and keeps no key for it. -/
def Used (s : Session P) (key : PublicKey) (counter : UInt32) : Prop :=
  ∃ chain, s.chain? key = some chain ∧ chain.Spent counter

variable {key : PublicKey} {counter : UInt32}

theorem SameChains.chainsFor (same : s.SameChains s') (key : PublicKey) :
    s'.chainsFor key = s.chainsFor key := by
  rw [Session.chainsFor, same.keys]
  rfl

theorem receive_sameChains (h : s.receive limits message = .ok (plaintext, s')) :
    s.SameChains s' := by
  obtain ⟨chain, used, after, found, taken, rfl⟩ := receive_eq_ok h
  have set := setChain_sameChains found ((ReceivingChain.messageKey_later message.counter).ok taken)
  exact ⟨set.later, set.keys⟩

theorem decrypt_tidy (tidy : s.Tidy)
    (h : s.decrypt limits message source = .ok (plaintext, s') source') : s'.Tidy :=
  decrypt_chains ReceivingChain.tidy_stepwise ReceivingChain.new_tidy tidy h

theorem used_of_decrypt (tidy : s.Tidy)
    (h : s.decrypt limits message source = .ok (plaintext, s') source') :
    s'.Used message.ratchetKey message.counter := by
  obtain ⟨ready, followed, received⟩ := decrypt_parts h
  obtain ⟨chain, used, after, found, taken, -, looked⟩ := receive_chain received
  have held := follow_chains ReceivingChain.tidy_stepwise ReceivingChain.new_tidy tidy followed
    chain (List.mem_of_find?_eq_some found)
  exact ⟨after, looked, ReceivingChain.spent_of_messageKey held taken⟩

theorem Used.decrypt_eq (used : s.Used message.ratchetKey message.counter) (limits : Limits)
    (source : E) : s.decrypt limits message source =
      .error (.duplicateMessage message.counter) source := by
  obtain ⟨chain, found, spent⟩ := used
  have stays : s.follow limits message source = .ok s source := by
    rw [follow, if_pos (by simp [found])]
    rfl
  have refused : s.receive limits message = .error (.duplicateMessage message.counter) := by
    simp only [receive, found, ReceivingChain.messageKey_of_spent spent]
  rw [Session.decrypt, bind_of_ok stays, refused]
  rfl

theorem Used.setChain (used : s.Used key counter) {other : PublicKey} {chain next : ReceivingChain}
    (found : s.chain? other = some chain) (later : chain.Later next) :
    (s.setChain other next).Used key counter := by
  obtain ⟨own, held, spent⟩ := used
  have looked := find?_replaceChain (later.ends.remoteKey.trans (chain?_remoteKey found)) key
    s.receiving
  by_cases same : key = other
  · subst same
    cases held.symm.trans found
    rw [if_pos rfl, show s.receiving.find? _ = some chain from held] at looked
    exact ⟨next, looked, later.spent spent⟩
  · rw [if_neg same] at looked
    exact ⟨own, looked.trans held, spent⟩

theorem Used.of_follow (used : s.Used key counter)
    (h : s.follow limits message source = .ok s' source')
    (kept : s.chainsFor key ≤ s'.chainsFor key) : s'.Used key counter := by
  rcases follow_eq_ok h with ⟨-, rfl, -⟩ | ⟨unknown, closed, closes, stepped⟩
  · exact used
  · have other : message.ratchetKey ≠ key := by
      rintro rfl
      obtain ⟨_, held, -⟩ := used
      rw [held] at unknown
      cases unknown
    have before : closed.Used key counter := by
      rcases closeChain_eq_ok closes with rfl | ⟨prior, after, found, skipped, rfl⟩
      · exact used
      · exact used.setChain found ((ReceivingChain.skipTo_later _).ok skipped)
    rw [← (closeChain_sameChains closes).chainsFor] at kept
    obtain ⟨_, _, _, _, -, -, -, rfl⟩ := ratchet_eq_ok stepped
    obtain ⟨chain, held, spent⟩ := before
    exact ⟨chain, (find?_addChain_of_count other kept).trans held, spent⟩

theorem Used.of_decrypt (used : s.Used key counter)
    (h : s.decrypt limits message source = .ok (plaintext, s') source')
    (kept : s.chainsFor key ≤ s'.chainsFor key) : s'.Used key counter := by
  obtain ⟨ready, followed, received⟩ := decrypt_parts h
  rw [(receive_sameChains received).chainsFor] at kept
  obtain ⟨chain, taken, after, found, given, rfl⟩ := receive_eq_ok received
  exact (used.of_follow followed kept).setChain found ((ReceivingChain.messageKey_later _).ok given)

end Session

namespace Record

theorem PassedOver.not_used {passed : List (Session P)} {failures : List SessionError}
    {source source' : E} (h : PassedOver limits message passed failures source source')
    {s : Session P} (member : s ∈ passed) : ¬ s.Used message.ratchetKey message.counter := by
  induction h with
  | nil => cases member
  | cons failed other rest ih =>
    rcases List.mem_cons.1 member with rfl | later
    · intro used
      rw [used.decrypt_eq] at failed
      cases failed
      exact other message.counter rfl
    · exact ih later

theorem decrypt_of_used {r : Record P} {passed rest : List (Session P)} {s : Session P}
    (split : r.sessions = passed ++ s :: rest)
    (used : s.Used message.ratchetKey message.counter) (limits : Limits) (source : E) :
    (∃ plaintext r' source' before t after next tried, passed = before ++ t :: after ∧
        t.decrypt limits message tried = .ok (plaintext, next) source' ∧
        decrypt limits message (r, source) = .ok plaintext (r', source')) ∨
      ∃ source', decrypt limits message (r, source) =
        .error (.duplicateMessage message.counter) (r, source') := by
  cases ended : decrypt limits message (r, source) with
  | ok plaintext last =>
    obtain ⟨r', source'⟩ := last
    obtain ⟨before, failures, tried, t, after, next, split', passes, opens, -⟩ :=
      decrypt_first ended
    have differ : t ≠ s := by
      rintro rfl
      rw [used.decrypt_eq] at opens
      cases opens
    rcases List.append_eq_append_iff.1 (split.symm.trans split') with
      ⟨between, rfl, tail⟩ | ⟨between, rfl, tail⟩
    · cases between with
      | nil =>
        cases tail
        exact absurd rfl differ
      | cons u between =>
        cases tail
        exact absurd used (passes.not_used (by simp))
    · cases between with
      | nil =>
        cases tail
        exact absurd rfl differ
      | cons u between =>
        cases tail
        exact .inl ⟨plaintext, r', source', before, t, between, next, tried, rfl, opens, rfl⟩
  | error error last =>
    obtain ⟨r', source'⟩ := last
    obtain ⟨rfl, refuses⟩ := decrypt_refused ended
    cases refuses with
    | duplicate _ _ earlier is =>
      rw [is, Session.decrypt_duplicate earlier]
      exact .inr ⟨source', rfl⟩
    | first all => exact absurd used (all.not_used (by simp [split]))

end Record

namespace Live

theorem run_tidy {live : Live P E} (tidy : live.session.Tidy) (acts : List Act) :
    (live.run acts).session.Tidy := by
  induction acts generalizing live with
  | nil => exact tidy
  | cons act rest ih =>
    refine ih ?_
    rcases live.after_cases act with same | ⟨_, _, -, sealed⟩ | ⟨_, _, _, -, opened⟩
    · rw [same]
      exact tidy
    · rw [(Session.encrypt_eq_ok sealed).2.2.2.2]
      exact tidy
    · exact Session.decrypt_tidy tidy opened

/-- No act of the run gives up a chain for the key. -/
def KeepsChain (key : PublicKey) (live : Live P E) (acts : List Act) : Prop :=
  ∀ before act after, acts = before ++ act :: after →
    (live.run before).session.chainsFor key ≤ (live.run (before ++ [act])).session.chainsFor key

theorem run_used {key : PublicKey} {counter : UInt32} {live : Live P E} {acts : List Act}
    (used : live.session.Used key counter) (kept : live.KeepsChain key acts) :
    (live.run acts).session.Used key counter := by
  induction acts generalizing live with
  | nil => exact used
  | cons act rest ih =>
    refine ih ?_ fun before a after split => ?_
    · have once := kept [] act rest rfl
      rcases live.after_cases act with same | ⟨_, _, -, sealed⟩ | ⟨_, _, _, -, opened⟩
      · rw [same]
        exact used
      · rw [(Session.encrypt_eq_ok sealed).2.2.2.2]
        exact used
      · exact used.of_decrypt opened once
    · exact kept (act :: before) a after (by rw [split]; rfl)

/-- What a session has accepted it does not accept again. From one that keeps no key ahead of a
chain, whatever it is asked for before and after: a message of the same ratchet key and counter is
refused as a duplicate as long as the chain is there. A record that holds the session refuses it
too, and stays as it is, unless a session tried before has opened it. -/
theorem accepts_once (start : Live P E) (tidy : start.session.Tidy) (earlier later : List Act)
    (first : RatchetMessage) (plaintext : Bytes) (live : Live P E)
    (accepted : decrypt limits first (start.run earlier) = .ok plaintext live)
    (kept : live.KeepsChain first.ratchetKey later) (message : RatchetMessage)
    (sameKey : message.ratchetKey = first.ratchetKey) (sameCounter : message.counter = first.counter)
    (limits' : Limits) (source : E) :
    let s := (live.run later).session
    s.decrypt limits' message source = .error (.duplicateMessage first.counter) source ∧
    ∀ (r : Record P) passed rest, r.sessions = passed ++ s :: rest →
      (∃ plaintext r' source' before t after next tried, passed = before ++ t :: after ∧
        t.decrypt limits' message tried = .ok (plaintext, next) source' ∧
        Record.decrypt limits' message (r, source) = .ok plaintext (r', source')) ∨
      ∃ source', Record.decrypt limits' message (r, source) =
        .error (.duplicateMessage first.counter) (r, source') := by
  intro s
  have used : s.Used message.ratchetKey message.counter := by
    rw [sameKey, sameCounter]
    exact run_used (Session.used_of_decrypt (run_tidy tidy earlier) (decrypt_eq_ok accepted)) kept
  rw [← sameCounter]
  exact ⟨used.decrypt_eq limits' source, fun r passed rest split =>
    Record.decrypt_of_used split used limits' source⟩

/-- The first message to the end that was called, and one after the caller has read a reply. -/
def rounds : Option (RatchetMessage × RatchetMessage) := do
  let (first, spoken) ← ((caller 1).encrypt [1]).toOption
  let (reply, _) ← ((called 1).encrypt [2]).toOption
  match spoken.decrypt {} reply.inner (⟨0⟩ : Ticker) with
  | .ok (_, informed) _ =>
    let (second, _) ← (informed.encrypt [3]).toOption
    return (first.inner, second.inner)
  | .error _ _ => none

def opensBoth (s : Session Suite.plain) (first second : RatchetMessage) : Bool :=
  match decrypt {} first ⟨s, (⟨0⟩ : Ticker)⟩ with
  | .ok _ live =>
    match decrypt {} second live with
    | .ok _ live' => live.session.chainsFor first.ratchetKey = 1 &&
        live'.session.chainsFor first.ratchetKey = 1
    | .error _ _ => false
  | .error _ _ => false

theorem opensBoth_eq_true {s : Session Suite.plain} {first second : RatchetMessage}
    (h : opensBoth s first second = true) :
    ∃ plaintext live plaintext' live', decrypt {} first ⟨s, (⟨0⟩ : Ticker)⟩ = .ok plaintext live ∧
      decrypt {} second live = .ok plaintext' live' ∧
      live.session.chainsFor first.ratchetKey = 1 ∧
      live'.session.chainsFor first.ratchetKey = 1 := by
  unfold opensBoth at h
  split at h
  · rename_i plaintext live opened
    split at h
    · rename_i plaintext' live' again
      simp only [Bool.and_eq_true, decide_eq_true_eq] at h
      exact ⟨plaintext, live, plaintext', live', opened, again, h⟩
    · cases h
  · cases h

set_option maxRecDepth 100000 in
theorem rounds_opened :
    (rounds.any fun (first, second) => opensBoth (called 1) first second) = true := by
  decide +kernel

theorem called_tidy (n : Nat) : (called n).Tidy := by
  intro chain member
  rw [List.mem_singleton.1 member]
  exact ReceivingChain.new_tidy _ _ _

/-- The first message is a duplicate also after the step of the second one, and in an archive. -/
theorem first_round_refused :
    ∃ first second plaintext live, rounds = some (first, second) ∧ (called 1).Tidy ∧
      decrypt {} first ((⟨called 1, ⟨0⟩⟩ : Live Suite.plain Ticker).run []) = .ok plaintext live ∧
      live.KeepsChain first.ratchetKey [.hear {} second] ∧
      let s := (live.run [.hear {} second]).session
      s.decrypt {} first (⟨9⟩ : Ticker) = .error (.duplicateMessage first.counter) ⟨9⟩ ∧
      ((∃ plaintext r' source' before t after next tried, [called 2] = before ++ t :: after ∧
        t.decrypt {} first tried = .ok (plaintext, next) source' ∧
        Record.decrypt {} first (⟨some (called 2), [s]⟩, (⟨9⟩ : Ticker)) =
          .ok plaintext (r', source')) ∨
        ∃ source', Record.decrypt {} first (⟨some (called 2), [s]⟩, (⟨9⟩ : Ticker)) =
          .error (.duplicateMessage first.counter) (⟨some (called 2), [s]⟩, source')) := by
  obtain ⟨⟨first, second⟩, is, opens⟩ := (Option.any_eq_true _ _).1 rounds_opened
  obtain ⟨plaintext, live, _, live', opened, again, held, stays⟩ := opensBoth_eq_true opens
  have kept : live.KeepsChain first.ratchetKey [.hear {} second] := by
    intro before act after split
    obtain ⟨rfl, rfl, -⟩ : before = [] ∧ act = .hear {} second ∧ after = [] := by
      cases before <;> simp_all
    have next : live.run [.hear {} second] = live' := congrArg endState again
    rw [List.nil_append, next, stays]
    exact Nat.le_of_eq held
  obtain ⟨refused, inRecord⟩ := accepts_once ⟨called 1, ⟨0⟩⟩ (called_tidy 1) []
    [.hear {} second] first plaintext live opened kept first rfl rfl {} ⟨9⟩
  exact ⟨first, second, plaintext, live, is, called_tidy 1, opened, kept, refused,
    inRecord ⟨some (called 2), _⟩ [called 2] [] rfl⟩

def hoarding : Session Suite.plain :=
  { called 1 with receiving := (called 1).receiving.map fun chain =>
      { chain with skipped := chain.skipped.insert 0 (chain.chainKey.messageKey Suite.plain) } }

set_option maxRecDepth 100000 in
theorem ring_opened_twice :
    ((ring 1).any fun message => opensBoth hoarding message message) = true := by
  decide +kernel

/-- Sessions that keep a key ahead of the chain may accept a message twice. -/
theorem hoarding_accepts_twice :
    ¬ ∀ (start : Live Suite.plain Ticker) (earlier later : List Act) (limits : Limits)
      (first : RatchetMessage) (plaintext : Bytes) (live : Live Suite.plain Ticker),
      decrypt limits first (start.run earlier) = .ok plaintext live →
      live.KeepsChain first.ratchetKey later →
      ∀ message : RatchetMessage, message.ratchetKey = first.ratchetKey →
        message.counter = first.counter → ∀ (limits' : Limits) (source : Ticker),
          (live.run later).session.decrypt limits' message source =
            .error (.duplicateMessage first.counter) source := by
  intro refuses
  obtain ⟨message, -, opens⟩ := (Option.any_eq_true _ _).1 ring_opened_twice
  obtain ⟨plaintext, live, _, live', opened, again, -⟩ := opensBoth_eq_true opens
  have refused := refuses ⟨hoarding, ⟨0⟩⟩ [] [] {} message plaintext live opened
    (fun before act after split => by simp at split) message rfl rfl {} live.source
  rw [show (live.run []).session.decrypt {} message live.source = _ from decrypt_eq_ok again]
    at refused
  cases refused

end Live

end RatchetSession
