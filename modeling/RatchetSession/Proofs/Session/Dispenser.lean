import RatchetSession.Proofs.Session.Answers
import RatchetSession.Proofs.Suite.Laws
set_option autoImplicit false

namespace RatchetSession

open RatchetSession.Computation (endState)

variable {P : Suite} {limits : Limits}

namespace ChainKey

def ahead (P : Suite) (key : ChainKey) : Nat → ChainKey
  | 0 => key
  | n + 1 => (key.ahead P n).next P

def keyFor (P : Suite) (key : ChainKey) (counter : UInt32) : MessageKey :=
  (key.ahead P (counter.toNat - key.index.toNat)).messageKey P

theorem next_ahead (key : ChainKey) (n : Nat) : (key.next P).ahead P n = key.ahead P (n + 1) := by
  induction n with
  | zero => rfl
  | succ n ih => rw [ahead, ih, ← ahead]

end ChainKey

/-- The key that a sending chain gives when it has given some others. -/
def SendingChain.keyAfter (P : Suite) (chain : SendingChain) :
    (given : Nat) → Except CryptoError MessageKey
  | 0 => (chain.next P).map (·.1)
  | given + 1 =>
    match chain.next P with
    | .ok (_, later) => later.keyAfter P given
    | .error error => .error error

theorem SendingChain.keyAfter_of_lt {chain : SendingChain} {given : Nat}
    (room : chain.index.toNat + given < lastIndex.toNat) :
    chain.keyAfter P given = .ok ((chain.chainKey.ahead P given).messageKey P) := by
  induction given generalizing chain with
  | zero =>
    have inside : chain.chainKey.index ≠ lastIndex :=
      ChainKey.lt_lastIndex.1 (UInt32.lt_iff_toNat_lt.2 room)
    simp only [keyAfter, next, ChainKey.advance_of_ne inside]
    rfl
  | succ given ih =>
    have inside : chain.chainKey.index ≠ lastIndex :=
      ChainKey.lt_lastIndex.1 (UInt32.lt_iff_toNat_lt.2 (by simp only [index] at room; omega))
    have step := ChainKey.next_index (P := P) inside
    simp only [keyAfter, next, ChainKey.advance_of_ne inside]
    rw [ih (by simp only [index] at room ⊢; omega), ChainKey.next_ahead]

namespace SkippedKeys

variable {keys : SkippedKeys} {counter : UInt32} {key : MessageKey}

theorem mem_of_find? (found : keys.find? counter = some key) : (counter, key) ∈ keys.entries := by
  obtain ⟨before, after, split, -⟩ := List.lookup_eq_some_iff.1 found
  simp [split]

theorem find?_ne_none (member : (counter, key) ∈ keys.entries) : keys.find? counter ≠ none := by
  intro absent
  simpa using List.lookup_eq_none_iff.1 absent (counter, key) member

end SkippedKeys

namespace ReceivingChain

variable {start : ChainKey} {chain chain' : ReceivingChain}

/-- The chain began with a chain key and has not gone back. Every key that it keeps is that of a
position that it has passed since. -/
structure From (P : Suite) (start : ChainKey) (chain : ReceivingChain) : Prop where
  reached : start.index ≤ chain.index
  key : chain.chainKey = start.ahead P (chain.index.toNat - start.index.toNat)
  kept : ∀ entry ∈ chain.skipped.entries,
    start.index ≤ entry.1 ∧ entry.1 < chain.index ∧ entry.2 = start.keyFor P entry.1

def StaysFrom (P : Suite) (start : ChainKey) (chain chain' : ReceivingChain) : Prop :=
  chain.From P start → chain'.From P start

theorem new_from (remoteKey localKey : PublicKey) (start : ChainKey) :
    (new remoteKey localKey start).From P start where
  reached := UInt32.le_refl _
  key := by simp [new, index, ChainKey.ahead]
  kept _ member := nomatch member

theorem From.tidy (h : chain.From P start) : chain.Tidy := by
  intro counter ahead
  cases found : chain.skipped.find? counter with
  | none => rfl
  | some key =>
    have behind := (h.kept _ (SkippedKeys.mem_of_find? found)).2.1
    exact absurd ahead (UInt32.not_le.2 behind)

theorem From.advance (h : chain.From P start) {next : ChainKey} {used : MessageKey}
    (advanced : chain.chainKey.advance P = .ok (next, used)) {skipped : SkippedKeys}
    (kept : ∀ entry ∈ skipped.entries,
      entry ∈ chain.skipped.entries ∨ entry = (chain.index, used)) :
    From P start { chain with chainKey := next, skipped := skipped } ∧
      used = start.keyFor P chain.index := by
  obtain ⟨-, rfl, rfl⟩ := ChainKey.advance_parts advanced
  have step := (ChainKey.advance_eq_ok advanced).1
  have reached := UInt32.le_iff_toNat_le.1 h.reached
  have used : chain.chainKey.messageKey P = start.keyFor P chain.index := by
    rw [ChainKey.keyFor, ← h.key]
  refine ⟨⟨?_, ?_, fun entry member => ?_⟩, used⟩
  · rw [UInt32.le_iff_toNat_le]
    simp only [index] at reached ⊢
    omega
  · have further : (chain.chainKey.next P).index.toNat - start.index.toNat =
        chain.index.toNat - start.index.toNat + 1 := by
      simp only [index] at reached ⊢
      omega
    simp only [index] at further ⊢
    rw [further, ChainKey.ahead]
    exact congrArg (ChainKey.next P) h.key
  · have passed : chain.index < (chain.chainKey.next P).index :=
      UInt32.lt_iff_toNat_lt.2 (by simp only [index]; omega)
    rcases kept entry member with old | rfl
    · obtain ⟨low, high, own⟩ := h.kept entry old
      exact ⟨low, UInt32.lt_trans high passed, own⟩
    · exact ⟨h.reached, passed, used⟩

theorem From.file (h : chain.From P start) {next : ChainKey} {used : MessageKey}
    (advanced : chain.chainKey.advance P = .ok (next, used)) :
    From P start { chain with chainKey := next, skipped := chain.file limits used } := by
  have inserted : ∀ entry ∈ (chain.skipped.insert used.index used).entries,
      entry ∈ chain.skipped.entries ∨ entry = (chain.index, used) := by
    intro entry member
    rcases SkippedKeys.mem_insertEntry member with rfl | old
    · rw [(ChainKey.advance_eq_ok advanced).2]
      exact .inr rfl
    · exact .inl old
  refine (h.advance advanced fun entry member => ?_).1
  unfold ReceivingChain.file at member
  dsimp only at member
  split at member
  · exact inserted entry (List.mem_of_mem_tail member)
  · exact inserted entry member

theorem from_stepwise : Stepwise P limits (StaysFrom P start) where
  refl _ := id
  trans first second h := second (first h)
  file advanced h := h.file advanced
  take advanced h := (h.advance advanced fun _ => .inl).1
  erase _ _ h :=
    ⟨h.reached, h.key, fun entry member => h.kept entry (List.mem_of_mem_filter member)⟩

theorem From.of_messageKey (h : chain.From P start) {counter : UInt32} {key : MessageKey}
    (given : chain.messageKey P limits counter = .ok key chain') :
    start.index ≤ counter ∧ counter < lastIndex ∧ key = start.keyFor P counter := by
  have answered := messageKey_answered P limits chain counter
  rw [given] at answered
  cases answered with
  | kept behind found =>
    obtain ⟨low, -, own⟩ := h.kept _ (SkippedKeys.mem_of_find? found)
    exact ⟨low, ChainKey.lt_lastIndex_of_lt behind, own⟩
  | @next mid _ _ short skipped there =>
    have arrived : mid.From P start := (from_stepwise.skipTo counter).ok skipped h
    subst there
    have advanced := ChainKey.advance_of_ne (P := P) (ChainKey.lt_lastIndex.1 short)
    exact ⟨arrived.reached, short, (arrived.advance advanced fun _ => .inl).2⟩

end ReceivingChain

theorem SendingChain.keyAfter_eq_keyFor (sender : SendingChain) {counter : UInt32}
    (low : sender.index ≤ counter) (high : counter < lastIndex) :
    sender.keyAfter P (counter - sender.index).toNat = .ok (sender.chainKey.keyFor P counter) := by
  have le := UInt32.le_iff_toNat_le.1 low
  have lt := UInt32.lt_iff_toNat_lt.1 high
  have steps := UInt32.toNat_sub_of_le counter sender.index low
  rw [steps, keyAfter_of_lt (by omega)]
  rfl

/-- What a receiving chain may be asked for. -/
inductive Demand where
  | key (counter : UInt32)
  | skip (target : UInt32)

/-- A receiving chain in use, and the keys that it has given, the oldest first. -/
structure Dispenser where
  chain : ReceivingChain
  given : List (UInt32 × MessageKey)

namespace Dispenser

def new (remoteKey localKey : PublicKey) (start : ChainKey) : Dispenser :=
  ⟨.new remoteKey localKey start, []⟩

def counters (d : Dispenser) : List UInt32 := d.given.map (·.1)

/-- What a demand has left of the chain stays, also when the demand has failed. -/
def meet (P : Suite) (d : Dispenser) : Limits × Demand → Dispenser
  | (limits, .key counter) =>
    match d.chain.messageKey P limits counter with
    | .ok key chain => ⟨chain, d.given ++ [(counter, key)]⟩
    | .error _ chain => ⟨chain, d.given⟩
  | (limits, .skip target) => ⟨endState (d.chain.skipTo P limits target), d.given⟩

def serve (P : Suite) (d : Dispenser) (demands : List (Limits × Demand)) : Dispenser :=
  demands.foldl (meet P) d

theorem serve_append (d : Dispenser) (earlier later : List (Limits × Demand)) :
    d.serve P (earlier ++ later) = (d.serve P earlier).serve P later :=
  List.foldl_append ..

theorem serve_concat (d : Dispenser) (demands : List (Limits × Demand)) (last : Limits × Demand) :
    d.serve P (demands ++ [last]) = (d.serve P demands).meet P last := by
  rw [serve_append]
  rfl

theorem meet_chain {R : ReceivingChain → ReceivingChain → Prop}
    (steps : ReceivingChain.Stepwise P limits R) (d : Dispenser) (demand : Demand) :
    R d.chain (d.meet P (limits, demand)).chain := by
  cases demand with
  | key counter =>
    have kept := steps.messageKey counter d.chain
    unfold meet
    dsimp only
    cases answer : d.chain.messageKey P limits counter with
    | ok key chain =>
      rw [answer] at kept
      exact kept
    | error error chain =>
      rw [answer] at kept
      exact kept
  | skip target => exact steps.skipTo target d.chain

theorem meet_given (d : Dispenser) (demand : Limits × Demand) :
    (d.meet P demand).given = d.given ∨
      ∃ limits counter key chain, d.chain.messageKey P limits counter = .ok key chain ∧
        d.meet P demand = ⟨chain, d.given ++ [(counter, key)]⟩ := by
  obtain ⟨limits, counter | target⟩ := demand
  · unfold meet
    dsimp only
    cases answer : d.chain.messageKey P limits counter with
    | ok key chain => exact .inr ⟨limits, counter, key, chain, answer, rfl⟩
    | error error chain => exact .inl rfl
  · exact .inl rfl

theorem meet_later (d : Dispenser) (demand : Limits × Demand) :
    d.chain.Later (d.meet P demand).chain :=
  meet_chain ReceivingChain.later_stepwise d demand.2

theorem serve_later (d : Dispenser) (demands : List (Limits × Demand)) :
    d.chain.Later (d.serve P demands).chain := by
  induction demands generalizing d with
  | nil => exact .refl _
  | cons demand rest ih => exact (d.meet_later demand).trans (ih _)

/-- The chain has given sender's keys only, each once, and has used them up. -/
structure Fair (P : Suite) (start : ChainKey) (d : Dispenser) : Prop where
  chain : d.chain.From P start
  spent : ∀ counter ∈ d.counters, d.chain.Spent counter
  own : ∀ given ∈ d.given, start.index ≤ given.1 ∧ given.1 < lastIndex ∧
    given.2 = start.keyFor P given.1
  once : d.counters.Nodup

variable {start : ChainKey} {d : Dispenser}

theorem new_fair (remoteKey localKey : PublicKey) (start : ChainKey) :
    (new remoteKey localKey start).Fair P start :=
  ⟨ReceivingChain.new_from remoteKey localKey start, nofun, nofun, .nil⟩

theorem Fair.meet (h : d.Fair P start) (demand : Limits × Demand) :
    (d.meet P demand).Fair P start := by
  have chain : (d.meet P demand).chain.From P start :=
    meet_chain ReceivingChain.from_stepwise d demand.2 h.chain
  have later := d.meet_later (P := P) demand
  rcases d.meet_given (P := P) demand with same | ⟨limits, counter, key, after, given, is⟩
  · have counters : (d.meet P demand).counters = d.counters := congrArg (List.map _) same
    refine ⟨chain, fun other used => ?_, same ▸ h.own, counters ▸ h.once⟩
    exact later.spent (h.spent other (counters ▸ used))
  · rw [is] at chain later ⊢
    have counters : Dispenser.counters ⟨after, d.given ++ [(counter, key)]⟩ =
        d.counters ++ [counter] := List.map_append
    -- a counter given before is used up, and would have been refused
    have unused : counter ∉ d.counters := by
      intro used
      rw [ReceivingChain.messageKey_of_spent (h.spent counter used)] at given
      cases given
    refine ⟨chain, fun other used => ?_, fun item member => ?_, ?_⟩
    · rcases List.mem_append.1 (counters ▸ used) with before | now
      · exact later.spent (h.spent other before)
      · rw [List.mem_singleton.1 now]
        exact ReceivingChain.spent_of_messageKey h.chain.tidy given
    · rcases List.mem_append.1 member with before | now
      · exact h.own item before
      · rw [List.mem_singleton.1 now]
        exact h.chain.of_messageKey given
    · rw [counters, List.nodup_append]
      refine ⟨h.once, List.nodup_singleton _, fun other before now is => ?_⟩
      rw [List.mem_singleton.1 is]
      exact fun same => unused (same ▸ before)

theorem Fair.serve (h : d.Fair P start) (demands : List (Limits × Demand)) :
    (d.serve P demands).Fair P start := by
  induction demands generalizing d with
  | nil => exact h
  | cons demand rest ih => exact ih (h.meet demand)

/-- A new receiving chain gives the keys that the sender gives who begins with the same chain key, and
no key twice, whatever it is asked for, under limits of any kind that may change all the time, and
also after failures. It never goes back; and what it keeps are the sender's keys for positions that
it has passed and not given. -/
theorem gives_sender_keys (remoteKey localKey : PublicKey) (pair : KeyPair) (theirKey : PublicKey)
    (start : ChainKey) (demands : List (Limits × Demand)) :
    let sender : SendingChain := ⟨pair, theirKey, start⟩
    let first := new remoteKey localKey start
    let d := first.serve P demands
    (∀ counter key, (counter, key) ∈ d.given → start.index ≤ counter ∧
      sender.keyAfter P (counter - start.index).toNat = .ok key) ∧
    d.counters.Nodup ∧
    (∀ earlier later, demands = earlier ++ later →
      (first.serve P earlier).chain.index ≤ d.chain.index) ∧
    ∀ counter key, (counter, key) ∈ d.chain.skipped.entries →
      start.index ≤ counter ∧ counter < d.chain.index ∧
      sender.keyAfter P (counter - start.index).toNat = .ok key ∧ counter ∉ d.counters := by
  intro sender first d
  have fair : d.Fair P start := (new_fair remoteKey localKey start).serve demands
  have gives : ∀ counter, start.index ≤ counter → counter < lastIndex →
      sender.keyAfter P (counter - start.index).toNat = .ok (start.keyFor P counter) :=
    fun _ => sender.keyAfter_eq_keyFor
  refine ⟨fun counter key member => ?_, fair.once, fun earlier later split => ?_,
    fun counter key member => ?_⟩
  · obtain ⟨low, high, rfl⟩ : start.index ≤ counter ∧ counter < lastIndex ∧
      key = start.keyFor P counter := fair.own _ member
    exact ⟨low, gives counter low high⟩
  · have goes := (first.serve P earlier).serve_later (P := P) later
    rw [← serve_append, ← split] at goes
    exact goes.index
  · obtain ⟨low, high, rfl⟩ : start.index ≤ counter ∧ counter < d.chain.index ∧
      key = start.keyFor P counter := fair.chain.kept _ member
    refine ⟨low, high, gives counter low (ChainKey.lt_lastIndex_of_lt high), fun used => ?_⟩
    exact SkippedKeys.find?_ne_none member (fair.spent counter used).gone

/-- The key of the third message is given first, then those before it, and none of them again. -/
example :
    let first := new ⟨.replicate 32 1⟩ ⟨.replicate 32 2⟩ ⟨.replicate 32 3, 0⟩
    let d := first.serve Suite.plain
      [({}, .key 2), ({}, .key 0), ({}, .key 2), ({}, .key 1), ({}, .key 0)]
    d.counters = [2, 0, 1] ∧ d.chain.index = 3 := by
  decide +kernel

end Dispenser

end RatchetSession
