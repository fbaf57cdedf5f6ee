import Mathlib.Data.List.Forall2
import Mathlib.Data.List.Sort
import RatchetSession.Proofs.Session.Eviction
import RatchetSession.Proofs.Session.Live
import RatchetSession.Proofs.Session.Reached
set_option autoImplicit false

namespace RatchetSession

variable {P : Suite} {limits : Limits}

namespace SkippedKeys

variable {a b keys : SkippedKeys} {counter other : UInt32} {key : MessageKey}

theorem counters_nodup (keys : SkippedKeys) : keys.counters.Nodup :=
  List.pairwise_map.2 (keys.ascending.imp UInt32.ne_of_lt)

theorem find?_of_mem (member : (counter, key) ∈ keys.entries) : keys.find? counter = some key := by
  cases found : keys.find? counter with
  | none => exact absurd found (find?_ne_none member)
  | some held =>
    have same := List.inj_on_of_nodup_map keys.counters_nodup (mem_of_find? found) member rfl
    exact congrArg some (congrArg Prod.snd same)

theorem eq_of_find? (same : ∀ counter, a.find? counter = b.find? counter) : a = b := by
  refine ext (List.Perm.eq_of_pairwise (fun x y _ _ lt gt => ?_) a.ascending b.ascending ?_)
  · exact absurd gt (UInt32.lt_asymm lt)
  · refine (List.perm_ext_iff_of_nodup a.counters_nodup.of_map b.counters_nodup.of_map).2 ?_
    rintro ⟨counter, key⟩
    exact ⟨fun member => mem_of_find? (same counter ▸ find?_of_mem member),
      fun member => mem_of_find? (same counter ▸ find?_of_mem member)⟩

theorem mem_counters_iff : counter ∈ keys.counters ↔ ∃ key, keys.find? counter = some key := by
  rw [← contains_iff, contains, Option.isSome_iff_exists]

theorem mem_counters_erase :
    other ∈ (keys.erase counter).counters ↔ other ≠ counter ∧ other ∈ keys.counters := by
  simp only [mem_counters_iff, find?_erase]
  by_cases same : other = counter <;> simp [same]

theorem mem_counters_insert (member : other ∈ (keys.insert counter key).counters) :
    other = counter ∨ other ∈ keys.counters := by
  simp only [mem_counters_iff, find?_insert] at member ⊢
  by_cases same : other = counter
  · exact .inl same
  · exact .inr (by simpa [same] using member)

end SkippedKeys

namespace ReceivingChain

variable {start : ChainKey} {base chain chain' : ReceivingChain} {used used' : List UInt32}
  {counter : UInt32}

/-- The chain has moved on, and the keys that it keeps besides are for positions that it has
passed. -/
structure Passes (chain chain' : ReceivingChain) : Prop where
  index : chain.index ≤ chain'.index
  kept : ∀ counter ∈ chain'.skipped.counters, counter ∈ chain.skipped.counters ∨
    (chain.index ≤ counter ∧ counter < chain'.index)

theorem passes_of_advance {next : ChainKey} {used : MessageKey}
    (advanced : chain.chainKey.advance P = .ok (next, used)) {skipped : SkippedKeys}
    (kept : ∀ counter ∈ skipped.counters, counter = chain.index ∨
      counter ∈ chain.skipped.counters) :
    chain.Passes { chain with chainKey := next, skipped := skipped } := by
  have ahead := lt_index_of_advance advanced
  refine ⟨UInt32.le_of_lt ahead, fun counter member => ?_⟩
  rcases kept counter member with rfl | old
  · exact .inr ⟨UInt32.le_refl _, ahead⟩
  · exact .inl old

theorem passes_stepwise : Stepwise P limits Passes where
  refl chain := ⟨UInt32.le_refl _, fun _ => .inl⟩
  trans first second := by
    refine ⟨UInt32.le_trans first.index second.index, fun counter member => ?_⟩
    rcases second.kept counter member with before | ⟨low, high⟩
    · refine (first.kept counter before).imp_right fun ⟨low, high⟩ => ⟨low, ?_⟩
      exact UInt32.lt_of_lt_of_le high second.index
    · exact .inr ⟨UInt32.le_trans first.index low, high⟩
  file {chain next used} advanced := by
    refine passes_of_advance advanced fun counter member => ?_
    have own : used.index = chain.index := (ChainKey.advance_eq_ok advanced).2
    rw [← own]
    have filed : counter ∈ (chain.skipped.insert used.index used).counters := by
      unfold ReceivingChain.file at member
      dsimp only at member
      split at member
      · obtain ⟨entry, held, rfl⟩ := List.mem_map.1 member
        exact List.mem_map_of_mem (List.mem_of_mem_tail held)
      · exact member
    exact SkippedKeys.mem_counters_insert filed
  take advanced := passes_of_advance advanced fun _ => .inr
  erase chain counter :=
    ⟨UInt32.le_refl _, fun _ member => .inl (SkippedKeys.mem_counters_erase.1 member).2⟩

/-- The chain has given the keys of some positions since, got as far as it had to, and lost none of
those that it did not give. -/
structure Took (P : Suite) (start : ChainKey) (base : ReceivingChain) (used : List UInt32)
    (chain : ReceivingChain) : Prop where
  ends : base.SameEnds chain
  began : chain.From P start
  low : base.index ≤ chain.index
  past : ∀ counter ∈ used, counter < chain.index
  reached : chain.index = base.index ∨
    ∃ counter ∈ used, chain.index.toNat = counter.toNat + 1
  kept : ∀ counter, counter ∈ chain.skipped.counters ↔ counter ∉ used ∧
    (counter ∈ base.skipped.counters ∨ (base.index ≤ counter ∧ counter < chain.index))

theorem From.lt_index (h : chain.From P start) (member : counter ∈ chain.skipped.counters) :
    counter < chain.index := by
  obtain ⟨entry, held, rfl⟩ := List.mem_map.1 member
  exact (h.kept entry held).2.1

theorem Took.refl (h : base.From P start) : Took P start base [] base where
  ends := .refl base
  began := h
  low := UInt32.le_refl _
  past _ member := nomatch member
  reached := .inl rfl
  kept counter := by
    refine ⟨fun member => ⟨List.not_mem_nil, .inl member⟩, fun ⟨_, held⟩ => ?_⟩
    exact held.resolve_right fun ⟨low, high⟩ => UInt32.not_le.2 high low

theorem Took.index_le (h : Took P start base used chain) (h' : Took P start base used' chain')
    (same : ∀ counter, counter ∈ used ↔ counter ∈ used') : chain.index ≤ chain'.index := by
  rcases h.reached with is | ⟨counter, member, is⟩
  · rw [is]
    exact h'.low
  · have past := UInt32.lt_iff_toNat_lt.1 (h'.past counter ((same counter).1 member))
    exact UInt32.le_iff_toNat_le.2 (by omega)

/-- Which positions were given decides what the chain is, and their order does not. -/
theorem Took.eq_of_mem_iff (h : Took P start base used chain) (h' : Took P start base used' chain')
    (same : ∀ counter, counter ∈ used ↔ counter ∈ used') : chain = chain' := by
  have index : chain.index = chain'.index :=
    UInt32.le_antisymm (h.index_le h' same) (h'.index_le h fun counter => (same counter).symm)
  have keys : ∀ {chain : ReceivingChain}, chain.From P start → ∀ counter,
      chain.skipped.find? counter =
        if counter ∈ chain.skipped.counters then some (start.keyFor P counter) else none := by
    intro chain began counter
    cases found : chain.skipped.find? counter with
    | none => simp [SkippedKeys.mem_counters_iff, found]
    | some key =>
      rw [if_pos (SkippedKeys.mem_counters_iff.2 ⟨key, found⟩)]
      exact congrArg some (began.kept _ (SkippedKeys.mem_of_find? found)).2.2
  have skipped : chain.skipped = chain'.skipped := by
    refine SkippedKeys.eq_of_find? fun counter => ?_
    have member : counter ∈ chain.skipped.counters ↔ counter ∈ chain'.skipped.counters := by
      rw [h.kept, h'.kept, same, index]
    rw [keys h.began, keys h'.began]
    simp only [member]
  have chainKey : chain.chainKey = chain'.chainKey := by
    rw [h.began.key, h'.began.key, index]
  have remote := h.ends.remoteKey.trans h'.ends.remoteKey.symm
  have own := h.ends.localKey.trans h'.ends.localKey.symm
  cases chain
  cases chain'
  simp only at remote own chainKey skipped
  subst remote own chainKey skipped
  rfl

/-- A request has cost the chain no key but the one that was asked for. -/
def LosesNone (chain : ReceivingChain) (counter : UInt32) (chain' : ReceivingChain) : Prop :=
  ∀ other, other ≠ counter →
    (other ∈ chain.skipped.counters ∨ (chain.index ≤ other ∧ other < counter)) →
    other ∈ chain'.skipped.counters

theorem Took.append_behind (h : Took P start base used chain) (behind : counter < chain.index)
    (began : From P start { chain with skipped := chain.skipped.erase counter }) :
    Took P start base (used ++ [counter])
      { chain with skipped := chain.skipped.erase counter } where
  ends := ⟨h.ends.remoteKey, h.ends.localKey⟩
  began := began
  low := h.low
  past other member := by
    rcases List.mem_append.1 member with before | now
    · exact h.past other before
    · rw [List.mem_singleton.1 now]
      exact behind
  reached := h.reached.imp_right fun ⟨other, member, is⟩ =>
    ⟨other, List.mem_append_left _ member, is⟩
  kept other := by
    simp only [SkippedKeys.mem_counters_erase, h.kept, List.mem_append, List.mem_singleton, not_or]
    tauto

theorem Took.append_ahead (h : Took P start base used chain) (ahead : chain.index ≤ counter)
    (ends : base.SameEnds chain') (began : chain'.From P start)
    (step : chain'.index.toNat = counter.toNat + 1) (none : chain.LosesNone counter chain')
    (kept : ∀ other ∈ chain'.skipped.counters, other ∈ chain.skipped.counters ∨
      (chain.index ≤ other ∧ other < counter)) :
    Took P start base (used ++ [counter]) chain' := by
  have reaches : ∀ other : UInt32, other < chain'.index ↔ other ≤ counter := by
    intro other
    rw [UInt32.lt_iff_toNat_lt, UInt32.le_iff_toNat_le]
    omega
  have onward : base.index ≤ chain'.index :=
    UInt32.le_trans h.low (UInt32.le_of_lt ((reaches _).2 ahead))
  refine ⟨ends, began, onward, fun other member => ?_, .inr ⟨counter, by simp, step⟩,
    fun other => ?_⟩
  · refine (reaches other).2 ?_
    rcases List.mem_append.1 member with before | now
    · exact UInt32.le_trans (UInt32.le_of_lt (h.past other before)) ahead
    · rw [List.mem_singleton.1 now]
      exact UInt32.le_refl _
  · have unused : other ∉ used ++ [counter] ↔ other ∉ used ∧ other ≠ counter := by simp
    rw [unused]
    constructor
    · intro member
      rcases kept other member with before | ⟨low, high⟩
      · obtain ⟨ungiven, held⟩ := (h.kept other).1 before
        have behind := UInt32.lt_of_lt_of_le (h.began.lt_index before) ahead
        exact ⟨⟨ungiven, UInt32.ne_of_lt behind⟩, held.imp_right fun ⟨low, _⟩ =>
          ⟨low, (reaches other).2 (UInt32.le_of_lt behind)⟩⟩
      · exact ⟨⟨fun given => UInt32.not_le.2 (h.past other given) low, UInt32.ne_of_lt high⟩,
          .inr ⟨UInt32.le_trans h.low low, (reaches other).2 (UInt32.le_of_lt high)⟩⟩
    · rintro ⟨⟨ungiven, differ⟩, held⟩
      refine none other differ ?_
      rcases held with before | ⟨low, high⟩
      · exact .inl ((h.kept other).2 ⟨ungiven, .inl before⟩)
      · by_cases passed : other < chain.index
        · exact .inl ((h.kept other).2 ⟨ungiven, .inr ⟨low, passed⟩⟩)
        · exact .inr ⟨UInt32.not_lt.1 passed,
            UInt32.lt_of_le_of_ne ((reaches other).1 high) differ⟩

theorem Took.append (h : Took P start base used chain) {key : MessageKey}
    (given : chain.messageKey P limits counter = .ok key chain')
    (none : chain.LosesNone counter chain') : Took P start base (used ++ [counter]) chain' := by
  have ends := h.ends.trans ((messageKey_ends counter).ok given)
  have began := (from_stepwise.messageKey counter).ok given h.began
  have answered := messageKey_answered P limits chain counter
  rw [given] at answered
  cases answered with
  | kept behind => exact h.append_behind behind began
  | @next mid ahead _ short skipped there =>
    have room : mid.chainKey.index ≠ lastIndex :=
      fun last => UInt32.ne_of_lt short (there.symm.trans last)
    have step : (mid.chainKey.next P).index.toNat = counter.toNat + 1 :=
      (ChainKey.next_index room).trans (congrArg (·.toNat + 1) there)
    have passes := (passes_stepwise.skipTo counter).ok skipped
    exact h.append_ahead ahead ends began step none fun other member => there ▸ passes.kept other member

theorem losesNone_of_few (h : chain.WellFormed limits) {key : MessageKey}
    (given : chain.messageKey P limits counter = .ok key chain')
    (few : chain'.skipped.size < limits.maxMessageKeys) : chain.LosesNone counter chain' := by
  intro other differ was
  have answered := messageKey_answered P limits chain counter
  rw [given] at answered
  cases answered with
  | kept behind =>
    refine SkippedKeys.mem_counters_erase.2 ⟨differ, was.resolve_right fun ⟨low, high⟩ => ?_⟩
    exact UInt32.not_le.2 (UInt32.lt_trans high behind) low
  | @next mid _ _ _ skipped there =>
    rw [← there] at was
    by_contra lost
    have full := fullAbove_of_lost h skipped (was.imp_left SkippedKeys.contains_iff.2)
      (Bool.eq_false_iff.2 fun held => lost (SkippedKeys.contains_iff.1 held))
    exact Nat.ne_of_lt few full.1

end ReceivingChain

def countersFor (key : PublicKey) (messages : List RatchetMessage) : List UInt32 :=
  (messages.filter (·.ratchetKey = key)).map (·.counter)

theorem countersFor_concat (key : PublicKey) (messages : List RatchetMessage)
    (last : RatchetMessage) : countersFor key (messages ++ [last]) =
      countersFor key messages ++ if last.ratchetKey = key then [last.counter] else [] := by
  by_cases same : last.ratchetKey = key <;> simp [countersFor, same]

/-- Each chain has given the keys of the messages under its ratchet key. -/
def Brought (P : Suite) (start : ReceivingChain → ChainKey) (base : List ReceivingChain)
    (messages : List RatchetMessage) (chains : List ReceivingChain) : Prop :=
  List.Forall₂ (fun b c => b.Took P (start b) (countersFor b.remoteKey messages) c) base chains

namespace Brought

variable {start : ReceivingChain → ChainKey} {base chains chains' : List ReceivingChain}
  {messages messages' : List RatchetMessage} {key : PublicKey}

theorem refl (began : ∀ chain ∈ base, chain.From P (start chain)) :
    Brought P start base [] base := by
  induction base with
  | nil => exact .nil
  | cons b rest ih =>
    exact .cons (.refl (began b List.mem_cons_self))
      (ih fun chain member => began chain (List.mem_cons_of_mem b member))

theorem eq_of_perm (h : Brought P start base messages chains)
    (h' : Brought P start base messages' chains') (perm : messages.Perm messages') :
    chains = chains' := by
  unfold Brought at h h'
  induction h generalizing chains' with
  | nil =>
    cases h'
    rfl
  | cons took _ ih =>
    cases h' with
    | cons took' rest' =>
      refine congrArg₂ List.cons (took.eq_of_mem_iff took' fun counter => ?_) (ih rest')
      exact ((perm.filter _).map _).mem_iff

theorem find? (h : Brought P start base messages chains) {b : ReceivingChain}
    (held : base.find? (·.remoteKey == key) = some b) :
    ∃ c, chains.find? (·.remoteKey == key) = some c ∧
      b.Took P (start b) (countersFor b.remoteKey messages) c := by
  unfold Brought at h
  induction h with
  | nil => cases held
  | cons took _ ih =>
    rw [List.find?_cons] at held ⊢
    rw [took.ends.remoteKey]
    split at held
    · cases held
      exact ⟨_, rfl, took⟩
    · exact ih held

theorem append_of_notMem (h : Brought P start base messages chains) {message : RatchetMessage}
    (away : message.ratchetKey ∉ base.map (·.remoteKey)) :
    Brought P start base (messages ++ [message]) chains := by
  unfold Brought at h ⊢
  induction h with
  | nil => exact .nil
  | cons took _ ih =>
    rw [List.map_cons, List.mem_cons, not_or] at away
    refine .cons ?_ (ih away.2)
    rw [countersFor_concat, if_neg away.1, List.append_nil]
    exact took

theorem append_of_find? (h : Brought P start base messages chains)
    (apart : (base.map (·.remoteKey)).Nodup) {message : RatchetMessage}
    {chain after : ReceivingChain}
    (found : chains.find? (·.remoteKey == message.ratchetKey) = some chain)
    (step : ∀ (b : ReceivingChain) (used : List UInt32), b.Took P (start b) used chain →
      b.Took P (start b) (used ++ [message.counter]) after) :
    Brought P start base (messages ++ [message])
      (Session.replaceChain message.ratchetKey after chains) := by
  unfold Brought at h ⊢
  induction h with
  | nil => exact .nil
  | @cons b c bs cs took rest ih =>
    rw [List.map_cons, List.nodup_cons] at apart
    rw [List.find?_cons, took.ends.remoteKey] at found
    rw [Session.replaceChain, took.ends.remoteKey]
    by_cases here : b.remoteKey = message.ratchetKey
    · rw [if_pos here]
      simp only [beq_iff_eq.2 here] at found
      cases found
      refine .cons ?_ (append_of_notMem rest (here ▸ apart.1))
      rw [countersFor_concat, if_pos here.symm]
      exact step b _ took
    · rw [if_neg here]
      simp only [beq_eq_false_iff_ne.2 here] at found
      refine .cons ?_ (ih apart.2 found)
      rw [countersFor_concat, if_neg fun same => here same.symm, List.append_nil]
      exact took

end Brought

namespace Session

variable {s s' : Session P} {start : ReceivingChain → ChainKey} {used : List RatchetMessage}
  {chains : List ReceivingChain} {message : RatchetMessage} {plaintext : Bytes}

def withChains (s : Session P) (chains : List ReceivingChain) : Session P :=
  { s with receiving := chains }

theorem encrypt_withChains (s : Session P) (chains : List ReceivingChain) (plaintext : Bytes) :
    (s.withChains chains).encrypt plaintext =
      (s.encrypt plaintext).map fun (message, next) => (message, next.withChains chains) := by
  simp only [encrypt, withChains]
  split
  · rfl
  · split <;> rfl

/-- What a message says under the key that its sender has for it. -/
def reads (start : ReceivingChain → ChainKey) (s : Session P) (message : RatchetMessage) :
    Except SessionError Bytes :=
  match s.chain? message.ratchetKey, s.opening message with
  | some chain, some bound =>
    (((start chain).keyFor P message.counter).decrypt P bound.toBytes message.ciphertext).mapError
      .ofCrypto
  | _, _ => .error .noValidSession

def LosesNone (message : RatchetMessage) (s s' : Session P) : Prop :=
  ∀ chain chain', s.chain? message.ratchetKey = some chain →
    s'.chain? message.ratchetKey = some chain' → chain.LosesNone message.counter chain'

variable {E : Type} [Randomness E] {source source' : E}

theorem decrypt_known {chain : ReceivingChain} (known : s.chain? message.ratchetKey = some chain)
    (h : s.decrypt limits message source = .ok (plaintext, s') source') :
    source' = source ∧ ∃ key after bound,
      chain.messageKey P limits message.counter = .ok key after ∧
      s.opening message = some bound ∧
      key.decrypt P bound.toBytes message.ciphertext = .ok plaintext ∧
      s' = { s.setChain message.ratchetKey after with pending := none } ∧
      s'.chain? message.ratchetKey = some after := by
  obtain ⟨ready, followed, received⟩ := decrypt_parts h
  rcases follow_eq_ok followed with ⟨-, rfl, same⟩ | ⟨unknown, -⟩
  · obtain ⟨there, key, after, found, taken, rfl, looked⟩ := receive_chain received
    cases known.symm.trans found
    simp only [receive, known, taken] at received
    split at received
    · cases received
    · rename_i opened
      cases received
      refine ⟨same, key, after, _, taken, ?_, opened, rfl, looked⟩
      simp only [opening, known]
      rfl
  · rw [known] at unknown
    cases unknown

theorem decrypt_brought (brought : Brought P start s.receiving used chains)
    (apart : (s.receiving.map (·.remoteKey)).Nodup) (answered : s.pending = none)
    (held : (s.chain? message.ratchetKey).isSome = true)
    (opened : (s.withChains chains).decrypt limits message source = .ok (plaintext, s') source')
    (none : (s.withChains chains).LosesNone message s') :
    source' = source ∧ s.reads start message = .ok plaintext ∧
      ∃ chains', s' = s.withChains chains' ∧
        Brought P start s.receiving (used ++ [message]) chains' := by
  obtain ⟨b, inBase⟩ := Option.isSome_iff_exists.1 held
  obtain ⟨chain, found, took⟩ := brought.find? inBase
  have known : (s.withChains chains).chain? message.ratchetKey = some chain := found
  obtain ⟨same, key, after, bound, given, binds, decrypted, rfl, looked⟩ :=
    decrypt_known known opened
  have loses := none chain after known looked
  refine ⟨same, ?_, replaceChain message.ratchetKey after chains, ?_,
    brought.append_of_find? apart found fun b used took => took.append given loses⟩
  · obtain ⟨-, -, rfl⟩ := took.began.of_messageKey given
    have binding : s.opening message = some bound := by
      rw [← binds, opening, opening, known, inBase, Option.map_some, Option.map_some,
        took.ends.localKey]
      rfl
    simp only [reads, inBase, binding, decrypted]
    rfl
  · simp only [setChain, withChains, answered]

end Session

namespace Live.Act

def said? : Act → Option Bytes
  | send plaintext => some plaintext
  | hear _ _ => none

def heard? : Act → Option RatchetMessage
  | send _ => none
  | hear _ message => some message

def said (acts : List Act) : List Bytes := acts.filterMap said?

def heard (acts : List Act) : List RatchetMessage := acts.filterMap heard?

theorem eq_send_of_heard {acts : List Act} (none : heard acts = []) :
    acts = (said acts).map send := by
  induction acts with
  | nil => rfl
  | cons act rest ih =>
    cases act with
    | send plaintext => exact congrArg (send plaintext :: ·) (ih none)
    | hear limits message => cases none

end Live.Act

namespace Live

open RatchetSession.Computation (answer endState)

variable {E : Type} [Randomness E] {live : Live P E} {plaintext : Bytes}

/-- What the encryptions of a run answer. -/
def sealed (live : Live P E) : List Act → List (Except SessionError Message)
  | [] => []
  | .send plaintext :: rest =>
    answer (encrypt plaintext live) :: (live.after (.send plaintext)).sealed rest
  | .hear limits message :: rest => (live.after (.hear limits message)).sealed rest

/-- The messages of a run, and what their decryptions answer. -/
def opened (live : Live P E) : List Act → List (RatchetMessage × Except SessionError Bytes)
  | [] => []
  | .send plaintext :: rest => (live.after (.send plaintext)).opened rest
  | .hear limits message :: rest =>
    (message, answer (decrypt limits message live)) ::
      (live.after (.hear limits message)).opened rest

/-- All messages of the run are accepted, and none costs the session a key but its own. -/
def Smooth (live : Live P E) : List Act → Prop
  | [] => True
  | .send plaintext :: rest => (live.after (.send plaintext)).Smooth rest
  | .hear limits message :: rest =>
    (∃ plaintext live', decrypt limits message live = .ok plaintext live' ∧
      live.session.LosesNone message live'.session) ∧
    (live.after (.hear limits message)).Smooth rest

def withChains (live : Live P E) (chains : List ReceivingChain) : Live P E :=
  ⟨live.session.withChains chains, live.source⟩

theorem after_send (live : Live P E) (plaintext : Bytes) :
    ∃ sending, live.after (.send plaintext) =
      ⟨{ live.session with sending := sending }, live.source⟩ := by
  cases sealed : live.session.encrypt plaintext with
  | error error =>
    simp only [after, encrypt, sealed]
    exact ⟨live.session.sending, rfl⟩
  | ok result =>
    obtain ⟨message, next⟩ := result
    obtain ⟨-, -, -, -, rfl⟩ := Session.encrypt_eq_ok sealed
    simp only [after, encrypt, sealed]
    exact ⟨_, rfl⟩

theorem send_withChains (live : Live P E) (chains : List ReceivingChain) (plaintext : Bytes) :
    answer (encrypt plaintext (live.withChains chains)) = answer (encrypt plaintext live) ∧
      (live.withChains chains).after (.send plaintext) =
        (live.after (.send plaintext)).withChains chains := by
  have alike := live.session.encrypt_withChains chains plaintext
  simp only [after, encrypt, withChains, alike]
  cases live.session.encrypt plaintext <;> exact ⟨rfl, rfl⟩

/-- A smooth run comes to what the encryptions alone come to, but for the receiving chains. -/
theorem run_withChains {start : ReceivingChain → ChainKey} {used : List RatchetMessage}
    {chains : List ReceivingChain} {acts : List Act}
    (brought : Brought P start live.session.receiving used chains)
    (apart : (live.session.receiving.map (·.remoteKey)).Nodup)
    (answered : live.session.pending = none)
    (held : ∀ m ∈ Act.heard acts, (live.session.chain? m.ratchetKey).isSome = true)
    (smooth : (live.withChains chains).Smooth acts) :
    let spoken := (Act.said acts).map .send
    ∃ chains', (live.withChains chains).run acts = (live.run spoken).withChains chains' ∧
      Brought P start live.session.receiving (used ++ Act.heard acts) chains' ∧
      (live.withChains chains).sealed acts = live.sealed spoken ∧
      (live.withChains chains).opened acts =
        (Act.heard acts).map fun m => (m, live.session.reads start m) := by
  induction acts generalizing live used chains with
  | nil => exact ⟨chains, rfl, by simpa [Act.heard] using brought, rfl, rfl⟩
  | cons act rest ih =>
    cases act with
    | send plaintext =>
      obtain ⟨sending, is⟩ := live.after_send plaintext
      obtain ⟨same, onward⟩ := live.send_withChains chains plaintext
      have later : ((live.after (.send plaintext)).withChains chains).Smooth rest := onward ▸ smooth
      rw [is] at later
      obtain ⟨chains', run, brought', seals, opens⟩ :=
        @ih ⟨{ live.session with sending := sending }, live.source⟩ used chains brought apart
          answered held later
      rw [← is] at run seals opens
      refine ⟨chains', ?_, brought', ?_, ?_⟩
      · exact (congrArg (·.run rest) onward).trans run
      · exact congrArg₂ List.cons same ((congrArg (·.sealed rest) onward).trans seals)
      · refine (congrArg (·.opened rest) onward).trans (opens.trans ?_)
        rw [is]
        rfl
    | hear limits message =>
      obtain ⟨⟨plaintext, live', ok, loses⟩, later⟩ := smooth
      obtain ⟨source, reads, chains', session, brought'⟩ := Session.decrypt_brought brought apart
        answered (held message List.mem_cons_self) (decrypt_eq_ok ok) loses
      have is : live' = live.withChains chains' := by
        cases live'
        cases session
        cases source
        rfl
      have onward : (live.withChains chains).after (.hear limits message) =
          live.withChains chains' := (congrArg endState ok).trans is
      rw [onward] at later
      obtain ⟨last, run, brought'', seals, opens⟩ := ih brought' apart answered
        (fun m member => held m (List.mem_cons_of_mem message member)) later
      rw [List.append_assoc] at brought''
      refine ⟨last, (congrArg (·.run rest) onward).trans run, brought'',
        (congrArg (·.sealed rest) onward).trans seals, ?_⟩
      refine congrArg₂ List.cons (Prod.ext rfl ?_) ((congrArg (·.opened rest) onward).trans opens)
      exact (congrArg answer ok).trans reads.symm

/-- The order in which messages are accepted makes no difference. From a session that came about by
handshake and messages, take two runs that encrypt the same in the same order, and in which the same
messages, on chains that the session holds, are accepted in any order, none costing a key but its
own. They end in the same state; what is sent is the same, and so is what each message is opened to. -/
theorem order_independent {start : Live P E} (reached : start.session.Reached E)
    (acts acts' : List Act) (said : Act.said acts = Act.said acts')
    (heard : (Act.heard acts).Perm (Act.heard acts'))
    (held : ∀ m ∈ Act.heard acts, (start.session.chain? m.ratchetKey).isSome = true)
    (smooth : start.Smooth acts) (smooth' : start.Smooth acts') :
    start.run acts = start.run acts' ∧ start.sealed acts = start.sealed acts' ∧
      (start.opened acts).Perm (start.opened acts') := by
  obtain ⟨apart, began, answers⟩ := reached.orderly
  by_cases some : Act.heard acts = []
  · have same : acts = acts' := by
      rw [Act.eq_send_of_heard some, said, ← Act.eq_send_of_heard]
      exact List.nil_perm.1 (some ▸ heard)
    rw [same]
    exact ⟨rfl, rfl, .refl _⟩
  · have chosen : ∃ first : ReceivingChain → ChainKey,
        ∀ chain ∈ start.session.receiving, chain.From P (first chain) := by
      have any : Nonempty ChainKey := ⟨start.session.sending.chainKey⟩
      choose! first from_first using began
      exact ⟨first, from_first⟩
    obtain ⟨first, from_first⟩ := chosen
    have answered : start.session.pending = none := by
      refine answers fun deaf => ?_
      obtain ⟨m, member⟩ := List.exists_mem_of_ne_nil _ some
      have none := held m member
      simp [Session.chain?, deaf] at none
    have brought := Brought.refl from_first
    have held' : ∀ m ∈ Act.heard acts', (start.session.chain? m.ratchetKey).isSome = true :=
      fun m member => held m (heard.mem_iff.2 member)
    obtain ⟨chains, run, after, seals, opens⟩ := run_withChains brought apart answered held smooth
    obtain ⟨chains', run', after', seals', opens'⟩ :=
      run_withChains brought apart answered held' smooth'
    have same : chains = chains' := after.eq_of_perm after' heard
    refine ⟨?_, ?_, ?_⟩
    · exact run.trans (by rw [same, said]; exact run'.symm)
    · exact seals.trans (by rw [said]; exact seals'.symm)
    · exact (opens ▸ opens' ▸ heard.map _ :)

/-- Whether a run accepts all its messages under these limits, and fills no chain. -/
def goesWell (limits : Limits) (live : Live P E) : List Act → Bool
  | [] => true
  | .send plaintext :: rest => (live.after (.send plaintext)).goesWell limits rest
  | .hear limits' message :: rest =>
    limits' = limits &&
      (match decrypt limits message live with
        | .ok _ next => (next.session.chain? message.ratchetKey).all
            (·.skipped.size < limits.maxMessageKeys)
        | .error _ _ => false) &&
      (live.after (.hear limits message)).goesWell limits rest

theorem smooth_of_goesWell {limits : Limits} (room : 0 < limits.maxReceiverChains)
    (formed : live.session.WellFormed limits) {acts : List Act}
    (well : live.goesWell limits acts = true) : live.Smooth acts := by
  induction acts generalizing live with
  | nil => trivial
  | cons act rest ih =>
    cases act with
    | send plaintext =>
      refine ih ?_ well
      rcases live.after_cases (.send plaintext) with same | ⟨_, _, -, sealed⟩ | ⟨_, _, _, is, -⟩
      · exact same ▸ formed
      · exact Session.encrypt_wellFormed formed sealed
      · cases is
    | hear limits' message =>
      unfold goesWell at well
      cases ended : decrypt limits message live with
      | error error next => simp [ended] at well
      | ok plaintext next =>
        simp only [ended, Bool.and_eq_true, decide_eq_true_eq] at well
        obtain ⟨⟨rfl, few⟩, later⟩ := well
        have run := decrypt_eq_ok ended
        have onward : live.after (.hear limits' message) = next := congrArg endState ended
        have formed' := Session.decrypt_wellFormed room formed run
        refine ⟨⟨plaintext, next, ended, fun chain chain' found found' => ?_⟩,
          ih (onward ▸ formed') later⟩
        obtain ⟨-, _, after, _, given, -, -, -, there⟩ := Session.decrypt_known found run
        obtain rfl : after = chain' := Option.some.inj (there.symm.trans found')
        rw [there, Option.all_some, decide_eq_true_eq] at few
        exact ReceivingChain.losesNone_of_few
          (formed.chains chain (List.mem_of_find?_eq_some found)) given few

def handshakeKey : SignedPreKey :=
  ⟨1, lineKey 1 2,
    Identity.sign Suite.plain ⟨Ticker.seed 32 2⟩ (lineKey 1 2).publicKey.bytes.toList⟩

def messages (s : Session Suite.plain) (plaintexts : List Bytes) : List RatchetMessage :=
  (sealed (⟨s, ⟨0⟩⟩ : Live Suite.plain Ticker) (plaintexts.map .send)).filterMap fun answered =>
    answered.toOption.map (·.inner)

/-- The session that an initial message makes, and three messages to it. -/
def introduction :
    Option (Session Suite.plain × RatchetMessage × RatchetMessage × RatchetMessage) :=
  match Handshake.outgoing (.ofKeys (Identity.key Suite.plain ⟨Ticker.seed 32 2⟩) handshakeKey none)
    ⟨Ticker.seed 32 1⟩ (⟨100⟩ : Ticker) with
  | .error _ _ => none
  | .ok s _ =>
    match s.encrypt [0], messages s [[1], [2], [3]] with
    | .ok (.initial m, _), [a, b, c] =>
      match Handshake.incoming m (Identity.key Suite.plain ⟨Ticker.seed 32 1⟩)
        ⟨Ticker.seed 32 2⟩ handshakeKey none (⟨200⟩ : Ticker) with
      | .ok t _ => some (t, a, b, c)
      | .error _ _ => none
    | _, _ => none

theorem introduction_reached {t : Session Suite.plain} {a b c : RatchetMessage}
    (h : introduction = some (t, a, b, c)) : t.Reached Ticker ∧ t.WellFormed {} := by
  unfold introduction at h
  split at h
  · cases h
  · split at h
    · split at h
      · rename_i made
        cases h
        exact ⟨.incoming made, Handshake.incoming_wellFormed (by decide) made⟩
      · cases h
    · cases h

def lastFirst (a b c : RatchetMessage) : List Act :=
  [.hear {} c, .send [7], .hear {} a, .hear {} b]

def replyFirst (a b c : RatchetMessage) : List Act :=
  [.send [7], .hear {} b, .hear {} a, .hear {} c]

set_option maxRecDepth 100000 in
theorem introduction_goesWell :
    (introduction.any fun (t, a, b, c) =>
      let live : Live Suite.plain Ticker := ⟨t, ⟨0⟩⟩
      live.goesWell {} (lastFirst a b c) && live.goesWell {} (replyFirst a b c) &&
        [c, a, b].all fun m => (t.chain? m.ratchetKey).isSome) = true := by
  decide +kernel

/-- Both orders leave the same session and the same reply. -/
theorem introduction_in_two_orders :
    ∃ t a b c, introduction = some (t, a, b, c) ∧ t.Reached Ticker ∧
      let live : Live Suite.plain Ticker := ⟨t, ⟨0⟩⟩
      Act.said (lastFirst a b c) = Act.said (replyFirst a b c) ∧
      (Act.heard (lastFirst a b c)).Perm (Act.heard (replyFirst a b c)) ∧
      (∀ m ∈ Act.heard (lastFirst a b c), (t.chain? m.ratchetKey).isSome = true) ∧
      live.Smooth (lastFirst a b c) ∧ live.Smooth (replyFirst a b c) ∧
      live.run (lastFirst a b c) = live.run (replyFirst a b c) ∧
      live.sealed (lastFirst a b c) = live.sealed (replyFirst a b c) ∧
      (live.opened (lastFirst a b c)).Perm (live.opened (replyFirst a b c)) := by
  obtain ⟨⟨t, a, b, c⟩, is, well⟩ := (Option.any_eq_true _ _).1 introduction_goesWell
  simp only [Bool.and_eq_true] at well
  obtain ⟨⟨first, second⟩, held⟩ := well
  obtain ⟨reached, formed⟩ := introduction_reached is
  have room : 0 < ({} : Limits).maxReceiverChains := by decide
  have smooth := smooth_of_goesWell room formed first
  have smooth' := smooth_of_goesWell room formed second
  have heard : (Act.heard (lastFirst a b c)).Perm (Act.heard (replyFirst a b c)) :=
    (@List.perm_append_comm _ [c] [a, b]).trans (.swap b a [c])
  have known : ∀ m ∈ Act.heard (lastFirst a b c), (t.chain? m.ratchetKey).isSome = true :=
    fun m member => List.all_eq_true.1 held m member
  exact ⟨t, a, b, c, is, reached, rfl, heard, known, smooth, smooth',
    order_independent reached _ _ rfl heard known smooth smooth'⟩

end Live

end RatchetSession
