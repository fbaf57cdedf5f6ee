import Mathlib.Data.List.DropRight
import RatchetSession.Proofs.Session.Dispenser
import RatchetSession.Proofs.Session.Framing
import RatchetSession.Proofs.Session.WellFormed
import RatchetSession.Proofs.Suite.Laws
set_option autoImplicit false

namespace RatchetSession

variable {P : Suite} {limits : Limits}

section

variable {α : Type}

theorem rtake_of_length_le {l : List α} {n : Nat} (few : l.length ≤ n) : l.rtake n = l := by
  rw [List.rtake, Nat.sub_eq_zero_of_le few, List.drop_zero]

theorem rtake_append_rtake (l m : List α) (n : Nat) :
    (l.rtake n ++ m).rtake n = (l ++ m).rtake n := by
  have short : l.length - n ≤ l.length := Nat.sub_le _ _
  simp only [List.rtake]
  rw [← List.drop_append_of_le_length short, List.drop_drop]
  congr 1
  simp only [List.length_drop, List.length_append]
  omega

theorem mem_rtake_append {l m : List α} {n : Nat} {a : α} (few : m.length ≤ n) (member : a ∈ m) :
    a ∈ (l ++ m).rtake n := by
  rw [List.rtake, List.drop_append, List.mem_append]
  refine .inr ?_
  rw [show (l ++ m).length - n - l.length = 0 by rw [List.length_append]; omega]
  exact member

theorem lt_of_mem_rtake {R : α → α → Prop} {l : List α} {n : Nat} (ascending : l.Pairwise R) {a : α}
    (member : a ∈ l) (out : a ∉ l.rtake n) : (l.rtake n).length = n ∧ ∀ b ∈ l.rtake n, R a b := by
  rw [← List.take_append_drop (l.length - n) l] at member ascending
  have front := (List.mem_append.1 member).resolve_right out
  refine ⟨?_, (List.pairwise_append.1 ascending).2.2 a front⟩
  have some := List.length_pos_of_mem front
  simp only [List.length_take] at some
  simp only [List.rtake, List.length_drop]
  omega

end

namespace ChainKey

/-- The message keys that come next, each with its position. -/
def upcoming (P : Suite) (key : ChainKey) : Nat → List (UInt32 × MessageKey)
  | 0 => []
  | n + 1 => (key.index, key.messageKey P) :: (key.next P).upcoming P n

variable {key : ChainKey} {n : Nat}

@[simp] theorem length_upcoming (key : ChainKey) (n : Nat) : (key.upcoming P n).length = n := by
  induction n generalizing key with
  | zero => rfl
  | succ n ih => rw [upcoming, List.length_cons, ih]

theorem mem_upcoming (room : key.index.toNat + n ≤ lastIndex.toNat) {counter : UInt32} :
    counter ∈ (key.upcoming P n).map (·.1) ↔
      key.index ≤ counter ∧ counter.toNat < key.index.toNat + n := by
  induction n generalizing key with
  | zero =>
    rw [UInt32.le_iff_toNat_le]
    simp only [upcoming, List.map_nil, List.not_mem_nil, false_iff]
    omega
  | succ n ih =>
    have step := next_index (P := P) (ne_lastIndex room)
    rw [upcoming, List.map_cons, List.mem_cons, ih (by omega), ← UInt32.toNat_inj,
      UInt32.le_iff_toNat_le, UInt32.le_iff_toNat_le]
    dsimp only
    omega

theorem upcoming_ascending (room : key.index.toNat + n ≤ lastIndex.toNat) :
    (key.upcoming P n).Pairwise fun a b => a.1 < b.1 := by
  induction n generalizing key with
  | zero => exact .nil
  | succ n ih =>
    have step := next_index (P := P) (ne_lastIndex room)
    have later : (key.next P).index.toNat + n ≤ lastIndex.toNat := by omega
    refine List.pairwise_cons.2 ⟨fun entry member => ?_, ih later⟩
    have behind := ((mem_upcoming later).1 (List.mem_map_of_mem member)).1
    rw [UInt32.le_iff_toNat_le] at behind
    exact UInt32.lt_iff_toNat_lt.2 (by dsimp only; omega)

end ChainKey

namespace ReceivingChain

variable {chain chain' : ReceivingChain}

/-- A key that is filed is the newest, and only the lowest can be lost for it. -/
theorem file_entries (h : chain.WellFormed limits) {next : ChainKey} {used : MessageKey}
    (advanced : chain.chainKey.advance P = .ok (next, used)) :
    (chain.file limits used).entries =
      (chain.skipped.entries ++ [(chain.index, used)]).rtake limits.maxMessageKeys := by
  have own : used.index = chain.index := (ChainKey.advance_eq_ok advanced).2
  have inserted : (chain.skipped.insert used.index used).entries =
      chain.skipped.entries ++ [(chain.index, used)] := by
    rw [own]
    exact SkippedKeys.insertEntry_above fun entry member => (h.filed entry member).2
  have few := h.few
  unfold ReceivingChain.file
  dsimp only
  rw [SkippedKeys.size, inserted]
  simp only [SkippedKeys.size] at few
  split
  · rename_i excess
    have whole : (chain.skipped.entries ++ [(chain.index, used)]).length -
        limits.maxMessageKeys = 1 := by
      simp only [List.length_append, List.length_singleton] at excess ⊢
      omega
    rw [List.rtake, whole, List.drop_one, ← inserted]
    rfl
  · rename_i room
    rw [inserted, rtake_of_length_le (Nat.le_of_not_lt room)]

theorem fileNext_entries {count : Nat} (h : chain.WellFormed limits)
    (ok : fileNext P limits count chain = .ok () chain') :
    chain'.skipped.entries =
      (chain.skipped.entries ++ chain.chainKey.upcoming P count).rtake limits.maxMessageKeys := by
  induction count generalizing chain with
  | zero =>
    cases ok
    rw [ChainKey.upcoming, List.append_nil]
    exact (rtake_of_length_le h.few).symm
  | succ count ih =>
    unfold fileNext at ok
    split at ok
    · rename_i advanced
      rw [ih (h.file advanced) ok]
      dsimp only
      rw [file_entries h advanced, rtake_append_rtake, List.append_assoc]
      obtain ⟨-, rfl, rfl⟩ := ChainKey.advance_parts advanced
      rfl
    · cases ok

theorem skipTo_entries {target : UInt32} (h : chain.WellFormed limits)
    (ok : skipTo P limits target chain = .ok () chain') :
    chain'.skipped.entries = (chain.skipped.entries ++
      chain.chainKey.upcoming P (target.toNat - chain.index.toNat)).rtake
        limits.maxMessageKeys := by
  unfold skipTo at ok
  split at ok
  · rename_i behind
    cases ok
    rw [Nat.sub_eq_zero_of_le (UInt32.le_iff_toNat_le.1 behind), ChainKey.upcoming, List.append_nil]
    exact (rtake_of_length_le h.few).symm
  · rename_i ahead
    split at ok
    · cases ok
    · rw [← UInt32.toNat_sub_of_le _ _ (UInt32.le_of_lt (UInt32.not_le.1 ahead))]
      exact fileNext_entries h ok

/-- The chain keeps as many keys as it may, all of them for positions after this one. -/
def FullAbove (limits : Limits) (chain : ReceivingChain) (counter : UInt32) : Prop :=
  chain.skipped.size = limits.maxMessageKeys ∧ ∀ kept ∈ chain.skipped.counters, counter < kept

section Jump

variable {target counter : UInt32}

theorem mem_passed (ok : skipTo P limits target chain = .ok () chain') :
    counter ∈ (chain.chainKey.upcoming P (target.toNat - chain.index.toNat)).map (·.1) ↔
      chain.index ≤ counter ∧ counter < chain'.index := by
  have last := UInt32.le_iff_toNat_le.1 (ChainKey.le_lastIndex target)
  have most := UInt32.le_iff_toNat_le.1 (ChainKey.le_lastIndex chain.index)
  have reached := skipTo_index ok
  simp only [index] at most reached ⊢
  rw [ChainKey.mem_upcoming (by omega), UInt32.lt_iff_toNat_lt]
  exact and_congr_right fun _ => by omega

theorem contains_of_passed (h : chain.WellFormed limits)
    (room : limits.maxSkip.toNat ≤ limits.maxMessageKeys)
    (near : target.toNat - chain.index.toNat ≤ limits.maxSkip.toNat)
    (ok : skipTo P limits target chain = .ok () chain') (low : chain.index ≤ counter)
    (high : counter < chain'.index) : chain'.skipped.contains counter = true := by
  obtain ⟨entry, member, rfl⟩ := List.mem_map.1 ((mem_passed ok).2 ⟨low, high⟩)
  rw [SkippedKeys.contains_iff, SkippedKeys.counters, skipTo_entries h ok]
  refine List.mem_map_of_mem (mem_rtake_append ?_ member)
  rw [ChainKey.length_upcoming]
  omega

theorem contains_of_messageKey (h : chain.WellFormed limits)
    (room : limits.maxSkip.toNat ≤ limits.maxMessageKeys) {key : MessageKey}
    (given : chain.messageKey P limits target = .ok key chain') (ahead : chain.index ≤ target)
    (low : chain.index ≤ counter) (high : counter < target) :
    chain'.skipped.contains counter = true := by
  have answered := messageKey_answered P limits chain target
  rw [given] at answered
  cases answered with
  | kept behind => exact absurd ahead (UInt32.not_le.2 behind)
  | next ahead near _ skipped there =>
    rw [UInt32.le_iff_toNat_le, UInt32.toNat_sub_of_le _ _ ahead] at near
    rw [← there] at high
    exact (contains_of_passed h room near skipped low high :)

theorem fullAbove_of_lost (h : chain.WellFormed limits)
    (ok : skipTo P limits target chain = .ok () chain')
    (was : chain.skipped.contains counter = true ∨
      (chain.index ≤ counter ∧ counter < chain'.index))
    (lost : chain'.skipped.contains counter = false) : chain'.FullAbove limits counter := by
  have last := UInt32.le_iff_toNat_le.1 (ChainKey.le_lastIndex target)
  have most := UInt32.le_iff_toNat_le.1 (ChainKey.le_lastIndex chain.index)
  have ascending : (chain.skipped.entries ++
      chain.chainKey.upcoming P (target.toNat - chain.index.toNat)).Pairwise
        fun a b => a.1 < b.1 := by
    refine List.pairwise_append.2 ⟨chain.skipped.ascending,
      ChainKey.upcoming_ascending (by simp only [index] at most ⊢; omega),
      fun old before new passed => ?_⟩
    have behind := (h.filed old before).2
    exact UInt32.lt_of_lt_of_le behind ((mem_passed ok).1 (List.mem_map_of_mem passed)).1
  have listed : ∃ key, (counter, key) ∈ chain.skipped.entries ++
      chain.chainKey.upcoming P (target.toNat - chain.index.toNat) := by
    have either : counter ∈ (chain.skipped.entries ++
        chain.chainKey.upcoming P (target.toNat - chain.index.toNat)).map (·.1) := by
      rw [List.map_append, List.mem_append, mem_passed ok]
      exact was.imp_left SkippedKeys.contains_iff.1
    obtain ⟨entry, member, rfl⟩ := List.mem_map.1 either
    exact ⟨entry.2, member⟩
  obtain ⟨key, member⟩ := listed
  have kept := skipTo_entries h ok
  have out : (counter, key) ∉ chain'.skipped.entries := by
    intro inside
    have held := SkippedKeys.contains_iff.2 (List.mem_map_of_mem (f := (·.1)) inside)
    rw [lost] at held
    cases held
  rw [kept] at out
  obtain ⟨full, above⟩ := lt_of_mem_rtake ascending member out
  rw [← kept] at full above
  exact ⟨full, List.forall_mem_map.2 above⟩

end Jump

end ReceivingChain

namespace Dispenser

variable {start : ChainKey} {d : Dispenser} {counter : UInt32}

/-- The chain has passed a position without giving its key, and does not keep the key. -/
structure Missing (start : ChainKey) (d : Dispenser) (counter : UInt32) : Prop where
  low : start.index ≤ counter
  behind : counter < d.chain.index
  ungiven : counter ∉ d.counters
  gone : d.chain.skipped.contains counter = false

theorem missing_of_skipTo {target : UInt32} {chain' : ReceivingChain}
    (h : d.chain.WellFormed limits) (ok : d.chain.skipTo P limits target = .ok () chain')
    (low : start.index ≤ counter) (behind : counter < chain'.index) (ungiven : counter ∉ d.counters)
    (gone : chain'.skipped.contains counter = false) :
    d.Missing start counter ∨ chain'.FullAbove limits counter := by
  by_cases passed : counter < d.chain.index
  · cases held : d.chain.skipped.contains counter with
    | false => exact .inl ⟨low, passed, ungiven, held⟩
    | true => exact .inr (ReceivingChain.fullAbove_of_lost h ok (.inl held) gone)
  · have ahead := UInt32.not_lt.1 passed
    exact .inr (ReceivingChain.fullAbove_of_lost h ok (.inr ⟨ahead, behind⟩) gone)

/-- A key is lost only while as many keys as the limits allow are kept for later positions. -/
theorem Missing.of_meet {demand : Demand} (h : d.chain.WellFormed limits)
    (missing : (d.meet P (limits, demand)).Missing start counter) :
    d.Missing start counter ∨ (d.meet P (limits, demand)).chain.FullAbove limits counter := by
  obtain ⟨low, behind, ungiven, gone⟩ := missing
  cases demand with
  | key asked =>
    have answered := ReceivingChain.messageKey_answered P limits d.chain asked
    simp only [meet] at behind ungiven gone ⊢
    generalize d.chain.messageKey P limits asked = answer at answered behind ungiven gone ⊢
    cases answered with
    | kept passed held =>
      obtain ⟨before, other⟩ : counter ∉ d.counters ∧ counter ≠ asked := by
        simpa [counters] using ungiven
      refine .inl ⟨low, behind, before, ?_⟩
      rw [SkippedKeys.contains, SkippedKeys.find?_erase, if_neg other] at gone
      exact gone
    | duplicate | far => exact .inl ⟨low, behind, ungiven, gone⟩
    | exhausted _ _ _ skipped => exact missing_of_skipTo h skipped low behind ungiven gone
    | @next mid _ _ short skipped there =>
      obtain ⟨before, other⟩ : counter ∉ d.counters ∧ counter ≠ asked := by
        simpa [counters] using ungiven
      have reached : counter < mid.index := by
        have step := ChainKey.next_index (P := P) (ChainKey.lt_lastIndex.1 (there.symm ▸ short))
        have upTo : counter.toNat < (mid.chainKey.next P).index.toNat := behind
        refine UInt32.lt_of_le_of_ne (UInt32.le_iff_toNat_le.2 ?_) (there ▸ other)
        rw [step] at upTo
        exact Nat.le_of_lt_succ upTo
      exact (missing_of_skipTo h skipped low reached before gone :)
  | skip target =>
    have jumped := ReceivingChain.skipTo_jumped P limits d.chain target
    simp only [meet] at behind ungiven gone ⊢
    generalize d.chain.skipTo P limits target = reached at jumped behind ungiven gone ⊢
    cases jumped with
    | done _ ok => exact missing_of_skipTo h ok low behind ungiven gone
    | far => exact .inl ⟨low, behind, ungiven, gone⟩

def serveWithin (P : Suite) (limits : Limits) (d : Dispenser) (demands : List Demand) : Dispenser :=
  d.serve P (demands.map (limits, ·))

theorem serveWithin_concat (d : Dispenser) (demands : List Demand) (last : Demand) :
    d.serveWithin P limits (demands ++ [last]) =
      (d.serveWithin P limits demands).meet P (limits, last) := by
  rw [serveWithin, List.map_append, List.map_singleton, serve_concat]
  rfl

theorem serveWithin_wellFormed (remoteKey localKey : PublicKey) (start : ChainKey)
    (demands : List Demand) :
    ((new remoteKey localKey start).serveWithin P limits demands).chain.WellFormed limits := by
  induction demands using List.reverseRecOn with
  | nil => exact ReceivingChain.new_wellFormed remoteKey localKey start
  | append_singleton demands last ih =>
    rw [serveWithin_concat]
    exact meet_chain ReceivingChain.wellFormed_stepwise _ last ih

theorem fullAbove_of_missing {remoteKey localKey : PublicKey} {demands : List Demand}
    (missing : ((new remoteKey localKey start).serveWithin P limits demands).Missing start counter) :
    ∃ earlier later, demands = earlier ++ later ∧
      ((new remoteKey localKey start).serveWithin P limits earlier).chain.FullAbove limits
        counter := by
  induction demands using List.reverseRecOn with
  | nil => exact absurd missing.low (UInt32.not_le.2 missing.behind)
  | append_singleton demands last ih =>
    rw [serveWithin_concat] at missing
    rcases missing.of_meet (serveWithin_wellFormed remoteKey localKey start demands) with
      before | full
    · obtain ⟨earlier, later, rfl, full⟩ := ih before
      exact ⟨earlier, later ++ [last], List.append_assoc .., full⟩
    · exact ⟨demands ++ [last], [], (List.append_nil _).symm, serveWithin_concat _ _ _ ▸ full⟩

/-- Under limits that leave room for a longest jump, a chain that has been asked for anything accepts
the positions whose keys it has kept and those within reach, short of the last. It refuses the others
and stays as it is, keeps all that a message ahead has skipped, and has lost a key only while it
kept as many for later positions as it may. -/
theorem accepts_exactly (room : limits.maxSkip.toNat ≤ limits.maxMessageKeys)
    (remoteKey localKey : PublicKey) (start : ChainKey) (demands : List Demand) :
    let first := new remoteKey localKey start
    let d := first.serveWithin P limits demands
    let chain := d.chain
    (∀ counter,
      ((∃ key chain', chain.messageKey P limits counter = .ok key chain') ↔
        (counter < chain.index ∧ chain.skipped.contains counter = true) ∨
          (chain.index ≤ counter ∧ counter - chain.index ≤ limits.maxSkip ∧ counter < lastIndex)) ∧
      ((∃ chain', chain.messageKey P limits counter = .error (.duplicateMessage counter) chain') ↔
        counter < chain.index ∧ chain.skipped.contains counter = false) ∧
      ((∃ chain', chain.messageKey P limits counter =
          .error (.tooManySkipped chain.index counter limits.maxSkip) chain') ↔
        chain.index ≤ counter ∧ limits.maxSkip < counter - chain.index) ∧
      (∀ error chain', chain.messageKey P limits counter = .error error chain' →
        ((error = .duplicateMessage counter ∨
            error = .tooManySkipped chain.index counter limits.maxSkip) ∧ chain' = chain) ∨
          (error = .ofCrypto (.chainExhausted lastIndex) ∧ counter = lastIndex)) ∧
      ∀ key chain', chain.messageKey P limits counter = .ok key chain' → chain.index ≤ counter →
        ∀ between, chain.index ≤ between → between < counter →
          chain'.skipped.contains between = true) ∧
    (∀ target error chain', chain.skipTo P limits target = .error error chain' →
      error = .tooManySkipped chain.index target limits.maxSkip ∧ chain.index ≤ target ∧
        limits.maxSkip < target - chain.index ∧ chain' = chain) ∧
    ∀ counter, start.index ≤ counter → counter < chain.index → counter ∉ d.counters →
      chain.skipped.contains counter = false → ∃ earlier later, demands = earlier ++ later ∧
        let before := (first.serveWithin P limits earlier).chain
        before.skipped.size = limits.maxMessageKeys ∧
          ∀ kept ∈ before.skipped.counters, counter < kept := by
  intro first d chain
  have formed : chain.WellFormed limits := serveWithin_wellFormed remoteKey localKey start demands
  refine ⟨fun counter => ?_, fun _ _ _ => ReceivingChain.skipTo_refused,
    fun counter low behind ungiven gone => fullAbove_of_missing ⟨low, behind, ungiven, gone⟩⟩
  exact ⟨ReceivingChain.messageKey_ok_iff, ReceivingChain.messageKey_duplicate_iff,
    ReceivingChain.messageKey_far_iff, fun _ _ => ReceivingChain.messageKey_error,
    fun _ _ given ahead _ low high =>
      ReceivingChain.contains_of_messageKey formed room given ahead low high⟩

/-- Two jumps of the greatest length, with room for the keys of one. -/
def jumps : List Demand := [.key 2, .key 5]

def tight : Limits := { maxSkip := 2, maxMessageKeys := 2 }

def unused : Dispenser := new ⟨.ofNatLE 32 1⟩ ⟨.ofNatLE 32 2⟩ ⟨.ofNatLE 32 3, 0⟩

/-- The second jump has cost the first one's keys. -/
theorem accepts_after_jumps :
    let chain := (unused.serveWithin Suite.plain tight jumps).chain
    tight.maxSkip.toNat ≤ tight.maxMessageKeys ∧
    (∃ key chain', chain.messageKey Suite.plain tight 4 = .ok key chain') ∧
    (∃ key chain', chain.messageKey Suite.plain tight 8 = .ok key chain') ∧
    (∃ chain', chain.messageKey Suite.plain tight 1 = .error (.duplicateMessage 1) chain') ∧
    (∃ chain', chain.messageKey Suite.plain tight 9 =
      .error (.tooManySkipped chain.index 9 tight.maxSkip) chain') ∧
    ∃ earlier later, jumps = earlier ++ later ∧
      let before := (unused.serveWithin Suite.plain tight earlier).chain
      before.skipped.size = tight.maxMessageKeys ∧ ∀ kept ∈ before.skipped.counters, 1 < kept := by
  have room : tight.maxSkip.toNat ≤ tight.maxMessageKeys := by decide
  obtain ⟨answers, -, lost⟩ := accepts_exactly (P := Suite.plain) room ⟨.ofNatLE 32 1⟩
    ⟨.ofNatLE 32 2⟩ ⟨.ofNatLE 32 3, 0⟩ jumps
  exact ⟨room, (answers 4).1.2 (by decide +kernel), (answers 8).1.2 (by decide +kernel),
    (answers 1).2.1.2 (by decide +kernel), (answers 9).2.2.1.2 (by decide +kernel),
    lost 1 (by decide) (by decide +kernel) (by decide +kernel) (by decide +kernel)⟩

end Dispenser

end RatchetSession
