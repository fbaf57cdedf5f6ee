import Mathlib.Algebra.Group.Nat.Defs
import RatchetSession.Session.Chain
import RatchetSession.Store.Table
import RatchetSession.Proofs.Computation
set_option autoImplicit false

/-!
Receiving chains against the sequence of chain keys that their first one begins: within
its limits a chain gives out the key of each position once, in whatever order the
positions are asked for.
-/

namespace RatchetSession

open RatchetSession.Computation (bind_of_ok bind_eq_ok)

variable {P : Suite}

def chainAt (P : Suite) (start : Octets 32) : Nat → ChainKey
  | 0 => ⟨start, 0⟩
  | n + 1 => (chainAt P start n).next P

def keyAt (P : Suite) (start : Octets 32) (counter : UInt32) : MessageKey :=
  (chainAt P start counter.toNat).messageKey P

theorem chainAt_index (start : Octets 32) {n : Nat} (h : n < 2 ^ 32) :
    (chainAt P start n).index.toNat = n := by
  induction n with
  | zero => rfl
  | succ n ih =>
    have before := ih (by omega)
    simp only [chainAt, ChainKey.next, UInt32.toNat_add, before]
    simp only [UInt32.reduceToNat]
    omega

theorem chainAt_index_eq (start : Octets 32) {n : Nat} (h : n < 2 ^ 32) :
    (chainAt P start n).index = .ofNat n := by
  refine UInt32.toNat.inj ?_
  rw [chainAt_index start h, UInt32.toNat_ofNat']
  omega

theorem keyAt_index (start : Octets 32) (counter : UInt32) :
    (keyAt P start counter).index = counter := by
  have index := chainAt_index (P := P) start counter.toNat_lt
  exact UInt32.toNat.inj index

theorem advance_chainAt (start : Octets 32) {n : Nat} (h : n < lastIndex.toNat) :
    (chainAt P start n).advance P =
      .ok (chainAt P start (n + 1), keyAt P start (.ofNat n)) := by
  have bound : lastIndex.toNat < 2 ^ 32 := by decide
  have index := chainAt_index (P := P) start (by omega : n < 2 ^ 32)
  have inside : (chainAt P start n).index ≠ lastIndex := by
    intro same
    rw [same] at index
    omega
  have back : (UInt32.ofNat n).toNat = n := by
    rw [UInt32.toNat_ofNat']
    omega
  simp only [ChainKey.advance, if_neg inside, keyAt, back]
  rfl

namespace SkippedKeys

@[simp] theorem find?_empty (counter : UInt32) : empty.find? counter = none := rfl

theorem lookup_cons (entry : UInt32 × MessageKey) (rest : List (UInt32 × MessageKey))
    (counter : UInt32) :
    (entry :: rest).lookup counter =
      if counter = entry.1 then some entry.2 else rest.lookup counter :=
  Table.find?_cons entry rest counter

theorem find?_insert (keys : SkippedKeys) (counter other : UInt32) (key : MessageKey) :
    (keys.insert counter key).find? other =
      if other = counter then some key else keys.find? other := by
  obtain ⟨entries, ascending⟩ := keys
  simp only [find?, insert]
  clear ascending
  induction entries with
  | nil => simp [insertEntry, lookup_cons]
  | cons entry rest ih =>
    unfold insertEntry
    split
    · rw [lookup_cons]
    · split
      · rename_i same
        simp only [lookup_cons, same]
        split <;> simp_all
      · rename_i differ
        simp only [lookup_cons, ih]
        split
        · rename_i first
          rw [if_neg (by rw [first]; exact fun same => differ same.symm)]
        · rfl

theorem find?_erase (keys : SkippedKeys) (counter other : UInt32) :
    (keys.erase counter).find? other = if other = counter then none else keys.find? other :=
  Table.find?_erase ⟨keys.entries⟩ counter other

theorem length_insertEntry_le (counter : UInt32) (key : MessageKey)
    (entries : List (UInt32 × MessageKey)) :
    (insertEntry counter key entries).length ≤ entries.length + 1 := by
  induction entries with
  | nil => simp [insertEntry]
  | cons first rest ih =>
    unfold insertEntry
    split
    · simp
    · split
      · simp
      · simpa using ih

theorem size_insert_le (keys : SkippedKeys) (counter : UInt32) (key : MessageKey) :
    (keys.insert counter key).size ≤ keys.size + 1 := length_insertEntry_le counter key keys.entries

theorem length_le_of_ascending {entries : List (UInt32 × MessageKey)} {low high : Nat}
    (ascending : entries.Pairwise fun a b => a.1 < b.1)
    (above : ∀ entry ∈ entries, low ≤ entry.1.toNat)
    (below : ∀ entry ∈ entries, entry.1.toNat < high) : entries.length ≤ high - low := by
  induction entries generalizing low with
  | nil => exact Nat.zero_le _
  | cons first rest ih =>
    obtain ⟨before, tail⟩ := List.pairwise_cons.1 ascending
    have room := below first List.mem_cons_self
    have start := above first List.mem_cons_self
    have later : ∀ entry ∈ rest, first.1.toNat + 1 ≤ entry.1.toNat :=
      fun entry member => UInt32.lt_iff_toNat_lt.1 (before entry member)
    have shorter := ih tail later fun entry member => below entry (List.mem_cons_of_mem first member)
    simp only [List.length_cons]
    omega

theorem size_le {keys : SkippedKeys} {bound : Nat}
    (below : ∀ counter key, keys.find? counter = some key → counter.toNat < bound) :
    keys.size ≤ bound := by
  have each : ∀ entry ∈ keys.entries, entry.1.toNat < bound := by
    intro entry member
    have held : (keys.find? entry.1).isSome = true := by
      simp only [find?, List.lookup_isSome_iff]
      exact ⟨entry, member, by simp⟩
    obtain ⟨key, found⟩ := Option.isSome_iff_exists.1 held
    exact below entry.1 key found
  exact length_le_of_ascending keys.ascending (fun entry _ => Nat.zero_le entry.1.toNat) each

end SkippedKeys

/-- The chain stands at its own position of the sequence, has passed every position opened, and
keeps the keys of all others it has passed. -/
structure Follows (P : Suite) (start : Octets 32) (opened : List UInt32)
    (chain : ReceivingChain) : Prop where
  key : chain.chainKey = chainAt P start chain.index.toNat
  passed : ∀ counter ∈ opened, counter < chain.index
  filed : ∀ counter, chain.skipped.find? counter =
    if counter < chain.index ∧ counter ∉ opened then some (keyAt P start counter) else none

structure ReceivingChain.SameEnds (chain chain' : ReceivingChain) : Prop where
  remoteKey : chain'.remoteKey = chain.remoteKey
  localKey : chain'.localKey = chain.localKey

theorem ReceivingChain.SameEnds.trans {a b c : ReceivingChain} (first : a.SameEnds b)
    (second : b.SameEnds c) : a.SameEnds c :=
  ⟨second.remoteKey.trans first.remoteKey, second.localKey.trans first.localKey⟩

/-- The chain can be brought to a position: the jump is not too long, and there is room for the keys
of all positions in between. -/
structure ReceivingChain.Reaches (limits : Limits) (chain : ReceivingChain) (target : UInt32) :
    Prop where
  near : target.toNat - chain.index.toNat ≤ limits.maxSkip.toNat
  room : chain.skipped.size + (target.toNat - chain.index.toNat) ≤ limits.maxMessageKeys

namespace Follows

variable {start : Octets 32} {opened : List UInt32} {chain : ReceivingChain} {limits : Limits}

theorem new (remoteKey localKey : PublicKey) :
    Follows P start [] (.new remoteKey localKey ⟨start, 0⟩) where
  key := rfl
  passed _ member := nomatch member
  filed counter := by
    have least : ¬ counter < 0 := by simp
    simp [ReceivingChain.new, ReceivingChain.index, least]

theorem size_le (h : Follows P start opened chain) : chain.skipped.size ≤ chain.index.toNat := by
  refine SkippedKeys.size_le fun counter key found => ?_
  rw [h.filed] at found
  split at found
  · rename_i behind
    exact UInt32.lt_iff_toNat_lt.1 behind.1
  · cases found

/-- A chain that never got far has room for as much again. -/
theorem reaches (h : Follows P start opened chain) {target : UInt32}
    (behind : chain.index.toNat ≤ limits.maxSkip.toNat) (near : target.toNat ≤ limits.maxSkip.toNat)
    (held : limits.maxSkip.toNat ≤ limits.maxMessageKeys) : chain.Reaches limits target := by
  have few := h.size_le
  constructor <;> omega

theorem advance (h : Follows P start opened chain) (room : chain.index.toNat < lastIndex.toNat) :
    chain.chainKey.advance P =
      .ok (chainAt P start (chain.index.toNat + 1), keyAt P start chain.index) := by
  rw [h.key, advance_chainAt start room, UInt32.ofNat_toNat]

theorem step (h : Follows P start opened chain) (room : chain.index.toNat < lastIndex.toNat)
    (skipped : SkippedKeys) (opened' : List UInt32)
    (passed : ∀ counter ∈ opened', counter ∈ opened ∨ counter = chain.index)
    (filed : ∀ counter, skipped.find? counter =
      if counter = chain.index then
        if chain.index ∈ opened' then none else some (keyAt P start chain.index)
      else chain.skipped.find? counter)
    (kept : ∀ counter, counter ≠ chain.index → (counter ∈ opened' ↔ counter ∈ opened)) :
    Follows P start opened'
        { chain with
          chainKey := chainAt P start (chain.index.toNat + 1)
          skipped := skipped } ∧
      (chainAt P start (chain.index.toNat + 1)).index.toNat = chain.index.toNat + 1 := by
  have bound : lastIndex.toNat < 2 ^ 32 := by decide
  have next : (chainAt P start (chain.index.toNat + 1)).index.toNat = chain.index.toNat + 1 :=
    chainAt_index start (by omega)
  refine ⟨⟨?_, fun counter member => ?_, fun counter => ?_⟩, next⟩
  · simp only [ReceivingChain.index] at next ⊢
    rw [next]
  · simp only [ReceivingChain.index] at next ⊢
    rw [UInt32.lt_iff_toNat_lt, next]
    rcases passed counter member with before | rfl
    · have below := UInt32.lt_iff_toNat_lt.1 (h.passed counter before)
      simp only [ReceivingChain.index] at below
      omega
    · exact Nat.lt_succ_self _
  · have behind : counter < (chainAt P start (chain.index.toNat + 1)).index ↔
        counter < chain.index ∨ counter = chain.index := by
      rw [UInt32.lt_iff_toNat_lt, next, UInt32.lt_iff_toNat_lt, ← UInt32.toNat_inj]
      omega
    rw [filed]
    by_cases here : counter = chain.index
    · subst here
      by_cases used : chain.index ∈ opened'
      · simp [used]
      · have reached := behind.2 (.inr rfl)
        rw [if_pos rfl, if_neg used, if_pos ⟨reached, used⟩]
    · rw [if_neg here, h.filed]
      have reached : (counter < chain.index ∧ counter ∉ opened) =
          (counter < (chainAt P start (chain.index.toNat + 1)).index ∧ counter ∉ opened') := by
        rw [behind, kept counter here]
        simp [here]
      exact ite_congr reached (fun _ => rfl) fun _ => rfl

theorem file (h : Follows P start opened chain) (room : chain.index.toNat < lastIndex.toNat)
    (held : chain.skipped.size + 1 ≤ limits.maxMessageKeys) :
    Follows P start opened
        { chain with
          chainKey := chainAt P start (chain.index.toNat + 1)
          skipped := chain.file limits (keyAt P start chain.index) } ∧
      (chainAt P start (chain.index.toNat + 1)).index.toNat = chain.index.toNat + 1 ∧
      (chain.file limits (keyAt P start chain.index)).size ≤ chain.skipped.size + 1 := by
  have unused : chain.index ∉ opened := fun used => by simpa using h.passed _ used
  have inserted := h.step room (chain.skipped.insert chain.index (keyAt P start chain.index)) opened
    (fun _ member => .inl member) (fun counter => by simp [SkippedKeys.find?_insert, unused])
    fun _ _ => Iff.rfl
  have few := chain.skipped.size_insert_le chain.index (keyAt P start chain.index)
  have room : ¬ limits.maxMessageKeys <
      (chain.skipped.insert chain.index (keyAt P start chain.index)).size := by
    omega
  simp only [ReceivingChain.file, keyAt_index, if_neg room]
  exact ⟨inserted.1, inserted.2, few⟩

theorem fileNext (h : Follows P start opened chain) (count : Nat)
    (room : chain.index.toNat + count ≤ lastIndex.toNat)
    (held : chain.skipped.size + count ≤ limits.maxMessageKeys) :
    ∃ chain', ReceivingChain.fileNext P limits count chain = .ok () chain' ∧
      Follows P start opened chain' ∧ chain.SameEnds chain' ∧
      chain'.index.toNat = chain.index.toNat + count := by
  induction count generalizing chain with
  | zero => exact ⟨chain, rfl, h, ⟨rfl, rfl⟩, rfl⟩
  | succ count ih =>
    have fits : chain.skipped.size + 1 ≤ limits.maxMessageKeys := by omega
    obtain ⟨filed, index, few⟩ := h.file (by omega) fits
    obtain ⟨chain', run, follows, ends, there⟩ := ih filed
      (by simp only [ReceivingChain.index] at index room ⊢; omega) (by dsimp only; omega)
    refine ⟨chain', ?_, follows, ⟨ends.remoteKey, ends.localKey⟩, ?_⟩
    · rw [ReceivingChain.fileNext]
      simp only [h.advance (by omega)]
      exact run
    · simp only [ReceivingChain.index] at index there ⊢
      omega

theorem skipTo (h : Follows P start opened chain) {target : UInt32}
    (reaches : chain.Reaches limits target) :
    ∃ chain', ReceivingChain.skipTo P limits target chain = .ok () chain' ∧
      Follows P start opened chain' ∧ chain.SameEnds chain' ∧
      chain'.index.toNat = max chain.index.toNat target.toNat := by
  have last : target.toNat ≤ lastIndex.toNat := Nat.le_of_lt_succ target.toNat_lt
  obtain ⟨near, held⟩ := reaches
  unfold ReceivingChain.skipTo
  split
  · rename_i behind
    have le := UInt32.le_iff_toNat_le.1 behind
    exact ⟨chain, rfl, h, ⟨rfl, rfl⟩, by omega⟩
  · rename_i ahead
    have lt : chain.index.toNat < target.toNat := by
      rw [UInt32.le_iff_toNat_le] at ahead
      omega
    have jump : (target - chain.index).toNat = target.toNat - chain.index.toNat :=
      UInt32.toNat_sub_of_le _ _ (UInt32.le_iff_toNat_le.2 (by omega))
    rw [if_neg (by rw [UInt32.lt_iff_toNat_lt, jump]; omega)]
    have fits : chain.skipped.size + (target - chain.index).toNat ≤ limits.maxMessageKeys := by
      omega
    obtain ⟨chain', run, follows, ends, there⟩ :=
      h.fileNext (target - chain.index).toNat (by omega) fits
    exact ⟨chain', run, follows, ends, by omega⟩

theorem messageKey (h : Follows P start opened chain) {counter : UInt32}
    (unused : counter ∉ opened) (short : counter.toNat < lastIndex.toNat)
    (reaches : chain.Reaches limits counter) :
    ∃ chain', chain.messageKey P limits counter = .ok (keyAt P start counter) chain' ∧
      Follows P start (counter :: opened) chain' ∧ chain.SameEnds chain' ∧
      chain'.index.toNat = max chain.index.toNat (counter.toNat + 1) := by
  unfold ReceivingChain.messageKey
  split
  · rename_i behind
    have found : chain.skipped.find? counter = some (keyAt P start counter) := by
      rw [h.filed, if_pos ⟨behind, unused⟩]
    simp only [found]
    have lt := UInt32.lt_iff_toNat_lt.1 behind
    refine ⟨_, rfl, ⟨h.key, fun other member => ?_, fun other => ?_⟩, ⟨rfl, rfl⟩, ?_⟩
    · rcases List.mem_cons.1 member with rfl | member
      · exact behind
      · exact h.passed other member
    · rw [SkippedKeys.find?_erase, h.filed]
      by_cases same : other = counter
      · simp [same]
      · rw [if_neg same]
        exact ite_congr (by simp [same, ReceivingChain.index]) (fun _ => rfl) fun _ => rfl
    · simp only [ReceivingChain.index] at lt ⊢
      omega
  · rename_i ahead
    have le : chain.index.toNat ≤ counter.toNat := by
      rw [UInt32.lt_iff_toNat_lt] at ahead
      omega
    obtain ⟨mid, skipped, follows, ends, there⟩ := h.skipTo reaches
    have at_counter : mid.index = counter := UInt32.toNat.inj (by omega)
    have room : mid.index.toNat < lastIndex.toNat := by omega
    rw [bind_of_ok skipped]
    simp only [ReceivingChain.takeNext, follows.advance room]
    have stepped := follows.step room mid.skipped (counter :: opened)
      (fun other member => (List.mem_cons.1 member).symm.imp_right (·.trans at_counter.symm))
      (fun other => by
        by_cases here : other = mid.index
        · rw [here, follows.filed]
          simp [at_counter]
        · rw [if_neg here])
      (fun other differ => by
        rw [at_counter] at differ
        simp [differ])
    refine ⟨_, by rw [at_counter], stepped.1, ⟨ends.remoteKey, ends.localKey⟩, ?_⟩
    have next := stepped.2
    simp only [ReceivingChain.index] at next there le ⊢
    omega

end Follows

namespace ReceivingChain

/-- A chain finds its way, whatever becomes of the keys that it passes. -/
theorem fileNext_chainAt (limits : Limits) (count : Nat) {start : Octets 32}
    {chain : ReceivingChain} {n : Nat} (key : chain.chainKey = chainAt P start n)
    (room : n + count ≤ lastIndex.toNat) :
    ∃ chain', fileNext P limits count chain = .ok () chain' ∧
      chain'.chainKey = chainAt P start (n + count) := by
  induction count generalizing chain n with
  | zero => exact ⟨chain, rfl, key⟩
  | succ count ih =>
    let after : ReceivingChain := { chain with
      chainKey := chainAt P start (n + 1)
      skipped := chain.file limits (keyAt P start (.ofNat n)) }
    have here : after.chainKey = chainAt P start (n + 1) := rfl
    obtain ⟨chain', run, there⟩ := ih here (by omega)
    refine ⟨chain', ?_, by rw [there, Nat.add_right_comm]; rfl⟩
    have next := advance_chainAt (P := P) start (show n < lastIndex.toNat by omega)
    rw [← key] at next
    rw [fileNext]
    simp only [next]
    exact run

theorem messageKey_new {limits : Limits} (remoteKey localKey : PublicKey) (start : Octets 32)
    {counter : UInt32} (near : counter ≤ limits.maxSkip)
    (short : counter.toNat < lastIndex.toNat) :
    ∃ chain', (new remoteKey localKey ⟨start, 0⟩).messageKey P limits counter =
      .ok (keyAt P start counter) chain' := by
  have first : (new remoteKey localKey ⟨start, 0⟩).chainKey = chainAt P start 0 := rfl
  obtain ⟨chain, run, there⟩ := fileNext_chainAt (P := P) limits counter.toNat first (by omega)
  rw [Nat.zero_add] at there
  have skipped : skipTo P limits counter (new remoteKey localKey ⟨start, 0⟩) = .ok () chain := by
    have index : (new remoteKey localKey ⟨start, 0⟩).index = 0 := rfl
    unfold skipTo
    rw [index]
    split
    · rename_i behind
      obtain rfl : counter = 0 := UInt32.le_zero_iff.1 behind
      exact run
    · rw [UInt32.sub_zero, if_neg (UInt32.not_lt.2 near)]
      exact run
  have next : chain.chainKey.advance P =
      .ok (chainAt P start (counter.toNat + 1), keyAt P start counter) := by
    rw [there, advance_chainAt start short, UInt32.ofNat_toNat]
  refine ⟨{ chain with chainKey := chainAt P start (counter.toNat + 1) }, ?_⟩
  unfold messageKey
  rw [if_neg (by simp [new, index]), bind_of_ok skipped]
  simp only [takeNext, next]

end ReceivingChain

namespace Follows

variable {start : Octets 32} {opened : List UInt32} {chain : ReceivingChain} {limits : Limits}

theorem near_of_skipTo {target : UInt32} {chain' : ReceivingChain}
    (h : ReceivingChain.skipTo P limits target chain = .ok () chain') :
    target.toNat - chain.index.toNat ≤ limits.maxSkip.toNat := by
  unfold ReceivingChain.skipTo at h
  split at h
  · rename_i behind
    have le := UInt32.le_iff_toNat_le.1 behind
    omega
  · rename_i ahead
    rw [UInt32.le_iff_toNat_le] at ahead
    split at h
    · cases h
    · rename_i near
      rw [UInt32.lt_iff_toNat_lt, UInt32.toNat_sub_of_le _ _ (UInt32.le_iff_toNat_le.2 (by omega))]
        at near
      omega

theorem near_of_messageKey {counter : UInt32} {key : MessageKey} {chain' : ReceivingChain}
    (h : chain.messageKey P limits counter = .ok key chain') :
    counter.toNat - chain.index.toNat ≤ limits.maxSkip.toNat := by
  unfold ReceivingChain.messageKey at h
  split at h
  · rename_i behind
    rw [UInt32.lt_iff_toNat_lt] at behind
    omega
  · obtain ⟨_, mid, skipped, -⟩ := bind_eq_ok h
    exact near_of_skipTo skipped

theorem skipTo_eq_ok (h : Follows P start opened chain) {target : UInt32}
    (room : chain.skipped.size + (target.toNat - chain.index.toNat) ≤ limits.maxMessageKeys)
    {chain' : ReceivingChain} (ok : ReceivingChain.skipTo P limits target chain = .ok () chain') :
    Follows P start opened chain' ∧ chain.SameEnds chain' ∧
      chain'.index.toNat = max chain.index.toNat target.toNat := by
  obtain ⟨after, run, follows⟩ := h.skipTo ⟨near_of_skipTo ok, room⟩
  cases ok.symm.trans run
  exact follows

theorem messageKey_used (h : Follows P start opened chain) {counter : UInt32}
    (used : counter ∈ opened) :
    chain.messageKey P limits counter = .error (.duplicateMessage counter) chain := by
  have gone : chain.skipped.find? counter = none := by
    rw [h.filed]
    simp [used]
  simp only [ReceivingChain.messageKey, if_pos (h.passed counter used), gone]

theorem of_messageKey (h : Follows P start opened chain) {counter : UInt32}
    (room : chain.skipped.size + (counter.toNat - chain.index.toNat) ≤ limits.maxMessageKeys)
    {key : MessageKey} {chain' : ReceivingChain}
    (ok : chain.messageKey P limits counter = .ok key chain') :
    counter ∉ opened ∧ counter.toNat < lastIndex.toNat ∧ chain.Reaches limits counter := by
  have unused : counter ∉ opened := by
    intro used
    rw [h.messageKey_used used] at ok
    cases ok
  have last : counter.toNat ≤ lastIndex.toNat := Nat.le_of_lt_succ counter.toNat_lt
  have most : chain.index.toNat ≤ lastIndex.toNat := Nat.le_of_lt_succ chain.index.toNat_lt
  unfold ReceivingChain.messageKey at ok
  split at ok
  · rename_i behind
    have lt := UInt32.lt_iff_toNat_lt.1 behind
    exact ⟨unused, by omega, by omega, room⟩
  · rename_i ahead
    obtain ⟨_, mid, skipped, taken⟩ := bind_eq_ok ok
    have le : chain.index.toNat ≤ counter.toNat := by
      rw [UInt32.lt_iff_toNat_lt] at ahead
      omega
    obtain ⟨-, -, there⟩ := h.skipTo_eq_ok room skipped
    refine ⟨unused, ?_, near_of_skipTo skipped, room⟩
    -- at its last position the chain would have given no key
    refine Nat.lt_of_le_of_ne last fun same => ?_
    have at_last : mid.chainKey.index = lastIndex :=
      UInt32.toNat.inj (by simp only [ReceivingChain.index] at there le; omega)
    simp only [ReceivingChain.takeNext, ChainKey.advance, if_pos at_last] at taken
    cases taken

end Follows

end RatchetSession
