import RatchetSession.Proofs.Session.Step
set_option autoImplicit false

/-!
Positions of a receiving chain that are used up: the chain has passed them and keeps no key
for them. They stay so, whatever the limits, and a message at such a position is a
duplicate.
-/

namespace RatchetSession

open RatchetSession.Computation (Keeps bind_eq_ok)

variable {P : Suite} {limits : Limits}

namespace SkippedKeys

theorem find?_dropLowest_of_none {keys : SkippedKeys} {counter : UInt32}
    (absent : keys.find? counter = none) : keys.dropLowest.find? counter = none := by
  simp only [find?, dropLowest, List.lookup_eq_none_iff] at absent ⊢
  exact fun entry member => absent entry (List.mem_of_mem_tail member)

end SkippedKeys

theorem ChainKey.advance_eq_ok {key next : ChainKey} {used : MessageKey}
    (h : key.advance P = .ok (next, used)) :
    next.index.toNat = key.index.toNat + 1 ∧ used.index = key.index := by
  unfold advance at h
  split at h
  · cases h
  · rename_i room
    cases h
    refine ⟨?_, rfl⟩
    have bound : key.index.toNat ≠ lastIndex.toNat := fun same => room (UInt32.toNat.inj same)
    have last : lastIndex.toNat = 2 ^ 32 - 1 := rfl
    have small := key.index.toNat_lt
    simp only [next, UInt32.toNat_add, UInt32.reduceToNat]
    omega

namespace ReceivingChain

structure Spent (chain : ReceivingChain) (counter : UInt32) : Prop where
  passed : counter < chain.index
  gone : chain.skipped.find? counter = none

/-- No key is kept for a position that the chain has not passed. -/
def Tidy (chain : ReceivingChain) : Prop :=
  ∀ counter, chain.index ≤ counter → chain.skipped.find? counter = none

structure Later (chain chain' : ReceivingChain) : Prop where
  ends : chain.SameEnds chain'
  index : chain.index ≤ chain'.index
  gone : ∀ counter, chain.Spent counter → chain'.skipped.find? counter = none
  tidy : chain.Tidy → chain'.Tidy

theorem Later.spent {chain chain' : ReceivingChain} (later : chain.Later chain') {counter : UInt32}
    (spent : chain.Spent counter) : chain'.Spent counter :=
  ⟨UInt32.lt_of_lt_of_le spent.passed later.index, later.gone counter spent⟩

theorem Later.refl (chain : ReceivingChain) : chain.Later chain :=
  ⟨.refl chain, UInt32.le_refl _, fun _ spent => spent.gone, id⟩

theorem Later.trans {a b c : ReceivingChain} (first : a.Later b) (second : b.Later c) :
    a.Later c :=
  ⟨first.ends.trans second.ends, UInt32.le_trans first.index second.index,
    fun counter spent => second.gone counter (first.spent spent),
    fun tidy => second.tidy (first.tidy tidy)⟩

theorem new_tidy (remoteKey localKey : PublicKey) (chainKey : ChainKey) :
    (new remoteKey localKey chainKey).Tidy := fun _ _ => rfl

theorem file_of_none {chain : ReceivingChain} {key : MessageKey} {counter : UInt32}
    (other : counter ≠ key.index) (absent : chain.skipped.find? counter = none) :
    (chain.file limits key).find? counter = none := by
  have inserted : (chain.skipped.insert key.index key).find? counter = none := by
    rw [SkippedKeys.find?_insert, if_neg other, absent]
  unfold file
  dsimp only
  split
  · exact SkippedKeys.find?_dropLowest_of_none inserted
  · exact inserted

theorem later_of_advance {chain : ReceivingChain} {next : ChainKey} {used : MessageKey}
    (advanced : chain.chainKey.advance P = .ok (next, used)) {skipped : SkippedKeys}
    (gone : ∀ counter, counter ≠ chain.index → chain.skipped.find? counter = none →
      skipped.find? counter = none) :
    chain.Later { chain with chainKey := next, skipped := skipped } := by
  have step := (ChainKey.advance_eq_ok advanced).1
  refine ⟨⟨rfl, rfl⟩, UInt32.le_iff_toNat_le.2 (by simp only [index]; omega),
    fun counter spent => ?_, fun tidy counter ahead => ?_⟩
  · exact gone counter (UInt32.ne_of_lt spent.passed) spent.gone
  · have far := UInt32.le_iff_toNat_le.1 ahead
    simp only [index] at far
    refine gone counter ?_ (tidy counter (UInt32.le_iff_toNat_le.2 (by simp only [index]; omega)))
    rintro rfl
    simp only [index] at far
    omega

theorem later_stepwise : Stepwise P limits Later where
  refl := .refl
  trans := .trans
  file advanced := later_of_advance advanced fun counter other absent => by
    refine file_of_none ?_ absent
    rw [(ChainKey.advance_eq_ok advanced).2]
    exact other
  take advanced := later_of_advance advanced fun _ _ absent => absent
  erase chain counter := by
    have erased : ∀ other, chain.skipped.find? other = none →
        (chain.skipped.erase counter).find? other = none := by
      intro other absent
      rw [SkippedKeys.find?_erase, absent, ite_self]
    exact ⟨⟨rfl, rfl⟩, UInt32.le_refl _, fun other spent => erased other spent.gone,
      fun tidy other ahead => erased other (tidy other ahead)⟩

theorem tidy_stepwise : Stepwise P limits fun chain chain' => chain.Tidy → chain'.Tidy := by
  have later : Stepwise P limits Later := later_stepwise
  exact {
    refl := fun _ => id
    trans := fun first second tidy => second (first tidy)
    file := fun advanced => (later.file advanced).tidy
    take := fun advanced => (later.take advanced).tidy
    erase := fun chain counter => (later.erase chain counter).tidy }

theorem skipTo_later (target : UInt32) : Keeps Later (skipTo P limits target) :=
  later_stepwise.skipTo target

theorem messageKey_later (counter : UInt32) : Keeps Later (messageKey P limits counter) :=
  later_stepwise.messageKey counter

theorem fileNext_index {count : Nat} {chain chain' : ReceivingChain}
    (h : fileNext P limits count chain = .ok () chain') :
    chain'.index.toNat = chain.index.toNat + count := by
  induction count generalizing chain with
  | zero =>
    cases h
    rfl
  | succ count ih =>
    unfold fileNext at h
    split at h
    · rename_i advanced
      have step := (ChainKey.advance_eq_ok advanced).1
      have rest := ih h
      simp only [index] at rest step ⊢
      omega
    · cases h

theorem skipTo_index {target : UInt32} {chain chain' : ReceivingChain}
    (h : skipTo P limits target chain = .ok () chain') :
    chain'.index.toNat = max chain.index.toNat target.toNat := by
  unfold skipTo at h
  split at h
  · rename_i behind
    cases h
    have le := UInt32.le_iff_toNat_le.1 behind
    omega
  · rename_i ahead
    have lt : chain.index.toNat < target.toNat := by
      rw [UInt32.le_iff_toNat_le] at ahead
      omega
    split at h
    · cases h
    · rw [fileNext_index h, UInt32.toNat_sub_of_le _ _ (UInt32.le_iff_toNat_le.2 (by omega))]
      omega

theorem spent_of_messageKey {counter : UInt32} {chain chain' : ReceivingChain} {key : MessageKey}
    (tidy : chain.Tidy) (h : messageKey P limits counter chain = .ok key chain') :
    chain'.Spent counter := by
  unfold messageKey at h
  split at h
  · rename_i behind
    split at h
    · cases h
      exact ⟨behind, by rw [SkippedKeys.find?_erase, if_pos rfl]⟩
    · cases h
  · rename_i ahead
    obtain ⟨_, mid, skipped, taken⟩ := bind_eq_ok h
    have there := skipTo_index skipped
    have le : chain.index.toNat ≤ counter.toNat := by
      rw [UInt32.lt_iff_toNat_lt] at ahead
      omega
    have at_counter : mid.index = counter := UInt32.toNat.inj (by omega)
    -- a tidy chain keeps nothing ahead, so no key is left at the position it passes
    have absent := ((skipTo_later counter).ok skipped).tidy tidy counter
      (at_counter ▸ UInt32.le_refl _)
    unfold takeNext at taken
    split at taken
    · rename_i advanced
      cases taken
      have step := (ChainKey.advance_eq_ok advanced).1
      refine ⟨UInt32.lt_iff_toNat_lt.2 ?_, absent⟩
      rw [← at_counter]
      simp only [index]
      omega
    · cases taken

theorem messageKey_of_spent {counter : UInt32} {chain : ReceivingChain}
    (spent : chain.Spent counter) :
    messageKey P limits counter chain = .error (.duplicateMessage counter) chain := by
  simp only [messageKey, if_pos spent.passed, spent.gone]

end ReceivingChain

end RatchetSession
