import Mathlib.Data.List.DropRight
import Mathlib.Data.List.Nodup
import RatchetSession.Session
set_option autoImplicit false

namespace RatchetSession

variable {P : Suite}

theorem find?_of_nodup_map {α β : Type} [DecidableEq β] {f : α → β} {l : List α} {a : α}
    (distinct : (l.map f).Nodup) (member : a ∈ l) : l.find? (f · == f a) = some a := by
  cases found : l.find? (f · == f a) with
  | none =>
    have missing := List.find?_eq_none.1 found a member
    simp at missing
  | some b =>
    have same : f b = f a := by simpa using List.find?_some found
    have held := List.mem_of_find?_eq_some found
    exact congrArg some (List.inj_on_of_nodup_map distinct held member same)

namespace Session

variable {s : Session P} {key : PublicKey} {chain kept : ReceivingChain}
  {chains : List ReceivingChain} {limits : Limits}

theorem chain?_remoteKey (found : s.chain? key = some chain) : chain.remoteKey = key := by
  have same := List.find?_some found
  exact beq_iff_eq.1 same

theorem chain?_eq_none : s.chain? key = none ↔ key ∉ s.receiving.map (·.remoteKey) := by
  simp [chain?]

theorem chain?_of_mem (apart : (s.receiving.map (·.remoteKey)).Nodup)
    (member : chain ∈ s.receiving) : s.chain? chain.remoteKey = some chain :=
  find?_of_nodup_map apart member

theorem find?_replaceChain (same : chain.remoteKey = key) (other : PublicKey)
    (chains : List ReceivingChain) :
    (replaceChain key chain chains).find? (·.remoteKey == other) =
      if other = key then (chains.find? (·.remoteKey == key)).map fun _ => chain
      else chains.find? (·.remoteKey == other) := by
  induction chains with
  | nil => simp [replaceChain]
  | cons first rest ih =>
    unfold replaceChain
    by_cases here : first.remoteKey = key
    · rw [if_pos here]
      by_cases asked : other = key
      · simp [asked, here, same]
      · have away : (key == other) = false := beq_eq_false_iff_ne.2 fun h => asked h.symm
        simp [asked, here, same, away]
    · rw [if_neg here]
      have away : (first.remoteKey == key) = false := beq_eq_false_iff_ne.2 here
      by_cases asked : other = key
      · simp only [asked, if_true] at ih
        simp [asked, away, ih]
      · simp only [asked, if_false] at ih
        simp [List.find?_cons, asked, ih]

theorem mem_replaceChain (h : kept ∈ replaceChain key chain chains) :
    kept = chain ∨ kept ∈ chains := by
  induction chains with
  | nil => cases h
  | cons first rest ih =>
    unfold replaceChain at h
    split at h
    · rcases List.mem_cons.1 h with rfl | h
      · exact .inl rfl
      · exact .inr (List.mem_cons_of_mem _ h)
    · rcases List.mem_cons.1 h with rfl | h
      · exact .inr List.mem_cons_self
      · exact (ih h).imp_right (List.mem_cons_of_mem _)

theorem mem_replaceChain_of_nodup (apart : (chains.map (·.remoteKey)).Nodup)
    (h : kept ∈ replaceChain key chain chains) :
    kept = chain ∨ kept ∈ chains ∧ kept.remoteKey ≠ key := by
  induction chains with
  | nil => cases h
  | cons first rest ih =>
    rw [List.map_cons, List.nodup_cons] at apart
    unfold replaceChain at h
    split at h
    · rename_i here
      rcases List.mem_cons.1 h with rfl | member
      · exact .inl rfl
      · refine .inr ⟨List.mem_cons_of_mem _ member, fun same => apart.1 ?_⟩
        rw [here, ← same]
        exact List.mem_map_of_mem member
    · rename_i away
      rcases List.mem_cons.1 h with rfl | member
      · exact .inr ⟨List.mem_cons_self, away⟩
      · exact (ih apart.2 member).imp_right (.imp_left (List.mem_cons_of_mem _))

@[simp] theorem length_replaceChain (key : PublicKey) (chain : ReceivingChain)
    (chains : List ReceivingChain) : (replaceChain key chain chains).length = chains.length := by
  induction chains with
  | nil => rfl
  | cons first rest ih =>
    unfold replaceChain
    split
    · rfl
    · simp [ih]

theorem map_replaceChain (is : chain.remoteKey = key) (chains : List ReceivingChain) :
    (replaceChain key chain chains).map (·.remoteKey) = chains.map (·.remoteKey) := by
  induction chains with
  | nil => rfl
  | cons first rest ih =>
    unfold replaceChain
    split
    · rename_i same
      simp [is, same]
    · simp [ih]

theorem map_addChain (limits : Limits) (chains : List ReceivingChain) (chain : ReceivingChain) :
    (addChain limits chains chain).map (·.remoteKey) =
      (chains.map (·.remoteKey) ++ [chain.remoteKey]).rtake limits.maxReceiverChains := by
  simp [addChain, List.rtake, List.map_drop]

theorem mem_addChain (h : kept ∈ addChain limits chains chain) : kept ∈ chains ∨ kept = chain := by
  simpa using List.mem_of_mem_drop h

theorem nodup_addChain (limits : Limits) (apart : (chains.map (·.remoteKey)).Nodup)
    (new : chain.remoteKey ∉ chains.map (·.remoteKey)) :
    ((addChain limits chains chain).map (·.remoteKey)).Nodup := by
  have both : ((chains ++ [chain]).map (·.remoteKey)).Nodup := by
    rw [List.map_append, List.map_singleton, List.nodup_append]
    refine ⟨apart, List.nodup_singleton _, fun other member same is => ?_⟩
    rintro rfl
    exact new (List.mem_singleton.1 is ▸ member)
  exact ((List.drop_sublist _ _).map _).nodup both

theorem length_addChain_le : (addChain limits chains chain).length ≤ limits.maxReceiverChains := by
  simp only [addChain, List.length_drop]
  omega

theorem getLast?_addChain (room : 0 < limits.maxReceiverChains) :
    (addChain limits chains chain).getLast? = some chain := by
  have inside : ¬ (chains ++ [chain]).length ≤
      (chains ++ [chain]).length - limits.maxReceiverChains := by
    simp only [List.length_append, List.length_singleton]
    omega
  rw [addChain, List.getLast?_drop, if_neg inside, List.getLast?_concat]

theorem find?_addChain (room : 0 < limits.maxReceiverChains) (is : chain.remoteKey = key)
    (unheard : chains.find? (·.remoteKey == key) = none) :
    (addChain limits chains chain).find? (·.remoteKey == key) = some chain := by
  have few : (chains ++ [chain]).length - limits.maxReceiverChains ≤ chains.length := by
    rw [List.length_append, List.length_singleton]
    omega
  have before : (chains.drop ((chains ++ [chain]).length - limits.maxReceiverChains)).find?
      (·.remoteKey == key) = none :=
    List.find?_eq_none.2 fun held member =>
      List.find?_eq_none.1 unheard held (List.mem_of_mem_drop member)
  simp only [addChain, List.drop_append_of_le_length few, List.find?_append, before]
  simp [is]

theorem find?_addChain_of_count (other : chain.remoteKey ≠ key)
    (kept : (chains.map (·.remoteKey)).count key ≤
      ((addChain limits chains chain).map (·.remoteKey)).count key) :
    (addChain limits chains chain).find? (·.remoteKey == key) =
      chains.find? (·.remoteKey == key) := by
  have whole : (chains ++ [chain]).find? (·.remoteKey == key) =
      chains.find? (·.remoteKey == key) := by
    simp [List.find?_append, other]
  have last : ((chains ++ [chain]).map (·.remoteKey)).count key =
      (chains.map (·.remoteKey)).count key := by
    simp [List.count_append, other]
  generalize away : (chains ++ [chain]).length - limits.maxReceiverChains = n
  simp only [addChain, away] at kept ⊢
  have parts : ((chains ++ [chain]).map (·.remoteKey)).count key =
      (((chains ++ [chain]).take n).map (·.remoteKey)).count key +
        (((chains ++ [chain]).drop n).map (·.remoteKey)).count key := by
    rw [← List.count_append, ← List.map_append, List.take_append_drop]
  have none : (((chains ++ [chain]).take n).map (·.remoteKey)).count key = 0 := by omega
  have gone : ((chains ++ [chain]).take n).find? (·.remoteKey == key) = .none :=
    List.find?_eq_none.2 fun held member is =>
      List.count_eq_zero.1 none (List.mem_map.2 ⟨held, member, beq_iff_eq.1 is⟩)
  rw [← whole]
  conv_rhs => rw [← List.take_append_drop n (chains ++ [chain]), List.find?_append, gone]
  rfl

end Session

end RatchetSession
