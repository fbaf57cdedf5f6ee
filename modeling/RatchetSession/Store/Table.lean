set_option autoImplicit false

namespace RatchetSession

structure Table (K V : Type) where
  entries : List (K × V)
deriving DecidableEq

namespace Table

variable {K V : Type} [DecidableEq K]

def empty : Table K V := ⟨[]⟩

def find? (t : Table K V) (key : K) : Option V := t.entries.lookup key

def erase (t : Table K V) (key : K) : Table K V := ⟨t.entries.filter (·.1 != key)⟩

def insert (t : Table K V) (key : K) (value : V) : Table K V :=
  ⟨(key, value) :: (t.erase key).entries⟩

def size (t : Table K V) : Nat := t.entries.length

@[simp] theorem find?_empty (key : K) : (empty : Table K V).find? key = none := rfl

theorem find?_cons (entry : K × V) (rest : List (K × V)) (key : K) :
    find? ⟨entry :: rest⟩ key = if key = entry.1 then some entry.2 else find? ⟨rest⟩ key := by
  obtain ⟨held, value⟩ := entry
  by_cases same : key = held
  · simp [find?, same]
  · have differ : (key == held) = false := beq_eq_false_iff_ne.2 same
    simp [find?, List.lookup_cons, same, differ]

theorem find?_erase (t : Table K V) (key other : K) :
    (t.erase key).find? other = if other = key then none else t.find? other := by
  obtain ⟨entries⟩ := t
  induction entries with
  | nil => simp [erase, find?]
  | cons entry rest ih =>
    simp only [erase] at ih ⊢
    by_cases held : entry.1 = key
    · simp only [List.filter_cons, held, bne_self_eq_false, Bool.false_eq_true, if_false, ih,
        find?_cons]
      split <;> simp_all
    · have kept : (entry.1 != key) = true := bne_iff_ne.2 held
      simp only [List.filter_cons, kept, if_true, find?_cons, ih]
      split
      · simp_all
      · rfl

theorem find?_insert (t : Table K V) (key other : K) (value : V) :
    (t.insert key value).find? other = if other = key then some value else t.find? other := by
  have rest := find?_erase t key other
  simp only [insert, find?_cons]
  split
  · rfl
  · simp [*]

@[simp] theorem find?_insert_self (t : Table K V) (key : K) (value : V) :
    (t.insert key value).find? key = some value := by simp [find?_insert]

theorem find?_insert_of_ne {t : Table K V} {key other : K} {value : V} (h : other ≠ key) :
    (t.insert key value).find? other = t.find? other := by simp [find?_insert, h]

end Table

end RatchetSession
