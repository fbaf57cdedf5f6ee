import RatchetSession.KeySchedule
set_option autoImplicit false

/-!
Message keys set aside for messages that have not arrived, in ascending order of the
counter that each is filed under.
-/

namespace RatchetSession

structure SkippedKeys where
  entries : List (UInt32 × MessageKey)
  ascending : entries.Pairwise fun a b => a.1 < b.1
deriving DecidableEq

namespace SkippedKeys

theorem ext {a b : SkippedKeys} (h : a.entries = b.entries) : a = b := by
  cases a
  cases b
  cases h
  rfl

def empty : SkippedKeys := ⟨[], .nil⟩

instance : Inhabited SkippedKeys := ⟨empty⟩

def size (keys : SkippedKeys) : Nat := keys.entries.length

def counters (keys : SkippedKeys) : List UInt32 := keys.entries.map (·.1)

def find? (keys : SkippedKeys) (counter : UInt32) : Option MessageKey :=
  keys.entries.lookup counter

def contains (keys : SkippedKeys) (counter : UInt32) : Bool := (keys.find? counter).isSome

/-- Puts a key in its place among ascending entries; it replaces one under the same counter. -/
def insertEntry (counter : UInt32) (key : MessageKey) :
    List (UInt32 × MessageKey) → List (UInt32 × MessageKey)
  | [] => [(counter, key)]
  | entry :: rest =>
    if counter < entry.1 then (counter, key) :: entry :: rest
    else if counter = entry.1 then (counter, key) :: rest
    else entry :: insertEntry counter key rest

theorem mem_insertEntry {counter : UInt32} {key : MessageKey} {entry : UInt32 × MessageKey}
    {entries : List (UInt32 × MessageKey)} (h : entry ∈ insertEntry counter key entries) :
    entry = (counter, key) ∨ entry ∈ entries := by
  induction entries with
  | nil => simpa [insertEntry] using h
  | cons first rest ih =>
    unfold insertEntry at h
    split at h
    · simpa using h
    · split at h
      · rcases List.mem_cons.1 h with h | h
        · exact .inl h
        · exact .inr (List.mem_cons_of_mem _ h)
      · rcases List.mem_cons.1 h with h | h
        · exact .inr (h ▸ List.mem_cons_self)
        · exact (ih h).imp_right (List.mem_cons_of_mem _)

theorem insertEntry_ascending (counter : UInt32) (key : MessageKey)
    {entries : List (UInt32 × MessageKey)} (h : entries.Pairwise fun a b => a.1 < b.1) :
    (insertEntry counter key entries).Pairwise fun a b => a.1 < b.1 := by
  induction entries with
  | nil => simp [insertEntry]
  | cons first rest ih =>
    obtain ⟨below, tail⟩ := List.pairwise_cons.1 h
    unfold insertEntry
    split
    · rename_i lt
      refine List.pairwise_cons.2 ⟨fun entry member => ?_, h⟩
      rcases List.mem_cons.1 member with rfl | member
      · exact lt
      · exact UInt32.lt_trans lt (below entry member)
    · split
      · rename_i eq
        exact List.pairwise_cons.2 ⟨fun entry member => eq ▸ below entry member, tail⟩
      · rename_i notLt notEq
        refine List.pairwise_cons.2 ⟨fun entry member => ?_, ih tail⟩
        rcases mem_insertEntry member with rfl | member
        · exact UInt32.lt_of_le_of_ne (UInt32.not_lt.1 notLt) fun eq => notEq eq.symm
        · exact below entry member

def insert (keys : SkippedKeys) (counter : UInt32) (key : MessageKey) : SkippedKeys :=
  ⟨insertEntry counter key keys.entries, insertEntry_ascending counter key keys.ascending⟩

def erase (keys : SkippedKeys) (counter : UInt32) : SkippedKeys :=
  ⟨keys.entries.filter (·.1 != counter), keys.ascending.filter _⟩

def dropLowest (keys : SkippedKeys) : SkippedKeys := ⟨keys.entries.tail, keys.ascending.tail⟩

/-- Entries in any order; of several under one counter the last one stays. -/
def ofEntries (entries : List (UInt32 × MessageKey)) : SkippedKeys :=
  entries.foldl (fun keys entry => keys.insert entry.1 entry.2) empty

/-- The longest runs of consecutive numbers in an ascending list, by their ends. -/
def runs : List UInt32 → List (UInt32 × UInt32)
  | [] => []
  | n :: rest =>
    match runs rest with
    | (first, last) :: others =>
      if n + 1 = first then (n, last) :: others else (n, n) :: (first, last) :: others
    | [] => [(n, n)]

end SkippedKeys

end RatchetSession
