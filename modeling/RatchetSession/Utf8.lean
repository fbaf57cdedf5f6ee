import RatchetSession.Octets
set_option autoImplicit false

namespace RatchetSession.Utf8

/-- Bytes that a character still lacks, and the bounds of the next one. -/
structure Missing where
  count : Nat
  low : UInt8
  high : UInt8
deriving DecidableEq, Repr

def Missing.tail (count : Nat) : Missing := ⟨count, 0x80, 0xbf⟩

/-- What a character lacks after its first byte. The bounds exclude forms that are too long,
surrogates, and numbers above the last character. -/
def afterFirst? (first : UInt8) : Option Missing :=
  if first ≤ 0x7f then some (.tail 0)
  else if first < 0xc2 then none
  else if first ≤ 0xdf then some (.tail 1)
  else if first = 0xe0 then some ⟨2, 0xa0, 0xbf⟩
  else if first = 0xed then some ⟨2, 0x80, 0x9f⟩
  else if first ≤ 0xef then some (.tail 2)
  else if first = 0xf0 then some ⟨3, 0x90, 0xbf⟩
  else if first ≤ 0xf3 then some (.tail 3)
  else if first = 0xf4 then some ⟨3, 0x80, 0x8f⟩
  else none

/-- What is left from the first byte that is not part of a whole character. The character that is
being read starts where `start` does. -/
def remainderFrom (start : Bytes) (missing : Missing) : Bytes → Bytes
  | [] => if missing.count = 0 then [] else start
  | b :: rest =>
    if missing.count = 0 then
      match afterFirst? b with
      | some missing => remainderFrom (b :: rest) missing rest
      | none => b :: rest
    else if missing.low ≤ b ∧ b ≤ missing.high then
      remainderFrom start (.tail (missing.count - 1)) rest
    else start

/-- What follows the longest run of whole characters; nothing if the bytes are a text. -/
def remainder (bytes : Bytes) : Bytes := remainderFrom bytes (.tail 0) bytes

theorem remainderFrom_of_le {bytes : Bytes} (h : ∀ b ∈ bytes, b ≤ 0x7f) (start : Bytes) :
    remainderFrom start (.tail 0) bytes = [] := by
  induction bytes generalizing start with
  | nil => rfl
  | cons b rest ih =>
    have first : b ≤ 0x7f := h b List.mem_cons_self
    simp only [remainderFrom, Missing.tail, afterFirst?, if_pos first, if_true]
    exact ih (fun c member => h c (List.mem_cons_of_mem b member)) (b :: rest)

theorem remainder_of_le {bytes : Bytes} (h : ∀ b ∈ bytes, b ≤ 0x7f) : remainder bytes = [] :=
  remainderFrom_of_le h bytes

end RatchetSession.Utf8
