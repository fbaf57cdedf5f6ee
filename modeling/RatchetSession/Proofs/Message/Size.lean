import RatchetSession.Proofs.Message.Framing
set_option autoImplicit false

/-!
How long messages get when they are written. The size of a message is a sum over its
fields, in which every byte of a key or a ciphertext takes one or two bytes. It is at most
332 bytes more than twice the ciphertext's, and just as much for some message with any
long ciphertext; so an envelope holds all messages with a ciphertext of up to 524122
bytes, and no longer one is safe.
-/

namespace RatchetSession

namespace Cbor

def headSize (value : Nat) : Nat :=
  if value < 24 then 1
  else if value < 0x100 then 2
  else if value < 0x10000 then 3
  else if value < 0x100000000 then 5
  else 9

@[simp] theorem length_head (major : Major) (value : Nat) :
    (head major value).length = headSize value := by
  unfold head headSize
  repeat' split
  all_goals simp

theorem headSize_pos (value : Nat) : 0 < headSize value := by
  unfold headSize
  repeat' split
  all_goals decide

theorem headSize_le_five {value : Nat} (few : value < 2 ^ 32) : headSize value ≤ 5 := by
  unfold headSize
  repeat' split
  all_goals omega

theorem headSize_word (w : UInt32) : headSize w.toNat ≤ 5 := headSize_le_five w.toNat_lt

theorem headSize_byte (b : UInt8) : headSize b.toNat ≤ 2 := by
  have small : b.toNat < 0x100 := b.toNat_lt
  unfold headSize
  repeat' split
  all_goals omega

/-- What a container has besides its items: its head, or the two bytes that enclose more items than
any head can count. -/
def containerSize (count : Nat) : Nat :=
  if count < 0x10000000000000000 then headSize count else 2

@[simp] theorem length_container (major : Major) (count : Nat) (content : Bytes) :
    (container major count content).length = containerSize count + content.length := by
  unfold container containerSize
  split
  · simp
  · simp only [openHead, List.length_append, List.length_singleton]
    omega

theorem containerSize_le_five {count : Nat} (few : count < 2 ^ 32) : containerSize count ≤ 5 := by
  unfold containerSize
  split
  · exact headSize_le_five few
  · decide

def contentSize : Bytes → Nat
  | [] => 0
  | b :: rest => headSize b.toNat + contentSize rest

theorem contentSize_bounds (bytes : Bytes) :
    bytes.length ≤ contentSize bytes ∧ contentSize bytes ≤ 2 * bytes.length := by
  induction bytes with
  | nil => exact ⟨Nat.le_refl 0, Nat.le_refl 0⟩
  | cons b rest ih =>
    have one := headSize_pos b.toNat
    have two := headSize_byte b
    simp only [contentSize, List.length_cons]
    omega

theorem length_content (bytes : Bytes) :
    (bytes.flatMap fun b => unsigned b.toNat).length = contentSize bytes := by
  induction bytes with
  | nil => rfl
  | cons b rest ih => simp [contentSize, unsigned, ← ih]

theorem contentSize_replicate (length : Nat) (b : UInt8) :
    contentSize (List.replicate length b) = length * headSize b.toNat := by
  induction length with
  | zero => exact (Nat.zero_mul _).symm
  | succ n ih => rw [List.replicate_succ, contentSize, ih, Nat.succ_mul, Nat.add_comm]

def numbersSize (bytes : Bytes) : Nat := containerSize bytes.length + contentSize bytes

@[simp] theorem length_numbers (bytes : Bytes) : (numbers bytes).length = numbersSize bytes := by
  rw [numbers, array, length_container, length_content, numbersSize]

theorem numbersSize_key (key : Octets 32) : numbersSize key.toList ≤ 66 := by
  have content := (contentSize_bounds key.toList).2
  have head : containerSize 32 = 2 := rfl
  rw [key.length_toList] at content
  rw [numbersSize, key.length_toList, head]
  omega

end Cbor

open Cbor (headSize containerSize contentSize numbersSize)

namespace RatchetMessage

def size (m : RatchetMessage) : Nat :=
  49 + numbersSize m.ratchetKey.bytes.toList + headSize m.counter.toNat +
    headSize m.previousCounter.toNat + numbersSize m.ciphertext

theorem length_toCbor (m : RatchetMessage) : m.toCbor.length = m.size := by
  have names : (Cbor.mapHead 4).length + (Cbor.key "ratchet_key").length +
      (Cbor.key "counter").length + (Cbor.key "previous_counter").length +
      (Cbor.key "ciphertext").length = 49 := by decide
  simp only [toCbor, PublicKey.toCbor, Cbor.unsigned, List.length_append, Cbor.length_numbers,
    Cbor.length_head, size]
  omega

theorem lt_size (m : RatchetMessage) : m.ciphertext.length < m.size := by
  have ciphertext := (Cbor.contentSize_bounds m.ciphertext).1
  simp only [size, numbersSize]
  omega

theorem size_le (m : RatchetMessage) :
    m.size ≤ 2 * m.ciphertext.length + containerSize m.ciphertext.length + 125 := by
  have key := Cbor.numbersSize_key m.ratchetKey.bytes
  have counter := Cbor.headSize_word m.counter
  have previous := Cbor.headSize_word m.previousCounter
  have content := (Cbor.contentSize_bounds m.ciphertext).2
  have ciphertext : numbersSize m.ciphertext =
      containerSize m.ciphertext.length + contentSize m.ciphertext := rfl
  rw [size, ciphertext]
  omega

end RatchetMessage

namespace InitialMessage

def preKeySize : Option UInt32 → Nat
  | none => 0
  | some id => 11 + headSize id.toNat

theorem length_preKeyEntry (preKey : Option UInt32) :
    (preKeyEntry preKey).length = preKeySize preKey := by
  cases preKey with
  | none => rfl
  | some id =>
    have name : (Cbor.key "pre_key_id").length = 11 := by decide
    simp only [preKeyEntry, preKeySize, Cbor.unsigned, List.length_append, Cbor.length_head, name]

theorem preKeySize_le (preKey : Option UInt32) : preKeySize preKey ≤ 16 := by
  cases preKey with
  | none => exact Nat.zero_le _
  | some id => exact Nat.add_le_add_left (Cbor.headSize_word id) 11

def size (m : InitialMessage) : Nat :=
  49 + numbersSize m.identityKey.toList + numbersSize m.baseKey.bytes.toList +
    headSize m.signedPreKeyId.toNat + preKeySize m.preKeyId + m.message.size

theorem length_toCbor (m : InitialMessage) : m.toCbor.length = m.size := by
  have names : (Cbor.key "identity_key").length + (Cbor.key "base_key").length +
      (Cbor.key "signed_pre_key_id").length + (Cbor.key "message").length = 48 := by decide
  have entries : (Cbor.mapHead (if m.preKeyId.isSome then 5 else 4)).length = 1 := by
    split <;> rfl
  simp only [toCbor, PublicKey.toCbor, Cbor.unsigned, List.length_append, Cbor.length_numbers,
    Cbor.length_head, length_preKeyEntry, entries, RatchetMessage.length_toCbor, size]
  omega

theorem lt_size (m : InitialMessage) : m.message.size < m.size := by
  simp only [size]
  omega

theorem size_le (m : InitialMessage) : m.size ≤ m.message.size + 202 := by
  have identity := Cbor.numbersSize_key m.identityKey
  have base := Cbor.numbersSize_key m.baseKey.bytes
  have signed := Cbor.headSize_word m.signedPreKeyId
  have preKey := preKeySize_le m.preKeyId
  simp only [size]
  omega

end InitialMessage

namespace Message

def size : Message → Nat
  | .ratchet message => message.size
  | .initial message => message.size

theorem length_toCbor (m : Message) : m.toCbor.length = m.size := by
  cases m with
  | ratchet message => exact message.length_toCbor
  | initial message => exact message.length_toCbor

theorem lt_size (m : Message) : m.inner.ciphertext.length < m.size := by
  cases m with
  | ratchet message => exact message.lt_size
  | initial message => exact Nat.lt_trans message.message.lt_size message.lt_size

theorem size_le (m : Message) :
    m.size ≤ 2 * m.inner.ciphertext.length + containerSize m.inner.ciphertext.length + 327 := by
  cases m with
  | ratchet message => exact Nat.le_trans message.size_le (by simp only [inner]; omega)
  | initial message =>
    have within := message.message.size_le
    have whole := message.size_le
    simp only [size, inner]
    omega

/-- An initial message that names a one-time pre-key, and in which all numbers are as long as they
can be. -/
def fullest (length : Nat) : Message :=
  .initial ⟨.replicate 32 0xff, ⟨.replicate 32 0xff⟩, 0xffffffff, some 0xffffffff,
    ⟨⟨.replicate 32 0xff⟩, 0xffffffff, 0xffffffff, List.replicate length 0xff⟩⟩

theorem size_fullest (length : Nat) :
    (fullest length).size = 2 * length + containerSize length + 327 := by
  have content : ∀ n, contentSize (List.replicate n 0xff) = 2 * n := by
    intro n
    have two : headSize (0xff : UInt8).toNat = 2 := rfl
    rw [Cbor.contentSize_replicate, two, Nat.mul_comm]
  have key : numbersSize (Octets.replicate 32 0xff).toList = 66 := by
    rw [numbersSize, Octets.length_toList, Octets.replicate, content]
    rfl
  have word : headSize (0xffffffff : UInt32).toNat = 5 := rfl
  have ciphertext : numbersSize (List.replicate length 0xff) = containerSize length + 2 * length := by
    rw [numbersSize, List.length_replicate, content]
  simp only [fullest, size, InitialMessage.size, RatchetMessage.size, InitialMessage.preKeySize, key,
    word, ciphertext]
  omega

end Message

namespace Envelope

def capacity : Nat := 524122

theorem encode_of_le_capacity {m : Message} (short : m.inner.ciphertext.length ≤ capacity) :
    ∃ bytes, encode m = .ok bytes := by
  have size := m.size_le
  have head : containerSize m.inner.ciphertext.length ≤ 5 :=
    Cbor.containerSize_le_five (by simp only [capacity] at short; omega)
  refine ⟨_, encode_eq_ok_iff.2 ⟨?_, rfl⟩⟩
  rw [m.length_toCbor]
  simp only [capacity, maxPayload] at short ⊢
  omega

/-- An envelope holds every message whose ciphertext leaves it half and some hundred bytes. -/
theorem encode_of_le {m : Message}
    (short : 2 * m.inner.ciphertext.length + 500 ≤ maxPayload) : ∃ bytes, encode m = .ok bytes :=
  encode_of_le_capacity (by simp only [capacity, maxPayload] at short ⊢; omega)

theorem encode_fullest : encode (.fullest (capacity + 1)) =
    .error (.payloadTooLarge (maxPayload + 2) maxPayload) := by
  have size : (Message.fullest (capacity + 1)).toCbor.length = maxPayload + 2 := by
    rw [Message.length_toCbor, Message.size_fullest]
    rfl
  rw [encode_error_iff, size]
  exact ⟨by omega, rfl⟩

end Envelope

end RatchetSession
