import RatchetSession.Proofs.Message.Framing
set_option autoImplicit false

namespace RatchetSession.Envelope

/-- The length that a header gives its payload. -/
def announced (bytes : Bytes) : Nat := beNat ((bytes.drop 4).take 4)

def announce (length : Nat) (bytes : Bytes) : Bytes :=
  bytes.take 4 ++ natBE 4 length ++ bytes.drop headerSize

section Header

variable (kind : MessageKind) {length : Nat}

theorem announced_header (small : length ≤ maxPayload) (rest : Bytes) :
    announced ((Header.ofPayload kind length).toBytes ++ rest) = length := by
  have field : (((Header.ofPayload kind length).toBytes ++ rest).drop 4).take 4 =
      u32BE (Header.ofPayload kind length).payloadLength := List.take_left' (u32BE_length _)
  rw [announced, field, u32BE, beNat_natBE (UInt32.toNat_lt _),
    Header.payloadLength_ofPayload kind small]

theorem announce_header {length' : Nat} (small : length' ≤ maxPayload) (rest : Bytes) :
    announce length' ((Header.ofPayload kind length).toBytes ++ rest) =
      (Header.ofPayload kind length').toBytes ++ rest := by
  have body : ((Header.ofPayload kind length).toBytes ++ rest).drop headerSize = rest :=
    List.drop_left' (Header.toBytes_length _)
  have field : natBE 4 length' = u32BE (Header.ofPayload kind length').payloadLength := by
    rw [u32BE, Header.payloadLength_ofPayload kind small]
  rw [announce, body, field]
  rfl

end Header

theorem decode_short {bytes : Bytes} (short : bytes.length < headerSize) :
    decode bytes = .error (.truncated headerSize bytes.length) := by
  have cut : Header.ofBytes bytes = .error (.truncated headerSize bytes.length) := by
    unfold Header.ofBytes
    split
    · simp only [headerSize, List.length_cons] at short
      omega
    · rfl
  rw [decode, cut]

theorem decodeBody_append (m : Message) {tail : Bytes} (more : tail ≠ []) :
    decodeBody m.kind (m.toCbor ++ tail) = .error (.trailingBytes tail.length) := by
  simp only [decodeBody, m.reader_toCbor tail, List.isEmpty_iff, if_neg more]

section Written

variable {m : Message} {bytes : Bytes} (written : encode m = .ok bytes)

include written

theorem decode_take {n : Nat} (cut : n < bytes.length) : decode (bytes.take n) =
    .error (.truncated (if n < headerSize then headerSize else bytes.length) n) := by
  obtain ⟨small, rfl⟩ := encode_eq_ok_iff.1 written
  have length : ((Header.ofPayload m.kind m.toCbor.length).toBytes ++ m.toCbor).length =
      headerSize + m.toCbor.length := by rw [List.length_append, Header.toBytes_length]
  by_cases short : n < headerSize
  · have taken : (((Header.ofPayload m.kind m.toCbor.length).toBytes ++ m.toCbor).take n).length = n :=
      List.length_take_of_le (Nat.le_of_lt cut)
    rw [decode_short (by omega), taken, if_pos short]
  · -- the header is whole, and what is left of the payload is shorter than it says
    obtain ⟨left, rfl⟩ := Nat.exists_eq_add_of_le (Nat.le_of_not_lt short)
    have front : ((Header.ofPayload m.kind m.toCbor.length).toBytes ++ m.toCbor).take (headerSize + left) =
        (Header.ofPayload m.kind m.toCbor.length).toBytes ++ m.toCbor.take left := by
      rw [← Header.toBytes_length (Header.ofPayload m.kind m.toCbor.length), List.take_length_add_append]
    have taken : (m.toCbor.take left).length = left := List.length_take_of_le (by omega)
    rw [front, decode_header m.kind small, taken, if_pos (by omega), if_neg short, length]

theorem decode_append {tail : Bytes} (more : tail ≠ []) :
    decode (bytes ++ tail) = .error (.trailingBytes tail.length) := by
  obtain ⟨small, rfl⟩ := encode_eq_ok_iff.1 written
  have longer := List.length_pos_iff.2 more
  rw [List.append_assoc, decode_header m.kind small, List.length_append, if_neg (by omega),
    if_pos (by omega), Nat.add_sub_cancel_left]

theorem decode_announce {tail : Bytes} (more : tail ≠ [])
    (fits : (bytes.drop headerSize ++ tail).length ≤ maxPayload) :
    decode (announce (announced bytes + tail.length) (bytes ++ tail)) =
      .error (.trailingBytes tail.length) := by
  obtain ⟨small, rfl⟩ := encode_eq_ok_iff.1 written
  rw [List.drop_left' (Header.toBytes_length _), List.length_append] at fits
  rw [announced_header m.kind small, List.append_assoc, announce_header m.kind fits,
    decode_header m.kind fits, List.length_append, if_neg (Nat.lt_irrefl _), if_neg (Nat.lt_irrefl _),
    decodeBody_append m more]

theorem eq_of_isPrefix {other : Message} {bytes' : Bytes} (written' : encode other = .ok bytes')
    (front : bytes <+: bytes') : other = m ∧ bytes' = bytes := by
  obtain ⟨tail, rfl⟩ := front
  have opened := decode_encode written'
  by_cases whole : tail = []
  · subst whole
    rw [List.append_nil, decode_encode written] at opened
    cases opened
    exact ⟨rfl, List.append_nil bytes⟩
  · rw [decode_append written whole] at opened
    cases opened

end Written

/-- An envelope is truncated at every place before its end, and whatever follows it is trailing,
even where the header's length takes it in. So no envelope begins another one. -/
theorem self_delimiting {m : Message} {bytes : Bytes} (written : encode m = .ok bytes) :
    (∀ n < bytes.length,
      decode (bytes.take n) = .error (.truncated (if n < 8 then 8 else bytes.length) n)) ∧
    (∀ tail, tail ≠ [] → decode (bytes ++ tail) = .error (.trailingBytes tail.length)) ∧
    (∀ tail, tail ≠ [] → (bytes.drop 8 ++ tail).length ≤ 0x100000 →
      decode (announce (announced bytes + tail.length) (bytes ++ tail)) =
        .error (.trailingBytes tail.length)) ∧
    ∀ other bytes', encode other = .ok bytes' → bytes <+: bytes' → other = m ∧ bytes' = bytes :=
  ⟨fun _ cut => decode_take written cut, fun _ more => decode_append written more,
    fun _ more fits => decode_announce written more fits,
    fun _ _ written' front => eq_of_isPrefix written written' front⟩

def second : Message := .ratchet ⟨⟨.replicate 32 7⟩, 1, 3, List.replicate 21 0xaa⟩

def third : Message := .ratchet ⟨⟨.replicate 32 7⟩, 2, 3, List.replicate 21 0xaa⟩

theorem second_delimited : ∃ bytes bytes', encode second = .ok bytes ∧ encode third = .ok bytes' ∧
    decode (bytes.take 7) = .error (.truncated 8 7) ∧
    decode (bytes.take 8) = .error (.truncated 136 8) ∧
    decode (bytes ++ [0]) = .error (.trailingBytes 1) ∧
    decode (announce (announced bytes + 3) (bytes ++ [0xde, 0xad, 0xbe])) =
      .error (.trailingBytes 3) ∧
    ¬ bytes <+: bytes' := by
  have size : ∀ m ∈ [second, third], m.toCbor.length = 128 := by decide +kernel
  have fits : ∀ m ∈ [second, third], ∃ bytes, encode m = .ok bytes ∧ bytes.length = 136 := by
    intro m member
    refine ⟨_, encode_eq_ok_iff.2 ⟨?_, rfl⟩, ?_⟩
    · rw [size m member]
      decide
    · rw [List.length_append, Header.toBytes_length, size m member]
      rfl
  obtain ⟨bytes, written, length⟩ := fits second (by simp)
  obtain ⟨bytes', written', -⟩ := fits third (by simp)
  obtain ⟨cut, after, counted, apart⟩ := self_delimiting written
  rw [length] at cut
  refine ⟨bytes, bytes', written, written', cut 7 (by decide), cut 8 (by decide),
    after _ (by simp), counted _ (by simp) ?_, fun front => ?_⟩
  · rw [List.length_append, List.length_drop, length]
    decide
  · exact absurd (apart _ _ written' front).1 (by decide)

end RatchetSession.Envelope
