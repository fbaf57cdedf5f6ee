import RatchetSession.Proofs.Message.Framing
set_option autoImplicit false

namespace RatchetSession

theorem MessageKind.byte_of_ofByte {byte : UInt8} {kind : MessageKind}
    (h : ofByte byte = .ok kind) : byte = kind.byte := by
  unfold ofByte at h
  split at h
  · rename_i one
    cases h
    exact one
  · split at h
    · rename_i two
      cases h
      exact two
    · cases h

theorem Message.kind_of_reader {kind : MessageKind} {bytes rest : Bytes} {m : Message}
    (h : reader kind bytes = .ok m rest) : m.kind = kind := by
  cases kind with
  | ratchet =>
    simp only [reader, Functor.map, EStateM.map] at h
    split at h
    · cases h
      rfl
    · cases h
  | initial =>
    simp only [reader, Functor.map, EStateM.map] at h
    split at h
    · cases h
      rfl
    · cases h

namespace Envelope

theorem Header.eq_toBytes_of_ofBytes {bytes rest : Bytes} {h : Header}
    (read : ofBytes bytes = .ok (h, rest)) :
    bytes = h.toBytes ++ rest ∧ h.payloadLength.toNat ≤ maxPayload := by
  unfold ofBytes at read
  split at read
  · rename_i m0 m1 v k l0 l1 l2 l3 after
    split at read
    · cases read
    rename_i magic
    split at read
    · cases read
    rename_i version
    split at read
    · cases read
    rename_i kind known
    dsimp only at read
    split at read
    · cases read
    rename_i small
    simp only [not_or, ne_eq, Classical.not_not] at magic version
    obtain ⟨rfl, rfl⟩ := magic
    subst version
    -- four bytes make a word, and the word writes the same four bytes
    have bound : maxPayload < 2 ^ 32 := by decide
    have value : (beNat [l0, l1, l2, l3]).toUInt32.toNat = beNat [l0, l1, l2, l3] := by
      simp only [Nat.toUInt32, UInt32.toNat_ofNat']
      omega
    have length : u32BE (beNat [l0, l1, l2, l3]).toUInt32 = [l0, l1, l2, l3] := by
      rw [u32BE, value]
      exact natBE_beNat [l0, l1, l2, l3]
    cases read
    refine ⟨?_, by rw [value]; omega⟩
    simp only [toBytes, length, MessageKind.byte_of_ofByte known, List.cons_append, List.nil_append]
  · cases read

theorem decodeBody_eq_ok {kind : MessageKind} {payload : Bytes} {m : Message}
    (h : decodeBody kind payload = .ok m) : m.toCbor = payload ∧ m.kind = kind := by
  unfold decodeBody at h
  split at h
  · cases h
  · rename_i message rest read
    split at h
    · split at h
      · rename_i same
        cases h
        exact ⟨eq_of_beq same, Message.kind_of_reader read⟩
      · cases h
    · cases h

theorem encode_of_decode {m : Message} {bytes : Bytes} (h : decode bytes = .ok m) :
    encode m = .ok bytes := by
  unfold decode at h
  split at h
  · cases h
  · rename_i header payload parsed
    obtain ⟨written, small⟩ := Header.eq_toBytes_of_ofBytes parsed
    simp only at h
    split at h
    · cases h
    · rename_i notShort
      split at h
      · cases h
      · rename_i notLong
        obtain ⟨body, kind⟩ := decodeBody_eq_ok h
        have exact_length : payload.length = header.payloadLength.toNat := by omega
        have fits : ¬ maxPayload < m.toCbor.length := by rw [body]; omega
        have again : Header.mk m.kind m.toCbor.length.toUInt32 = header := by
          rw [kind, body, exact_length]
          simp
        rw [encode, if_neg fits, again, body, written]

/-- The byte strings that are accepted are those that are written, each for its own message; and a
message can be written unless its CBOR form is longer than a payload may be. -/
theorem decode_eq_ok_iff_encode (m : Message) :
    (∀ bytes, decode bytes = .ok m ↔ encode m = .ok bytes) ∧
      ((∃ bytes, encode m = .ok bytes) ↔ m.toCbor.length ≤ maxPayload) := by
  refine ⟨fun bytes => ⟨encode_of_decode, decode_encode⟩, ?_, fun small => ?_⟩
  · rintro ⟨bytes, written⟩
    simp only [encode] at written
    split at written
    · cases written
    · omega
  · exact ⟨_, if_neg (Nat.not_lt.2 small)⟩

end Envelope

end RatchetSession
