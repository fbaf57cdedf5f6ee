import RatchetSession.Envelope
import RatchetSession.Proofs.Cbor.Framing
set_option autoImplicit false

namespace RatchetSession

open Cbor (Framed FieldsRead)

theorem PublicKey.framed (key : PublicKey) (depth : Nat) :
    Framed (PublicKey.reader (depth + 1)) key.toCbor key :=
  (Cbor.octets_framed (by decide) depth key.bytes).map PublicKey.mk

theorem RatchetMessage.framed (m : RatchetMessage) (depth : Nat) :
    Framed (RatchetMessage.reader (depth + 2)) m.toCbor m := by
  have fields : FieldsRead RatchetMessage.fields (depth + 1) {}
      [("ratchet_key", m.ratchetKey.toCbor), ("counter", Cbor.unsigned m.counter.toNat),
        ("previous_counter", Cbor.unsigned m.previousCounter.toNat),
        ("ciphertext", Cbor.numbers m.ciphertext)]
      ⟨some m.ratchetKey, some m.counter, some m.previousCounter, some m.ciphertext⟩ := by
    refine .cons (by decide) rfl (m.ratchetKey.framed depth).read ?_
    refine .cons (by decide) rfl (Cbor.word_framed m.counter).read ?_
    refine .cons (by decide) rfl (Cbor.word_framed m.previousCounter).read ?_
    exact .cons (by decide) rfl (Cbor.byteSequence_framed depth m.ciphertext).read (.nil _)
  exact Cbor.structure_framed fields rfl (by simp) (by simp [RatchetMessage.toCbor, Cbor.entryBytes])

theorem InitialMessage.framed (m : InitialMessage) (depth : Nat) :
    Framed (InitialMessage.reader (depth + 3)) m.toCbor m := by
  obtain ⟨identityKey, baseKey, signedPreKeyId, preKeyId, message⟩ := m
  have identity := (Cbor.octets_framed (by decide) (depth + 1) identityKey).read
  have base := (baseKey.framed (depth + 1)).read
  have signed := (Cbor.word_framed signedPreKeyId).read
  have inner := (message.framed depth).read
  cases preKeyId with
  | none =>
    have fields : FieldsRead InitialMessage.fields (depth + 2) {}
        [("identity_key", Cbor.numbers identityKey.toList), ("base_key", baseKey.toCbor),
          ("signed_pre_key_id", Cbor.unsigned signedPreKeyId.toNat), ("message", message.toCbor)]
        ⟨some identityKey, some baseKey, some signedPreKeyId, none, some message⟩ := by
      refine .cons (by decide) rfl identity ?_
      refine .cons (by decide) rfl base ?_
      refine .cons (by decide) rfl signed ?_
      exact .cons (by decide) rfl inner (.nil _)
    exact Cbor.structure_framed fields rfl (by simp)
      (by simp [InitialMessage.toCbor, InitialMessage.preKeyEntry, Cbor.entryBytes])
  | some id =>
    have oneTime : ∀ tail, Cbor.option Cbor.word
        (Cbor.optional (fun id : UInt32 => Cbor.unsigned id.toNat) (some id) ++ tail) =
          .ok (some id) tail :=
      Cbor.option_read fun named _ => Cbor.word_framed named
    have fields : FieldsRead InitialMessage.fields (depth + 2) {}
        [("identity_key", Cbor.numbers identityKey.toList), ("base_key", baseKey.toCbor),
          ("signed_pre_key_id", Cbor.unsigned signedPreKeyId.toNat),
          ("pre_key_id", Cbor.unsigned id.toNat), ("message", message.toCbor)]
        ⟨some identityKey, some baseKey, some signedPreKeyId, some (some id), some message⟩ := by
      refine .cons (by decide) rfl identity ?_
      refine .cons (by decide) rfl base ?_
      refine .cons (by decide) rfl signed ?_
      refine .cons (by decide) rfl oneTime ?_
      exact .cons (by decide) rfl inner (.nil _)
    exact Cbor.structure_framed fields rfl (by simp)
      (by simp [InitialMessage.toCbor, InitialMessage.preKeyEntry, Cbor.entryBytes])

theorem Message.reader_toCbor (m : Message) (tail : Bytes) :
    Message.reader m.kind (m.toCbor ++ tail) = .ok m tail := by
  cases m with
  | ratchet message => exact ((message.framed (Cbor.maxDepth - 2)).map Message.ratchet).read tail
  | initial message => exact ((message.framed (Cbor.maxDepth - 3)).map Message.initial).read tail

namespace Envelope

theorem Header.ofBytes_toBytes (h : Header) (small : h.payloadLength.toNat ≤ maxPayload)
    (rest : Bytes) : Header.ofBytes (h.toBytes ++ rest) = .ok (h, rest) := by
  obtain ⟨kind, length⟩ := h
  have value : beNat (u32BE length) = length.toNat := beNat_natBE length.toNat_lt
  have bytes : ∃ l0 l1 l2 l3, u32BE length = [l0, l1, l2, l3] := by
    refine ⟨_, _, _, _, rfl⟩
  obtain ⟨l0, l1, l2, l3, four⟩ := bytes
  rw [four] at value
  simpa [toBytes, ofBytes, four, value] using small

def Header.ofPayload (kind : MessageKind) (length : Nat) : Header := ⟨kind, length.toUInt32⟩

theorem Header.payloadLength_ofPayload (kind : MessageKind) {length : Nat}
    (small : length ≤ maxPayload) : (Header.ofPayload kind length).payloadLength.toNat = length := by
  have bound : maxPayload < 2 ^ 32 := by decide
  simp only [Header.ofPayload, Nat.toUInt32, UInt32.toNat_ofNat']
  omega

theorem decode_header (kind : MessageKind) {length : Nat} (small : length ≤ maxPayload)
    (rest : Bytes) : decode ((Header.ofPayload kind length).toBytes ++ rest) =
      if rest.length < length then .error (.truncated (headerSize + length) (headerSize + rest.length))
      else if length < rest.length then .error (.trailingBytes (rest.length - length))
      else decodeBody kind rest := by
  have known := Header.payloadLength_ofPayload kind small
  rw [decode, Header.ofBytes_toBytes _ (by rw [known]; exact small)]
  simp only [known, List.length_append, Header.toBytes_length]
  rfl

theorem encode_eq_ok_iff {m : Message} {bytes : Bytes} : encode m = .ok bytes ↔
    m.toCbor.length ≤ maxPayload ∧
      bytes = (Header.ofPayload m.kind m.toCbor.length).toBytes ++ m.toCbor := by
  simp only [encode]
  split
  · rename_i long
    exact ⟨nofun, fun ⟨small, _⟩ => absurd long (Nat.not_lt.2 small)⟩
  · rename_i fits
    exact ⟨fun same => ⟨Nat.not_lt.1 fits, (Except.ok.inj same).symm⟩, fun ⟨_, is⟩ => by rw [is]; rfl⟩

/-- Nothing but its length keeps a message out of an envelope. -/
theorem encode_error_iff {m : Message} {fault : WireError} : encode m = .error fault ↔
    maxPayload < m.toCbor.length ∧ fault = .payloadTooLarge m.toCbor.length maxPayload := by
  simp only [encode]
  split
  · rename_i long
    exact ⟨fun same => ⟨long, (Except.error.inj same).symm⟩, fun ⟨_, is⟩ => by rw [is]⟩
  · rename_i fits
    exact ⟨nofun, fun ⟨long, _⟩ => absurd long fits⟩

theorem decode_encode {m : Message} {bytes : Bytes} (h : encode m = .ok bytes) :
    decode bytes = .ok m := by
  obtain ⟨small, rfl⟩ := encode_eq_ok_iff.1 h
  have body : Message.reader m.kind m.toCbor = .ok m [] := by
    simpa using m.reader_toCbor []
  rw [decode_header m.kind small, if_neg (Nat.lt_irrefl _), if_neg (Nat.lt_irrefl _)]
  simp [decodeBody, body]

end Envelope

end RatchetSession
