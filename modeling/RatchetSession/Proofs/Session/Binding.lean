import RatchetSession.Proofs.Session.Unheard
set_option autoImplicit false

namespace RatchetSession

variable {P : Suite}

namespace Binding

/-- The parts have their lengths, so that none of them can be shifted into another. -/
theorem receiverKey_of_toBytes {a b : Binding P} (h : a.toBytes = b.toBytes) :
    a.receiverKey = b.receiverKey := by
  simp only [toBytes, List.cons.injEq, List.append_assoc] at h
  obtain ⟨-, rest⟩ := List.append_inj h.2 (by simp)
  obtain ⟨-, rest⟩ := List.append_inj rest (by simp)
  obtain ⟨-, rest⟩ := List.append_inj rest (by simp)
  obtain ⟨same, -⟩ := List.append_inj rest (by simp)
  cases a
  cases b
  exact congrArg PublicKey.mk (Octets.ext same)

end Binding

namespace Session

theorem receive_opening {limits : Limits} {s s' : Session P} {message : RatchetMessage}
    {plaintext : Bytes} (h : s.receive limits message = .ok (plaintext, s')) :
    ∃ (key : MessageKey) (bound : Binding P), s'.opening message = some bound ∧
      key.decrypt P bound.toBytes message.ciphertext = .ok plaintext := by
  simp only [receive] at h
  split at h
  · cases h
  · rename_i chain found
    split at h
    · cases h
    · rename_i key after taken
      split at h
      · cases h
      · rename_i opened
        cases h
        have ends := (ReceivingChain.messageKey_ends message.counter).ok taken
        have remote := ends.remoteKey.trans (chain?_remoteKey found)
        have looked := find?_replaceChain remote message.ratchetKey s.receiving
        rw [if_pos rfl] at looked
        simp only [chain?] at found
        refine ⟨key, _, ?_, opened⟩
        simp only [opening, chain?, setChain, looked, found, Option.map_some, ends.localKey]

end Session

end RatchetSession
