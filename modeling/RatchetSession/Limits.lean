import RatchetSession.Error
set_option autoImplicit false

namespace RatchetSession

structure Limits where
  /-- The longest forward jump in a receiving chain. -/
  maxSkip : UInt32 := 2000
  maxMessageKeys : Nat := 2000
  maxReceiverChains : Nat := 5
  maxArchivedStates : Nat := 5
deriving DecidableEq, Repr

/-- The limits must leave room for one receiving chain and for one longest jump. -/
def Limits.validate (limits : Limits) : Except SessionError Unit :=
  if limits.maxReceiverChains = 0 then
    .error (.invalidLimits "max_receiver_chains must be at least 1")
  else if limits.maxMessageKeys < limits.maxSkip.toNat then
    .error (.invalidLimits ("max_message_keys (" ++ toString limits.maxMessageKeys ++
      ") must be >= max_skip (" ++ toString limits.maxSkip.toNat ++ ")"))
  else .ok ()

theorem Limits.validate_eq_ok {limits : Limits} (h : limits.validate = .ok ()) :
    0 < limits.maxReceiverChains ∧ limits.maxSkip.toNat ≤ limits.maxMessageKeys := by
  unfold validate at h
  split at h
  · cases h
  · split at h
    · cases h
    · omega

theorem Limits.validate_default : ({} : Limits).validate = .ok () := rfl

end RatchetSession
