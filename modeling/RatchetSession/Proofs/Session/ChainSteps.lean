import RatchetSession.Session.Chain
import RatchetSession.Proofs.Computation
set_option autoImplicit false

namespace RatchetSession.ReceivingChain

open RatchetSession.Computation (Keeps)

variable {P : Suite} {limits : Limits} {R : ReceivingChain → ReceivingChain → Prop}

/-- What relates a chain to the one after each single step, and so after any number of them. -/
structure Stepwise (P : Suite) (limits : Limits) (R : ReceivingChain → ReceivingChain → Prop) :
    Prop where
  refl : ∀ chain, R chain chain
  trans : ∀ {a b c : ReceivingChain}, R a b → R b c → R a c
  file : ∀ {chain : ReceivingChain} {next : ChainKey} {used : MessageKey},
    chain.chainKey.advance P = .ok (next, used) →
    R chain { chain with chainKey := next, skipped := chain.file limits used }
  take : ∀ {chain : ReceivingChain} {next : ChainKey} {used : MessageKey},
    chain.chainKey.advance P = .ok (next, used) → R chain { chain with chainKey := next }
  erase : ∀ (chain : ReceivingChain) counter,
    R chain { chain with skipped := chain.skipped.erase counter }

namespace Stepwise

theorem fileNext (steps : Stepwise P limits R) (count : Nat) :
    Keeps R (ReceivingChain.fileNext P limits count) := by
  induction count with
  | zero => exact steps.refl
  | succ count ih =>
    intro chain
    unfold ReceivingChain.fileNext
    split
    · rename_i advanced
      exact steps.trans (steps.file advanced) (ih _)
    · exact steps.refl chain

theorem skipTo (steps : Stepwise P limits R) (target : UInt32) :
    Keeps R (ReceivingChain.skipTo P limits target) := by
  intro chain
  unfold ReceivingChain.skipTo
  split
  · exact steps.refl chain
  · split
    · exact steps.refl chain
    · exact steps.fileNext _ chain

theorem takeNext (steps : Stepwise P limits R) : Keeps R (ReceivingChain.takeNext P) := by
  intro chain
  unfold ReceivingChain.takeNext
  split
  · rename_i advanced
    exact steps.take advanced
  · exact steps.refl chain

theorem messageKey (steps : Stepwise P limits R) (counter : UInt32) :
    Keeps R (ReceivingChain.messageKey P limits counter) := by
  intro chain
  unfold ReceivingChain.messageKey
  split
  · split
    · exact steps.erase chain counter
    · exact steps.refl chain
  · have both : Keeps R
        (ReceivingChain.skipTo P limits counter >>= fun _ => ReceivingChain.takeNext P) :=
      Keeps.bind (R := R) steps.trans (steps.skipTo counter) fun _ => steps.takeNext
    exact both chain

end Stepwise

end RatchetSession.ReceivingChain
