import RatchetSession.Proofs.Handshake.Start
import RatchetSession.Proofs.Session.Dispenser
import RatchetSession.Proofs.Session.Live
set_option autoImplicit false

namespace RatchetSession

theorem ReceivingChain.begun_stepwise {P : Suite} {limits : Limits} :
    Stepwise P limits fun chain chain' =>
      (∃ start, chain.From P start) → ∃ start, chain'.From P start := by
  have steps : ∀ start, Stepwise P limits fun chain chain' =>
      chain.From P start → chain'.From P start := fun _ => from_stepwise
  exact {
    refl := fun _ => id
    trans := fun first second begun => second (first begun)
    file := fun advanced ⟨start, began⟩ => ⟨start, (steps start).file advanced began⟩
    take := fun advanced ⟨start, began⟩ => ⟨start, (steps start).take advanced began⟩
    erase := fun chain counter ⟨start, began⟩ => ⟨start, (steps start).erase chain counter began⟩ }

namespace Session

variable {P : Suite} {E : Type} [Randomness E] {limits : Limits} {s s' : Session P}
  {message : RatchetMessage} {plaintext : Bytes} {source source' : E}

/-- The handshake makes a session, and it sends and accepts messages. -/
inductive Reached (E : Type) [Randomness E] : Session P → Prop
  | outgoing {bundle : Bundle P} {identity : Identity} {s : Session P} {source source' : E}
      (made : Handshake.outgoing bundle identity source = .ok s source') : Reached E s
  | incoming {message : InitialMessage} {remote : IdentityKey P} {identity : Identity}
      {signed : SignedPreKey} {oneTime : Option PreKey} {s : Session P} {source source' : E}
      (made : Handshake.incoming message remote identity signed oneTime source = .ok s source') :
      Reached E s
  | sent {s s' : Session P} {plaintext : Bytes} {message : Message} (before : Reached E s)
      (sealed : s.encrypt plaintext = .ok (message, s')) : Reached E s'
  | heard {s s' : Session P} {limits : Limits} {message : RatchetMessage} {plaintext : Bytes}
      {source source' : E} (before : Reached E s)
      (opened : s.decrypt limits message source = .ok (plaintext, s') source') : Reached E s'

/-- There is one chain for a remote ratchet key, each chain gives keys of one sequence, and who has
heard something has an answer. -/
structure Orderly (s : Session P) : Prop where
  apart : (s.receiving.map (·.remoteKey)).Nodup
  began : ∀ chain ∈ s.receiving, ∃ start, chain.From P start
  answered : s.receiving ≠ [] → s.pending = none

theorem decrypt_remoteKeys_nodup (apart : (s.receiving.map (·.remoteKey)).Nodup)
    (h : s.decrypt limits message source = .ok (plaintext, s') source') :
    (s'.receiving.map (·.remoteKey)).Nodup := by
  obtain ⟨ready, followed, received⟩ := decrypt_parts h
  rw [(receive_sameChains received).keys]
  rcases follow_eq_ok followed with ⟨-, rfl, -⟩ | ⟨unknown, closed, closes, stepped⟩
  · exact apart
  · have keys := (closeChain_sameChains closes).keys
    obtain ⟨_, _, _, _, -, -, -, rfl⟩ := ratchet_eq_ok stepped
    exact nodup_addChain limits (keys ▸ apart) (keys ▸ chain?_eq_none.1 unknown)

theorem Reached.orderly (reached : Reached E s) : s.Orderly := by
  induction reached with
  | outgoing made =>
    obtain ⟨_, _, _, -, -, rfl⟩ := Handshake.outgoing_eq_ok made
    exact ⟨.nil, nofun, fun some => absurd rfl some⟩
  | incoming made =>
    obtain ⟨_, _, _, _, -, -, rfl⟩ := Handshake.incoming_eq_ok made
    refine ⟨List.nodup_singleton _, fun chain member => ?_, fun _ => rfl⟩
    rw [List.mem_singleton.1 member]
    exact ⟨_, ReceivingChain.new_from _ _ _⟩
  | sent _ sealed ih =>
    obtain ⟨-, -, -, -, rfl⟩ := encrypt_eq_ok sealed
    exact ⟨ih.apart, ih.began, ih.answered⟩
  | heard _ opened ih =>
    exact ⟨decrypt_remoteKeys_nodup ih.apart opened, decrypt_chains ReceivingChain.begun_stepwise
      (fun _ _ _ => ⟨_, ReceivingChain.new_from _ _ _⟩) ih.began opened,
      fun _ => decrypt_pending opened⟩

theorem Reached.tidy (reached : Reached E s) : s.Tidy := by
  intro chain member
  obtain ⟨start, began⟩ := reached.orderly.began chain member
  exact began.tidy

end Session

end RatchetSession
