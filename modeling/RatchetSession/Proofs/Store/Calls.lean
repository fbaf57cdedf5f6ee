import RatchetSession.Handshake
import RatchetSession.Proofs.Computation
set_option autoImplicit false

/-!
Store calls one by one: a call either fails and leaves the store alone or does what it
says, and everything but the four writing calls only reads.
-/

namespace RatchetSession

open RatchetSession.Computation (Keeps)

variable {P : Suite} {E α β : Type}

def Context.counted (ctx : Context P E) : Context P E :=
  { ctx with faults := { ctx.faults with calls := ctx.faults.calls + 1 } }

/-- Only the source and the number of calls have moved. -/
structure Reads (ctx ctx' : Context P E) : Prop where
  store : ctx'.store = ctx.store
  plan : ctx'.faults.plan = ctx.faults.plan
  calls : ctx.faults.calls ≤ ctx'.faults.calls

namespace Reads

theorem refl (ctx : Context P E) : Reads ctx ctx := ⟨rfl, rfl, Nat.le_refl _⟩

theorem trans {a b c : Context P E} (first : Reads a b) (second : Reads b c) : Reads a c :=
  ⟨second.store.trans first.store, second.plan.trans first.plan,
    Nat.le_trans first.calls second.calls⟩

theorem counted (ctx : Context P E) : Reads ctx ctx.counted :=
  ⟨rfl, rfl, Nat.le_succ _⟩

end Reads

namespace Action

theorem call_cases (kind : StoreCall) (run : Store P → Except StoreError (α × Store P))
    (ctx : Context P E) :
    (∃ e, call kind run ctx = .error (.store e) ctx.counted) ∨
      ∃ a store, run ctx.store = .ok (a, store) ∧
        call kind run ctx = .ok a { ctx.counted with store := store } := by
  unfold call
  cases planned : ctx.faults.plan ctx.faults.calls kind with
  | some e => exact .inl ⟨e, rfl⟩
  | none =>
    cases ran : run ctx.store with
    | ok result => exact .inr ⟨result.1, result.2, rfl, rfl⟩
    | error e => exact .inl ⟨e, rfl⟩

theorem query_cases (kind : StoreCall) (value : Store P → Except StoreError α)
    (ctx : Context P E) :
    (∃ e, query kind value ctx = .error (.store e) ctx.counted) ∨
      ∃ a, value ctx.store = .ok a ∧ query kind value ctx = .ok a ctx.counted := by
  rcases call_cases kind (fun store => (value store).map (·, store)) ctx with
    failed | ⟨a, store, ran, done⟩
  · exact .inl failed
  · cases found : value ctx.store with
    | error e => simp [found, Except.map] at ran
    | ok b =>
      simp only [found, Except.map, Except.ok.injEq, Prod.mk.injEq] at ran
      obtain ⟨rfl, rfl⟩ := ran
      exact .inr ⟨b, rfl, done⟩

theorem write_cases (kind : StoreCall) (change : Store P → Store P) (ctx : Context P E) :
    (∃ e, write kind change ctx = .error (.store e) ctx.counted) ∨
      write kind change ctx = .ok () { ctx.counted with store := change ctx.store } := by
  rcases call_cases kind (fun store => .ok ((), change store)) ctx with
    failed | ⟨a, store, ran, done⟩
  · exact .inl failed
  · cases ran
    exact .inr done

theorem saveIdentity_cases (address : Address) (key : IdentityKey P) (ctx : Context P E) :
    (∃ e, saveIdentity address key ctx = .error (.store e) ctx.counted) ∨
      saveIdentity address key ctx = .ok (ctx.store.saveIdentity address key).1
        { ctx.counted with store := (ctx.store.saveIdentity address key).2 } := by
  rcases call_cases .saveIdentity (fun st => .ok (st.saveIdentity address key)) ctx with
    failed | ⟨replaced, store, ran, done⟩
  · exact .inl failed
  · cases ran
    exact .inr done

theorem storeRecord_cases (address : Address) (record : Record P) (ctx : Context P E) :
    (∃ e, storeRecord address record ctx = .error (.store e) ctx.counted) ∨
      storeRecord address record ctx =
        .ok () { ctx.counted with store := ctx.store.saveRecord address record } :=
  write_cases _ _ ctx

theorem saveIdentity_eq_ok {address : Address} {key : IdentityKey P} {ctx ctx' : Context P E}
    {replaced : Bool} (h : saveIdentity address key ctx = .ok replaced ctx') :
    ctx' = { ctx.counted with store := (ctx.store.saveIdentity address key).2 } := by
  rcases saveIdentity_cases address key ctx with ⟨e, failed⟩ | saved
  · rw [failed] at h
    cases h
  · rw [saved] at h
    cases h
    rfl

theorem storeRecord_eq_ok {address : Address} {record : Record P} {ctx ctx' : Context P E}
    {u : Unit} (h : storeRecord address record ctx = .ok u ctx') :
    ctx' = { ctx.counted with store := ctx.store.saveRecord address record } := by
  rcases storeRecord_cases address record ctx with ⟨e, failed⟩ | stored
  · rw [failed] at h
    cases h
  · rw [stored] at h
    cases h
    rfl

theorem removePreKey_cases (id : UInt32) (ctx : Context P E) :
    (∃ e, removePreKey id ctx = .error (.store e) ctx.counted) ∨
      removePreKey id ctx = .ok () { ctx.counted with store := ctx.store.removePreKey id } :=
  write_cases _ _ ctx

theorem attempt_removePreKey (id : UInt32) (ctx : Context P E) :
    ∃ store, attempt (removePreKey id) ctx = .ok () { ctx.counted with store := store } ∧
      (store = ctx.store ∨ store = ctx.store.removePreKey id) := by
  rcases removePreKey_cases id ctx with ⟨e, failed⟩ | removed
  · exact ⟨ctx.store, by simp only [attempt, failed]; rfl, .inl rfl⟩
  · exact ⟨_, by simp only [attempt, removed], .inr rfl⟩

theorem query_reads (kind : StoreCall) (value : Store P → Except StoreError α) :
    Keeps Reads (query kind value : Action P E α) := by
  intro ctx
  rcases query_cases kind value ctx with ⟨e, done⟩ | ⟨a, -, done⟩
  · rw [done]; exact .counted ctx
  · rw [done]; exact .counted ctx

theorem onSource_reads (run : EStateM SessionError E α) :
    Keeps Reads (onSource run : Action P E α) := by
  intro ctx
  unfold onSource
  cases ran : run ctx.source <;> exact ⟨rfl, rfl, Nat.le_refl _⟩

theorem bind_reads {m : Action P E α} {f : α → Action P E β} (first : Keeps Reads m)
    (second : ∀ a, Keeps Reads (f a)) : Keeps Reads (m >>= f) :=
  .bind .trans first second

theorem throw_reads (e : SessionError) : Keeps Reads (throw e : Action P E α) := .throw .refl e

theorem pure_reads (a : α) : Keeps Reads (pure a : Action P E α) := .pure .refl a

theorem ofExcept_reads (x : Except SessionError α) :
    Keeps Reads (MonadExcept.ofExcept x : Action P E α) := .ofExcept .refl x

theorem query_eq_ok {kind : StoreCall} {value : Store P → Except StoreError α}
    {ctx ctx' : Context P E} {a : α} (h : query kind value ctx = .ok a ctx') :
    value ctx.store = .ok a ∧ ctx' = ctx.counted := by
  rcases query_cases kind value ctx with ⟨e, done⟩ | ⟨b, found, done⟩
  · rw [done] at h; cases h
  · rw [done] at h
    cases h
    exact ⟨found, rfl⟩

theorem query_of_found {kind : StoreCall} {value : Store P → Except StoreError α}
    {ctx : Context P E} {a : α} (found : value ctx.store = .ok a) :
    query kind value ctx = .ok a ctx.counted ∨
      ∃ cause n, ctx.faults.plan n kind = some cause ∧
        query kind value ctx = .error (.store cause) ctx.counted := by
  unfold query call
  cases planned : ctx.faults.plan ctx.faults.calls kind with
  | some cause => exact .inr ⟨cause, _, planned, rfl⟩
  | none => exact .inl (by simp only [found, Except.map]; rfl)

theorem onSource_eq_ok {run : EStateM SessionError E α} {ctx ctx' : Context P E} {a : α}
    (h : onSource run ctx = .ok a ctx') :
    run ctx.source = .ok a ctx'.source ∧ ctx' = { ctx with source := ctx'.source } := by
  unfold onSource at h
  cases ran : run ctx.source with
  | ok b source =>
    rw [ran] at h
    cases h
    exact ⟨rfl, rfl⟩
  | error e source =>
    rw [ran] at h
    cases h

end Action

namespace Handshake

theorem signedPreKey_reads (id : UInt32) : Keeps Reads (signedPreKey id : Action P E _) := by
  refine Action.bind_reads (Action.query_reads _ _) fun found => ?_
  cases found with
  | some key => exact Action.pure_reads _
  | none => exact Action.throw_reads _

theorem oneTimePreKey_reads (id : Option UInt32) :
    Keeps Reads (oneTimePreKey id : Action P E _) := by
  cases id with
  | none => exact Action.pure_reads _
  | some id =>
    refine Action.bind_reads (Action.query_reads _ _) fun found => ?_
    cases found with
    | some key => exact Action.pure_reads _
    | none => exact Action.throw_reads _

theorem oneTimePreKey_id {id : Option UInt32} {ctx ctx' : Context P E} {found : Option PreKey}
    (h : oneTimePreKey id ctx = .ok found ctx') : found.map (·.id) = id := by
  cases id with
  | none =>
    obtain ⟨rfl, -⟩ := Computation.pure_eq_ok h
    rfl
  | some id =>
    obtain ⟨held, mid, loaded, rest⟩ := Computation.bind_eq_ok h
    cases held with
    | none => cases rest
    | some key =>
      obtain ⟨lookup, -⟩ := Action.query_eq_ok loaded
      obtain ⟨rfl, -⟩ := Computation.pure_eq_ok rest
      simp [ctx.store.filed id key (Except.ok.inj lookup)]

variable [Randomness E]

theorem accept_reads (message : InitialMessage) (identity : Identity) :
    Keeps Reads (accept message identity : Action P E _) := by
  refine Action.bind_reads (Action.ofExcept_reads _) fun remote => ?_
  split
  · exact Action.bind_reads (Action.throw_reads _) fun _ =>
      Action.bind_reads (signedPreKey_reads _) fun _ =>
      Action.bind_reads (oneTimePreKey_reads _) fun _ =>
      Action.bind_reads (Action.onSource_reads _) fun _ => Action.pure_reads _
  · exact Action.bind_reads (signedPreKey_reads _) fun _ =>
      Action.bind_reads (oneTimePreKey_reads _) fun _ =>
      Action.bind_reads (Action.onSource_reads _) fun _ => Action.pure_reads _

theorem accept_used {message : InitialMessage} {identity : Identity} {ctx ctx' : Context P E}
    {built : Session P × Option UInt32} (h : accept message identity ctx = .ok built ctx') :
    built.2 = message.preKeyId := by
  obtain ⟨remote, ctx₁, -, h⟩ := Computation.bind_eq_ok h
  split at h
  · obtain ⟨_, _, failed, -⟩ := Computation.bind_eq_ok h
    cases failed
  · obtain ⟨signed, ctx₂, -, h⟩ := Computation.bind_eq_ok h
    obtain ⟨oneTime, ctx₃, found, h⟩ := Computation.bind_eq_ok h
    obtain ⟨session, ctx₄, -, h⟩ := Computation.bind_eq_ok h
    obtain ⟨rfl, -⟩ := Computation.pure_eq_ok h
    exact oneTimePreKey_id found

end Handshake

end RatchetSession
