import RatchetSession.Store.Action
import RatchetSession.Proofs.Computation
set_option autoImplicit false

namespace RatchetSession

open RatchetSession.Computation (bind_of_ok bind_of_error)

variable {P : Suite} {E α β : Type}

/-- No store call is going to fail. -/
def Context.Quiet (ctx : Context P E) : Prop := ∀ n kind, ctx.faults.plan n kind = none

def Faults.quiet (calls : Nat) : Faults := ⟨calls, fun _ _ => .none⟩

/-- Without faults the computation answers, and leaves this store and source. -/
def Does (act : Action P E α) (store : Store P) (source : E) (answer : α) (store' : Store P)
    (source' : E) : Prop :=
  ∀ calls, ∃ calls', act ⟨store, .quiet calls, source⟩ = .ok answer ⟨store', .quiet calls', source'⟩

def Fails (act : Action P E α) (store : Store P) (source : E) (error : SessionError)
    (store' : Store P) (source' : E) : Prop :=
  ∀ calls, ∃ calls',
    act ⟨store, .quiet calls, source⟩ = .error error ⟨store', .quiet calls', source'⟩

variable {act : Action P E α} {next : α → Action P E β} {store store' store'' : Store P}
  {source source' source'' : E} {answer : α} {result : β} {error : SessionError}

theorem Does.bind (first : Does act store source answer store' source')
    (second : Does (next answer) store' source' result store'' source'') :
    Does (act >>= next) store source result store'' source'' := by
  intro calls
  obtain ⟨mid, ran⟩ := first calls
  obtain ⟨last, done⟩ := second mid
  exact ⟨last, (bind_of_ok ran).trans done⟩

theorem Fails.after (first : Does act store source answer store' source')
    (second : Fails (next answer) store' source' error store'' source'') :
    Fails (act >>= next) store source error store'' source'' := by
  intro calls
  obtain ⟨mid, ran⟩ := first calls
  obtain ⟨last, failed⟩ := second mid
  exact ⟨last, (bind_of_ok ran).trans failed⟩

theorem Fails.bind (first : Fails act store source error store' source') :
    Fails (act >>= next) store source error store' source' := by
  intro calls
  obtain ⟨last, failed⟩ := first calls
  exact ⟨last, bind_of_error failed⟩

theorem Does.pure (answer : α) : Does (pure answer : Action P E α) store source answer store source :=
  fun calls => ⟨calls, rfl⟩

theorem Fails.throw (error : SessionError) :
    Fails (throw error : Action P E α) store source error store source :=
  fun calls => ⟨calls, rfl⟩

theorem Does.ofExcept {x : Except SessionError α} (h : x = .ok answer) :
    Does (MonadExcept.ofExcept x : Action P E α) store source answer store source := by
  subst h
  exact fun calls => ⟨calls, rfl⟩

theorem Fails.ofExcept {x : Except SessionError α} (h : x = .error error) :
    Fails (MonadExcept.ofExcept x : Action P E α) store source error store source := by
  subst h
  exact fun calls => ⟨calls, rfl⟩

theorem Does.call {kind : StoreCall} {run : Store P → Except StoreError (α × Store P)}
    (h : run store = .ok (answer, store')) :
    Does (Action.call kind run : Action P E α) store source answer store' source := by
  refine fun calls => ⟨calls + 1, ?_⟩
  simp only [Action.call, Faults.quiet, h]

theorem Does.query {kind : StoreCall} {value : Store P → Except StoreError α}
    (h : value store = .ok answer) :
    Does (Action.query kind value : Action P E α) store source answer store source :=
  .call (by simp only [h, Except.map])

theorem Does.write (kind : StoreCall) (change : Store P → Store P) :
    Does (Action.write kind change : Action P E Unit) store source () (change store) source :=
  .call rfl

theorem Does.onSource {run : EStateM SessionError E α} (h : run source = .ok answer source') :
    Does (Action.onSource run : Action P E α) store source answer store source' := by
  refine fun calls => ⟨calls, ?_⟩
  simp only [Action.onSource, h]

theorem Fails.onSource {run : EStateM SessionError E α} (h : run source = .error error source') :
    Fails (Action.onSource run : Action P E α) store source error store source' := by
  refine fun calls => ⟨calls, ?_⟩
  simp only [Action.onSource, h]

theorem Does.attempt {run : Action P E Unit} (h : Does run store source () store' source') :
    Does (Action.attempt run) store source () store' source' := by
  intro calls
  obtain ⟨last, ran⟩ := h calls
  exact ⟨last, by simp only [Action.attempt, ran]⟩

section Quiet

variable {ctx : Context P E}

theorem Context.Quiet.eq (quiet : ctx.Quiet) :
    ctx = ⟨ctx.store, .quiet ctx.faults.calls, ctx.source⟩ := by
  obtain ⟨store, ⟨calls, plan⟩, source⟩ := ctx
  obtain rfl : plan = fun _ _ => none := funext fun n => funext (quiet n)
  rfl

/-- Where no store call is going to fail, a computation ends as it does without faults. -/
theorem Does.run (h : Does act ctx.store ctx.source answer store' source') (quiet : ctx.Quiet) :
    ∃ ctx', act ctx = .ok answer ctx' ∧ ctx'.store = store' := by
  obtain ⟨_, ran⟩ := h ctx.faults.calls
  rw [← quiet.eq] at ran
  exact ⟨_, ran, rfl⟩

theorem Fails.run (h : Fails act ctx.store ctx.source error store' source') (quiet : ctx.Quiet) :
    ∃ ctx', act ctx = .error error ctx' ∧ ctx'.store = store' := by
  obtain ⟨_, failed⟩ := h ctx.faults.calls
  rw [← quiet.eq] at failed
  exact ⟨_, failed, rfl⟩

end Quiet

end RatchetSession
