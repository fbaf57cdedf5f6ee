import RatchetSession.Octets
set_option autoImplicit false

namespace RatchetSession.Computation

variable {ε ε' σ τ α β : Type}

theorem bind_of_ok {m : EStateM ε σ α} {f : α → EStateM ε σ β} {s s' : σ} {a : α}
    (h : m s = .ok a s') : (m >>= f) s = f a s' := by
  simp [bind, EStateM.bind, h]

theorem bind_of_error {m : EStateM ε σ α} {f : α → EStateM ε σ β} {s s' : σ} {e : ε}
    (h : m s = .error e s') : (m >>= f) s = .error e s' := by
  simp [bind, EStateM.bind, h]

theorem bind_eq_ok {m : EStateM ε σ α} {f : α → EStateM ε σ β} {s s'' : σ} {b : β}
    (h : (m >>= f) s = .ok b s'') : ∃ a s', m s = .ok a s' ∧ f a s' = .ok b s'' := by
  cases first : m s with
  | ok a s' =>
    rw [bind_of_ok first] at h
    exact ⟨a, s', rfl, h⟩
  | error e s' => rw [bind_of_error first] at h; cases h

theorem pure_eq_ok {a b : α} {s s' : σ} (h : (pure a : EStateM ε σ α) s = .ok b s') :
    a = b ∧ s = s' := by
  cases h
  exact ⟨rfl, rfl⟩

@[simp] theorem ofExcept_ok (a : α) (s : σ) :
    (MonadExcept.ofExcept (.ok a : Except ε α) : EStateM ε σ α) s = .ok a s := rfl

@[simp] theorem ofExcept_error (e : ε) (s : σ) :
    (MonadExcept.ofExcept (.error e : Except ε α) : EStateM ε σ α) s = .error e s := rfl

theorem ofExcept_eq_ok {x : Except ε α} {a : α} {s s' : σ}
    (h : (MonadExcept.ofExcept x : EStateM ε σ α) s = .ok a s') : x = .ok a ∧ s = s' := by
  cases x <;> cases h
  exact ⟨rfl, rfl⟩

theorem mapError_eq_ok {x : Except ε α} {f : ε → ε'} {a : α} : x.mapError f = .ok a ↔ x = .ok a := by
  cases x with
  | error e => exact ⟨nofun, nofun⟩
  | ok b => exact ⟨fun h => by cases h; rfl, fun h => by cases h; rfl⟩

theorem tryCatch_apply (m : EStateM ε σ α) (f : ε → EStateM ε σ α) (s : σ) :
    tryCatch m f s = match m s with
      | .ok a s' => .ok a s'
      | .error e s' => f e s' := by
  change EStateM.tryCatch m f s = _
  delta EStateM.tryCatch
  cases m s <;> rfl

theorem tryCatch_of_ok {m : EStateM ε σ α} {f : ε → EStateM ε σ α} {s s' : σ} {a : α}
    (h : m s = .ok a s') : tryCatch m f s = .ok a s' := by
  rw [tryCatch_apply, h]

theorem tryCatch_of_error {m : EStateM ε σ α} {f : ε → EStateM ε σ α} {s s' : σ} {e : ε}
    (h : m s = .error e s') : tryCatch m f s = f e s' := by
  rw [tryCatch_apply, h]

theorem adaptExcept_of_ok {m : EStateM ε σ α} {f : ε → ε'} {s s' : σ} {a : α}
    (h : m s = .ok a s') : m.adaptExcept f s = .ok a s' := by
  simp [EStateM.adaptExcept, h]

theorem adaptExcept_of_error {m : EStateM ε σ α} {f : ε → ε'} {s s' : σ} {e : ε}
    (h : m s = .error e s') : m.adaptExcept f s = .error (f e) s' := by
  simp [EStateM.adaptExcept, h]

theorem adaptExcept_eq_ok {m : EStateM ε σ α} {f : ε → ε'} {s s' : σ} {a : α}
    (h : m.adaptExcept f s = .ok a s') : m s = .ok a s' := by
  cases run : m s with
  | ok b t =>
    rw [adaptExcept_of_ok run] at h
    cases h
    rfl
  | error e t => rw [adaptExcept_of_error run] at h; cases h

theorem adaptExcept_eq_error {m : EStateM ε σ α} {f : ε → ε'} {s s' : σ} {e' : ε'}
    (h : m.adaptExcept f s = .error e' s') : ∃ e, m s = .error e s' ∧ e' = f e := by
  cases run : m s with
  | ok b t => rw [adaptExcept_of_ok run] at h; cases h
  | error e t =>
    rw [adaptExcept_of_error run] at h
    cases h
    exact ⟨e, rfl, rfl⟩

def endState : EStateM.Result ε σ α → σ
  | .ok _ s => s
  | .error _ s => s

def answer : EStateM.Result ε σ α → Except ε α
  | .ok a _ => .ok a
  | .error e _ => .error e

/-- However the computation ends, the states before and after it are related. -/
def Keeps (R : σ → σ → Prop) (m : EStateM ε σ α) : Prop := ∀ s, R s (endState (m s))

section Keeps

variable {R : σ → σ → Prop}

theorem Keeps.ok {m : EStateM ε σ α} (keeps : Keeps R m) {s s' : σ} {a : α}
    (h : m s = .ok a s') : R s s' := by
  have related := keeps s
  rwa [h] at related

theorem Keeps.error {m : EStateM ε σ α} (keeps : Keeps R m) {s s' : σ} {e : ε}
    (h : m s = .error e s') : R s s' := by
  have related := keeps s
  rwa [h] at related

theorem Keeps.pure (refl : ∀ s, R s s) (a : α) : Keeps R (pure a : EStateM ε σ α) := refl

theorem Keeps.throw (refl : ∀ s, R s s) (e : ε) : Keeps R (throw e : EStateM ε σ α) := refl

theorem Keeps.ofExcept (refl : ∀ s, R s s) (x : Except ε α) :
    Keeps R (MonadExcept.ofExcept x : EStateM ε σ α) := by
  intro s
  cases x <;> exact refl s

theorem Keeps.bind (trans : ∀ {a b c}, R a b → R b c → R a c) {m : EStateM ε σ α}
    {f : α → EStateM ε σ β} (first : Keeps R m) (second : ∀ a, Keeps R (f a)) :
    Keeps R (m >>= f) := by
  intro s
  cases run : m s with
  | ok a s' => rw [bind_of_ok run]; exact trans (first.ok run) (second a s')
  | error e s' => rw [bind_of_error run]; exact first.error run

end Keeps

def FailsAs (Q : ε → Prop) (m : EStateM ε σ α) : Prop := ∀ s e s', m s = .error e s' → Q e

section FailsAs

variable {Q : ε → Prop}

theorem FailsAs.pure (a : α) : FailsAs Q (pure a : EStateM ε σ α) := nofun

theorem FailsAs.throw {e : ε} (is : Q e) : FailsAs Q (throw e : EStateM ε σ α) := by
  intro s e' s' failed
  cases failed
  exact is

theorem FailsAs.throw_bind {e : ε} (is : Q e) (f : α → EStateM ε σ β) :
    FailsAs Q (MonadExcept.throw e >>= f) := by
  intro s e' s' failed
  cases failed
  exact is

theorem FailsAs.ofExcept {x : Except ε α} (is : ∀ e, x = .error e → Q e) :
    FailsAs Q (MonadExcept.ofExcept x : EStateM ε σ α) := by
  intro s e s' failed
  cases x <;> cases failed
  exact is e rfl

theorem FailsAs.bind {m : EStateM ε σ α} {f : α → EStateM ε σ β} (first : FailsAs Q m)
    (second : ∀ a, FailsAs Q (f a)) : FailsAs Q (m >>= f) := by
  intro s e s'' failed
  cases run : m s with
  | ok a s' => rw [bind_of_ok run] at failed; exact second a s' e s'' failed
  | error e' s' => rw [bind_of_error run] at failed; cases failed; exact first s _ _ run

end FailsAs

inductive SameEnd (R : σ → τ → Prop) : EStateM.Result ε σ α → EStateM.Result ε τ α → Prop
  | ok {s : σ} {t : τ} (a : α) (related : R s t) : SameEnd R (.ok a s) (.ok a t)
  | error {s : σ} {t : τ} (e : ε) (related : R s t) : SameEnd R (.error e s) (.error e t)

/-- Two computations answer the same in related states, and leave related states. -/
def Alike (R : σ → τ → Prop) (m : EStateM ε σ α) (m' : EStateM ε τ α) : Prop :=
  ∀ s t, R s t → SameEnd R (m s) (m' t)

section Alike

variable {R : σ → τ → Prop}

theorem SameEnd.related {r : EStateM.Result ε σ α} {r' : EStateM.Result ε τ α}
    (h : SameEnd R r r') : R (endState r) (endState r') := by
  cases h <;> assumption

theorem SameEnd.ok_eq {r' : EStateM.Result ε τ α} {s : σ} {a : α} (h : SameEnd R (.ok a s) r') :
    ∃ t, r' = .ok a t ∧ R s t := by
  cases h with
  | ok _ related => exact ⟨_, rfl, related⟩

theorem Alike.pure (a : α) : Alike R (pure a : EStateM ε σ α) (pure a) :=
  fun _ _ related => .ok a related

theorem Alike.throw (e : ε) : Alike R (throw e : EStateM ε σ α) (throw e) :=
  fun _ _ related => .error e related

theorem Alike.ofExcept (x : Except ε α) :
    Alike R (MonadExcept.ofExcept x : EStateM ε σ α) (MonadExcept.ofExcept x) := by
  intro s t related
  cases x with
  | ok a => exact .ok a related
  | error e => exact .error e related

theorem Alike.bind {m : EStateM ε σ α} {m' : EStateM ε τ α} {f : α → EStateM ε σ β}
    {f' : α → EStateM ε τ β} (first : Alike R m m') (second : ∀ a, Alike R (f a) (f' a)) :
    Alike R (m >>= f) (m' >>= f') := by
  intro s t related
  have ended := first s t related
  simp only [Bind.bind, EStateM.bind]
  generalize m s = r, m' t = r' at ended
  cases ended with
  | ok a related => exact second a _ _ related
  | error e related => exact .error e related

theorem Alike.adaptExcept {m : EStateM ε σ α} {m' : EStateM ε τ α} (alike : Alike R m m')
    (f : ε → ε') : Alike R (m.adaptExcept f) (m'.adaptExcept f) := by
  intro s t related
  have ended := alike s t related
  unfold EStateM.adaptExcept
  generalize m s = r, m' t = r' at ended
  cases ended with
  | ok a related => exact .ok a related
  | error e related => exact .error (f e) related

end Alike

end RatchetSession.Computation
