import CommandBridge.Panic

/-!
# Actions that may panic

An action on a state either answers or panics, and in both cases leaves a state behind: what was
done before a panic stays done. `Action` is the monad of such actions. Its equations are stated
on results, one for an action that answered and one for an action that panicked, so that a proof
follows the run of an action step by step.
-/

namespace CommandBridge

/-- An action on a state of type `σ` with answers of type `α`. -/
def Action (σ α : Type) : Type := σ → Except Panic α × σ

namespace Action

variable {σ τ α β : Type}

/-- Runs an action on a state. -/
def run (x : Action σ α) (s : σ) : Except Panic α × σ := x s

instance : Monad (Action σ) where
  pure a := fun s => (.ok a, s)
  bind x f := fun s =>
    match x s with
    | (.ok a, s') => f a s'
    | (.error p, s') => (.error p, s')

/-- The action that asks the state a question and leaves it as it is. -/
def ask (f : σ → Except Panic α) : Action σ α := fun s => (f s, s)

/-- The action that answers with the state itself. -/
def current : Action σ σ := fun s => (.ok s, s)

/-- The action that changes the state and cannot fail. -/
def update (f : σ → σ) : Action σ Unit := fun s => (.ok (), f s)

/-- The action that panics. -/
def panic (p : Panic) : Action σ α := fun s => (.error p, s)

/-- An action on a part of the state. -/
def onPart (get : τ → σ) (put : σ → τ → τ) (x : Action σ α) : Action τ α := fun t =>
  let r := x (get t)
  (r.1, put r.2 t)

@[simp] theorem run_pure (a : α) (s : σ) : (pure a : Action σ α).run s = (.ok a, s) := rfl

@[simp] theorem run_ask (f : σ → Except Panic α) (s : σ) : (ask f).run s = (f s, s) := rfl

@[simp] theorem run_current (s : σ) : (current : Action σ σ).run s = (.ok s, s) := rfl

@[simp] theorem run_update (f : σ → σ) (s : σ) : (update f).run s = (.ok (), f s) := rfl

@[simp] theorem run_panic (p : Panic) (s : σ) :
    (panic p : Action σ α).run s = (.error p, s) := rfl

/-- After an answer the rest runs on the state that was left. -/
theorem run_bind_of_ok {x : Action σ α} {f : α → Action σ β} {s s' : σ} {a : α}
    (h : x.run s = (.ok a, s')) : (x >>= f).run s = (f a).run s' := by
  simp only [run] at h
  simp [bind, run, h]

/-- After a panic the rest does not run. -/
theorem run_bind_of_error {x : Action σ α} {f : α → Action σ β} {s s' : σ} {p : Panic}
    (h : x.run s = (.error p, s')) : (x >>= f).run s = (.error p, s') := by
  simp only [run] at h
  simp [bind, run, h]

theorem run_onPart (get : τ → σ) (put : σ → τ → τ) (x : Action σ α) (t : τ) :
    (onPart get put x).run t = ((x.run (get t)).1, put (x.run (get t)).2 t) := rfl

instance : LawfulMonad (Action σ) := LawfulMonad.mk' (Action σ)
  (by
    intro α x
    funext s
    show (match x s with
      | (.ok a, s') => ((Except.ok a : Except Panic α), s')
      | (.error p, s') => (Except.error p, s')) = x s
    rcases x s with ⟨_ | _, _⟩ <;> rfl)
  (by intros; rfl)
  (by
    intro α β γ x f g
    funext s
    show (match (match x s with
        | (.ok a, s') => f a s'
        | (.error p, s') => (Except.error p, s')) with
      | (.ok b, s') => g b s'
      | (.error p, s') => (Except.error p, s')) =
      (match x s with
        | (.ok a, s') => (match f a s' with
          | (.ok b, s') => g b s'
          | (.error p, s') => (Except.error p, s'))
        | (.error p, s') => (Except.error p, s'))
    rcases x s with ⟨_ | _, _⟩ <;> rfl)

end Action

end CommandBridge
