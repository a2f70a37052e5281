/-!
# Computations with state that may fail

* `Effect σ ε α`       from a state to an outcome and the next state; a failure keeps the state it
                       is met in;
* `Effect.onFailure`   looks at a failure and lets it through.
-/

namespace Credentials

/-- a computation on a state -/
def Effect (σ ε α : Type) := σ → Except ε α × σ

namespace Effect

variable {σ ε α β : Type}

/-- the outcome and the state behind it -/
def run (x : Effect σ ε α) (s : σ) : Except ε α × σ := x s

instance : Monad (Effect σ ε) where
  pure a := fun s => (.ok a, s)
  bind x f := fun s =>
    match x s with
    | (.ok a, t) => f a t
    | (.error e, t) => (.error e, t)

/-- fails -/
def fail (e : ε) : Effect σ ε α := fun s => (.error e, s)

/-- an outcome that is known already -/
def ofExcept (r : Except ε α) : Effect σ ε α := fun s => (r, s)

/-- the state -/
def get : Effect σ ε σ := fun s => (.ok s, s)

/-- changes the state -/
def modify (f : σ → σ) : Effect σ ε Unit := fun s => (.ok (), f s)

/-- changes the state and answers -/
def modifyGet (f : σ → α × σ) : Effect σ ε α := fun s =>
  let (a, t) := f s
  (.ok a, t)

/-- runs `handle` on the state of a failure, which stays a failure -/
def onFailure (x : Effect σ ε α) (handle : ε → σ → σ) : Effect σ ε α := fun s =>
  match x s with
  | (.ok a, t) => (.ok a, t)
  | (.error e, t) => (.error e, handle e t)

/-! ## What runs do -/

@[simp] theorem run_pure (a : α) (s : σ) : (pure a : Effect σ ε α).run s = (.ok a, s) := rfl

@[simp] theorem run_bind (x : Effect σ ε α) (f : α → Effect σ ε β) (s : σ) :
    (x >>= f).run s =
      match x.run s with
      | (.ok a, t) => (f a).run t
      | (.error e, t) => (.error e, t) := rfl

@[simp] theorem run_fail (e : ε) (s : σ) : (fail e : Effect σ ε α).run s = (.error e, s) := rfl

@[simp] theorem run_ofExcept (r : Except ε α) (s : σ) :
    (ofExcept r : Effect σ ε α).run s = (r, s) := rfl

@[simp] theorem run_get (s : σ) : (get : Effect σ ε σ).run s = (.ok s, s) := rfl

@[simp] theorem run_modify (f : σ → σ) (s : σ) :
    (modify f : Effect σ ε Unit).run s = (.ok (), f s) := rfl

@[simp] theorem run_modifyGet (f : σ → α × σ) (s : σ) :
    (modifyGet f : Effect σ ε α).run s = (.ok (f s).1, (f s).2) := rfl

@[simp] theorem run_onFailure (x : Effect σ ε α) (handle : ε → σ → σ) (s : σ) :
    (x.onFailure handle).run s =
      match x.run s with
      | (.ok a, t) => (.ok a, t)
      | (.error e, t) => (.error e, handle e t) := rfl

end Effect

end Credentials
