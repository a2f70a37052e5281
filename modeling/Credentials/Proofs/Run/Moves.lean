import Credentials.Run.Effect

/-!
# How far a computation may move its state

* `Effect.run_bind_of_ok`   behind a success the run goes on with its answer and its state;
* `Effect.run_bind_fst`     the outcome of two steps, if the second one only looks at the answer;
* `Effect.Moves`            from every state a computation ends in a related one, whether it fails
                            or not.

For a relation that is reflexive and transitive, such as "this part of the state is kept", it is
enough to look at the primitive steps.
-/

namespace Credentials.Effect

variable {σ ε α β γ : Type} {R : σ → σ → Prop}

/-- steps one behind the other, however they are grouped -/
theorem bind_assoc (x : Effect σ ε α) (f : α → Effect σ ε β) (g : β → Effect σ ε γ) :
    x >>= f >>= g = x >>= fun a => f a >>= g := by
  funext s
  show ((x >>= f) >>= g).run s = (x >>= fun a => f a >>= g).run s
  simp only [run_bind]
  cases x.run s with
  | mk r t => cases r <;> rfl

/-- behind a success -/
theorem run_bind_of_ok {x : Effect σ ε α} {s : σ} {a : α} (h : (x.run s).1 = .ok a)
    (f : α → Effect σ ε β) : (x >>= f).run s = (f a).run (x.run s).2 := by
  rw [run_bind]
  cases hr : x.run s with
  | mk r t =>
    rw [hr] at h
    obtain rfl : r = .ok a := h
    rfl

/-- behind a failure -/
theorem run_bind_of_error {x : Effect σ ε α} {s : σ} {e : ε} (h : (x.run s).1 = .error e)
    (f : α → Effect σ ε β) : (x >>= f).run s = (.error e, (x.run s).2) := by
  rw [run_bind]
  cases hr : x.run s with
  | mk r t =>
    rw [hr] at h
    obtain rfl : r = .error e := h
    rfl

/-- a success has nothing to be looked at -/
theorem run_onFailure_of_ok {x : Effect σ ε α} {s : σ} {a : α} (h : (x.run s).1 = .ok a)
    (handle : ε → σ → σ) : (x.onFailure handle).run s = x.run s := by
  rw [run_onFailure]
  cases hr : x.run s with
  | mk r t =>
    rw [hr] at h
    obtain rfl : r = .ok a := h
    rfl

theorem run_onFailure_of_error {x : Effect σ ε α} {s : σ} {e : ε} (h : (x.run s).1 = .error e)
    (handle : ε → σ → σ) : (x.onFailure handle).run s = (.error e, handle e (x.run s).2) := by
  rw [run_onFailure]
  cases hr : x.run s with
  | mk r t =>
    rw [hr] at h
    obtain rfl : r = .error e := h
    rfl

/-- looking at a failure changes no outcome -/
theorem run_onFailure_fst (x : Effect σ ε α) (handle : ε → σ → σ) (s : σ) :
    ((x.onFailure handle).run s).1 = (x.run s).1 := by
  rw [run_onFailure]
  cases hr : x.run s with
  | mk r t => cases r <;> rfl

/-- a success of two steps is one of both -/
theorem ok_of_run_bind {x : Effect σ ε α} {f : α → Effect σ ε β} {s : σ} {b : β}
    (h : ((x >>= f).run s).1 = .ok b) :
    ∃ a, (x.run s).1 = .ok a ∧ (x >>= f).run s = (f a).run (x.run s).2 := by
  cases hx : (x.run s).1 with
  | ok a => exact ⟨a, rfl, run_bind_of_ok hx f⟩
  | error e =>
    rw [run_bind_of_error hx] at h
    cases h

/-- the outcome of two steps, if nothing but the answer of the first one matters to the second -/
theorem run_bind_fst {x : Effect σ ε α} {f : α → Effect σ ε β} {s : σ} {r : Except ε α}
    {g : α → Except ε β} (hx : (x.run s).1 = r)
    (hf : ∀ a, (x.run s).1 = .ok a → ((f a).run (x.run s).2).1 = g a) :
    ((x >>= f).run s).1 = r >>= g := by
  subst hx
  cases hr : (x.run s).1 with
  | ok a =>
    rw [run_bind_of_ok hr]
    exact hf a hr
  | error e =>
    rw [run_bind_of_error hr]
    rfl

/-- every run ends in a state that is related to its first one -/
def Moves (R : σ → σ → Prop) (x : Effect σ ε α) : Prop := ∀ s, R s (x.run s).2

theorem moves_modify {f : σ → σ} (h : ∀ s, R s (f s)) : Moves R (modify f : Effect σ ε Unit) := h

theorem moves_modifyGet {f : σ → α × σ} (h : ∀ s, R s (f s).2) :
    Moves R (modifyGet f : Effect σ ε α) := h

section
variable [Std.Refl R]

theorem moves_pure (a : α) : Moves R (pure a : Effect σ ε α) := fun s => Std.Refl.refl s

theorem moves_fail (e : ε) : Moves R (fail e : Effect σ ε α) := fun s => Std.Refl.refl s

theorem moves_ofExcept (r : Except ε α) : Moves R (ofExcept r : Effect σ ε α) :=
  fun s => Std.Refl.refl s

theorem moves_get : Moves R (get : Effect σ ε σ) := fun s => Std.Refl.refl s

/-- what comes behind a computation moves its last state only -/
theorem moves_behind {f : α → Effect σ ε β} (hf : ∀ a, Moves R (f a)) (x : Effect σ ε α) (s : σ) :
    R (x.run s).2 ((x >>= f).run s).2 := by
  cases hr : (x.run s).1 with
  | ok a =>
    rw [run_bind_of_ok hr]
    exact hf a _
  | error e =>
    rw [run_bind_of_error hr]
    exact Std.Refl.refl _

/-- looking at a failure moves its last state only -/
theorem moves_looking {handle : ε → σ → σ} (hh : ∀ e s, R s (handle e s)) (x : Effect σ ε α) (s : σ) :
    R (x.run s).2 ((x.onFailure handle).run s).2 := by
  cases hr : (x.run s).1 with
  | ok a =>
    rw [run_onFailure_of_ok hr]
    exact Std.Refl.refl _
  | error e =>
    rw [run_onFailure_of_error hr]
    exact hh e _

end

section
variable [Trans R R R]

theorem moves_bind {x : Effect σ ε α} {f : α → Effect σ ε β} (hx : Moves R x)
    (hf : ∀ a, Moves R (f a)) : Moves R (x >>= f) := by
  intro s
  have h := hx s
  rw [run_bind]
  cases hr : x.run s with
  | mk r t =>
    rw [hr] at h
    cases r with
    | ok a => exact Trans.trans h (hf a t)
    | error e => exact h

theorem moves_onFailure {x : Effect σ ε α} {handle : ε → σ → σ} (hx : Moves R x)
    (hh : ∀ e s, R s (handle e s)) : Moves R (x.onFailure handle) := by
  intro s
  have h := hx s
  rw [run_onFailure]
  cases hr : x.run s with
  | mk r t =>
    rw [hr] at h
    cases r with
    | ok a => exact h
    | error e => exact Trans.trans h (hh e t)

end

end Credentials.Effect
