import Credentials.Proofs.Run.Moves

/-!
# Two runs side by side

* `Effect.Agree`      two outcomes are both successes of related answers, or the same failure;
* `Effect.AlikeUpTo`  from related states, two computations have outcomes that agree and end in related
                      states;
* `Effect.Alike`      the same with equal answers;
* `Effect.AlikeUpTo.framed`   what one of two computations leaves as it is can be added to the relation.

For a relation such as "the same but for the log", it is enough to look at the primitive steps. A
computation that reads its state is another one on the other side, so there are two of them.
-/

namespace Credentials.Effect

variable {σ ε α α' β β' : Type} {R : σ → σ → Prop} {Q : α → α' → Prop} {P : β → β' → Prop}

/-- both are successes of related answers, or both the same failure -/
inductive Agree (Q : α → α' → Prop) : Except ε α → Except ε α' → Prop
  | ok {a : α} {b : α'} (h : Q a b) : Agree Q (.ok a) (.ok b)
  | error (e : ε) : Agree Q (.error e) (.error e)

theorem Agree.refl {Q : α → α → Prop} (h : ∀ a, Q a a) (r : Except ε α) : Agree Q r r := by
  cases r with
  | ok a => exact .ok (h a)
  | error e => exact .error e

theorem Agree.elim {r : Except ε α} {s : Except ε α'} (h : Agree Q r s) :
    (∃ a b, r = .ok a ∧ s = .ok b ∧ Q a b) ∨ ∃ e, r = .error e ∧ s = .error e := by
  cases h with
  | ok h => exact Or.inl ⟨_, _, rfl, rfl, h⟩
  | error e => exact Or.inr ⟨e, rfl, rfl⟩

theorem agree_eq_iff {r s : Except ε α} : Agree Eq r s ↔ r = s := by
  constructor
  · rintro (h | e)
    · rw [h]
    · rfl
  · rintro rfl
    exact .refl (fun _ => rfl) r

/-- two computations have outcomes that agree and end in related states, if they start in such -/
def AlikeUpTo (R : σ → σ → Prop) (Q : α → α' → Prop) (x : Effect σ ε α) (y : Effect σ ε α') : Prop :=
  ∀ s t, R s t → Agree Q (x.run s).1 (y.run t).1 ∧ R (x.run s).2 (y.run t).2

/-- from related states, two computations have the same outcome and end in related states -/
def Alike (R : σ → σ → Prop) (x y : Effect σ ε α) : Prop :=
  ∀ s t, R s t → (x.run s).1 = (y.run t).1 ∧ R (x.run s).2 (y.run t).2

theorem alike_iff {x y : Effect σ ε α} : Alike R x y ↔ AlikeUpTo R Eq x y := by
  unfold Alike AlikeUpTo
  simp only [agree_eq_iff]

/-! ## answers that are related -/

namespace AlikeUpTo

theorem pure {a : α} {b : α'} (h : Q a b) :
    AlikeUpTo R Q (pure a : Effect σ ε α) (pure b : Effect σ ε α') := fun _ _ hr => ⟨.ok h, hr⟩

theorem fail (e : ε) : AlikeUpTo R Q (fail e : Effect σ ε α) (fail e) := fun _ _ hr => ⟨.error e, hr⟩

theorem ofExcept {r : Except ε α} {s : Except ε α'} (h : Agree Q r s) :
    AlikeUpTo R Q (ofExcept r : Effect σ ε α) (ofExcept s) := fun _ _ hr => ⟨h, hr⟩

theorem bind {x : Effect σ ε α} {y : Effect σ ε α'} {f : α → Effect σ ε β} {g : α' → Effect σ ε β'}
    (hx : AlikeUpTo R Q x y) (hf : ∀ a b, Q a b → AlikeUpTo R P (f a) (g b)) :
    AlikeUpTo R P (x >>= f) (y >>= g) := by
  intro s t hr
  obtain ⟨ho, h⟩ := hx s t hr
  rcases ho.elim with ⟨a, b, hs, ht, hq⟩ | ⟨e, hs, ht⟩
  · rw [run_bind_of_ok hs, run_bind_of_ok ht]
    exact hf a b hq _ _ h
  · rw [run_bind_of_error hs, run_bind_of_error ht]
    exact ⟨.error e, h⟩

/-- computations that read their states -/
theorem get_bind {f : σ → Effect σ ε α} {g : σ → Effect σ ε α'}
    (h : ∀ s t, R s t → AlikeUpTo R Q (f s) (g t)) : AlikeUpTo R Q (get >>= f) (get >>= g) :=
  fun s t hr => h s t hr s t hr

theorem onFailure {x : Effect σ ε α} {y : Effect σ ε α'} {handle handle' : ε → σ → σ}
    (hx : AlikeUpTo R Q x y) (hh : ∀ e s t, R s t → R (handle e s) (handle' e t)) :
    AlikeUpTo R Q (x.onFailure handle) (y.onFailure handle') := by
  intro s t hr
  obtain ⟨ho, h⟩ := hx s t hr
  refine ⟨by rw [run_onFailure_fst, run_onFailure_fst]; exact ho, ?_⟩
  rcases ho.elim with ⟨a, b, hs, ht, -⟩ | ⟨e, hs, ht⟩
  · rw [run_onFailure_of_ok hs, run_onFailure_of_ok ht]
    exact h
  · rw [run_onFailure_of_error hs, run_onFailure_of_error ht]
    exact hh e _ _ h

/-- what the first of two computations leaves as it is can be added to the relation -/
theorem framed {K : σ → Prop} {x : Effect σ ε α} {y : Effect σ ε α'} (h : AlikeUpTo R Q x y)
    (hk : x.Moves fun s t => K s → K t) : AlikeUpTo (fun s t => R s t ∧ K s) Q x y :=
  fun s t hr => ⟨(h s t hr.1).1, (h s t hr.1).2, hk s hr.2⟩

end AlikeUpTo

/-! ## answers that are equal -/

theorem alike_pure (a : α) : Alike R (pure a : Effect σ ε α) (pure a) := fun _ _ h => ⟨rfl, h⟩

theorem alike_fail (e : ε) : Alike R (fail e : Effect σ ε α) (fail e) := fun _ _ h => ⟨rfl, h⟩

theorem alike_ofExcept (r : Except ε α) : Alike R (ofExcept r : Effect σ ε α) (ofExcept r) :=
  fun _ _ h => ⟨rfl, h⟩

theorem alike_modify {f g : σ → σ} (h : ∀ s t, R s t → R (f s) (g t)) :
    Alike R (modify f : Effect σ ε Unit) (modify g) := fun s t hr => ⟨rfl, h s t hr⟩

theorem alike_modifyGet {f g : σ → α × σ}
    (h : ∀ s t, R s t → (f s).1 = (g t).1 ∧ R (f s).2 (g t).2) :
    Alike R (modifyGet f : Effect σ ε α) (modifyGet g) :=
  fun s t hr => ⟨congrArg Except.ok (h s t hr).1, (h s t hr).2⟩

/-- behind equal answers -/
theorem Alike.bind {x y : Effect σ ε α} {f : α → Effect σ ε β} {g : α → Effect σ ε β'}
    (hx : Alike R x y) (hf : ∀ a, AlikeUpTo R P (f a) (g a)) : AlikeUpTo R P (x >>= f) (y >>= g) :=
  (alike_iff.1 hx).bind fun a _ h => h ▸ hf a

theorem alike_bind {x y : Effect σ ε α} {f g : α → Effect σ ε β} (hx : Alike R x y)
    (hf : ∀ a, Alike R (f a) (g a)) : Alike R (x >>= f) (y >>= g) :=
  alike_iff.2 (hx.bind fun a => alike_iff.1 (hf a))

/-- computations that read their states -/
theorem alike_get_bind {f g : σ → Effect σ ε α} (h : ∀ s t, R s t → Alike R (f s) (g t)) :
    Alike R (get >>= f) (get >>= g) := fun s t hr => h s t hr s t hr

theorem alike_onFailure {x y : Effect σ ε α} {handle handle' : ε → σ → σ} (hx : Alike R x y)
    (hh : ∀ e s t, R s t → R (handle e s) (handle' e t)) :
    Alike R (x.onFailure handle) (y.onFailure handle') :=
  alike_iff.2 ((alike_iff.1 hx).onFailure hh)

end Credentials.Effect
