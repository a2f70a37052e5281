import Credentials.Json.Record
import Credentials.Proofs.Run.Outcome

/-!
# When a reader succeeds

* `orMalformed_eq_ok_iff`, `Tree.mismatch_ne_ok`, `Tree.optional_eq_ok_iff`   readers of one value;
* `Slot.fill_eq_ok_iff`, `Slot.require_eq_ok_iff`  fields that are met once, and have to be there;
* `Tree.foldMembers_cons_eq_ok_iff`                one member, and those behind it.

A reader that succeeds has met no problem before its end, so each of these says that all steps have
succeeded, and with what.
-/

namespace Credentials.Json

theorem orMalformed_eq_ok_iff {α : Type} {o : Option α} {a : α} :
    orMalformed o = .ok a ↔ o = some a := by
  cases o with
  | none => simp [orMalformed]
  | some b => simp [orMalformed]

/-- a reader's complaint is no value -/
theorem Tree.mismatch_ne_ok {α : Type} (t : Tree) (expected : String) (x : α) :
    t.mismatch expected ≠ .ok x := by
  intro h
  obtain ⟨_, -, he⟩ := bind_eq_ok_iff.1 h
  cases he

theorem Ending.close_eq_ok_iff {e : Ending} : e.close = .ok () ↔ e = .closed := by
  cases e with
  | closed => exact ⟨fun _ => rfl, fun _ => rfl⟩
  | cut => exact ⟨fun h => (nomatch h), fun h => (nomatch h)⟩

theorem Tree.skip_eq_ok_iff {t : Tree} : t.skip = .ok () ↔ t.isWhole = true := by
  unfold skip
  split
  · exact iff_of_true rfl ‹_›
  · exact iff_of_false (fun h => (nomatch h)) ‹_›

/-- `null` is read as nothing, and anything else by its reader -/
theorem Tree.optional_eq_ok_iff {α : Type} {read : Tree → Except Error α} {t : Tree} {o : Option α} :
    t.optional read = .ok o ↔
      (t = .null ∧ o = none) ∨ (t ≠ .null ∧ ∃ a, read t = .ok a ∧ o = some a) := by
  by_cases hnull : t = .null
  · subst hnull
    simp [optional, eq_comm]
  · have hread : t.optional read = (read t).map some := by
      cases t <;> first | rfl | exact absurd rfl hnull
    rw [hread, map_eq_ok_iff]
    simp [hnull]

/-! ## fields -/

section
variable {α σ : Type} {name : String} {slot : Slot α}

/-- a field is filled once, from a value that can be read -/
theorem Slot.fill_eq_ok_iff {r : Except Error α} {f : Slot α → σ} {s : σ} :
    (Slot.fill name slot r >>= fun v => .ok (f v)) = .ok s ↔
      slot = none ∧ ∃ a, r = .ok a ∧ s = f (some a) := by
  rw [bind_eq_ok_iff]
  cases slot with
  | some a => simp [Slot.fill]
  | none =>
    show (∃ v, r.map some = .ok v ∧ _) ↔ _
    simp only [map_eq_ok_iff, Except.ok.injEq, true_and]
    constructor
    · rintro ⟨_, ⟨a, ha, rfl⟩, rfl⟩
      exact ⟨a, ha, rfl⟩
    · rintro ⟨a, ha, rfl⟩
      exact ⟨some a, ⟨a, ha, rfl⟩, rfl⟩

theorem Slot.require_eq_ok_iff {a : α} : Slot.require name slot = .ok a ↔ slot = some a := by
  cases slot with
  | none => simp [Slot.require]
  | some b => simp [Slot.require]

end

/-! ## members -/

section
variable {σ : Type} {step : σ → String → Tree → Except Error σ} {ending : Ending} {s s' : σ}

theorem Tree.foldMembers_nil_eq_ok_iff :
    Tree.foldMembers step ending s [] = .ok s' ↔ ending = .closed ∧ s' = s := by
  rw [Tree.foldMembers, bind_eq_ok_iff]
  constructor
  · rintro ⟨⟨⟩, hc, h⟩
    exact ⟨Ending.close_eq_ok_iff.1 hc, (Except.ok.inj h).symm⟩
  · rintro ⟨hc, rfl⟩
    exact ⟨(), Ending.close_eq_ok_iff.2 hc, rfl⟩

theorem Tree.foldMembers_cons_eq_ok_iff {k : List Piece} {t : Tree} {r : List Member} :
    Tree.foldMembers step ending s ((k, t) :: r) = .ok s' ↔ ∃ name s₁, Piece.text? k = some name ∧
      step s name t = .ok s₁ ∧ Tree.foldMembers step ending s₁ r = .ok s' := by
  rw [Tree.foldMembers]
  simp only [bind_eq_ok_iff, orMalformed_eq_ok_iff]
  constructor
  · rintro ⟨name, hk, s₁, hs, h⟩
    exact ⟨name, s₁, hk, hs, h⟩
  · rintro ⟨name, s₁, hk, hs, h⟩
    exact ⟨name, hk, s₁, hs, h⟩

end

end Credentials.Json
