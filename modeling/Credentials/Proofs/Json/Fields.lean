import Credentials.Proofs.Json.Building
import Credentials.Proofs.Json.Reading

/-!
# Fields out of members

* `Tree.foldMembers_eq_ok_iff`   members are walked by their names, and the object has to be closed;
* `Slot.Met`                     what the members of one name make of a field that is met at most once;
* `Slot.met_cons_self`, `Slot.met_cons_of_ne`   one member before others, by its name;
* `Slot.met_cons`                first one member, then those behind it;
* `Given`, `GivenOnce`           the value of a field that may be left out, and of one that may not.

A record is read by walking its members and filling one field at a time. What becomes of a field
depends on the members of its own name only, so each field can be looked at by itself.
-/

namespace Credentials.Json

section
variable {σ : Type} {step : σ → String → Tree → Except Error σ} {ending : Ending} {s s' : σ}

/-- the members are walked by their names, up to the end of the object -/
theorem Tree.foldMembers_eq_ok_iff {written : List Member} :
    Tree.foldMembers step ending s written = .ok s' ↔
      ending = .closed ∧ ∃ ms, Named written ms ∧ ms.foldlM (fun s m => step s m.1 m.2) s = .ok s' := by
  induction written generalizing s with
  | nil =>
    rw [Tree.foldMembers_nil_eq_ok_iff]
    constructor
    · rintro ⟨hc, rfl⟩
      exact ⟨hc, [], .nil, rfl⟩
    · rintro ⟨hc, ms, hn, h⟩
      cases hn
      exact ⟨hc, (Except.ok.inj h).symm⟩
  | cons m written ih =>
    obtain ⟨k, t⟩ := m
    simp only [Tree.foldMembers_cons_eq_ok_iff, ih]
    constructor
    · rintro ⟨name, s₁, hk, hs, hc, ms, hn, h⟩
      refine ⟨hc, (name, t) :: ms, .cons ⟨hk, rfl⟩ hn, ?_⟩
      rw [List.foldlM_cons]
      exact bind_eq_ok_iff.2 ⟨s₁, hs, h⟩
    · rintro ⟨hc, ms, hn, h⟩
      cases hn with
      | @cons _ p _ ms hm hn =>
        obtain ⟨name, u⟩ := p
        obtain ⟨hk, rfl⟩ : Piece.text? k = some name ∧ t = u := hm
        rw [List.foldlM_cons] at h
        obtain ⟨s₁, hs, h⟩ := bind_eq_ok_iff.1 h
        exact ⟨name, s₁, hk, hs, hc, ms, hn, h⟩

end

/-! ## one field -/

section
variable {α : Type} {name n : String} {t : Tree} {ms : List (String × Tree)}

/-- what the members of one name make of a field: without any it stays as it is, and a single one fills
it, if it was not met before -/
def Slot.Met (name : String) (read : Tree → Except Error α) (slot : Slot α) (ms : List (String × Tree))
    (slot' : Slot α) : Prop :=
  match ms.filter fun m => m.1 == name with
  | [] => slot' = slot
  | [m] => slot = none ∧ ∃ a, read m.2 = .ok a ∧ slot' = some a
  | _ => False

variable {read : Tree → Except Error α} {slot slot' : Slot α}

theorem Slot.met_nil : Met name read slot [] slot' ↔ slot' = slot := Iff.rfl

theorem Slot.met_cons_of_ne (h : n ≠ name) :
    Met name read slot ((n, t) :: ms) slot' ↔ Met name read slot ms slot' := by
  unfold Met
  rw [List.filter_cons_of_neg (by simpa using h)]

theorem Slot.met_cons_self : Met name read slot ((name, t) :: ms) slot' ↔
    slot = none ∧ ∃ a, read t = .ok a ∧ Met name read (some a) ms slot' := by
  unfold Met
  rw [List.filter_cons_of_pos (by simp)]
  cases ms.filter fun m => m.1 == name with
  | nil => rfl
  | cons m r => cases r <;> simp

/-- first one member, then those behind it -/
theorem Slot.met_cons {m : String × Tree} : Met name read slot (m :: ms) slot' ↔
    ∃ slot₁, Met name read slot [m] slot₁ ∧ Met name read slot₁ ms slot' := by
  obtain ⟨n, t⟩ := m
  by_cases h : n = name
  · subst h
    simp only [met_cons_self, met_nil]
    constructor
    · rintro ⟨hnone, a, ha, hms⟩
      exact ⟨some a, ⟨hnone, a, ha, rfl⟩, hms⟩
    · rintro ⟨_, ⟨hnone, a, ha, rfl⟩, hms⟩
      exact ⟨hnone, a, ha, hms⟩
  · simp only [met_cons_of_ne h, met_nil, exists_eq_left]

/-- the value of a field that may be left out -/
def Given (name : String) (read : Tree → Except Error (Option α)) (ms : List (String × Tree))
    (o : Option α) : Prop :=
  match ms.filter fun m => m.1 == name with
  | [] => o = none
  | [m] => read m.2 = .ok o
  | _ => False

theorem Given.of_mem {read : Tree → Except Error (Option α)} {o : Option α} (h : Given name read ms o)
    (hm : (name, t) ∈ ms) : read t = .ok o := by
  have hf : (name, t) ∈ ms.filter fun m => m.1 == name := List.mem_filter.2 ⟨hm, beq_self_eq_true name⟩
  unfold Given at h
  split at h
  · rename_i hnil
    rw [hnil] at hf
    cases hf
  · rename_i m hone
    rw [hone, List.mem_singleton] at hf
    rw [← hf] at h
    exact h
  · exact h.elim

/-- the value of a field that has to be there -/
def GivenOnce (name : String) (read : Tree → Except Error α) (ms : List (String × Tree)) (a : α) : Prop :=
  ∃ m, (ms.filter fun m => m.1 == name) = [m] ∧ read m.2 = .ok a

theorem Slot.exists_met_join {read : Tree → Except Error (Option α)} {o : Option α} :
    (∃ slot : Slot (Option α), Met name read none ms slot ∧ slot.join = o) ↔ Given name read ms o := by
  unfold Met Given
  split
  · simp [eq_comm]
  · constructor
    · rintro ⟨_, ⟨-, a, ha, rfl⟩, rfl⟩
      exact ha
    · intro h
      exact ⟨some o, ⟨rfl, o, h, rfl⟩, rfl⟩
  · simp

/-- what became of an empty field is what the members say of it -/
theorem Slot.Met.given {read : Tree → Except Error (Option α)} {slot : Slot (Option α)}
    (h : Met name read none ms slot) : Given name read ms slot.join :=
  exists_met_join.1 ⟨slot, h, rfl⟩

theorem Slot.met_none_some {a : α} : Met name read none ms (some a) ↔ GivenOnce name read ms a := by
  unfold Met GivenOnce
  split
  · rename_i h
    simp [h]
  · rename_i m h
    simp [h]
  · rename_i h₁ h₂
    simp only [false_iff, not_exists, not_and]
    exact fun m hm => absurd hm (h₂ m)

end

end Credentials.Json
