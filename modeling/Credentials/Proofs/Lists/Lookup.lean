import Mathlib.Data.List.Nodup

/-!
# Lists of pairs, and lists without repetitions

* `mem_zip_lookups`, `length_lookups`     keys side by side with what they are looked up as;
* `mem_of_lookup`, `lookup_of_mem`        what is looked up is there, and the other way round if no key
                                          comes twice;
* `nodup_eraseDups`                       nothing comes twice once repetitions are dropped;
* `of_getElem?_append_singleton`          a place in a list that has grown by one.
-/

namespace Credentials

section
variable {κ α : Type} [BEq κ] {k : κ} {a : α} {l : List (κ × α)}

theorem mem_zip_lookups (ks : List κ) (hf : ∀ n ∈ ks, ∃ b, l.lookup n = some b) :
    (k, a) ∈ ks.zip (ks.filterMap fun n => l.lookup n) ↔ k ∈ ks ∧ l.lookup k = some a := by
  induction ks with
  | nil => exact ⟨fun h => (nomatch h), fun h => (nomatch h.1)⟩
  | cons n r ih =>
    obtain ⟨b, hb⟩ := hf n (List.mem_cons_self ..)
    have ih := ih fun m hm => hf m (List.mem_cons_of_mem n hm)
    rw [List.filterMap_cons_some (f := fun n => l.lookup n) hb, List.zip_cons_cons, List.mem_cons,
      ih, List.mem_cons, Prod.mk.injEq]
    constructor
    · rintro (⟨rfl, rfl⟩ | ⟨hk, ha⟩)
      · exact ⟨.inl rfl, hb⟩
      · exact ⟨.inr hk, ha⟩
    · rintro ⟨rfl | hk, ha⟩
      · exact .inl ⟨rfl, Option.some.inj (ha.symm.trans hb)⟩
      · exact .inr ⟨hk, ha⟩

theorem length_lookups (ks : List κ) (hf : ∀ n ∈ ks, ∃ b, l.lookup n = some b) :
    (ks.filterMap fun n => l.lookup n).length = ks.length := by
  induction ks with
  | nil => rfl
  | cons n r ih =>
    obtain ⟨b, hb⟩ := hf n (List.mem_cons_self ..)
    rw [List.filterMap_cons_some (f := fun n => l.lookup n) hb, List.length_cons, List.length_cons,
      ih fun m hm => hf m (List.mem_cons_of_mem n hm)]

variable [LawfulBEq κ]

theorem mem_of_lookup (h : l.lookup k = some a) : (k, a) ∈ l := by
  obtain ⟨r, t, rfl, -⟩ := List.lookup_eq_some_iff.1 h
  exact List.mem_append_right r (List.mem_cons_self ..)

theorem lookup_of_mem (hd : (l.map Prod.fst).Nodup) (h : (k, a) ∈ l) : l.lookup k = some a := by
  obtain ⟨r, t, rfl⟩ := List.append_of_mem h
  refine List.lookup_eq_some_iff.2 ⟨r, t, rfl, fun p hp => bne_iff_ne.2 fun e => ?_⟩
  rw [List.map_append, List.map_cons] at hd
  have hn := (List.nodup_append.1 hd).2.2 p.1 (List.mem_map_of_mem hp) k (List.mem_cons_self ..)
  exact hn e.symm

theorem nodup_eraseDups (ks : List κ) : ks.eraseDups.Nodup := by
  cases ks with
  | nil => exact List.nodup_nil
  | cons n r =>
    rw [List.eraseDups_cons, List.nodup_cons]
    refine ⟨fun h => ?_, nodup_eraseDups (r.filter fun m => !m == n)⟩
    have hn := (List.mem_filter.1 (List.mem_eraseDups.1 h)).2
    rw [beq_self_eq_true] at hn
    cases hn
termination_by ks.length
decreasing_by
  have hl := List.length_filter_le (fun m => !m == n) r
  rw [List.length_cons]
  omega

end

theorem of_getElem?_append_singleton {α : Type} {l : List α} {x y : α} {i : Nat}
    (h : (l ++ [x])[i]? = some y) : (i < l.length ∧ l[i]? = some y) ∨ (i = l.length ∧ y = x) := by
  rw [List.getElem?_append] at h
  split at h
  · rename_i hl
    exact .inl ⟨hl, h⟩
  · rename_i hl
    obtain ⟨hi, h⟩ := List.getElem?_eq_some_iff.1 h
    rw [List.length_singleton] at hi
    rw [List.getElem_singleton] at h
    exact .inr ⟨by omega, h.symm⟩

end Credentials
