import Credentials.Proofs.Token.Run

/-!
# What was registered, and when

* `Authority.registrations`   the keys that calls register, one after another;
* `KeyRing.Records`           a ring is what is left of a history of registrations: the activation number
                              of a key is its place in the history, and its identifier was not registered
                              again since;
* `Authority.records_reachable`   every ring that calls lead to is so;
* `Authority.nextActivation_le_length`   the next activation number is not above the number of calls.

A key that is pruned leaves a gap in the ring, and a key that is revoked stays where it is. So the
history cannot be read off the ring, but the order of two keys in it can.
-/

namespace Credentials

namespace Authority

/-- the keys that calls register, one after another -/
def registrations (a : Authority) : List Call → List SigningKey
  | [] => []
  | c :: cs => (a.registers c).toList ++ (a.after c).registrations cs

end Authority

namespace KeyRing

/-- a ring is what is left of a history of registrations -/
structure Records (r : KeyRing) (history : List SigningKey) : Prop where
  next : r.nextActivation = history.length
  placed : ∀ e ∈ r.entries, history[e.activation]? = some e.key
  newest : ∀ e ∈ r.entries, ∀ n k, e.activation < n → history[n]? = some k → k.keyId ≠ e.key.keyId

variable {r s : KeyRing} {history : List SigningKey}

theorem records_empty : empty.Records [] :=
  ⟨rfl, fun _ h => absurd h List.not_mem_nil, fun _ h => absurd h List.not_mem_nil⟩

theorem Records.lt_length (h : r.Records history) {e : KeyEntry} (he : e ∈ r.entries) :
    e.activation < history.length := by
  obtain ⟨hlt, -⟩ := List.getElem?_eq_some_iff.1 (h.placed e he)
  exact hlt

/-- a key that is registered belongs to the end of the history that its number stands in -/
theorem Records.length_le_iff {added : List SigningKey} (h : r.Records (history ++ added))
    {e : KeyEntry} (he : e ∈ r.entries) : history.length ≤ e.activation ↔ e.key ∈ added := by
  have hplace := h.placed e he
  constructor
  · intro hle
    rw [List.getElem?_append_right hle] at hplace
    exact List.mem_of_getElem? hplace
  · intro hm
    by_contra hlt
    obtain ⟨n, hn⟩ := List.mem_iff_getElem?.1 hm
    -- its identifier would have been registered again
    refine h.newest e he (history.length + n) e.key (by omega) ?_ rfl
    rw [List.getElem?_append_right (Nat.le_add_right _ _), Nat.add_sub_cancel_left]
    exact hn

/-- entries that keep their keys and their numbers keep their places -/
theorem Records.of_subset (h : r.Records history) (hn : s.nextActivation = r.nextActivation)
    (hs : ∀ e ∈ s.entries, ∃ f ∈ r.entries, f.key = e.key ∧ f.activation = e.activation) :
    s.Records history := by
  refine ⟨hn.trans h.next, fun e he => ?_, fun e he => ?_⟩
  · obtain ⟨f, hf, hk, ha⟩ := hs e he
    rw [← hk, ← ha]
    exact h.placed f hf
  · obtain ⟨f, hf, hk, ha⟩ := hs e he
    rw [← hk, ← ha]
    exact h.newest f hf

/-- a key that is registered takes the next place -/
theorem Records.of_insert (h : r.Records history) {k : SigningKey} (hi : r.insert k = .ok s) :
    s.Records (history ++ [k]) := by
  obtain ⟨-, -, hfree, rfl⟩ := insert_eq_ok_iff.1 hi
  have hother : ∀ e ∈ r.entries, k.keyId ≠ e.key.keyId := fun e he =>
    (find?_eq_none_iff.1 hfree e he).symm
  refine ⟨?_, fun e he => ?_, fun e he n k' hn hk' => ?_⟩
  · rw [h.next, List.length_append, List.length_singleton]
  · rcases List.mem_append.1 he with he | he
    · rw [List.getElem?_append_left (h.lt_length he)]
      exact h.placed e he
    · obtain rfl := List.mem_singleton.1 he
      rw [h.next]
      simp
  · have hlen : n < (history ++ [k]).length := (List.getElem?_eq_some_iff.1 hk').1
    rw [List.length_append, List.length_singleton] at hlen
    rcases List.mem_append.1 he with he | he
    · by_cases hlast : n < history.length
      · rw [List.getElem?_append_left hlast] at hk'
        exact h.newest e he n k' hn hk'
      · -- the last place is that of the new key
        obtain rfl : n = history.length := by omega
        rw [List.getElem?_append_right (Nat.le_refl _), Nat.sub_self] at hk'
        rw [← Option.some.inj hk']
        exact hother e he
    · obtain rfl := List.mem_singleton.1 he
      have hnext := h.next
      simp only at hn
      omega

theorem Records.of_steps (h : r.Records history) {c : Authority.Call} {k : Option SigningKey}
    (hc : c.Steps k r s) : s.Records (history ++ k.toList) := by
  cases hc with
  | nothing => simpa using h
  | insert _ hi => exact h.of_insert hi
  | revoke hi =>
    rw [Option.toList_none, List.append_nil]
    exact h.of_subset (nextActivation_of_revoke hi) fun e he => exists_of_mem_revoke hi he
  | prune t =>
    rw [Option.toList_none, List.append_nil]
    exact h.of_subset rfl fun e he => ⟨e, (List.mem_filter.1 he).1, rfl, rfl⟩

end KeyRing

namespace Authority

variable {a : Authority} {r : KeyRing} {history : List SigningKey}

theorem records_afterAll (hr : a.provider = .rotating r) (h : r.Records history) (cs : List Call) :
    ∃ s, (a.afterAll cs).provider = .rotating s ∧ s.Records (history ++ a.registrations cs) := by
  -- the history grows at its end, so it is kept general
  induction cs generalizing a r history with
  | nil =>
    rw [registrations, List.append_nil]
    exact ⟨r, hr, h⟩
  | cons c cs ih =>
    obtain ⟨s, hs, hc⟩ := steps_after hr c
    obtain ⟨t, ht, hrec⟩ := ih hs (h.of_steps hc)
    rw [registrations, ← List.append_assoc]
    exact ⟨t, ht, hrec⟩

/-- every ring that calls lead to is what is left of the keys they registered -/
theorem records_reachable (a : Authority) (cs : List Call) :
    ∃ s, (a.emptied.afterAll cs).provider = .rotating s ∧ s.Records (a.emptied.registrations cs) := by
  have h := records_afterAll (a := a.emptied) rfl KeyRing.records_empty cs
  rwa [List.nil_append] at h

/-- a call registers one key at most -/
theorem length_registrations_le (a : Authority) (cs : List Call) :
    (a.registrations cs).length ≤ cs.length := by
  induction cs generalizing a with
  | nil => exact Nat.le_refl _
  | cons c cs ih =>
    have hone : (a.registers c).toList.length ≤ 1 := by cases a.registers c <;> simp
    rw [registrations, List.length_append, List.length_cons, Nat.add_comm cs.length]
    exact Nat.add_le_add hone (ih (a.after c))

/-- a number of 64 bits is enough for fewer than `2 ^ 64` calls, whatever they register -/
theorem nextActivation_le_length (a : Authority) (cs : List Call) :
    ∃ s, (a.emptied.afterAll cs).provider = .rotating s ∧ s.nextActivation ≤ cs.length := by
  obtain ⟨s, hs, h⟩ := records_reachable a cs
  exact ⟨s, hs, h.next ▸ length_registrations_le a.emptied cs⟩

end Authority

end Credentials
