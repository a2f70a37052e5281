import Credentials.Proofs.Token.Run

/-!
# Which key signs

* `KeyEntry.Eligible`        a key in use whose window has begun and covers an expiration;
* `KeyRing.select?_eq_none_iff`   no key is selected if and only if none is eligible;
* `KeyRing.of_select?`       a key that is selected is eligible, and no eligible one was activated later;
* `KeyRing.mem_activeKeyIds`   the keys that are listed;
* `Authority.select_fst`     the answer of an authority over a ring, faults or not;
* `Authority.ok_of_select`   a signer of a ring is one of its keys, faults or not.
-/

namespace Credentials

/-- a key in use whose window has begun and covers an expiration -/
structure KeyEntry.Eligible (e : KeyEntry) (now expiration : Instant) : Prop where
  inUse : e.revoked = false
  begun : e.key.validFrom ≤ now
  covering : expiration ≤ e.key.validUntil

theorem KeyEntry.covers_iff {e : KeyEntry} {now expiration : Instant} :
    e.covers now expiration = true ↔ e.Eligible now expiration := by
  unfold covers
  simp only [Bool.and_eq_true, Bool.not_eq_true', decide_eq_true_eq]
  exact ⟨fun h => ⟨h.1.1, h.1.2, h.2⟩, fun h => ⟨⟨h.inUse, h.begun⟩, h.covering⟩⟩

namespace KeyRing

variable {r : KeyRing} {now expiration : Instant}

theorem later_cases (a b : KeyEntry) :
    (later a b = a ∧ b.activation < a.activation) ∨ (later a b = b ∧ a.activation ≤ b.activation) := by
  unfold later
  by_cases h : b.activation < a.activation
  · exact Or.inl ⟨if_pos h, h⟩
  · exact Or.inr ⟨if_neg h, Nat.le_of_not_lt h⟩

theorem mem_foldl_later (e : KeyEntry) (es : List KeyEntry) : es.foldl later e ∈ e :: es := by
  induction es generalizing e with
  | nil => exact List.mem_cons_self
  | cons f es ih =>
    rcases List.mem_cons.1 (ih (later e f)) with h | h
    · show es.foldl later (later e f) ∈ _
      rw [h]
      rcases later_cases e f with ⟨hl, -⟩ | ⟨hl, -⟩
      · rw [hl]; exact List.mem_cons_self
      · rw [hl]; exact List.mem_cons_of_mem _ List.mem_cons_self
    · exact List.mem_cons_of_mem _ (List.mem_cons_of_mem _ h)

theorem le_foldl_later (e : KeyEntry) (es : List KeyEntry) :
    ∀ f ∈ e :: es, f.activation ≤ (es.foldl later e).activation := by
  induction es generalizing e with
  | nil =>
    intro f hf
    rw [List.mem_singleton.1 hf]
    exact Nat.le_refl _
  | cons g es ih =>
    have hl := ih (later e g) _ List.mem_cons_self
    intro f hf
    show f.activation ≤ (es.foldl later (later e g)).activation
    rcases List.mem_cons.1 hf with rfl | hf
    · rcases later_cases f g with ⟨h, -⟩ | ⟨h, hle⟩ <;> rw [h] at hl ⊢ <;> omega
    · rcases List.mem_cons.1 hf with rfl | hf
      · rcases later_cases e f with ⟨h, hle⟩ | ⟨h, -⟩ <;> rw [h] at hl ⊢ <;> omega
      · exact ih (later e g) f (List.mem_cons_of_mem _ hf)

theorem mem_eligible (r : KeyRing) (now expiration : Instant) (e : KeyEntry) :
    (e ∈ r.entries.filter fun e => e.covers now expiration) ↔
      e ∈ r.entries ∧ e.Eligible now expiration := by
  rw [List.mem_filter, KeyEntry.covers_iff]

/-- no key is selected if and only if none is eligible -/
theorem select?_eq_none_iff :
    r.select? now expiration = none ↔ ∀ e ∈ r.entries, ¬ e.Eligible now expiration := by
  have hm := mem_eligible r now expiration
  unfold select?
  cases hf : r.entries.filter fun e => e.covers now expiration with
  | nil =>
    rw [hf] at hm
    exact ⟨fun _ e he hc => absurd ((hm e).2 ⟨he, hc⟩) List.not_mem_nil, fun _ => rfl⟩
  | cons e es =>
    rw [hf] at hm
    obtain ⟨he, hc⟩ := (hm e).1 List.mem_cons_self
    constructor
    · intro h
      cases h
    · intro h
      exact absurd hc (h e he)

/-- a key that is selected is eligible, and no eligible one was activated later -/
theorem of_select? {e : KeyEntry} (h : r.select? now expiration = some e) :
    e ∈ r.entries ∧ e.Eligible now expiration ∧
      ∀ f ∈ r.entries, f.Eligible now expiration → f.activation ≤ e.activation := by
  have hm := mem_eligible r now expiration
  unfold select? at h
  cases hf : r.entries.filter fun e => e.covers now expiration with
  | nil => rw [hf] at h; cases h
  | cons x xs =>
    rw [hf] at h hm
    obtain rfl := Option.some.inj h
    obtain ⟨he, hc⟩ := (hm _).1 (mem_foldl_later x xs)
    exact ⟨he, hc, fun f hf hcf => le_foldl_later x xs f ((hm f).2 ⟨hf, hcf⟩)⟩

/-- the keys that are listed are in use, and their windows have not ended -/
theorem mem_activeKeyIds {keyId : String} : keyId ∈ r.activeKeyIds now ↔
    ∃ e ∈ r.entries, e.key.keyId = keyId ∧ e.revoked = false ∧ now ≤ e.key.validUntil := by
  have hactive : ∀ e : KeyEntry, e.isActive now = true ↔ e.revoked = false ∧ now ≤ e.key.validUntil := by
    intro e
    simp only [KeyEntry.isActive, Bool.and_eq_true, Bool.not_eq_true', decide_eq_true_eq]
  unfold activeKeyIds
  simp only [List.mem_map, List.mem_mergeSort, List.mem_filter, hactive]
  constructor
  · rintro ⟨e, ⟨hm, ha⟩, hk⟩
    exact ⟨e, hm, hk, ha⟩
  · rintro ⟨e, hm, hk, ha⟩
    exact ⟨e, ⟨hm, ha⟩, hk⟩

end KeyRing

namespace Authority

variable {a : Authority} {r : KeyRing} {expiration : Instant}

/-- the answer of an authority over a ring: the planned fault, or what the ring selects -/
theorem select_fst (hr : a.provider = .rotating r) (expiration : Instant) :
    ((select expiration).run a).1 =
      if (a.faults.pass selectSite).1 then .error (.keyProvider (Faults.message selectSite) none)
      else match r.select? a.now expiration with
        | some e => .ok e.handle
        | none => .error (.noEligibleSigner expiration) := by
  have hp : ((passSite selectSite).run a).1 = if (a.faults.pass selectSite).1 then
      .error (.keyProvider (Faults.message selectSite) none) else .ok () := by
    unfold passSite
    simp only [Effect.run_bind, Effect.run_modifyGet]
    split <;> rfl
  unfold select
  rw [Effect.run_bind_of_ok (x := Effect.get) rfl]
  simp only [Effect.run_get, hr]
  cases hf : (a.faults.pass selectSite).1 with
  | true =>
    rw [hf] at hp
    rw [Effect.run_bind_of_error hp]
    rfl
  | false =>
    rw [hf] at hp
    rw [Effect.run_bind_of_ok hp]
    cases r.select? a.now expiration <;> rfl

theorem select_of_quiet (hr : a.provider = .rotating r)
    (hq : (a.faults.pass selectSite).1 = false) (expiration : Instant) :
    ((select expiration).run a).1 = match r.select? a.now expiration with
      | some e => .ok e.handle
      | none => .error (.noEligibleSigner expiration) := by
  rw [select_fst hr, hq]
  rfl

/-- the answer depends on the provider, the faults and the clock only -/
theorem select_congr {b : Authority} (hp : b.provider = a.provider) (hf : b.faults = a.faults)
    (hn : b.now = a.now) : ((select expiration).run b).1 = ((select expiration).run a).1 := by
  cases ha : a.provider with
  | rotating r => rw [select_fst (hp.trans ha), select_fst ha, hf, hn]
  | fixed handle calls last =>
    unfold select
    rw [Effect.run_bind_of_ok (x := Effect.get) rfl, Effect.run_bind_of_ok (x := Effect.get) rfl]
    simp only [Effect.run_get, hp, ha]
    rfl
  | failing error calls =>
    unfold select
    rw [Effect.run_bind_of_ok (x := Effect.get) rfl, Effect.run_bind_of_ok (x := Effect.get) rfl]
    simp only [Effect.run_get, hp, ha]
    rfl

/-- a signer of a ring is one of its keys, and the one that the ring selects -/
theorem ok_of_select (hr : a.provider = .rotating r) {h : SignerHandle}
    (hs : ((select expiration).run a).1 = .ok h) :
    ∃ e, r.select? a.now expiration = some e ∧ h = e.handle := by
  rw [select_fst hr] at hs
  split at hs
  · cases hs
  cases hsel : r.select? a.now expiration with
  | none =>
    rw [hsel] at hs
    cases hs
  | some entry =>
    rw [hsel] at hs
    exact ⟨entry, rfl, (Except.ok.inj hs).symm⟩

end Authority

end Credentials
