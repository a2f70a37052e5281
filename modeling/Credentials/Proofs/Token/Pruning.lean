import Credentials.Proofs.Token.History
import Credentials.Proofs.Token.Revocation

/-!
# Pruning goes unnoticed

* `KeyRing.filter_prune`      whatever asks for keys whose windows have not ended misses nothing;
* `KeyRing.prune_prune`       two prunings are one, at the later instant of the two;
* `KeyRing.size_prune_add`    the keys that are dropped are those whose windows have ended;
* `Authority.Unnoticed`       what a pruning leaves as it was;
* `Authority.prune_unnoticed`   over every ring that calls lead to, a pruning goes unnoticed, and tells how
                              many keys it has dropped.

A key that is listed, and a key that covers an expiration, have windows that have not ended then. The
entries that stay keep their order and their numbers, so that the choice among them stays the same.
-/

namespace Credentials

/-- the later one of two instants -/
instance : Max Instant := maxOfLe

theorem Instant.max_le_iff {a b c : Instant} : max a b ≤ c ↔ a ≤ c ∧ b ≤ c := by
  have hmax : max a b = if a ≤ b then b else a := rfl
  rw [hmax]
  split
  · rename_i hab
    exact ⟨fun h => ⟨Instant.le_trans hab h, h⟩, fun h => h.2⟩
  · rename_i hab
    have hba : b ≤ a := by
      rw [Instant.le_iff] at hab ⊢
      omega
    exact ⟨fun h => ⟨h, Instant.le_trans hba h⟩, fun h => h.1⟩

/-! ## rings -/

namespace KeyRing

variable {r : KeyRing} {t : Instant}

theorem mem_prune {e : KeyEntry} : e ∈ (r.prune t).entries ↔ e ∈ r.entries ∧ t ≤ e.key.validUntil := by
  show e ∈ r.entries.filter _ ↔ _
  rw [List.mem_filter, decide_eq_true_eq]

/-- whatever asks for keys whose windows have not ended misses nothing -/
theorem filter_prune (r : KeyRing) {p : KeyEntry → Bool}
    (hp : ∀ e, p e = true → t ≤ e.key.validUntil) :
    (r.prune t).entries.filter p = r.entries.filter p := by
  show (r.entries.filter _).filter p = _
  rw [List.filter_filter]
  refine List.filter_congr fun e _ => ?_
  cases hpe : p e with
  | false => rfl
  | true => exact decide_eq_true (hp e hpe)

theorem select?_prune (r : KeyRing) (now : Instant) {expiration : Instant} (h : t ≤ expiration) :
    (r.prune t).select? now expiration = r.select? now expiration := by
  unfold select?
  rw [filter_prune r fun e he => Instant.le_trans h (KeyEntry.covers_iff.1 he).covering]

theorem activeKeyIds_prune (r : KeyRing) {now : Instant} (h : t ≤ now) :
    (r.prune t).activeKeyIds now = r.activeKeyIds now := by
  unfold activeKeyIds
  rw [filter_prune r fun e he => ?_]
  unfold KeyEntry.isActive at he
  simp only [Bool.and_eq_true, decide_eq_true_eq] at he
  exact Instant.le_trans h he.2

/-- two prunings are one, at the later instant of the two -/
theorem prune_prune (r : KeyRing) (t u : Instant) : (r.prune t).prune u = r.prune (max t u) := by
  unfold prune
  simp only [List.filter_filter]
  congr 1
  refine List.filter_congr fun e _ => ?_
  rw [← Bool.decide_and, decide_eq_decide, Instant.max_le_iff, and_comm]

/-- the keys that are dropped are those whose windows have ended -/
theorem size_prune_add (r : KeyRing) (t : Instant) :
    (r.prune t).size + r.entries.countP (fun e => e.key.validUntil < t) = r.size := by
  have hended : r.entries.countP (fun e => e.key.validUntil < t) =
      r.entries.countP fun e => ¬ decide (t ≤ e.key.validUntil) = true := by
    refine List.countP_congr fun e _ => ?_
    simp only [decide_eq_true_eq, Instant.not_le]
  show (r.entries.filter _).length + _ = r.entries.length
  rw [hended, ← List.countP_eq_length_filter]
  exact (List.length_eq_countP_add_countP _).symm

/-- a key that is still registered is the one that was found before -/
theorem WellFormed.find?_prune (hw : r.WellFormed) {keyId : String}
    (h : ((r.prune t).find? keyId).isSome) : (r.prune t).find? keyId = r.find? keyId := by
  obtain ⟨e, he⟩ := Option.isSome_iff_exists.1 h
  have hwp : (r.prune t).WellFormed := hw.of_changes (.prune t r)
  obtain ⟨hm, hk⟩ := hwp.find?_eq_some_iff.1 he
  rw [he, hw.find?_eq_some_iff.2 ⟨(mem_prune.1 hm).1, hk⟩]

end KeyRing

/-! ## authorities -/

namespace Authority

variable {a : Authority} {r : KeyRing} {t : Instant}

/-- a pruning tells how many keys it drops -/
theorem prune_fst (hr : a.provider = .rotating r) (t : Instant) :
    ((prune t).run a).1 = .ok (r.entries.countP fun e => e.key.validUntil < t) := by
  have hring : a.provider.ring = r := congrArg Provider.ring hr
  have hcount : r.size - (r.prune t).size = r.entries.countP fun e => e.key.validUntil < t := by
    rw [← r.size_prune_add t, Nat.add_sub_cancel_left]
  unfold prune
  rw [Effect.run_bind_of_ok (x := Effect.get) rfl]
  simp only [Effect.run_get, hring, hcount]
  split <;> rfl

/-- a revocation of a key that is registered succeeds -/
theorem revoke_fst (hr : a.provider = .rotating r) {keyId : String} (h : (r.find? keyId).isSome) :
    ((revoke keyId).run a).1 = .ok () := by
  rcases revoke_cases hr keyId with ⟨e, he, -⟩ | ⟨s, -, ho, -⟩
  · obtain ⟨s, hs⟩ := KeyRing.exists_revoke_iff.2 h
    rw [hs] at he
    cases he
  · exact ho

/-- what a pruning at an instant, which leads from one authority to another, leaves as it was -/
structure Unnoticed (t : Instant) (a b : Authority) : Prop where
  /-- the signer for any expiration that is not before the instant, at any time and under any faults -/
  selected : ∀ expiration, t ≤ expiration → ∀ systemTime clock faults,
    ((select expiration).run (b.after (.setWorld systemTime clock faults))).1 =
      ((select expiration).run (a.after (.setWorld systemTime clock faults))).1
  listed : ∀ now, t ≤ now → b.provider.ring.activeKeyIds now = a.provider.ring.activeKeyIds now
  served : ∀ keyId, (b.provider.ring.find? keyId).isSome →
    ((verifyingKey keyId).run b).1 = ((verifyingKey keyId).run a).1
  revoked : ∀ keyId, (b.provider.ring.find? keyId).isSome →
    ((revoke keyId).run b).1 = ((revoke keyId).run a).1
  /-- a key that is registered later is preferred, as soon as it is eligible -/
  preferred : ∀ later expiration, ((b.afterAll later).faults.pass selectSite).1 = false →
    (∃ e ∈ (b.afterAll later).provider.ring.entries,
      e.Eligible (b.afterAll later).now expiration ∧ e.key ∈ b.registrations later) →
    ∃ k ∈ b.registrations later, ((select expiration).run (b.afterAll later)).1 =
      .ok ⟨k.keyId, .edDSA, .ed25519 k.secret⟩

/-- a key that was registered behind a history is preferred to all that were registered in it -/
theorem select_registered {history : List SigningKey} (hr : a.provider = .rotating r)
    (hrec : r.Records history) (later : List Call) (expiration : Instant)
    (hq : ((a.afterAll later).faults.pass selectSite).1 = false)
    (he : ∃ e ∈ (a.afterAll later).provider.ring.entries,
      e.Eligible (a.afterAll later).now expiration ∧ e.key ∈ a.registrations later) :
    ∃ k ∈ a.registrations later, ((select expiration).run (a.afterAll later)).1 =
      .ok ⟨k.keyId, .edDSA, .ed25519 k.secret⟩ := by
  obtain ⟨s, hs, hrecs⟩ := records_afterAll hr hrec later
  obtain ⟨e, hm, he, hk⟩ := he
  rw [hs] at hm
  rw [select_of_quiet hs hq]
  cases hsel : s.select? (a.afterAll later).now expiration with
  | none => exact absurd he (KeyRing.select?_eq_none_iff.1 hsel e hm)
  | some f =>
    obtain ⟨hf, -, hlast⟩ := KeyRing.of_select? hsel
    have hlater : history.length ≤ f.activation :=
      Nat.le_trans ((hrecs.length_le_iff hm).2 hk) (hlast e hm he)
    exact ⟨f.key, (hrecs.length_le_iff hf).1 hlater, rfl⟩

theorem unnoticed_prune {history : List SigningKey} (hr : a.provider = .rotating r)
    (hw : r.WellFormed) (hrec : r.Records history) (t : Instant) :
    Unnoticed t a (a.after (.prune t)) := by
  have hp : (a.after (.prune t)).provider = .rotating (r.prune t) := provider_prune hr t
  generalize a.after (.prune t) = b at hp
  have hring : a.provider.ring = r := congrArg Provider.ring hr
  have hpring : b.provider.ring = r.prune t := congrArg Provider.ring hp
  constructor
  case selected =>
    intro expiration h systemTime clock faults
    rw [select_fst (a := b.after (.setWorld systemTime clock faults)) (r := r.prune t) hp,
      select_fst (a := a.after (.setWorld systemTime clock faults)) (r := r) hr, r.select?_prune _ h]
    rfl
  case listed =>
    intro now h
    rw [hring, hpring, r.activeKeyIds_prune h]
  case served =>
    intro keyId h
    rw [hpring] at h
    rw [verifyingKey_run hp, verifyingKey_run hr]
    show (r.prune t).verifyingKey keyId = r.verifyingKey keyId
    unfold KeyRing.verifyingKey
    rw [hw.find?_prune h]
  case revoked =>
    intro keyId h
    rw [hpring] at h
    rw [revoke_fst hp h, revoke_fst hr (hw.find?_prune h ▸ h)]
  case preferred =>
    have hsteps : (Call.prune t).Steps none r (r.prune t) := .prune t r
    exact select_registered hp (hrec.of_steps hsteps)

/-- Over every ring that calls lead to, a pruning drops the keys whose windows have ended before its
instant, tells their number, and goes unnoticed by everything that does not ask for times before that
instant. Two prunings leave what one at the later instant leaves, and together tell the same number. -/
theorem prune_unnoticed (a : Authority) (calls : List Call) (t : Instant) :
    let b := a.emptied.afterAll calls
    let c := b.after (.prune t)
    (∃ n, ((prune t).run b).1 = .ok n ∧ b.provider.ring.size = c.provider.ring.size + n ∧
      n = b.provider.ring.entries.countP fun e => e.key.validUntil < t) ∧
    Unnoticed t b c ∧
    ∀ u, (c.after (.prune u)).provider = (b.after (.prune (max t u))).provider ∧
      ∃ n m, ((prune t).run b).1 = .ok n ∧ ((prune u).run c).1 = .ok m ∧
        ((prune (max t u)).run b).1 = .ok (n + m) := by
  obtain ⟨r, hr, hw⟩ := wellFormed_reachable a calls
  obtain ⟨r', hr', hrec⟩ := records_reachable a calls
  obtain rfl : r = r' := Provider.rotating.inj (hr.symm.trans hr')
  intro b c
  have hc : c.provider = .rotating (r.prune t) := provider_prune hr t
  have hring : b.provider.ring = r := congrArg Provider.ring hr
  have hcring : c.provider.ring = r.prune t := congrArg Provider.ring hc
  refine ⟨⟨_, prune_fst hr t, ?_, ?_⟩, unnoticed_prune hr hw hrec t, fun u => ⟨?_, ?_⟩⟩
  · rw [hring, hcring, r.size_prune_add t]
  · rw [hring]
  · exact (provider_prune hc u).trans ((r.prune_prune t u).symm ▸ (provider_prune hr _).symm)
  · refine ⟨_, _, prune_fst hr t, prune_fst hc u, ?_⟩
    rw [prune_fst hr]
    have h1 := r.size_prune_add t
    have h2 := (r.prune t).size_prune_add u
    have h3 := r.size_prune_add (max t u)
    rw [r.prune_prune t u] at h2
    congr 1
    omega

end Authority

end Credentials
