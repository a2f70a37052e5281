import Credentials.Proofs.Token.History
import Credentials.Proofs.Token.Issued

/-!
# The signer is the key that was registered last

* `RegisteredLast`             of some entries one whose registration no other one's comes behind;
* `KeyRing.Records.registeredLast`   the entry of the highest activation number is that one;
* `Authority.select_afterAll`  over every ring that calls lead to, there is a signer if and only if there
                               is an eligible key, and it is the one that was registered last.

An identifier can be registered again behind its pruning. The ring then holds its last registration,
which is the one that counts.
-/

namespace Credentials

/-- of some entries one whose registration no other one's comes behind -/
def RegisteredLast (history : List SigningKey) (e : KeyEntry) (among : KeyEntry → Prop) : Prop :=
  ∃ earlier later, history = earlier ++ e.key :: later ∧ ∀ f, among f →
    f.key ∈ earlier ++ [e.key] ∧ ∀ k ∈ later, k.keyId ≠ f.key.keyId

theorem KeyRing.Records.registeredLast {r : KeyRing} {history : List SigningKey}
    (h : r.Records history) {e : KeyEntry} (he : e ∈ r.entries) {among : KeyEntry → Prop}
    (hr : ∀ f, among f → f ∈ r.entries) (hle : ∀ f, among f → f.activation ≤ e.activation) :
    RegisteredLast history e among := by
  obtain ⟨hlt, hget⟩ := List.getElem?_eq_some_iff.1 (h.placed e he)
  refine ⟨history.take e.activation, history.drop (e.activation + 1), ?_, fun f hf => ⟨?_, ?_⟩⟩
  · rw [← hget, List.getElem_cons_drop, List.take_append_drop]
  · have hplace := h.placed f (hr f hf)
    rw [List.mem_append]
    rcases Nat.lt_or_eq_of_le (hle f hf) with hlt | heq
    · refine Or.inl (List.mem_iff_getElem?.2 ⟨f.activation, ?_⟩)
      rw [List.getElem?_take_of_lt hlt, hplace]
    · rw [heq, h.placed e he] at hplace
      exact Or.inr (List.mem_singleton.2 (Option.some.inj hplace).symm)
  · intro k hk
    obtain ⟨n, hn⟩ := List.mem_iff_getElem?.1 hk
    rw [List.getElem?_drop] at hn
    have hle := hle f hf
    exact h.newest f (hr f hf) _ k (by omega) hn

namespace Authority

/-- Over every ring that calls lead to, at any time and for any expiration, there is a signer if and
only if there is an eligible key, as long as no fault is planned. It is that one of the eligible keys
which was registered last, and it is listed as active if the expiration has not passed. Nothing
changes in the ring. So a token that is issued names a key whose window covers its expiration. -/
theorem select_afterAll (a : Authority) (calls : List Call) (expiration : Instant)
    (hq : ((a.emptied.afterAll calls).faults.pass selectSite).1 = false) :
    let b := a.emptied.afterAll calls
    let ring := b.provider.ring
    let eligible := fun e => e ∈ ring.entries ∧ e.Eligible b.now expiration
    ((∃ h, ((select expiration).run b).1 = .ok h) ↔ ∃ e, eligible e) ∧
    (∀ h, ((select expiration).run b).1 = .ok h → ∃ e, eligible e ∧
      h = ⟨e.key.keyId, .edDSA, .ed25519 e.key.secret⟩ ∧
      RegisteredLast (a.emptied.registrations calls) e eligible ∧
      (b.now ≤ expiration → h.keyId ∈ ring.activeKeyIds b.now)) ∧
    (∀ e, ((select expiration).run b).1 = .error e → e = .noEligibleSigner expiration) ∧
    ((select expiration).run b).2.provider = b.provider ∧
    ∀ now i token, ((issueAt now i).run b).1 = .ok token → ∃ e ∈ ring.entries,
      Header.ofToken token = .ok (.plain .edDSA e.key.keyId) ∧ i.expiration ≤ e.key.validUntil := by
  obtain ⟨r, hr, hrec⟩ := records_reachable a calls
  intro b ring eligible
  have hring : ring = r := congrArg Provider.ring hr
  have hanswer := select_of_quiet hr hq expiration
  refine ⟨?_, ?_, ?_, ?_, ?_⟩
  · rw [hanswer]
    cases hs : r.select? b.now expiration with
    | none =>
      refine ⟨fun ⟨_, h⟩ => (nomatch h), fun ⟨e, hm, he⟩ => ?_⟩
      exact absurd he (KeyRing.select?_eq_none_iff.1 hs e (hring ▸ hm))
    | some e =>
      obtain ⟨hm, he, -⟩ := KeyRing.of_select? hs
      exact ⟨fun _ => ⟨e, hring ▸ hm, he⟩, fun _ => ⟨e.handle, rfl⟩⟩
  · intro h hs
    obtain ⟨e, hsel, rfl⟩ := ok_of_select hr hs
    obtain ⟨hm, he, hlast⟩ := KeyRing.of_select? hsel
    refine ⟨e, ⟨hring ▸ hm, he⟩, rfl, ?_, fun hnow => ?_⟩
    · exact hrec.registeredLast hm (fun f hf => hring ▸ hf.1) fun f hf => hlast f (hring ▸ hf.1) hf.2
    · rw [KeyRing.mem_activeKeyIds]
      exact ⟨e, hring ▸ hm, rfl, he.inUse, Instant.le_trans hnow he.covering⟩
  · intro e he
    rw [hanswer] at he
    cases hs : r.select? b.now expiration with
    | none =>
      rw [hs] at he
      exact (Except.error.inj he).symm
    | some _ =>
      rw [hs] at he
      cases he
  · rw [keeps_select expiration b r hr, hr]
  · intro now i token ht
    obtain ⟨e, hm, c, -, hcover, -, -, rfl⟩ := ok_of_issueAt hr ht
    exact ⟨e, hring ▸ hm, ofToken_signedBy e c, hcover⟩

/-- the identifier that was registered first is chosen, since it was pruned and registered again -/
theorem select_afterAll_again :
    let start : Instant := ⟨0, 0, by decide, by decide⟩
    let soon : Instant := ⟨10, 0, by decide, by decide⟩
    let late : Instant := ⟨50, 0, by decide, by decide⟩
    let x : SigningKey := ⟨"x", [1], start, soon⟩
    let y : SigningKey := ⟨"y", [], start, late⟩
    let z : SigningKey := ⟨"x", [2], start, late⟩
    let a : Authority := ⟨soon, none, ⟨.generator 0⟩, [], [], .rotating .empty⟩
    let b := a.emptied.afterAll [.insertKey x, .insertKey y, .prune late, .insertKey z]
    (b.faults.pass selectSite).1 = false ∧
      ∃ h, ((select late).run b).1 = .ok h ∧ h.keyId = "x" := by
  intro start soon late x y z a b
  have hq : (b.faults.pass selectSite).1 = false := by decide +kernel
  have hr : b.provider = .rotating ⟨[⟨y, 1, none⟩, ⟨z, 2, none⟩], 3⟩ := by decide +kernel
  have hring : b.provider.ring.entries = [⟨y, 1, none⟩, ⟨z, 2, none⟩] := by rw [hr]; rfl
  have hnow : b.now = soon := by decide +kernel
  have hhistory : a.emptied.registrations [.insertKey x, .insertKey y, .prune late, .insertKey z]
      = [x, y, z] := by decide +kernel
  have hz : (⟨z, 2, none⟩ : KeyEntry) ∈ b.provider.ring.entries ∧
      (⟨z, 2, none⟩ : KeyEntry).Eligible b.now late := by
    rw [hring, hnow]
    exact ⟨by decide, rfl, by decide, by decide⟩
  obtain ⟨hiff, hok, -⟩ := select_afterAll a _ late hq
  obtain ⟨h, hs⟩ := hiff.2 ⟨_, hz⟩
  obtain ⟨e, ⟨hm, -⟩, rfl, ⟨earlier, others, hsplit, hlast⟩, -⟩ := hok h hs
  refine ⟨hq, _, hs, ?_⟩
  have hfirst := hlast _ hz
  rw [hhistory] at hsplit
  change e ∈ b.provider.ring.entries at hm
  rw [hring] at hm
  rcases List.mem_cons.1 hm with rfl | hm
  · -- behind `y` only `z` was registered, whose identifier is that of an eligible key
    rcases earlier with _ | ⟨_, _ | ⟨_, _ | ⟨_, rest⟩⟩⟩
    · exact absurd (List.cons.inj hsplit).1 (by decide)
    · exact absurd rfl (hfirst.2 z ((List.cons.inj (List.cons.inj hsplit).2).2 ▸ List.mem_cons_self))
    · exact absurd (List.cons.inj (List.cons.inj (List.cons.inj hsplit).2).2).1 (by decide)
    · simp at hsplit
  · obtain rfl := List.mem_singleton.1 hm
    rfl

end Authority

end Credentials
