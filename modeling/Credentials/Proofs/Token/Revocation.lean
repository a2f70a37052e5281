import Credentials.Proofs.Token.Acceptance
import Credentials.Proofs.Token.History
import Credentials.Proofs.Token.Selection

/-!
# Revocation is final

* `KeyRing.OnlyEntry`          nothing else is registered under the identifier of an entry;
* `KeyRing.mem_iff_of_steps`   a revoked entry leaves a ring by a pruning behind its window, and by
                               nothing else;
* `Authority.Locked`           what an authority makes of the identifier of an entry that is revoked;
* `Authority.Unused`           nobody signs under an identifier, and no token that names it is accepted;
* `Authority.revoked_afterAll`   a key that was revoked is locked until it is pruned, and its identifier
                               is unused until it is registered again.

As long as the revoked entry is there, its identifier is taken, so nothing can be registered under it.
Behind the pruning nothing is there under it, until somebody registers another key.
-/

namespace Credentials

namespace KeyRing

/-- nothing else is registered under the identifier of an entry -/
def OnlyEntry (r : KeyRing) (e : KeyEntry) : Prop := ∀ f ∈ r.entries, f.key.keyId = e.key.keyId → f = e

variable {r s : KeyRing} {e : KeyEntry} {c : Authority.Call} {k : Option SigningKey}

theorem WellFormed.onlyEntry (hw : r.WellFormed) (he : e ∈ r.entries) : r.OnlyEntry e :=
  fun _ hf hk => List.inj_on_of_nodup_map hw.distinct hf he hk

theorem OnlyEntry.find?_of_mem (ho : r.OnlyEntry e) (he : e ∈ r.entries) :
    r.find? e.key.keyId = some e := by
  cases hf : r.find? e.key.keyId with
  | none => exact absurd rfl (find?_eq_none_iff.1 hf e he)
  | some f =>
    have hk := List.find?_some hf
    rw [ho f (List.mem_of_find?_eq_some hf) (beq_iff_eq.1 hk)]

theorem OnlyEntry.find?_of_not_mem (ho : r.OnlyEntry e) (he : e ∉ r.entries) :
    r.find? e.key.keyId = none := by
  refine find?_eq_none_iff.2 fun f hf hk => he ?_
  rw [← ho f hf hk]
  exact hf

theorem OnlyEntry.verifyingKey_of_mem (ho : r.OnlyEntry e) (hrev : e.revoked = true)
    (he : e ∈ r.entries) : r.verifyingKey e.key.keyId = .error (.keyRevoked e.key.keyId) := by
  rw [verifyingKey, ho.find?_of_mem he]
  simp only [hrev, if_true]

theorem OnlyEntry.verifyingKey_of_not_mem (ho : r.OnlyEntry e) (he : e ∉ r.entries) :
    r.verifyingKey e.key.keyId = .error (.keyNotFound e.key.keyId) := by
  rw [verifyingKey, ho.find?_of_not_mem he]

/-- only another registration puts anything else under the identifier of a revoked entry -/
theorem OnlyEntry.of_steps (ho : r.OnlyEntry e) (hrev : e.revoked = true) (hc : c.Steps k r s)
    (hk : ∀ x ∈ k, x.keyId ≠ e.key.keyId) : s.OnlyEntry e := by
  intro f hf heq
  cases hc with
  | nothing => exact ho f hf heq
  | insert _ hi =>
    rw [(of_insert hi).2.2] at hf
    rcases List.mem_append.1 hf with hf | hf
    · exact ho f hf heq
    · rw [List.mem_singleton.1 hf] at heq
      exact absurd heq (hk _ rfl)
  | revoke hi =>
    rcases of_mem_revoke hi hf with hf | ⟨g, hg, -, rfl⟩
    · exact ho f hf heq
    · rw [KeyEntry.key_revoke] at heq
      rw [ho g hg heq]
      exact KeyEntry.revoke_of_revoked hrev _
  | prune t => exact ho f (List.mem_filter.1 hf).1 heq

/-- a revoked entry leaves a ring by a pruning behind its window, and by nothing else -/
theorem mem_iff_of_steps (ho : r.OnlyEntry e) (hrev : e.revoked = true) (hc : c.Steps k r s) :
    e ∈ s.entries ↔ e ∈ r.entries ∧ ∀ t, c = .prune t → t ≤ e.key.validUntil := by
  have hkept : (∀ t, c ≠ .prune t) → (e ∈ s.entries ↔ e ∈ r.entries) →
      (e ∈ s.entries ↔ e ∈ r.entries ∧ ∀ t, c = .prune t → t ≤ e.key.validUntil) :=
    fun hp h => ⟨fun he => ⟨h.1 he, fun t ht => absurd ht (hp t)⟩, fun he => h.2 he.1⟩
  cases hc with
  | nothing hp => exact hkept hp Iff.rfl
  | insert hp hi =>
    refine hkept hp ?_
    rw [(of_insert hi).2.2, List.mem_append, List.mem_singleton]
    refine ⟨fun h => h.resolve_right ?_, Or.inl⟩
    rintro rfl
    cases hrev
  | revoke hi =>
    refine hkept (by simp) ⟨fun he => ?_, fun he => ?_⟩
    · rcases of_mem_revoke hi he with he | ⟨f, hf, -, heq⟩
      · exact he
      · have hk : f.key.keyId = e.key.keyId := by rw [heq, KeyEntry.key_revoke]
        exact ho f hf hk ▸ hf
    · rcases mem_or_mem_revoke hi he with he | ⟨-, he⟩
      · exact he
      · rwa [KeyEntry.revoke_of_revoked hrev] at he
  | prune t =>
    show e ∈ r.entries.filter _ ↔ _
    rw [List.mem_filter, decide_eq_true_eq]
    refine and_congr_right fun _ => ⟨fun h u hu => ?_, fun h => h t rfl⟩
    rwa [← Authority.Call.prune.inj hu]

end KeyRing

namespace Authority

variable {a : Authority} {r : KeyRing} {e : KeyEntry} {keyId : String}

/-- what an authority makes of the identifier of an entry that is revoked and registered -/
structure Locked (a : Authority) (keyId : String) : Prop where
  refused : ∀ k : SigningKey, k.keyId = keyId →
    ∃ message, (insertKey k).run a = (.error (.precondition message), a)
  taken : ∀ c, ∀ k ∈ a.registers c, k.keyId ≠ keyId
  served : (verifyingKey keyId).run a = (.error (.keyRevoked keyId), a)
  again : (revoke keyId).run a = (.ok (), a)

/-- nobody signs under an identifier, and no token that names it is accepted -/
structure Unused (a : Authority) (keyId : String) : Prop where
  notSelected : ∀ expiration h, ((select expiration).run a).1 = .ok h → h.keyId ≠ keyId
  notListed : ∀ now, keyId ∉ a.provider.ring.activeKeyIds now
  notAccepted : ∀ systemTime token audience header claims, Header.ofToken token = .ok header →
    header.keyId = some keyId →
      ((verify token audience).run { a with systemTime := systemTime }).1 ≠ .ok claims

theorem verifyingKey_run (hr : a.provider = .rotating r) (keyId : String) :
    (verifyingKey keyId).run a = (r.verifyingKey keyId, a) := by
  unfold verifyingKey
  rw [Effect.run_bind_of_ok (x := Effect.get) rfl]
  simp only [Effect.run_get, hr]
  rfl

theorem locked (hr : a.provider = .rotating r) (ho : r.OnlyEntry e) (hrev : e.revoked = true)
    (he : e ∈ r.entries) : a.Locked e.key.keyId := by
  have hfind := ho.find?_of_mem he
  have hfull : ∀ k s, r.insert k = .ok s → k.keyId ≠ e.key.keyId := by
    intro k s hi hk
    have hnone := (KeyRing.insert_eq_ok_iff.1 hi).2.2.1
    rw [hk, hfind] at hnone
    cases hnone
  refine ⟨fun k hk => ?_, fun c k hk => ?_, ?_, ?_⟩
  · rcases insertKey_cases hr k with ⟨error, hi, hrun⟩ | ⟨s, hi, -, -⟩
    · obtain ⟨message, rfl⟩ := KeyRing.insert_error hi
      exact ⟨message, hrun⟩
    · exact absurd hk (hfull k s hi)
  · obtain ⟨s, -, hc⟩ := steps_after hr c
    rw [Option.mem_def] at hk
    rw [hk] at hc
    cases hc with
    | insert _ hi => exact hfull k s hi
  · rw [verifyingKey_run hr, ho.verifyingKey_of_mem hrev he]
  · have hagain : r.revoke e.key.keyId a.now = .ok r := by
      obtain ⟨s, hs⟩ : ∃ s, r.revoke e.key.keyId a.now = .ok s :=
        KeyRing.exists_revoke_iff.2 (by rw [hfind]; rfl)
      obtain ⟨before, f, after, hsplit, hk, -, rfl⟩ := KeyRing.revoke_eq_ok_iff.1 hs
      -- the entry that is revoked again is the same as before
      obtain rfl := ho f (by rw [hsplit]; exact List.mem_append_right _ List.mem_cons_self) hk
      rw [hs, KeyEntry.revoke_of_revoked hrev, ← hsplit]
    have hring : a.provider.ring = r := congrArg Provider.ring hr
    unfold revoke
    rw [Effect.run_bind_of_ok (x := Effect.get) rfl]
    simp only [Effect.run_get, hring]
    rw [hagain, Effect.run_bind_of_ok (x := Effect.ofExcept _) rfl, hfind]
    simp only [Option.any_some, hrev, Bool.not_true, Bool.false_eq_true, if_false]
    show (Except.ok (), a.withRing r) = (Except.ok (), a)
    unfold withRing
    rw [hr]
    simp only [← hr]

theorem unused (hr : a.provider = .rotating r) (ho : r.OnlyEntry e) (hrev : e.revoked = true) :
    a.Unused e.key.keyId := by
  have hring : a.provider.ring = r := congrArg Provider.ring hr
  have hnone : ∀ f ∈ r.entries, f.revoked = false → f.key.keyId ≠ e.key.keyId := by
    intro f hf hu hk
    rw [ho f hf hk, hrev] at hu
    cases hu
  refine ⟨fun expiration h hs => ?_, fun now hm => ?_, fun t token audience header claims hh hk hv => ?_⟩
  · obtain ⟨f, hsel, rfl⟩ := ok_of_select hr hs
    obtain ⟨hf, he, -⟩ := KeyRing.of_select? hsel
    exact hnone f hf he.inUse
  · rw [hring] at hm
    obtain ⟨f, hf, hk, hu, -⟩ := KeyRing.mem_activeKeyIds.1 hm
    exact hnone f hf hu hk
  · obtain ⟨keyId, key, hcleared, hkey, -⟩ := verify_eq_ok_iff.1 hv
    obtain ⟨header', hh', hc⟩ := bind_eq_ok_iff.1 hcleared
    rw [hh] at hh'
    obtain rfl := Except.ok.inj hh'
    have hsame := (Header.cleared_eq_ok_iff.1 hc).1
    rw [hk] at hsame
    rw [← Option.some.inj hsame] at hkey
    change a.provider.ring.verifyingKey e.key.keyId = .ok key at hkey
    rw [hring] at hkey
    by_cases he : e ∈ r.entries
    · rw [ho.verifyingKey_of_mem hrev he] at hkey
      cases hkey
    · rw [ho.verifyingKey_of_not_mem he] at hkey
      cases hkey

/-- calls that do not register the identifier of a revoked entry put nothing else under it, and drop the
entry by a pruning behind its window only -/
theorem onlyEntry_afterAll (hr : a.provider = .rotating r) (ho : r.OnlyEntry e) (hrev : e.revoked = true)
    (cs : List Call) (hk : ∀ k ∈ a.registrations cs, k.keyId ≠ e.key.keyId) :
    ∃ s, (a.afterAll cs).provider = .rotating s ∧ s.OnlyEntry e ∧
      (e ∈ s.entries ↔ e ∈ r.entries ∧ ∀ t, Call.prune t ∈ cs → t ≤ e.key.validUntil) := by
  -- one step at a time: the entry is there behind a call if it was there before and is not pruned
  induction cs generalizing a r with
  | nil => exact ⟨r, hr, ho, by simp⟩
  | cons c cs ih =>
    obtain ⟨s, hs, hc⟩ := steps_after hr c
    rw [registrations] at hk
    have hfirst : ∀ k ∈ a.registers c, k.keyId ≠ e.key.keyId := fun k h =>
      hk k (List.mem_append_left _ (Option.mem_toList.2 h))
    obtain ⟨t, ht, hot, hmem⟩ := ih hs (ho.of_steps hrev hc hfirst) fun k h =>
      hk k (List.mem_append_right _ h)
    refine ⟨t, ht, hot, ?_⟩
    rw [hmem, KeyRing.mem_iff_of_steps ho hrev hc, and_assoc]
    refine and_congr_right fun _ => ⟨fun h u hu => ?_, fun h => ⟨fun u hu => ?_, fun u hu => ?_⟩⟩
    · rcases List.mem_cons.1 hu with hu | hu
      · exact h.1 u hu.symm
      · exact h.2 u hu
    · exact h u (hu ▸ List.mem_cons_self)
    · exact h u (List.mem_cons_of_mem _ hu)

/-- A key that was revoked, behind any later calls. As long as its entry is registered, its identifier is
locked and unused, and the entry is dropped by a pruning behind its window and by no other call. As
long as no key has been registered under the identifier again, it is unused, and the entry is still
registered if and only if no pruning was behind its window; once it is dropped, no key is found. -/
theorem revoked_afterAll (a : Authority) (before : List Call) (keyId : String)
    (h : ((revoke keyId).run (a.emptied.afterAll before)).1 = .ok ()) :
    let b := (a.emptied.afterAll before).after (.revoke keyId)
    ∃ e ∈ b.provider.ring.entries, e.key.keyId = keyId ∧ e.revoked = true ∧ ∀ later : List Call,
      let c := b.afterAll later
      (e ∈ c.provider.ring.entries → c.Locked keyId ∧ c.Unused keyId ∧ ∀ call,
        (e ∉ (c.after call).provider.ring.entries ↔ ∃ t, call = .prune t ∧ e.key.validUntil < t)) ∧
      ((∀ k ∈ b.registrations later, k.keyId ≠ keyId) → c.Unused keyId ∧
        (e ∈ c.provider.ring.entries ↔ ∀ t, Call.prune t ∈ later → t ≤ e.key.validUntil) ∧
        (e ∉ c.provider.ring.entries →
          (verifyingKey keyId).run c = (.error (.keyNotFound keyId), c))) := by
  obtain ⟨r, hr, hw⟩ := wellFormed_reachable a before
  rcases revoke_cases hr keyId with ⟨error, -, he⟩ | ⟨s, hi, -, hs⟩
  · rw [he] at h
    cases h
  intro b
  change b.provider = .rotating s at hs
  have hring : b.provider.ring = s := congrArg Provider.ring hs
  have hws : s.WellFormed := hw.of_changes (.revoke hi)
  obtain ⟨e, hms, rfl, hrev⟩ : ∃ e ∈ s.entries, e.key.keyId = keyId ∧ e.revoked = true := by
    obtain ⟨f, hf, hk⟩ := KeyRing.exists_mem_revoke hi
    exact ⟨_, hf, by rw [KeyEntry.key_revoke, hk], f.revoked_revoke _⟩
  refine ⟨e, hring ▸ hms, rfl, hrev, fun later => ?_⟩
  intro c
  constructor
  · -- as long as the entry is there, no assumption on registrations is needed: they are refused
    intro hmem
    obtain ⟨u, hu, hwu⟩ := wellFormed_afterAll hs hws later
    change c.provider = .rotating u at hu
    rw [hu, Provider.ring] at hmem
    have ho := hwu.onlyEntry hmem
    refine ⟨locked hu ho hrev hmem, unused hu ho hrev, fun call => ?_⟩
    obtain ⟨v, hv, hc⟩ := steps_after hu call
    rw [hv, Provider.ring, KeyRing.mem_iff_of_steps ho hrev hc]
    simp only [hmem, true_and, not_forall, Instant.not_le, exists_prop]
  · intro hk
    obtain ⟨u, hu, ho, hmem⟩ := onlyEntry_afterAll hs (hws.onlyEntry hms) hrev later hk
    change c.provider = .rotating u at hu
    have hcring : c.provider.ring = u := congrArg Provider.ring hu
    refine ⟨unused hu ho hrev, ?_, fun hn => ?_⟩
    · rw [hcring, hmem]
      exact and_iff_right hms
    · rw [hcring] at hn
      rw [verifyingKey_run hu, ho.verifyingKey_of_not_mem hn]

/-- a revoked key is locked, and nothing is found in its place behind a late pruning -/
theorem revoked_afterAll_pruned :
    let start : Instant := ⟨0, 0, by decide, by decide⟩
    let last : Instant := ⟨10, 0, by decide, by decide⟩
    let late : Instant := ⟨10, 1, by decide, by decide⟩
    let a : Authority := ⟨start, none, ⟨.generator 0⟩, [], [], .rotating .empty⟩
    let before := a.emptied.afterAll [.insertKey ⟨"k1", [], start, last⟩]
    let b := before.after (.revoke "k1")
    let c := b.afterAll [.prune late]
    ((revoke "k1").run before).1 = .ok () ∧ b.Locked "k1" ∧ b.Unused "k1" ∧
      (verifyingKey "k1").run c = (.error (.keyNotFound "k1"), c) := by
  intro start last late a before b c
  have h : ((revoke "k1").run before).1 = .ok () := by decide +kernel
  have hr : b.provider = .rotating ⟨[⟨⟨"k1", [], start, last⟩, 0, some start⟩], 1⟩ := by decide +kernel
  obtain ⟨e, hm, -, -, hlater⟩ := revoked_afterAll a _ "k1" h
  have he : e.key.validUntil = last := by
    change e ∈ b.provider.ring.entries at hm
    rw [hr] at hm
    rw [List.mem_singleton.1 hm]
  obtain ⟨hlocked, hunused, -⟩ := (hlater []).1 hm
  have hnone : b.registrations [.prune late] = [] := rfl
  obtain ⟨-, hkept, hgone⟩ := (hlater [.prune late]).2 fun k hk => by
    change k ∈ b.registrations [.prune late] at hk
    rw [hnone] at hk
    cases hk
  refine ⟨h, hlocked, hunused, hgone fun hmem => ?_⟩
  have hle := hkept.1 hmem late List.mem_cons_self
  rw [he] at hle
  exact absurd hle (by decide)

end Authority

end Credentials
