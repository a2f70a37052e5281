import Credentials.Proofs.Token.Verified

/-!
# How long an issued token is accepted

* `audience_iff`               an audience that is met;
* `Authority.verify_issued`    a token that was issued is accepted from a minute before its issuance
                            until it expires, behind any calls that do not revoke its key.

A key that signed covers the expiration of the token. A pruning that is not later than now can drop
it only if its window has ended, and then the token has expired, although the token tells its
expiration in whole seconds.
-/

namespace Credentials

/-- an audience that is met -/
theorem audience_iff {audience : Option String} {s : String} :
    (∀ x ∈ audience, s = x) ↔ audience = none ∨ audience = some s := by
  cases audience with
  | none => exact ⟨fun _ => Or.inl rfl, fun _ _ h => nomatch h⟩
  | some x =>
    constructor
    · intro h
      rw [h x rfl]
      exact Or.inr rfl
    · rintro (h | h) y hy
      · cases h
      · rw [← Option.some.inj h]
        exact Option.some.inj hy

namespace Authority

variable {a : Authority}

/-- A token that was issued for an identity names the key that signed it, and says what the identity
says. Behind any calls that do not revoke this key, and prune no later than now, it is accepted if
and only if it has not expired, was not issued more than a minute ahead, and is for the audience
that is asked for; and what it says then is what was signed. -/
theorem verify_issued (a : Authority) (before : List Call) (now : Instant) (i : Identity)
    (token : String) (h : ((issueAt now i).run (a.emptied.afterAll before)).1 = .ok token) :
    ∃ (e : KeyEntry) (claims : Claims), token = (signedBy e claims).text ∧ i.Says now claims ∧
      Header.ofToken token = .ok (.plain .edDSA e.key.keyId) ∧
      ∀ (later : List Call) (t : Instant) (audience : Option String) (result : Claims),
        Call.revoke e.key.keyId ∉ later → (∀ u, Call.prune u ∈ later → u ≤ t) → 0 ≤ t.seconds →
        let b := ((issueAt now i).run (a.emptied.afterAll before)).2.afterAll later
        (((verify token audience).run { b with systemTime := t }).1 = .ok result ↔
          result = claims ∧ t.seconds < claims.exp ∧ (claims.iat : Int) ≤ t.seconds + 60 ∧
            (audience = none ∨ audience = some (Form.encode i.issuer))) := by
  obtain ⟨r, hr, hw⟩ := wellFormed_reachable a before
  obtain ⟨e, hm, c, hu, hcover, hlt, hsays, rfl⟩ := ok_of_issueAt hr h
  refine ⟨e, c, rfl, hsays, ofToken_signedBy e c, ?_⟩
  intro later t audience result hrev hprune ht b
  have hr' := keeps_issueAt now i _ r hr
  obtain ⟨s, hs, hws⟩ := wellFormed_afterAll hr' hw later
  have hring : ({ b with systemTime := t } : Authority).provider.ring = s := by
    show b.provider.ring = s
    rw [show b.provider = .rotating s from hs]
    rfl
  rw [verify_ok_iff_of_wellFormed (a := { b with systemTime := t }) (by rw [hring]; exact hws) ht]
  constructor
  · rintro ⟨p, hp⟩
    obtain rfl := hp.of_signedBy hsays.fits
    refine ⟨rfl, hp.notExpired, hp.issued, ?_⟩
    rw [← hsays.aud]
    exact audience_iff.1 hp.audience
  · rintro ⟨rfl, hexp, hiat, ha⟩
    rw [← hsays.aud] at ha
    have hte : t ≤ i.expiration := by
      have := hsays.exp
      exact Or.inl (by omega)
    obtain ⟨s', hs', hms⟩ := mem_afterAll hr' hm later hrev fun u hp =>
      Instant.le_trans (hprune u hp) (Instant.le_trans hte hcover)
    have hss : s' = s := by
      rw [hs] at hs'
      injection hs' with e
      exact e.symm
    have hnbf : (result.nbf : Int) ≤ t.seconds + Claims.leeway := by
      have h1 := hsays.nbf
      have h2 := hsays.iat
      unfold Claims.leeway
      omega
    have ho : result.iat ≤ result.exp := by
      have h1 := hsays.iat
      have h2 := hsays.exp
      have h3 := Instant.lt_iff.1 hlt
      omega
    refine acceptable_signedBy hsays.fits ?_ ?_ hu hexp hnbf hiat ho (audience_iff.2 ha)
    · rw [hring, ← hss]
      exact hms
    · rw [hring]
      exact hws

/-- a token of an hour, issued in the first minute under a registered key, half an hour later and
behind a pruning -/
theorem verify_issued_first_hour :
    let start : Instant := ⟨60, 0, by decide, by decide⟩
    let t : Instant := ⟨1860, 500, by decide, by decide⟩
    let k : SigningKey := ⟨"k1", [], ⟨0, 0, by decide, by decide⟩,
      ⟨7200, 0, by decide, by decide⟩⟩
    let i := Identity.new "alice" "https://issuer" ⟨3600, 0, by decide, by decide⟩
    let a : Authority := ⟨start, none, ⟨.generator 0⟩, [], [], .rotating .empty⟩
    let b := a.emptied.afterAll [.insertKey k]
    ∃ token claims, ((issueAt start i).run b).1 = .ok token ∧ claims.sub = "alice" ∧
      ((verify token none).run { ((issueAt start i).run b).2.afterAll [.prune t] with
        systemTime := t }).1 = .ok claims := by
  obtain ⟨f, hf⟩ : ∃ f, (Identity.new "alice" "https://issuer" ⟨3600, 0, by decide,
      by decide⟩).check ⟨60, 0, by decide, by decide⟩ = .ok f := ⟨_, rfl⟩
  intro start t k i a b
  have hr : b.provider = .rotating ⟨[⟨k, 0, none⟩], 1⟩ := by decide +kernel
  obtain ⟨token, h⟩ := exists_ok_issueAt hr (by decide +kernel) hf (e := ⟨k, 0, none⟩)
    (by decide +kernel)
  obtain ⟨e, c, -, hsays, -, hv⟩ := verify_issued a [.insertKey k] start i token h
  refine ⟨token, c, h, (Option.some.inj hsays.sub).symm, ?_⟩
  have hexp : (c.exp : Int) = 3600 := hsays.exp
  have hiat : (c.iat : Int) = 60 := hsays.iat
  refine (hv [.prune t] t none c (by simp) ?_ (by decide)).2 ⟨rfl, ?_, ?_, Or.inl rfl⟩
  · intro u hu
    obtain ⟨rfl⟩ := Call.prune.inj (List.mem_singleton.1 hu)
    exact Instant.le_refl _
  · rw [hexp]
    decide
  · rw [hiat]
    decide

end Authority

end Credentials
