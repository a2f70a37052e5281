import Credentials.Proofs.Run.Uuid
import Credentials.Proofs.Text.Form
import Credentials.Proofs.Token.Issued

/-!
# What can be read out of an issued token without a key

* `signClaims_eq_ok_iff`        when claims are signed under a handle, and into what;
* `Identity.named_of_check`     the texts that a check leaves are not empty;
* `Claims.ofToken_of_payload`, `Claims.ofToken_of_segments`  claims are read out of three segments;
* `Reading`, `Reading.Of`       what a token of an identity is read as;
* `Authority.reading_of_issueAt`   every token that is issued can be read so, whoever has signed it.

The signer may be a device that answers in any way, and the key identifier any text at all: neither is
looked at by those who read the token without a key.
-/

namespace Credentials

theorem Policy.checkAlgorithm_eq_ok_iff {name : String} :
    checkAlgorithm name = .ok () ↔ name ∈ acceptedAlgorithms := by
  unfold checkAlgorithm
  have hdisjoint : ∀ n ∈ acceptedAlgorithms, n ∉ forbiddenAlgorithms := by decide
  constructor
  · intro h
    split at h
    · cases h
    · split at h
      · assumption
      · cases h
  · intro h
    rw [if_neg (hdisjoint name h), if_pos h]

section
variable (h : SignerHandle) (c : Claims)

/-- the first two segments of a token under a handle -/
def SignerHandle.headerSegment : String := Compact.encode (utf8 (Header.issued h.algorithm h.keyId).text)

def Claims.segment : String := Compact.encode (utf8 c.toJson.text)

end

/-- claims are signed under a handle of an accepted algorithm, if its signer is of this algorithm and
answers the first two segments -/
theorem signClaims_eq_ok_iff {h : SignerHandle} {c : Claims} {t : Compact} :
    signClaims h c = .ok t ↔ h.algorithm.name ∈ Policy.acceptedAlgorithms ∧
      h.signer.algorithm = h.algorithm ∧ ∃ octets,
        h.signer.sign (utf8 (h.headerSegment ++ "." ++ c.segment)) = .ok octets ∧
          t = ⟨h.headerSegment, c.segment, Compact.encode octets⟩ := by
  unfold signClaims
  rw [bind_eq_ok_iff]
  simp only [mapError_eq_ok_iff]
  constructor
  · rintro ⟨⟨⟩, ha, ho⟩
    split at ho
    · cases ho
    rename_i hs
    have ha := Policy.checkAlgorithm_eq_ok_iff.1 ha
    obtain ⟨octets, hsign, ho⟩ := bind_eq_ok_iff.1 ho
    exact ⟨ha, Classical.not_not.1 hs, octets, mapError_eq_ok_iff.1 hsign, (Except.ok.inj ho).symm⟩
  · rintro ⟨ha, hs, octets, hsign, rfl⟩
    refine ⟨(), Policy.checkAlgorithm_eq_ok_iff.2 ha, ?_⟩
    rw [if_neg fun hn => hn hs]
    exact bind_eq_ok_iff.2 ⟨octets, mapError_eq_ok_iff.2 hsign, rfl⟩

/-! ## texts that are not empty -/

theorem required_ne_empty {value : Option String} {what v : String}
    (h : required value what = .ok v) : v ≠ "" := by
  rintro rfl
  rw [required_eq_ok h] at h
  cases h

/-- the texts that a check leaves are not empty -/
theorem Identity.named_of_check {i : Identity} {now : Instant} {f : Unnumbered}
    (h : i.check now = .ok f) (jti : String) :
    (f jti).jti = jti ∧ (f jti).sub ≠ "" ∧ (f jti).iss ≠ "" ∧ (f jti).aud ≠ "" := by
  obtain ⟨subject, hs, h⟩ := bind_eq_ok_iff.1 h
  obtain ⟨username, hu, h⟩ := bind_eq_ok_iff.1 h
  obtain ⟨issuer, hi, h⟩ := bind_eq_ok_iff.1 h
  split at h
  · cases h
  obtain ⟨issuedAt, hiat, h⟩ := bind_eq_ok_iff.1 h
  obtain ⟨expiresAt, he, h⟩ := bind_eq_ok_iff.1 h
  rw [← Except.ok.inj h]
  have hissuer := Form.encode_ne_empty (required_ne_empty hi)
  exact ⟨rfl, required_ne_empty hs, hissuer, hissuer⟩

theorem Claims.firstEmpty?_eq_none {c : Claims} (hj : c.jti ≠ "") (hs : c.sub ≠ "") (hi : c.iss ≠ "")
    (ha : c.aud ≠ "") : c.firstEmpty? = none := by
  unfold firstEmpty?
  rw [if_neg hj, if_neg hs, if_neg hi, if_neg ha]

/-- what is read out of three segments, if the octets of the second one are those of claims -/
theorem Claims.ofToken_of_payload {token header signature : String} {octets : Bytes} {c : Claims}
    (h : Compact.segments token = [header, Compact.encode octets, signature])
    (hc : Json.readText ofTree octets = .ok c) : ofToken token =
      match c.firstEmpty? with
      | some name => .error (.missingClaim name)
      | none => .ok c := by
  unfold ofToken
  rw [h]
  show ((Compact.decode (Compact.encode octets)).mapError _ >>= _) = _
  rw [Compact.decode_eq_ok_iff.2 rfl]
  show ((Json.readText ofTree octets).mapError _ >>= _) = _
  rw [hc]
  rfl

/-- claims are read out of three segments, the second of which was written for them -/
theorem Claims.ofToken_of_segments {token header signature : String} {c : Claims} (hf : c.Fits)
    (hn : c.firstEmpty? = none) (h : Compact.segments token = [header, c.segment, signature]) :
    ofToken token = .ok c := by
  rw [ofToken_of_payload h (read_toJson hf), hn]

/-! ## tokens -/

/-- what a token is read as: the handle it was signed under, its claims, and the octets of its
signature -/
structure Reading where
  handle : SignerHandle
  claims : Claims
  signature : Bytes

/-- what has to hold of a token of an identity and of what it is read as -/
structure Reading.Of (r : Reading) (i : Identity) (now : Instant) (token : String) : Prop where
  segments : Compact.segments token =
    [r.handle.headerSegment, r.claims.segment, Compact.encode r.signature]
  alphabet : ∀ segment ∈ Compact.segments token, ∀ c ∈ segment.toList,
    c.isAlphanum = true ∨ c = '-' ∨ c = '_'
  /-- the header tells the algorithm of the signer and the key identifier, and nothing else -/
  header : Header.ofToken token = .ok (.plain r.handle.algorithm r.handle.keyId)
  accepted : r.handle.algorithm.name ∈ Policy.acceptedAlgorithms
  produced : r.handle.signer.algorithm = r.handle.algorithm
  /-- the claims tell what the identity says, under a random identifier -/
  claims : Claims.ofToken token = .ok r.claims
  told : i.Says now r.claims
  ordered : r.claims.nbf ≤ r.claims.iat ∧ r.claims.iat ≤ r.claims.exp
  numbered : Uuid.isVersion4 r.claims.jti = true
  /-- what was signed are the first two segments -/
  signed : r.handle.signer.sign (utf8 (r.handle.headerSegment ++ "." ++ r.claims.segment))
    = .ok r.signature

namespace Authority

variable {a : Authority}

theorem select_of_fixed {expiration : Instant} {handle h : SignerHandle} {calls : Nat}
    {last : Option Instant} (ha : a.provider = .fixed handle calls last)
    (hs : ((select expiration).run a).1 = .ok h) : h = handle := by
  unfold select at hs
  rw [Effect.run_bind_of_ok (x := Effect.get) rfl] at hs
  simp only [Effect.run_get, ha] at hs
  exact (Except.ok.inj hs).symm

/-- A token that is issued for an identity, by whatever provider and under whatever handle, has three
segments of the URL-safe alphabet. Its header tells the handle, its claims tell what the identity says,
and its signature is the answer of the signer to the first two segments. -/
theorem reading_of_issueAt (a : Authority) (now : Instant) (i : Identity) (token : String)
    (h : ((issueAt now i).run a).1 = .ok token) :
    ∃ r : Reading, ((select i.expiration).run a).1 = .ok r.handle ∧ r.Of i now token ∧
      ∀ handle calls last, a.provider = .fixed handle calls last → r.handle = handle := by
  obtain ⟨f, octets, handle, t, hf, hlen, hs, ht, rfl⟩ := signed_of_issueAt h
  obtain ⟨haccepted, hproduced, signature, hsign, rfl⟩ := signClaims_eq_ok_iff.1 ht
  have hnumbered := Uuid.isVersion4_text hlen
  generalize Uuid.text (Uuid.ofRandom octets) = jti at ht hsign hnumbered
  obtain ⟨hlt, hsays⟩ := Identity.says_of_check hf jti
  obtain ⟨hjti, hsub, hiss, haud⟩ := Identity.named_of_check hf jti
  -- from here on only what the claims tell matters, not how they were built
  generalize f jti = claims at *
  rw [← hjti] at hnumbered
  have hsegments : Compact.segments (Compact.text ⟨handle.headerSegment, claims.segment,
      Compact.encode signature⟩) = [handle.headerSegment, claims.segment, Compact.encode signature] :=
    Compact.segments_text (Compact.dot_not_mem_encode _) (Compact.dot_not_mem_encode _)
      (Compact.dot_not_mem_encode _)
  have hnone : claims.firstEmpty? = none :=
    Claims.firstEmpty?_eq_none (Uuid.ne_empty_of_isVersion4 hnumbered) hsub hiss haud
  have hordered : claims.nbf ≤ claims.iat ∧ claims.iat ≤ claims.exp := by
    have h1 := hsays.nbf
    have h2 := hsays.iat
    have h3 := hsays.exp
    have h4 := Instant.lt_iff.1 hlt
    omega
  refine ⟨⟨handle, claims, signature⟩, hs, ?_, fun _ _ _ ha => select_of_fixed ha hs⟩
  exact {
    segments := hsegments
    alphabet := by
      rw [hsegments]
      intro segment hm c hc
      simp only [List.mem_cons, List.not_mem_nil, or_false] at hm
      rcases hm with rfl | rfl | rfl <;> exact Base64.mem_encode_url hc
    header := Header.ofToken_of_segments hsegments
    accepted := haccepted
    produced := hproduced
    claims := Claims.ofToken_of_segments hsays.fits hnone hsegments
    told := hsays
    ordered := hordered
    numbered := hnumbered
    signed := hsign }

/-- a device that echoes three octets, under an identifier that no ring would take, at a leap second -/
theorem reading_of_issueAt_device :
    let now : Instant := ⟨59, 1500000000, by decide, by decide⟩
    let i : Identity := ⟨some "  \"Åsa\"\n", some "\t\x00", "https://a b/ü", ⟨60, 1, by decide, by decide⟩⟩
    let handle : SignerHandle := ⟨"../\"key\"\n", .ps256, .device .ps256 fun m => .ok (m.take 3)⟩
    let a : Authority := ⟨now, none, ⟨.sequence fun _ => 0xff⟩, [], [], .fixed handle 0 none⟩
    Policy.checkKeyId handle.keyId ≠ .ok () ∧ ∃ (token : String) (r : Reading),
      ((issueAt now i).run a).1 = .ok token ∧ r.handle = handle ∧ r.Of i now token := by
  obtain ⟨f, hf⟩ : ∃ f, Identity.check ⟨some "  \"Åsa\"\n", some "\t\x00", "https://a b/ü", ⟨60, 1, by decide,
      by decide⟩⟩ ⟨59, 1500000000, by decide, by decide⟩ = .ok f :=
    ⟨_, rfl⟩
  intro now i handle a
  have hsign : ∀ c, ∃ t, signClaims handle c = .ok t := fun c =>
    ⟨_, signClaims_eq_ok_iff.2 ⟨by decide, rfl, _, rfl, rfl⟩⟩
  obtain ⟨token, h⟩ : ∃ token, ((issueAt now i).run a).1 = .ok token :=
    exists_token hf handle rfl hsign
  obtain ⟨r, -, hr, hfixed⟩ := reading_of_issueAt a now i token h
  exact ⟨by decide, token, r, h, hfixed handle 0 none rfl, hr⟩

end Authority

end Credentials
