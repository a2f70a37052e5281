import Credentials.Proofs.Token.Content
import Credentials.Proofs.Token.Lifetime

/-!
# Tokens that are signed under a key

* `Claims.SignedIn`                claims stand in segments that are signed under a key;
* `verifySignature_of_signedIn`    what verification answers for such a token, at any time;
* `Claims.named`                   the texts of claims that must not be empty, in order;
* `Header.ofToken_iff_segments`    a token whose header is read has three segments;
* `ofToken_of_verifySignature`     claims that are verified are those that are read without a key;
* `tokenExpired_iff_of_signedIn`   in the second of its expiration a token is verified, although its
                                   claims are not valid any more.
-/

namespace Credentials

variable {c : Claims} {t : Compact} {token : String} {key : VerifyingKey}

/-! ## verification -/

/-- claims stand in segments that are signed under a key -/
structure Claims.SignedIn (c : Claims) (t : Compact) (key : VerifyingKey) : Prop where
  header : ∃ h, Header.ofSegment t.header = .ok h ∧ h.algorithm = .edDSA
  signature : ∃ octets, t.signature = Compact.encode octets ∧ key.accepts t.signed octets = true
  payload : ∃ octets, t.payload = Compact.encode octets ∧ c.StandIn octets

/-- segments are verified as long as the claims that are signed in them have not expired -/
theorem Compact.verify_iff_signedIn {now : Nat} :
    t.verify key .edDSA now = .ok c ↔ c.SignedIn t key ∧ now ≤ c.exp := by
  rw [Compact.verify_eq_ok_iff]
  constructor
  · rintro ⟨hh, hs, ⟨octets, hp, hc⟩, he⟩
    obtain ⟨hread, hobject⟩ := Claims.ofPayload_eq_ok_iff.1 hc
    exact ⟨⟨hh, hs, octets, hp, hread, hobject⟩, he⟩
  · rintro ⟨⟨hh, hs, octets, hp, hread, hobject⟩, he⟩
    exact ⟨hh, hs, ⟨octets, hp, Claims.ofPayload_eq_ok_iff.2 ⟨hread, hobject⟩⟩, he⟩

/-- behind the expiration nothing but the expiration is wrong -/
theorem Compact.verify_of_lt (h : c.SignedIn t key) {now : Nat} (he : c.exp < now) :
    t.verify key .edDSA now = .error .expiredSignature := by
  obtain ⟨⟨header, hh, ha⟩, ⟨signature, hs, haccepts⟩, payload, hp, hread, hobject⟩ := h
  unfold Compact.verify
  rw [hh]
  show (if header.algorithm ≠ .edDSA then _ else _) = _
  rw [if_neg fun hn => hn ha, Compact.decode_eq_ok_iff.2 hs]
  show (if key.accepts t.signed signature then _ else _) = _
  rw [if_pos haccepts, Compact.decode_eq_ok_iff.2 hp]
  show ((Claims.ofPayload payload).mapError _ >>= _) = _
  rw [Claims.ofPayload_eq_ok_iff.2 ⟨hread, hobject⟩]
  show (if c.exp < now then _ else _) = _
  rw [if_pos he]

/-- what verification answers for a token that is signed under the key -/
theorem verifySignature_of_signedIn (ht : Compact.ofText? token = some t) (h : c.SignedIn t key)
    (now : Nat) : verifySignature token key .edDSA now =
      if c.exp < now then .error .tokenExpired else .ok c := by
  split
  · rename_i he
    unfold verifySignature
    rw [if_neg fun hn => hn rfl, ht]
    show (t.verify key .edDSA now).mapError _ = _
    rw [Compact.verify_of_lt h he]
    rfl
  · rename_i he
    exact verifySignature_eq_ok_iff.2
      ⟨t, ht, Compact.verify_iff_signedIn.2 ⟨h, Nat.not_lt.1 he⟩⟩

/-- claims stand in the segments that a registered key has signed for them -/
theorem Claims.signedIn_signedBy (e : KeyEntry) (hf : c.Fits) :
    c.SignedIn (signedBy e c) (.ofSecret e.key.secret) where
  header := ⟨_, Header.ofSegment_eq_ok_iff.2 ⟨_, rfl, Header.read_issued .edDSA e.key.keyId⟩, rfl⟩
  signature := ⟨_, rfl, accepts_signedBy e c⟩
  payload := ⟨_, rfl, Claims.standIn_payloadOctets hf⟩

theorem ofText?_signedBy (e : KeyEntry) (c : Claims) :
    Compact.ofText? (signedBy e c).text = some (signedBy e c) :=
  Compact.ofText?_of_segments (segments_signedBy e c)

/-! ## reading without a key -/

/-- the texts of claims that must not be empty, in the order in which they are looked at -/
def Claims.named (c : Claims) : List (String × String) :=
  [("jti", c.jti), ("sub", c.sub), ("iss", c.iss), ("aud", c.aud)]

theorem Claims.firstEmpty?_of_forall (h : ∀ p ∈ c.named, p.2 ≠ "") : c.firstEmpty? = none :=
  firstEmpty?_eq_none (h ("jti", c.jti) (by simp [named])) (h ("sub", c.sub) (by simp [named]))
    (h ("iss", c.iss) (by simp [named])) (h ("aud", c.aud) (by simp [named]))

theorem Claims.firstEmpty?_eq_find? (c : Claims) :
    c.firstEmpty? = (c.named.find? fun p => p.2 = "").map Prod.fst := by
  unfold firstEmpty? named
  simp only [List.find?_cons, List.find?_nil]
  split
  · simp [*]
  split
  · simp [*]
  split
  · simp [*]
  split
  · simp [*]
  · simp [*]

/-- the first of the texts that is empty -/
theorem Claims.firstEmpty?_of_split {before after : List (String × String)} {name : String}
    (hc : c.named = before ++ (name, "") :: after) (hb : ∀ p ∈ before, p.2 ≠ "") :
    c.firstEmpty? = some name := by
  have hf : (c.named.find? fun p => p.2 = "") = some (name, "") :=
    List.find?_eq_some_iff_append.2 ⟨by simp, before, after, hc, fun p hp => by simpa using hb p hp⟩
  rw [firstEmpty?_eq_find?, hf]
  rfl

/-- The header of a token is cut off at the last two dots, but it is read only if no dot is left in it:
then the token has three segments, and the header is that of the first. -/
theorem Header.ofToken_iff_segments {h : Header} : ofToken token = .ok h ↔
    ∃ header payload signature, Compact.segments token = [header, payload, signature] ∧
      ofSegment header = .ok h := by
  rw [ofToken_eq_ok_iff]
  constructor
  · rintro ⟨t, ht, hh⟩
    obtain ⟨octets, ho, -⟩ := ofSegment_eq_ok_iff.1 hh
    exact ⟨_, _, _, Compact.segments_of_ofText? ht (ho ▸ Compact.dot_not_mem_encode octets), hh⟩
  · rintro ⟨header, payload, signature, hs, hh⟩
    exact ⟨_, Compact.ofText?_of_segments hs, hh⟩

/-- Claims that are verified under a key, at whatever time, are those that are read out of the token
without a key, if none of the texts is empty that must not be; otherwise the first one that is empty is
complained about. A header is read only from a token of three segments, and then from the first. -/
theorem ofToken_of_verifySignature (token : String) (key : VerifyingKey) (now : Nat) :
    (∀ c, verifySignature token key .edDSA now = .ok c →
      (∃ header payload signature, Compact.segments token = [header, payload, signature]) ∧
      (∃ h, Header.ofToken token = .ok h ∧ h.algorithm = .edDSA) ∧
      ((∀ p ∈ c.named, p.2 ≠ "") → Claims.ofToken token = .ok c) ∧
      ∀ before name after, c.named = before ++ (name, "") :: after → (∀ p ∈ before, p.2 ≠ "") →
        Claims.ofToken token = .error (.missingClaim name)) ∧
    ∀ h, Header.ofToken token = .ok h → ∃ header payload signature,
      Compact.segments token = [header, payload, signature] ∧ Header.ofSegment header = .ok h ∧
        Compact.ofText? token = some ⟨header, payload, signature⟩ := by
  refine ⟨fun c hv => ?_, fun h hh => ?_⟩
  · obtain ⟨t, ht, hv⟩ := verifySignature_eq_ok_iff.1 hv
    obtain ⟨⟨⟨h, hh, ha⟩, -, octets, hp, hc⟩, -⟩ := Compact.verify_iff_signedIn.1 hv
    obtain ⟨header, hheader, -⟩ := Header.ofSegment_eq_ok_iff.1 hh
    have hs : Compact.segments token = [t.header, t.payload, t.signature] :=
      Compact.segments_of_ofText? ht (hheader ▸ Compact.dot_not_mem_encode header)
    rw [Claims.ofToken_of_payload (hp ▸ hs) hc.read]
    refine ⟨⟨_, _, _, hs⟩, ⟨h, Header.ofToken_eq_ok_iff.2 ⟨t, ht, hh⟩, ha⟩, fun hn => ?_, ?_⟩
    · rw [Claims.firstEmpty?_of_forall hn]
    · intro before name after hc hb
      rw [Claims.firstEmpty?_of_split hc hb]
  · obtain ⟨header, payload, signature, hs, hh⟩ := Header.ofToken_iff_segments.1 hh
    exact ⟨header, payload, signature, hs, hh, Compact.ofText?_of_segments hs⟩

/-- a token of an empty subject and issuer is verified, and complained about when it is read without
the key -/
theorem ofToken_of_verifySignature_anonymous :
    let c : Claims := ⟨"jti", "", "", "aud", 0, 0, 60, "name"⟩
    let e : KeyEntry := ⟨⟨"k1", [], ⟨0, 0, by decide, by decide⟩,
      ⟨60, 0, by decide, by decide⟩⟩, 0, none⟩
    verifySignature (signedBy e c).text (.ofSecret e.key.secret) .edDSA 59 = .ok c ∧
      Claims.ofToken (signedBy e c).text = .error (.missingClaim "sub") := by
  intro c e
  have hv := verifySignature_of_signedIn (ofText?_signedBy e c)
    (Claims.signedIn_signedBy e (c := c) ⟨by decide, by decide, by decide⟩) 59
  rw [if_neg (show ¬ c.exp < 59 by decide)] at hv
  obtain ⟨-, -, -, hmissing⟩ := (ofToken_of_verifySignature _ _ 59).1 c hv
  refine ⟨hv, hmissing [("jti", "jti")] "sub" [("iss", ""), ("aud", "aud")] rfl ?_⟩
  intro p hp
  obtain rfl := List.mem_singleton.1 hp
  decide

/-! ## the second of the expiration -/

/-- claims are refused as expired from the second of their expiration on, whatever else is wrong -/
theorem Claims.validate_eq_tokenExpired_iff {now : Nat} {audience : Option String} :
    c.validate now audience = .error .tokenExpired ↔ c.exp ≤ now := by
  unfold validate
  constructor
  · intro h
    by_contra he
    rw [if_neg he] at h
    split at h
    · cases h
    split at h
    · cases h
    split at h
    · cases h
    split at h
    · split at h
      · cases h
      · cases h
    · cases h
  · intro he
    rw [if_pos he]

/-- A token that is signed under a key is refused as expired one second later than its claims are: in
the second of its expiration, and then only, it is still verified although its claims have expired. -/
theorem tokenExpired_iff_of_signedIn (now : Instant) (hnow : 0 ≤ now.seconds)
    (ht : Compact.ofText? token = some t) (h : c.SignedIn t key) :
    (verifySignature token key .edDSA now.clockSeconds = .error .tokenExpired ↔
      (c.exp : Int) < now.seconds) ∧
    (c.validate now.clockSeconds none = .error .tokenExpired ↔ (c.exp : Int) ≤ now.seconds) ∧
    ((verifySignature token key .edDSA now.clockSeconds = .error .tokenExpired ↔
      c.validate now.clockSeconds none = .error .tokenExpired) ↔ (c.exp : Int) ≠ now.seconds) ∧
    ((c.exp : Int) = now.seconds → verifySignature token key .edDSA now.clockSeconds = .ok c) := by
  have hclock : (now.clockSeconds : Int) = now.seconds := Int.toNat_of_nonneg hnow
  have hvalid : c.validate now.clockSeconds none = .error .tokenExpired ↔
      (c.exp : Int) ≤ now.seconds := by
    rw [Claims.validate_eq_tokenExpired_iff]
    omega
  rw [verifySignature_of_signedIn ht h]
  have hverified : (if c.exp < now.clockSeconds then .error .tokenExpired else .ok c :
      Except TokenError Claims) = .error .tokenExpired ↔ (c.exp : Int) < now.seconds := by
    split
    · exact iff_of_true rfl (by omega)
    · exact iff_of_false (fun h => nomatch h) (by omega)
  refine ⟨hverified, hvalid, ?_, fun he => if_neg (by omega)⟩
  rw [hverified, hvalid]
  constructor
  · intro hiff he
    exact absurd (hiff.2 (Int.le_of_eq he)) (by omega)
  · intro he
    exact ⟨Int.le_of_lt, fun hle => Int.lt_iff_le_and_ne.2 ⟨hle, he⟩⟩

/-- the claims of a token of a minute that expires with the year 2029 -/
def newYear : Claims :=
  ⟨"jti-1", "alice", "https%3A%2F%2Fidp", "https%3A%2F%2Fidp", 1893455940, 1893455940, 1893456000,
    "alice"⟩

theorem newYear_fits : newYear.Fits := ⟨by decide, by decide, by decide⟩

/-- the key of the secret one -/
def keyOne : KeyEntry :=
  ⟨⟨"k1", List.replicate 31 0 ++ [1], ⟨0, 0, by decide, by decide⟩,
    ⟨1893456000, 0, by decide, by decide⟩⟩, 0, none⟩

/-- half a second behind its expiration a token is verified, and a second behind it is not any more -/
theorem tokenExpired_iff_at_newYear :
    let token := (signedBy keyOne newYear).text
    let key := VerifyingKey.ofSecret keyOne.key.secret
    let after : Instant := ⟨1893456000, 500000000, by decide, by decide⟩
    let later : Instant := ⟨1893456001, 0, by decide, by decide⟩
    verifySignature token key .edDSA after.clockSeconds = .ok newYear ∧
      newYear.validate after.clockSeconds none = .error .tokenExpired ∧
      verifySignature token key .edDSA later.clockSeconds = .error .tokenExpired := by
  intro token key after later
  have ht : Compact.ofText? token = some (signedBy keyOne newYear) := ofText?_signedBy _ _
  have h : newYear.SignedIn (signedBy keyOne newYear) key := Claims.signedIn_signedBy _ newYear_fits
  obtain ⟨-, hvalid, -, hverified⟩ := tokenExpired_iff_of_signedIn after (by decide) ht h
  obtain ⟨hlater, -⟩ := tokenExpired_iff_of_signedIn later (by decide) ht h
  exact ⟨hverified rfl, hvalid.2 (by decide), hlater.2 (by decide)⟩

/-- the two checks do not agree on when this token has expired -/
theorem not_tokenExpired_iff_newYear :
    newYear.SignedIn (signedBy keyOne newYear) (.ofSecret keyOne.key.secret) ∧
      ¬ (verifySignature (signedBy keyOne newYear).text (.ofSecret keyOne.key.secret) .edDSA 1893456000
          = .error .tokenExpired ↔ newYear.validate 1893456000 none = .error .tokenExpired) := by
  have h := Claims.signedIn_signedBy keyOne newYear_fits
  refine ⟨h, ?_⟩
  rw [verifySignature_of_signedIn (ofText?_signedBy _ _) h, if_neg (by decide)]
  intro hiff
  cases hiff.2 (Claims.validate_eq_tokenExpired_iff.2 (by decide))

end Credentials
