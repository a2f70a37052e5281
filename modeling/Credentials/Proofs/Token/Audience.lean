import Credentials.Proofs.Token.Content

/-!
# A token is for the audience of its own issuer

* `Claims.WrittenIn`              claims stand in the second of three segments;
* `Claims.WrittenIn.ofToken`, `Claims.WrittenIn.eq_of_verifySignature`   whoever reads the token, with
                                  a key or without, reads them;
* `Claims.validate_some_iff`      the check of an audience, apart from that of the times;
* `Authority.writtenIn_of_issueAt`   what an identity says is written in its token;
* `Authority.issuer_of_audience`  issuers are encoded reversibly, so that a token for an identity of one
                                  issuer never passes for a token of another.

The audience of a token is the form encoding of the issuer, and it is compared as text. Were two
issuers encoded alike, a token of the one would be taken by those who ask for the other.
-/

namespace Credentials

variable {c c' : Claims} {token : String}

/-- the check of an audience is made behind that of the times -/
theorem Claims.validate_some_iff {now : Nat} {audience : String} :
    c.validate now (some audience) = .ok () ↔ c.validate now none = .ok () ∧ c.aud = audience := by
  rw [validate_eq_ok_iff, validate_eq_ok_iff]
  constructor
  · rintro ⟨hexp, hnbf, hiat, hord, haud⟩
    exact ⟨⟨hexp, hnbf, hiat, hord, fun _ h => nomatch h⟩, haud audience rfl⟩
  · rintro ⟨⟨hexp, hnbf, hiat, hord, -⟩, haud⟩
    refine ⟨hexp, hnbf, hiat, hord, fun x hx => ?_⟩
    rw [haud]
    exact Option.some.inj hx

/-! ## claims in a token -/

/-- claims that can be read stand in the second of three segments -/
structure Claims.WrittenIn (c : Claims) (token : String) : Prop where
  segments : ∃ header signature, Compact.segments token = [header, c.segment, signature]
  fits : c.Fits
  named : c.firstEmpty? = none

namespace Claims.WrittenIn

/-- they are read without a key -/
theorem ofToken (h : c.WrittenIn token) : Claims.ofToken token = .ok c := by
  obtain ⟨header, signature, hs⟩ := h.segments
  exact ofToken_of_segments h.fits h.named hs

/-- no others are read with a key, of whatever algorithm and at whatever time -/
theorem eq_of_verifySignature (h : c.WrittenIn token) {key : VerifyingKey} {algorithm : Algorithm}
    {now : Nat} (hv : verifySignature token key algorithm now = .ok c') : c' = c := by
  obtain ⟨header, signature, hs⟩ := h.segments
  have halgorithm : algorithm = .edDSA := by
    by_contra hn
    rw [verifySignature, if_pos hn] at hv
    cases hv
  subst halgorithm
  obtain ⟨t, ht, hv⟩ := verifySignature_eq_ok_iff.1 hv
  obtain rfl : ⟨header, c.segment, signature⟩ = t :=
    Option.some.inj ((Compact.ofText?_of_segments hs).symm.trans ht)
  obtain ⟨-, -, ⟨octets, hp, hc⟩, -⟩ := Compact.verify_eq_ok_iff.1 hv
  obtain ⟨hread, -⟩ := ofPayload_eq_ok_iff.1 hc
  rw [← Compact.encode_injective hp, read_toJson h.fits] at hread
  exact (Except.ok.inj hread).symm

/-- those that are verified have passed the check of the audience -/
theorem of_verify (h : c.WrittenIn token) {b : Authority} {audience : Option String}
    (hv : ((Authority.verify token audience).run b).1 = .ok c') :
    c' = c ∧ c.validate b.systemTime.clockSeconds audience = .ok () := by
  obtain ⟨-, key, -, -, hv⟩ := Authority.verify_eq_ok_iff.1 hv
  obtain ⟨hsigned, hvalid⟩ := verifyUnder_eq_ok_iff.1 hv
  obtain rfl := h.eq_of_verifySignature (verifySignature_eq_ok_iff.2 hsigned)
  exact ⟨rfl, hvalid⟩

end Claims.WrittenIn

namespace Authority

/-- what an identity says is written in its token, whoever signs it -/
theorem writtenIn_of_issueAt {a : Authority} {now : Instant} {i : Identity}
    (h : ((issueAt now i).run a).1 = .ok token) : ∃ c : Claims, c.WrittenIn token ∧ i.Says now c := by
  obtain ⟨f, octets, handle, t, hf, hlen, -, ht, rfl⟩ := signed_of_issueAt h
  obtain ⟨-, -, signature, -, rfl⟩ := signClaims_eq_ok_iff.1 ht
  have hnumbered := Uuid.isVersion4_text hlen
  generalize Uuid.text (Uuid.ofRandom octets) = jti at ht hnumbered
  obtain ⟨-, hsays⟩ := Identity.says_of_check hf jti
  obtain ⟨hjti, hsub, hiss, haud⟩ := Identity.named_of_check hf jti
  refine ⟨f jti, ⟨⟨handle.headerSegment, Compact.encode signature, ?_⟩, hsays.fits, ?_⟩, hsays⟩
  · exact Compact.segments_text (Compact.dot_not_mem_encode _) (Compact.dot_not_mem_encode _)
      (Compact.dot_not_mem_encode _)
  · rw [← hjti] at hnumbered
    exact Claims.firstEmpty?_eq_none (Uuid.ne_empty_of_isVersion4 hnumbered) hsub hiss haud

/-- The form encoding of an issuer reads back as its octets and is made of plain characters, `%` and
`+`; it joins as texts do, and leaves just the texts of plain characters as they are. So no two
issuers have the same one. A token that is issued for an identity, by whatever provider, says one thing
to all who read it, and passes the check for the audience of an issuer if and only if it passes the
one of its times and this is the issuer of its identity. No ring verifies it for any other. -/
theorem issuer_of_audience :
    (∀ s, Form.decode (Form.encode s) = utf8 s) ∧
    (∀ s, ∀ c ∈ (Form.encode s).toList, Form.Plain c ∨ c = '%' ∨ c = '+') ∧
    (∀ s t, Form.encode (s ++ t) = Form.encode s ++ Form.encode t) ∧
    (∀ s, Form.encode s = s ↔ ∀ c ∈ s.toList, Form.Plain c) ∧
    Function.Injective Form.encode ∧
    ∀ (a : Authority) (now : Instant) (i : Identity) (token : String),
      ((issueAt now i).run a).1 = .ok token → ∃ c : Claims,
        Claims.ofToken token = .ok c ∧
        (∀ key algorithm seconds c', verifySignature token key algorithm seconds = .ok c' → c' = c) ∧
        (∀ seconds issuer, c.validate seconds (some (Form.encode issuer)) = .ok () ↔
          c.validate seconds none = .ok () ∧ issuer = i.issuer) ∧
        ∀ (b : Authority) issuer result,
          ((verify token (some (Form.encode issuer))).run b).1 = .ok result → issuer = i.issuer := by
  refine ⟨Form.decode_encode, fun _ _ => Form.plain_of_mem_encode, Form.encode_append,
    Form.encode_eq_self_iff, Form.encode_injective, fun a now i token h => ?_⟩
  obtain ⟨c, hc, hsays⟩ := writtenIn_of_issueAt h
  have haudience : ∀ seconds issuer, c.validate seconds (some (Form.encode issuer)) = .ok () ↔
      c.validate seconds none = .ok () ∧ issuer = i.issuer := by
    intro seconds issuer
    rw [Claims.validate_some_iff, hsays.aud, Form.encode_injective.eq_iff, eq_comm (a := issuer)]
  refine ⟨c, hc.ofToken, fun _ _ _ _ => hc.eq_of_verifySignature, haudience, ?_⟩
  intro b issuer result hv
  obtain ⟨-, hvalid⟩ := hc.of_verify hv
  exact ((haudience _ _).1 hvalid).2

/-- a token of an issuer with a space in it is not for the issuer with a plus sign in its place, nor for
the one that is spelled as the first is encoded -/
theorem issuer_of_audience_space :
    let now : Instant := ⟨60, 0, by decide, by decide⟩
    let i := Identity.new "alice" "a b" ⟨120, 0, by decide, by decide⟩
    let a : Authority := ⟨now, none, ⟨.generator 0⟩, [], [],
      .fixed ⟨"k1", .edDSA, .device .edDSA fun m => .ok m⟩ 0 none⟩
    ∃ token c, ((issueAt now i).run a).1 = .ok token ∧ Claims.ofToken token = .ok c ∧
      c.validate 60 (some (Form.encode "a b")) = .ok () ∧
      c.validate 60 (some (Form.encode "a+b")) ≠ .ok () ∧
      c.validate 60 (some (Form.encode "a%20b")) ≠ .ok () := by
  obtain ⟨f, hf⟩ : ∃ f, (Identity.new "alice" "a b" ⟨120, 0, by decide, by decide⟩).check
      ⟨60, 0, by decide, by decide⟩ = .ok f := ⟨_, rfl⟩
  intro now i a
  obtain ⟨token, h⟩ : ∃ token, ((issueAt now i).run a).1 = .ok token :=
    exists_token hf _ rfl fun c => ⟨_, signClaims_eq_ok_iff.2 ⟨by decide, rfl, _, rfl, rfl⟩⟩
  obtain ⟨c, hc, hsays⟩ := writtenIn_of_issueAt h
  obtain ⟨-, -, -, -, -, hissued⟩ := issuer_of_audience
  obtain ⟨c', hc', -, haudience, -⟩ := hissued a now i token h
  obtain rfl : c = c' := Except.ok.inj (hc.ofToken.symm.trans hc')
  have htimes : c.validate 60 none = .ok () := by
    have hnbf : (c.nbf : Int) = 60 := hsays.nbf
    have hiat : (c.iat : Int) = 60 := hsays.iat
    have hexp : (c.exp : Int) = 120 := hsays.exp
    have hleeway : Claims.leeway = 60 := rfl
    refine Claims.validate_eq_ok_iff.2 ⟨?_, ?_, ?_, ?_, fun _ h => nomatch h⟩
    all_goals omega
  refine ⟨token, c, h, hc', (haudience 60 "a b").2 ⟨htimes, rfl⟩, fun hv => ?_, fun hv => ?_⟩
  · exact absurd ((haudience 60 "a+b").1 hv).2 (by decide)
  · exact absurd ((haudience 60 "a%20b").1 hv).2 (by decide)

end Authority

end Credentials
