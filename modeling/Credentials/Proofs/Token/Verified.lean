import Credentials.Proofs.Crypto.Ed25519
import Credentials.Proofs.Token.Issued

/-!
# Signed tokens are accepted, unsigned ones never are

* `accepts_signedBy`        the signature of a signed token is right;
* `Authority.acceptable_signedBy`   a signed token is acceptable as long as its key is in use under its
                            identifier and its claims are valid now;
* `Authority.not_acceptable_unsigned`   a token without a signature is acceptable nowhere;
* `Authority.verify_ok_iff_acceptable`   over every ring that calls lead to, a token is accepted if
                            and only if it is acceptable.

A signature has 64 octets, and the empty segment of an unsigned token stands for none.
-/

namespace Credentials

/-- the signature is right under the public key of the signer -/
theorem accepts_signedBy (e : KeyEntry) (c : Claims) : (VerifyingKey.ofSecret e.key.secret).accepts
    (Compact.encode (headerOctets e) ++ "." ++ Compact.encode (payloadOctets c))
      (signatureOctets e c) = true := by
  rw [VerifyingKey.accepts, VerifyingKey.ofSecret, signatureOctets]
  exact Ed25519.verify_sign e.key.secret _

namespace Authority

variable {a : Authority} {audience : Option String} {c : Claims}

/-- a signed token is acceptable with its own claims only, and only while they are valid -/
theorem Acceptable.of_signedBy {e : KeyEntry} {c c' : Claims} (hf : c.Fits)
    {audience : Option String} {p : Parts}
    (h : Acceptable a (signedBy e c).text audience c' p) : c' = c := by
  have hs := h.segments
  rw [segments_signedBy] at hs
  injection hs with _ hs
  injection hs with hp _
  have hc := h.claims
  rw [← Compact.encode_injective hp, payloadOctets, Claims.read_toJson hf] at hc
  exact (Except.ok.inj hc).symm

/-- a signed token is acceptable as long as its key is in use and its claims are valid -/
theorem acceptable_signedBy {e : KeyEntry} {c : Claims} (hf : c.Fits)
    (hr : e ∈ a.provider.ring.entries) (hw : a.provider.ring.WellFormed) (hu : e.revoked = false)
    {audience : Option String} (hexp : a.systemTime.seconds < c.exp)
    (hnbf : (c.nbf : Int) ≤ a.systemTime.seconds + Claims.leeway)
    (hiat : (c.iat : Int) ≤ a.systemTime.seconds + Claims.leeway) (ho : c.iat ≤ c.exp)
    (ha : ∀ x ∈ audience, c.aud = x) :
    ∃ p, Acceptable a (signedBy e c).text audience c p := by
  have hsegments := segments_signedBy e c
  have hsigned := accepts_signedBy e c
  have hheader : Json.readText Header.ofTree (headerOctets e) = .ok (.plain .edDSA e.key.keyId) :=
    Header.read_issued _ _
  obtain ⟨hclaims, hobject⟩ := Claims.standIn_payloadOctets hf
  generalize headerOctets e = header at hsegments hsigned hheader
  generalize payloadOctets c = payload at hsegments hsigned hclaims hobject
  generalize signatureOctets e c = signature at hsegments hsigned
  exact ⟨⟨header, payload, signature, .plain .edDSA e.key.keyId, e⟩,
    { segments := hsegments
      header := hheader
      algorithm := rfl
      keyId := rfl
      named := hw.named e hr
      registered := hr
      inUse := hu
      size := size_of_accepts hsigned
      signed := hsigned
      claims := hclaims
      object := hobject
      notExpired := hexp
      begun := hnbf
      issued := hiat
      ordered := ho
      audience := ha }⟩

theorem encode_nil : Compact.encode [] = "" := by
  rw [Compact.encode, Base64.encode, Base64.symbols, List.map_nil, String.ofList_nil]

theorem segments_unsigned (header payload : Bytes) :
    Compact.segments (Compact.unsigned header payload).text
      = [Compact.encode header, Compact.encode payload, Compact.encode []] := by
  have h := Compact.segments_text (c := ⟨Compact.encode header, Compact.encode payload,
    Compact.encode []⟩) (Compact.dot_not_mem_encode _) (Compact.dot_not_mem_encode _)
    (Compact.dot_not_mem_encode _)
  rw [encode_nil] at h ⊢
  exact h

/-- an unsigned token is acceptable nowhere -/
theorem not_acceptable_unsigned (header payload : Bytes) (p : Parts) :
    ¬ Acceptable a (Compact.unsigned header payload).text audience c p := by
  intro h
  have hs := h.segments
  rw [segments_unsigned] at hs
  injection hs with _ hs
  injection hs with _ hs
  injection hs with he
  have hd := Compact.decode_eq_ok_iff.2 he
  rw [Compact.decode_eq_ok_iff.2 rfl] at hd
  have hsize := h.size
  rw [← Except.ok.inj hd] at hsize
  exact absurd hsize (by decide)

/-- Over every ring that calls lead to, and at any time since the epoch, a token is accepted with
certain claims if and only if it is acceptable with them; a token without a signature never is. -/
theorem verify_ok_iff_acceptable (a : Authority) (calls : List Call) (audience : Option String)
    (c : Claims) (ht : 0 ≤ (a.emptied.afterAll calls).systemTime.seconds) :
    (∀ token, ((verify token audience).run (a.emptied.afterAll calls)).1 = .ok c ↔
      ∃ p, Acceptable (a.emptied.afterAll calls) token audience c p) ∧
    ∀ header payload, ((verify (Compact.unsigned header payload).text audience).run
      (a.emptied.afterAll calls)).1 ≠ .ok c := by
  obtain ⟨r, hr, hw⟩ := wellFormed_reachable a calls
  have hring : (a.emptied.afterAll calls).provider.ring.WellFormed := by
    rw [hr]
    exact hw
  refine ⟨fun token => verify_ok_iff_of_wellFormed hring ht, fun header payload hv => ?_⟩
  obtain ⟨p, hp⟩ := (verify_ok_iff_of_wellFormed hring ht).1 hv
  exact not_acceptable_unsigned header payload p hp

/-- a key that is registered, a token that it has signed, and the same token without the signature -/
theorem signed_accepted :
    let start : Instant := ⟨60, 0, by decide, by decide⟩
    let k : SigningKey := ⟨"k1", [], start, ⟨120, 0, by decide, by decide⟩⟩
    let c : Claims := ⟨"jti", "sub", "iss", "aud", 60, 60, 120, "name"⟩
    let a : Authority := ⟨start, none, ⟨.generator 0⟩, [], [], .rotating .empty⟩
    let b := a.emptied.afterAll [.insertKey k]
    let e : KeyEntry := ⟨k, 0, none⟩
    0 ≤ b.systemTime.seconds ∧
      ((verify (signedBy e c).text (some "aud")).run b).1 = .ok c ∧
      ((verify (Compact.unsigned (headerOctets e) (payloadOctets c)).text (some "aud")).run b).1
        ≠ .ok c := by
  intro start k c a b e
  have hr : b.provider = .rotating ⟨[e], 1⟩ := by decide +kernel
  have hring : b.provider.ring = ⟨[e], 1⟩ := congrArg Provider.ring hr
  have hclock : b.systemTime = start := by decide +kernel
  have ht : 0 ≤ b.systemTime.seconds := by
    rw [hclock]
    decide
  have hw : b.provider.ring.WellFormed := by
    obtain ⟨r, hr', hw⟩ := wellFormed_reachable a [.insertKey k]
    rwa [congrArg Provider.ring hr']
  obtain ⟨haccepted, hunsigned⟩ := verify_ok_iff_acceptable a [.insertKey k] (some "aud") c ht
  refine ⟨ht, (haccepted _).2 ?_, hunsigned _ _⟩
  refine acceptable_signedBy ⟨by decide, by decide, by decide⟩ ?_ hw rfl ?_ ?_ ?_ (by decide) ?_
  · rw [hring]
    exact List.mem_cons_self
  · rw [hclock]
    decide
  · rw [hclock]
    decide
  · rw [hclock]
    decide
  · intro x hx
    exact Option.some.inj hx

end Authority

end Credentials
