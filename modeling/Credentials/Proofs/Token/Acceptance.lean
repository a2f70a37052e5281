import Credentials.Proofs.Json.Reading
import Credentials.Proofs.Token.Compact
import Credentials.Proofs.Token.Run

/-!
# Which tokens are accepted

* `Authority.Acceptable`          what has to hold of a token and of what it is made of;
* `verifyUnder_eq_ok_iff`         the claims of a token under a key;
* `clearedKeyId_eq_ok_iff`        the key identifier of a token that may be verified at all;
* `Authority.verify_fst`          verification asks the ring for the one key of the header;
* `Authority.verify_ok_iff_of_wellFormed`   over a well-formed ring a token is accepted if and only
                                  if it is acceptable.

The header is read twice from the token, cut at its last two dots. No written form of octets has a
dot in it, so a token whose header is read has just three segments.
-/

namespace Credentials

/-! ## parts of a token -/

/-- the header of a segment is read from the octets it is the written form of -/
theorem Header.ofSegment_eq_ok_iff {segment : String} {h : Header} : Header.ofSegment segment = .ok h ↔
    ∃ bs, segment = Compact.encode bs ∧ Json.readText Header.ofTree bs = .ok h := by
  unfold Header.ofSegment
  simp only [bind_eq_ok_iff, mapError_eq_ok_iff, Compact.decode_eq_ok_iff]

/-- claims come out of an object or an array -/
theorem Claims.container_of_ofTree {t : Json.Tree} {c : Claims} (h : Claims.ofTree t = .ok c) :
    (∃ members ending, t = .object members ending) ∨ ∃ items ending, t = .array items ending := by
  cases t with
  | object members ending => exact Or.inl ⟨members, ending, rfl⟩
  | array items ending => exact Or.inr ⟨items, ending, rfl⟩
  | _ => exact absurd h (Json.Tree.mismatch_ne_ok _ _ _)

/-- the claims of a payload are those of an object -/
theorem Claims.ofPayload_eq_ok_iff {bs : Bytes} {c : Claims} : Claims.ofPayload bs = .ok c ↔
    Json.readText Claims.ofTree bs = .ok c ∧
      ∃ members ending, (Json.Document.ofText bs).tree = .object members ending := by
  unfold Claims.ofPayload
  rw [bind_eq_ok_iff]
  constructor
  · rintro ⟨c', hc, h⟩
    have ht : Claims.ofTree (Json.Document.ofText bs).tree = .ok c' := by
      obtain ⟨x, hx, hd⟩ := bind_eq_ok_iff.1 hc
      split at hd
      · rw [hx, Except.ok.inj hd]
      · cases hd
    rcases Claims.container_of_ofTree ht with ⟨members, ending, e⟩ | ⟨items, ending, e⟩
    · rw [e] at h
      obtain rfl := Except.ok.inj h
      exact ⟨hc, members, ending, e⟩
    · rw [e] at h
      cases h
  · rintro ⟨hc, members, ending, e⟩
    refine ⟨c, hc, ?_⟩
    rw [e]

/-- the times and the audience of claims that are valid at a time -/
theorem Claims.validate_eq_ok_iff {c : Claims} {now : Nat} {audience : Option String} :
    c.validate now audience = .ok () ↔ now < c.exp ∧ c.nbf ≤ now + leeway ∧ c.iat ≤ now + leeway ∧
      c.iat ≤ c.exp ∧ ∀ x ∈ audience, c.aud = x := by
  unfold Claims.validate
  by_cases h1 : c.exp ≤ now
  · rw [if_pos h1]
    exact ⟨fun h => (nomatch h), fun h => absurd h.1 (Nat.not_lt.2 h1)⟩
  by_cases h2 : now + leeway < c.nbf
  · rw [if_neg h1, if_pos h2]
    exact ⟨fun h => (nomatch h), fun h => absurd h.2.1 (Nat.not_le.2 h2)⟩
  by_cases h3 : now + leeway < c.iat
  · rw [if_neg h1, if_neg h2, if_pos h3]
    exact ⟨fun h => (nomatch h), fun h => absurd h.2.2.1 (Nat.not_le.2 h3)⟩
  by_cases h4 : c.exp < c.iat
  · rw [if_neg h1, if_neg h2, if_neg h3, if_pos h4]
    exact ⟨fun h => (nomatch h), fun h => absurd h.2.2.2.1 (Nat.not_le.2 h4)⟩
  rw [if_neg h1, if_neg h2, if_neg h3, if_neg h4]
  have ht : now < c.exp ∧ c.nbf ≤ now + leeway ∧ c.iat ≤ now + leeway ∧ c.iat ≤ c.exp := by omega
  cases audience with
  | none => exact ⟨fun _ => ⟨ht.1, ht.2.1, ht.2.2.1, ht.2.2.2, fun _ h => (nomatch h)⟩, fun _ => rfl⟩
  | some expected =>
    by_cases ha : c.aud = expected
    · simp only [ha, if_true]
      refine ⟨fun _ => ⟨ht.1, ht.2.1, ht.2.2.1, ht.2.2.2, fun x hx => ?_⟩, fun _ => trivial⟩
      exact Option.some.inj hx
    · simp only [ha, if_false]
      exact ⟨fun h => (nomatch h), fun h => absurd (h.2.2.2.2 expected rfl) ha⟩

/-! ## a token under a key -/

/-- the claims of segments under a key, at a time -/
theorem Compact.verify_eq_ok_iff {t : Compact} {key : VerifyingKey} {now : Nat} {c : Claims} :
    t.verify key .edDSA now = .ok c ↔
      (∃ h, Header.ofSegment t.header = .ok h ∧ h.algorithm = .edDSA) ∧
      (∃ sb, t.signature = Compact.encode sb ∧ key.accepts t.signed sb = true) ∧
      (∃ pb, t.payload = Compact.encode pb ∧ Claims.ofPayload pb = .ok c) ∧ now ≤ c.exp := by
  unfold Compact.verify
  rw [bind_eq_ok_iff]
  constructor
  · rintro ⟨h, hh, ho⟩
    split at ho
    · cases ho
    rename_i ha
    obtain ⟨sb, hs, ho⟩ := bind_eq_ok_iff.1 ho
    split at ho
    · rename_i hacc
      obtain ⟨pb, hp, ho⟩ := bind_eq_ok_iff.1 ho
      obtain ⟨c', hc, ho⟩ := bind_eq_ok_iff.1 ho
      split at ho
      · cases ho
      rename_i he
      obtain rfl := Except.ok.inj ho
      exact ⟨⟨h, hh, Classical.not_not.1 ha⟩,
        ⟨sb, decode_eq_ok_iff.1 (mapError_eq_ok_iff.1 hs), hacc⟩,
        ⟨pb, decode_eq_ok_iff.1 (mapError_eq_ok_iff.1 hp), mapError_eq_ok_iff.1 hc⟩,
        Nat.not_lt.1 he⟩
    · cases ho
  · rintro ⟨⟨h, hh, ha⟩, ⟨sb, hs, hacc⟩, ⟨pb, hp, hc⟩, he⟩
    refine ⟨h, hh, ?_⟩
    rw [if_neg (fun hn => hn ha), decode_eq_ok_iff.2 hs]
    show (if key.accepts t.signed sb then _ else _) = _
    rw [if_pos hacc, decode_eq_ok_iff.2 hp]
    show ((Claims.ofPayload pb).mapError _ >>= _) = _
    rw [hc]
    show (if c.exp < now then _ else _) = _
    rw [if_neg (Nat.not_lt.2 he)]

theorem verifySignature_eq_ok_iff {token : String} {key : VerifyingKey} {now : Nat} {c : Claims} :
    verifySignature token key .edDSA now = .ok c ↔
      ∃ t, Compact.ofText? token = some t ∧ t.verify key .edDSA now = .ok c := by
  unfold verifySignature
  rw [mapError_eq_ok_iff, if_neg (fun h => h rfl)]
  cases Compact.ofText? token with
  | none => exact ⟨fun h => (nomatch h), fun ⟨_, h, _⟩ => (nomatch h)⟩
  | some t =>
    exact ⟨fun h => ⟨t, rfl, h⟩, fun ⟨_, ht, h⟩ => by rwa [Option.some.inj ht]⟩

/-- the claims of a token under a key, at a time -/
theorem verifyUnder_eq_ok_iff {token : String} {key : VerifyingKey} {audience : Option String}
    {now : Nat} {c : Claims} : verifyUnder token key audience now = .ok c ↔
      (∃ t, Compact.ofText? token = some t ∧ t.verify key .edDSA now = .ok c) ∧
        c.validate now audience = .ok () := by
  unfold verifyUnder
  rw [bind_eq_ok_iff, ← verifySignature_eq_ok_iff]
  constructor
  · rintro ⟨c', hc, h⟩
    obtain ⟨⟨⟩, hv, h⟩ := bind_eq_ok_iff.1 h
    obtain rfl := Except.ok.inj h
    exact ⟨hc, hv⟩
  · rintro ⟨hc, hv⟩
    refine ⟨c, hc, ?_⟩
    rw [hv]
    rfl

/-- the key identifier of a header that may be verified at all -/
theorem Header.cleared_eq_ok_iff {h : Header} {keyId : String} : h.cleared = .ok keyId ↔
    h.keyId = some keyId ∧ Policy.checkKeyId keyId = .ok () ∧ h.algorithm = .edDSA := by
  unfold Header.cleared
  cases hk : h.keyId with
  | none => exact ⟨fun h => (nomatch h), fun h => nomatch h.1⟩
  | some k =>
    show (Policy.checkKeyId k >>= _) = _ ↔ _
    rw [bind_eq_ok_iff]
    constructor
    · rintro ⟨⟨⟩, hc, ho⟩
      obtain ⟨⟨⟩, -, ho⟩ := bind_eq_ok_iff.1 ho
      split at ho
      · cases ho
      rename_i ha
      obtain rfl := Except.ok.inj ho
      exact ⟨rfl, hc, Classical.not_not.1 ha⟩
    · rintro ⟨hk, hc, ha⟩
      obtain rfl := Option.some.inj hk
      refine ⟨(), hc, ?_⟩
      rw [ha]
      rfl

theorem Header.ofToken_eq_ok_iff {token : String} {h : Header} : ofToken token = .ok h ↔
    ∃ t, Compact.ofText? token = some t ∧ ofSegment t.header = .ok h := by
  unfold ofToken ofTokenJws
  rw [mapError_eq_ok_iff]
  cases Compact.ofText? token with
  | none =>
    constructor
    · intro hh
      cases hh
    · rintro ⟨t, e, -⟩
      cases e
  | some t =>
    constructor
    · intro hh
      exact ⟨t, rfl, hh⟩
    · rintro ⟨t', e, hh⟩
      obtain rfl := Option.some.inj e
      exact hh

/-- the key identifier of a token that may be verified at all -/
theorem clearedKeyId_eq_ok_iff {token keyId : String} : clearedKeyId token = .ok keyId ↔
    ∃ h, Header.ofToken token = .ok h ∧ h.keyId = some keyId ∧ Policy.checkKeyId keyId = .ok () ∧
      h.algorithm = .edDSA := by
  unfold clearedKeyId
  simp only [bind_eq_ok_iff, Header.cleared_eq_ok_iff]

/-! ## a token over a ring -/

namespace Authority

variable {a : Authority} {token : String} {audience : Option String} {c : Claims}

/-- verification asks the ring for the key of the header, and checks the token under that key -/
theorem verify_fst (a : Authority) (token : String) (audience : Option String) :
    ((verify token audience).run a).1 =
      clearedKeyId token >>= fun keyId => a.provider.ring.verifyingKey keyId >>= fun key =>
        verifyUnder token key audience a.systemTime.clockSeconds := by
  unfold verify
  rw [Effect.run_bind_of_ok (x := note _) rfl]
  refine Effect.run_bind_fst rfl fun keyId _ => ?_
  refine Effect.run_bind_fst (Effect.run_onFailure_fst _ _ _) fun key hk => ?_
  -- the ring has answered, so that nothing was logged
  rw [orNote, Effect.run_onFailure_fst] at hk
  rw [orNote, Effect.run_onFailure_of_ok hk, Effect.run_bind_of_ok (x := Effect.get) rfl]
  cases hv : verifyUnder token key audience a.systemTime.clockSeconds with
  | ok c => exact congrArg Prod.fst (Effect.run_bind_of_ok (x := Effect.ofExcept _) hv _)
  | error e => exact congrArg Prod.fst (Effect.run_bind_of_error (x := Effect.ofExcept _) hv _)

theorem verify_eq_ok_iff : ((verify token audience).run a).1 = .ok c ↔
    ∃ keyId key, clearedKeyId token = .ok keyId ∧ a.provider.ring.verifyingKey keyId = .ok key ∧
      verifyUnder token key audience a.systemTime.clockSeconds = .ok c := by
  rw [verify_fst, bind_eq_ok_iff]
  constructor
  · rintro ⟨keyId, hk, h⟩
    obtain ⟨key, hr, hv⟩ := bind_eq_ok_iff.1 h
    exact ⟨keyId, key, hk, hr, hv⟩
  · rintro ⟨keyId, key, hk, hr, hv⟩
    exact ⟨keyId, hk, bind_eq_ok_iff.2 ⟨key, hr, hv⟩⟩

/-- what a token is made of: the octets of its segments, its header, and a registered key -/
structure Parts where
  header : Bytes
  payload : Bytes
  signature : Bytes
  read : Header
  entry : KeyEntry

/-- what has to hold of a token and of what it is made of -/
structure Acceptable (a : Authority) (token : String) (audience : Option String) (c : Claims)
    (p : Parts) : Prop where
  segments : Compact.segments token =
    [Compact.encode p.header, Compact.encode p.payload, Compact.encode p.signature]
  /-- the header names the algorithm of the ring and the key -/
  header : Json.readText Header.ofTree p.header = .ok p.read
  algorithm : p.read.algorithm = .edDSA
  keyId : p.read.keyId = some p.entry.key.keyId
  named : Policy.checkKeyId p.entry.key.keyId = .ok ()
  /-- the key is registered and not revoked -/
  registered : p.entry ∈ a.provider.ring.entries
  inUse : p.entry.revoked = false
  /-- the signature is that of the first two segments -/
  size : p.signature.length = 64
  signed : (VerifyingKey.ofSecret p.entry.key.secret).accepts
    (Compact.encode p.header ++ "." ++ Compact.encode p.payload) p.signature = true
  /-- the payload is an object with the claims -/
  claims : Json.readText Claims.ofTree p.payload = .ok c
  object : ∃ members ending, (Json.Document.ofText p.payload).tree = .object members ending
  /-- the claims are valid now -/
  notExpired : a.systemTime.seconds < c.exp
  begun : (c.nbf : Int) ≤ a.systemTime.seconds + Claims.leeway
  issued : (c.iat : Int) ≤ a.systemTime.seconds + Claims.leeway
  ordered : c.iat ≤ c.exp
  audience : ∀ x ∈ audience, c.aud = x

theorem size_of_accepts {k : VerifyingKey} {signed : String} {signature : Bytes}
    (h : k.accepts signed signature = true) : signature.length = 64 := by
  by_contra hn
  have hf : Ed25519.verify k.octets (utf8 signed) signature = false := by
    unfold Ed25519.verify
    exact if_neg fun hc => hn hc.2.1
  rw [VerifyingKey.accepts, hf] at h
  cases h

/-- over a well-formed ring a token is accepted if and only if it is acceptable -/
theorem verify_ok_iff_of_wellFormed (hw : a.provider.ring.WellFormed)
    (ht : 0 ≤ a.systemTime.seconds) :
    ((verify token audience).run a).1 = .ok c ↔ ∃ p, Acceptable a token audience c p := by
  have hnow : (a.systemTime.clockSeconds : Int) = a.systemTime.seconds := Int.toNat_of_nonneg ht
  rw [verify_eq_ok_iff]
  constructor
  · rintro ⟨keyId, key, hk, hring, hv⟩
    obtain ⟨h, htoken, hid, hn, ha⟩ := clearedKeyId_eq_ok_iff.1 hk
    obtain ⟨t, hof, hseg⟩ := Header.ofToken_eq_ok_iff.1 htoken
    obtain ⟨e, hm, rfl, hr, rfl⟩ := hw.verifyingKey_eq_ok_iff.1 hring
    obtain ⟨⟨t', hof', hver⟩, hval⟩ := verifyUnder_eq_ok_iff.1 hv
    obtain rfl : t = t' := Option.some.inj (hof.symm.trans hof')
    obtain ⟨-, ⟨sb, hsb, hacc⟩, ⟨pb, hpb, hc⟩, -⟩ := Compact.verify_eq_ok_iff.1 hver
    obtain ⟨hb, hhb, hread⟩ := Header.ofSegment_eq_ok_iff.1 hseg
    obtain ⟨hclaims, hobj⟩ := Claims.ofPayload_eq_ok_iff.1 hc
    obtain ⟨h1, h2, h3, h4, h5⟩ := Claims.validate_eq_ok_iff.1 hval
    have hsegs := Compact.segments_of_ofText? hof (hhb ▸ Compact.dot_not_mem_encode hb)
    refine ⟨⟨hb, pb, sb, h, e⟩, ?_⟩
    exact {
      segments := by rw [hsegs, hhb, hpb, hsb]
      header := hread
      algorithm := ha
      keyId := hid
      named := hn
      registered := hm
      inUse := hr
      size := size_of_accepts hacc
      signed := by
        rw [Compact.signed, hhb, hpb] at hacc
        exact hacc
      claims := hclaims
      object := hobj
      notExpired := by omega
      begun := by omega
      issued := by omega
      ordered := h4
      audience := h5 }
  · rintro ⟨p, h⟩
    have hof := Compact.ofText?_of_segments h.segments
    have hseg : Header.ofSegment (Compact.encode p.header) = .ok p.read :=
      Header.ofSegment_eq_ok_iff.2 ⟨_, rfl, h.header⟩
    have hexp : a.systemTime.clockSeconds < c.exp := by
      have := h.notExpired
      omega
    have hnbf : c.nbf ≤ a.systemTime.clockSeconds + Claims.leeway := by
      have := h.begun
      omega
    have hiat : c.iat ≤ a.systemTime.clockSeconds + Claims.leeway := by
      have := h.issued
      omega
    refine ⟨p.entry.key.keyId, .ofSecret p.entry.key.secret, ?_, ?_, ?_⟩
    · exact clearedKeyId_eq_ok_iff.2 ⟨_, Header.ofToken_eq_ok_iff.2 ⟨_, hof, hseg⟩, h.keyId, h.named,
        h.algorithm⟩
    · exact hw.verifyingKey_eq_ok_iff.2 ⟨p.entry, h.registered, rfl, h.inUse, rfl⟩
    · refine verifyUnder_eq_ok_iff.2 ⟨⟨_, hof, Compact.verify_eq_ok_iff.2 ⟨⟨_, hseg, h.algorithm⟩,
        ⟨_, rfl, h.signed⟩, ⟨_, rfl, ?_⟩, Nat.le_of_lt hexp⟩⟩, ?_⟩
      · exact Claims.ofPayload_eq_ok_iff.2 ⟨h.claims, h.object⟩
      · exact Claims.validate_eq_ok_iff.2 ⟨hexp, hnbf, hiat, h.ordered, h.audience⟩

end Authority

end Credentials
