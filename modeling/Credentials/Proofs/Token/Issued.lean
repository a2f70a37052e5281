import Credentials.Proofs.Json.Written
import Credentials.Proofs.Token.Acceptance
import Credentials.Proofs.Token.Selection

/-!
# What an issued token says

* `Header.plain`              the header of an issued token;
* `Header.read_issued`        it is read from its written form;
* `Claims.read_toJson`        so are claims, as long as their times fit in 64 bits;
* `Claims.StandIn`            claims are read from octets that are an object;
* `signedBy`                  claims signed by a registered key, and their segments;
* `Identity.Says`             claims say what an identity says;
* `Authority.issueAt_fst`      the outcome of issuing, from its check, its draw and its signer;
* `Authority.signed_of_issueAt`   a token that is issued is signed under the handle that is selected;
* `Authority.ok_of_issueAt`   over a ring that is a key in use that covers the expiration of the token;
* `Authority.exists_token`    an identity that is checked gets a token, if the selected signer signs.
-/

namespace Credentials

open Json (Piece Tree Slot readText)

/-! ## headers -/

/-- the header of an issued token -/
def Header.plain (algorithm : Algorithm) (keyId : String) : Header :=
  ⟨some "JWT", algorithm, none, none, none, some keyId, none, none, none, none⟩

/-- a member that is taken by a step -/
theorem Json.foldMembers_cons {σ : Type} {step : σ → String → Tree → Except Json.Error σ}
    {ending : Json.Ending} {s s' : σ} {name : String} {t : Tree} (h : step s name t = .ok s')
    (r : List Json.Member) : Tree.foldMembers step ending s ((Piece.ofString name, t) :: r)
      = Tree.foldMembers step ending s' r := by
  rw [Tree.foldMembers, Piece.text?_ofString]
  show (step s name t >>= _) = _
  rw [h]
  rfl

theorem Json.foldMembers_closed {σ : Type} {step : σ → String → Tree → Except Json.Error σ} (s : σ) :
    Tree.foldMembers step .closed s [] = .ok s := rfl

namespace Header

theorem textOfTree_ofString (s : String) : textOfTree (.string (Piece.ofString s)) = .ok (some s) := by
  show (some <$> Tree.text _) = _
  rw [Tree.text_ofString]
  rfl

theorem algorithmOfTree_name (a : Algorithm) :
    algorithmOfTree (.string (Piece.ofString a.name)) = .ok a := by
  show (Json.orMalformed (Piece.text? (Piece.ofString a.name)) >>= _) = _
  rw [Piece.text?_ofString]
  show Tree.variant.named _ Algorithm.ofName? a.name = _
  unfold Tree.variant.named
  rw [Algorithm.ofName?_name]

/-- the header of an issued token is read from its written form -/
theorem read_issued (a : Algorithm) (keyId : String) :
    readText ofTree (utf8 (issued a keyId).text) = .ok (plain a keyId) := by
  rw [Json.readText_text ofTree rfl]
  show (Tree.foldMembers Slots.take .closed {} [(Piece.ofString "typ", .string (Piece.ofString "JWT")),
    (Piece.ofString "alg", .string (Piece.ofString a.name)),
    (Piece.ofString "kid", .string (Piece.ofString keyId))] >>= _) = _
  have h1 : Slots.take {} "typ" (.string (Piece.ofString "JWT")) = .ok { typ := some (some "JWT") } := by
    show (Slot.fill "typ" none (textOfTree _) >>= _) = _
    rw [textOfTree_ofString]
    rfl
  have h2 : Slots.take { typ := some (some "JWT") } "alg" (.string (Piece.ofString a.name))
      = .ok { typ := some (some "JWT"), algorithm := some a } := by
    show (Slot.fill "alg" none (algorithmOfTree _) >>= _) = _
    rw [algorithmOfTree_name]
    rfl
  have h3 : Slots.take { typ := some (some "JWT"), algorithm := some a } "kid"
      (.string (Piece.ofString keyId))
        = .ok { typ := some (some "JWT"), algorithm := some a, keyId := some (some keyId) } := by
    show (Slot.fill "kid" none (textOfTree _) >>= _) = _
    rw [textOfTree_ofString]
    rfl
  rw [Json.foldMembers_cons h1, Json.foldMembers_cons h2, Json.foldMembers_cons h3,
    Json.foldMembers_closed]
  rfl

end Header

/-! ## claims -/

namespace Claims

/-- claims whose times fit in 64 bits -/
def Fits (c : Claims) : Prop := c.nbf ≤ Json.maxWord ∧ c.iat ≤ Json.maxWord ∧ c.exp ≤ Json.maxWord

theorem take_text {s : Slots} {name text : String} {f : Slot String → Slots}
    (h : Slots.take s name (.string (Piece.ofString text))
      = (Slot.fill name none (Tree.text (.string (Piece.ofString text))) >>= fun v => .ok (f v))) :
    Slots.take s name (.string (Piece.ofString text)) = .ok (f (some text)) := by
  rw [h, Tree.text_ofString]
  rfl

theorem take_word {s : Slots} {name : String} {n : Nat} (hn : n ≤ Json.maxWord)
    {f : Slot Nat → Slots} (h : Slots.take s name (.number (.ofNat n))
      = (Slot.fill name none (Tree.word (.number (.ofNat n))) >>= fun v => .ok (f v))) :
    Slots.take s name (.number (.ofNat n)) = .ok (f (some n)) := by
  rw [h, Tree.word_ofNat hn]
  rfl

/-- claims are read from their written form -/
theorem read_toJson {c : Claims} (h : c.Fits) :
    readText Claims.ofTree (utf8 c.toJson.text) = .ok c := by
  obtain ⟨hn, hi, he⟩ := h
  rw [Json.readText_text Claims.ofTree rfl]
  show (Tree.foldMembers Slots.take .closed {} [(Piece.ofString "jti", .string (Piece.ofString c.jti)),
    (Piece.ofString "sub", .string (Piece.ofString c.sub)),
    (Piece.ofString "iss", .string (Piece.ofString c.iss)),
    (Piece.ofString "aud", .string (Piece.ofString c.aud)),
    (Piece.ofString "nbf", .number (.ofNat c.nbf)), (Piece.ofString "iat", .number (.ofNat c.iat)),
    (Piece.ofString "exp", .number (.ofNat c.exp)),
    (Piece.ofString "preferred_username", .string (Piece.ofString c.preferredUsername))] >>= _) = _
  rw [Json.foldMembers_cons (take_text rfl), Json.foldMembers_cons (take_text rfl),
    Json.foldMembers_cons (take_text rfl), Json.foldMembers_cons (take_text rfl),
    Json.foldMembers_cons (take_word hn rfl), Json.foldMembers_cons (take_word hi rfl),
    Json.foldMembers_cons (take_word he rfl), Json.foldMembers_cons (take_text rfl),
    Json.foldMembers_closed]
  rfl

end Claims

/-! ## signing -/

section
variable (e : KeyEntry) (c : Claims)

/-- the octets of the header of a token that a key signs -/
def headerOctets : Bytes := utf8 (Header.issued .edDSA e.key.keyId).text

def payloadOctets : Bytes := utf8 c.toJson.text

def signatureOctets : Bytes :=
  Ed25519.sign e.key.secret
    (utf8 (Compact.encode (headerOctets e) ++ "." ++ Compact.encode (payloadOctets c)))

/-- claims signed by a registered key -/
def signedBy : Compact :=
  ⟨Compact.encode (headerOctets e), Compact.encode (payloadOctets c),
    Compact.encode (signatureOctets e c)⟩

end

/-- octets are those of an object of claims -/
structure Claims.StandIn (c : Claims) (octets : Bytes) : Prop where
  read : Json.readText Claims.ofTree octets = .ok c
  object : ∃ members ending, (Json.Document.ofText octets).tree = .object members ending

/-- claims that are written as they are issued -/
theorem Claims.standIn_payloadOctets {c : Claims} (hf : c.Fits) : c.StandIn (payloadOctets c) where
  read := Claims.read_toJson hf
  object := by
    rw [payloadOctets, Json.ofText_text c.toJson rfl]
    exact ⟨_, _, rfl⟩

theorem segments_signedBy (e : KeyEntry) (c : Claims) : Compact.segments (signedBy e c).text =
    [Compact.encode (headerOctets e), Compact.encode (payloadOctets c),
      Compact.encode (signatureOctets e c)] := by
  unfold signedBy
  exact Compact.segments_text (Compact.dot_not_mem_encode (headerOctets e))
    (Compact.dot_not_mem_encode (payloadOctets c)) (Compact.dot_not_mem_encode (signatureOctets e c))

/-- the header of three segments, the first of which was written for a key -/
theorem Header.ofToken_of_segments {token payload signature : String} {a : Algorithm} {keyId : String}
    (h : Compact.segments token
      = [Compact.encode (utf8 (issued a keyId).text), payload, signature]) :
    ofToken token = .ok (.plain a keyId) :=
  ofToken_eq_ok_iff.2 ⟨_, Compact.ofText?_of_segments h,
    ofSegment_eq_ok_iff.2 ⟨_, rfl, read_issued a keyId⟩⟩

/-- the header of a signed token names its key -/
theorem ofToken_signedBy (e : KeyEntry) (c : Claims) :
    Header.ofToken (signedBy e c).text = .ok (.plain .edDSA e.key.keyId) :=
  Header.ofToken_of_segments (segments_signedBy e c)

/-- a registered key signs any claims -/
theorem signClaims_handle (e : KeyEntry) (c : Claims) :
    signClaims e.handle c = .ok (signedBy e c) := rfl

/-- a text that is there and not blank is taken as it is -/
theorem required_eq_ok {value : Option String} {what v : String} (h : required value what = .ok v) :
    value = some v := by
  unfold required at h
  cases value with
  | none => cases h
  | some x =>
    simp only at h
    split at h
    · cases h
    · rw [Except.ok.inj h]

theorem Instant.epochSeconds_eq_ok {a : Instant} {what : String} {n : Nat}
    (h : a.epochSeconds what = .ok n) : (n : Int) = a.seconds := by
  unfold Instant.epochSeconds at h
  split at h
  · rename_i h0
    rw [← Except.ok.inj h]
    exact Int.toNat_of_nonneg h0
  · cases h

/-- what an identity says in a token -/
structure Identity.Says (i : Identity) (now : Instant) (c : Claims) : Prop where
  sub : i.principal = some c.sub
  preferredUsername : i.name = some c.preferredUsername
  iss : c.iss = Form.encode i.issuer
  aud : c.aud = Form.encode i.issuer
  nbf : (c.nbf : Int) = now.seconds
  iat : (c.iat : Int) = now.seconds
  exp : (c.exp : Int) = i.expiration.seconds

/-- an identity that is checked expires behind the present, and its claims are what it says -/
theorem Identity.says_of_check {i : Identity} {now : Instant} {f : Unnumbered}
    (h : i.check now = .ok f) (jti : String) : now < i.expiration ∧ i.Says now (f jti) := by
  obtain ⟨subject, hs, h⟩ := bind_eq_ok_iff.1 h
  obtain ⟨username, hu, h⟩ := bind_eq_ok_iff.1 h
  obtain ⟨issuer, hi, h⟩ := bind_eq_ok_iff.1 h
  split at h
  · cases h
  rename_i hexp
  obtain ⟨issuedAt, hiat, h⟩ := bind_eq_ok_iff.1 h
  obtain ⟨expiresAt, he, h⟩ := bind_eq_ok_iff.1 h
  rw [← Except.ok.inj h]
  have hissuer : issuer = i.issuer := (Option.some.inj (required_eq_ok hi)).symm
  have hat := Instant.epochSeconds_eq_ok hiat
  exact ⟨Instant.not_le.1 hexp,
    { sub := required_eq_ok hs
      preferredUsername := required_eq_ok hu
      iss := congrArg Form.encode hissuer
      aud := congrArg Form.encode hissuer
      nbf := hat
      iat := hat
      exp := Instant.epochSeconds_eq_ok he }⟩

/-- the seconds of the calendar fit in 64 bits -/
theorem Identity.Says.fits {i : Identity} {now : Instant} {c : Claims} (h : i.Says now c) :
    c.Fits := by
  have hn := now.in_calendar.2
  have he := i.expiration.in_calendar.2
  have h1 := h.nbf
  have h2 := h.iat
  have h3 := h.exp
  unfold lastSecond at hn he
  unfold Claims.Fits Json.maxWord
  omega

/-! ## issuing -/

namespace Authority

variable {a : Authority} {r : KeyRing}

/-- a failure that is logged is no success -/
theorem orNote_fst {α : Type} (x : Act α) (entry : TokenError → LogEntry) (a : Authority) :
    ((orNote x entry).run a).1 = (x.run a).1 := Effect.run_onFailure_fst x _ a

theorem drawUuid_fst (a : Authority) :
    (drawUuid.run a).1 = .ok (Uuid.text (Uuid.ofRandom (a.random.draw 16).1)) := rfl

/-- the outcome of issuing: the identity is checked, its identifier is drawn, and the signer that is
selected signs its claims -/
theorem issueAt_fst (a : Authority) (now : Instant) (i : Identity) :
    ((issueAt now i).run a).1 =
      i.check now >>= fun f => ((select i.expiration).run a).1 >>= fun handle =>
        (signClaims handle (f (Uuid.text (Uuid.ofRandom (a.random.draw 16).1)))).map Compact.text := by
  unfold issueAt
  rw [Effect.run_bind_of_ok (x := note _) rfl]
  generalize hb : ((note _).run a).2 = b
  have hrandom : b.random = a.random := by rw [← hb]; rfl
  have hselect : ∀ c : Authority, c.provider = b.provider → c.faults = b.faults → c.now = b.now →
      ((select i.expiration).run c).1 = ((select i.expiration).run a).1 := by
    intro c hp hf hn
    rw [← hb] at hp hf hn
    exact select_congr hp hf hn
  refine Effect.run_bind_fst rfl fun f _ => ?_
  change ((drawUuid >>= _ : Act String).run b).1 = _
  rw [Effect.run_bind_of_ok (drawUuid_fst b), hrandom]
  refine Effect.run_bind_fst ((orNote_fst _ _ _).trans (hselect _ rfl rfl rfl)) fun handle _ => ?_
  rw [Effect.run_bind_fst (g := fun t : Compact => .ok t.text) (orNote_fst _ _ _) fun _ _ => rfl,
    Effect.run_ofExcept]
  exact bind_ok_eq_map _ _

/-- a token that is issued: its identity has passed the check, its identifier was drawn, and the signer
that was selected has signed its claims -/
theorem signed_of_issueAt {now : Instant} {i : Identity} {token : String}
    (h : ((issueAt now i).run a).1 = .ok token) :
    ∃ (f : Unnumbered) (octets : Bytes) (handle : SignerHandle) (t : Compact),
      i.check now = .ok f ∧ octets.length = 16 ∧ ((select i.expiration).run a).1 = .ok handle ∧
        signClaims handle (f (Uuid.text (Uuid.ofRandom octets))) = .ok t ∧ token = t.text := by
  rw [issueAt_fst] at h
  obtain ⟨f, hf, h⟩ := bind_eq_ok_iff.1 h
  obtain ⟨handle, hs, h⟩ := bind_eq_ok_iff.1 h
  obtain ⟨t, ht, rfl⟩ := map_eq_ok_iff.1 h
  exact ⟨f, _, handle, t, hf, RandomStream.length_draw 16 a.random, hs, ht, rfl⟩

/-- a token that is issued is signed by a key in use that covers its expiration, and says what its
identity says -/
theorem ok_of_issueAt (hr : a.provider = .rotating r) {now : Instant} {i : Identity} {token : String}
    (h : ((issueAt now i).run a).1 = .ok token) : ∃ e ∈ r.entries, ∃ c : Claims,
      e.revoked = false ∧ i.expiration ≤ e.key.validUntil ∧ now < i.expiration ∧ i.Says now c ∧
        token = (signedBy e c).text := by
  obtain ⟨f, octets, handle, t, hf, -, hs, ht, rfl⟩ := signed_of_issueAt h
  obtain ⟨e, hsel, rfl⟩ := ok_of_select hr hs
  obtain ⟨hm, he, -⟩ := KeyRing.of_select? hsel
  obtain ⟨hlt, hsays⟩ := Identity.says_of_check hf (Uuid.text (Uuid.ofRandom octets))
  refine ⟨e, hm, _, he.inUse, he.covering, hlt, hsays, ?_⟩
  rw [signClaims_handle] at ht
  rw [Except.ok.inj ht]

/-- an identity that is checked gets a token, if the signer that is selected signs -/
theorem exists_token {now : Instant} {i : Identity} {f : Unnumbered} (hc : i.check now = .ok f)
    (handle : SignerHandle) (hs : ((select i.expiration).run a).1 = .ok handle)
    (ht : ∀ c, ∃ t, signClaims handle c = .ok t) : ∃ token, ((issueAt now i).run a).1 = .ok token := by
  obtain ⟨t, ht⟩ := ht (f (Uuid.text (Uuid.ofRandom (a.random.draw 16).1)))
  rw [issueAt_fst, hc, hs]
  exact ⟨t.text, map_eq_ok_iff.2 ⟨t, ht, rfl⟩⟩

theorem exists_ok_issueAt (hr : a.provider = .rotating r) (hf : (a.faults.pass selectSite).1 = false)
    {now : Instant} {i : Identity} {f : Unnumbered} (hc : i.check now = .ok f) {e : KeyEntry}
    (hs : r.select? a.now i.expiration = some e) : ∃ token, ((issueAt now i).run a).1 = .ok token := by
  refine exists_token hc e.handle ?_ fun c => ⟨_, signClaims_handle e c⟩
  rw [select_of_quiet hr hf, hs]

end Authority

end Credentials
