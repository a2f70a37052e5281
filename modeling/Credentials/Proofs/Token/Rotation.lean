import Credentials.Proofs.Run.Uuid
import Credentials.Proofs.Token.History
import Credentials.Proofs.Token.Selection
import Mathlib.Tactic.SplitIfs

/-!
# Rotations

* `Delta.isPositive_iff`        a span is positive if it has more than no nanoseconds in all;
* `Instant.lt_of_add?`          a positive span leads to a later instant, inside a leap second too;
* `Policy.checkKeyId_of_isVersion4`   a random identifier is always acceptable as that of a key;
* `KeyRing.select?_of_insert`   whom a ring selects behind a registration;
* `Authority.freshKey`          the key that a rotation makes of the octets that come next;
* `Authority.Refuses`           why a rotation is refused;
* `Authority.TakenOver`         a key takes over from those that were there before;
* `Authority.rotate_afterAll`   over every ring that calls lead to, a rotation is refused for three reasons
                                only, and otherwise its key takes over at once.

The window of a fresh key begins now and is never empty, and its identifier is never refused for its
characters. So all that can be wrong with a fresh key is that its identifier is registered already.
-/

namespace Credentials

/-! ## spans and instants -/

/-- the nanoseconds of a span in all -/
def Delta.total (d : Delta) : Int := d.seconds * nanosPerSecond + d.nanos

theorem Delta.isPositive_iff (d : Delta) : d.isPositive = true ↔ 0 < d.total := by
  have hlt := d.nanos_lt
  unfold isPositive total
  simp only [Bool.or_eq_true, Bool.and_eq_true, decide_eq_true_eq, beq_iff_eq]
  unfold nanosPerSecond at hlt ⊢
  omega

theorem Instant.eq_of_ofParts? {seconds : Int} {nanos : Nat} {b : Instant}
    (h : ofParts? seconds nanos = some b) : b.seconds = seconds ∧ b.nanos = nanos := by
  unfold ofParts? at h
  split at h
  · obtain rfl := Option.some.inj h
    exact ⟨rfl, rfl⟩
  · cases h

/-- A positive span moves an instant forward. Inside a leap second the nanoseconds grow, and behind it
the second does. -/
theorem Instant.lt_shift (a : Instant) {d : Delta} (hd : d.isPositive = true) :
    a.seconds < (a.shift d).1 ∨ (a.seconds = (a.shift d).1 ∧ (a.nanos : Int) < (a.shift d).2) := by
  have hlt := d.nanos_lt
  unfold Delta.isPositive at hd
  simp only [Bool.or_eq_true, Bool.and_eq_true, decide_eq_true_eq, beq_iff_eq] at hd
  have hforward : ¬ (d.seconds < 0 ∧ 0 < d.nanos) := by omega
  unfold shift Delta.wholeSeconds Delta.restNanos
  simp only [if_neg hforward]
  unfold nanosPerSecond at hlt ⊢
  split_ifs <;> omega

theorem Instant.lt_of_add? {a b : Instant} {d : Delta} (hd : d.isPositive = true)
    (h : a.add? d = some b) : a < b := by
  have hof : ofParts? (a.shift d).1 (a.shift d).2.toNat = some b := h
  obtain ⟨hs, hn⟩ := eq_of_ofParts? hof
  have hforward := a.lt_shift hd
  rw [lt_iff]
  omega

/-! ## identifiers -/

theorem Uuid.isKeyIdChar_of_fits {place : Nat} {c : Char} (h : fits place c = true) :
    Policy.isKeyIdChar c = true ∧ c.toNat < 128 := by
  unfold fits at h
  split at h
  · rw [beq_iff_eq.1 h]
    decide
  split at h
  · rw [beq_iff_eq.1 h]
    decide
  split at h
  · have hm := of_decide_eq_true h
    simp only [List.mem_cons, List.not_mem_nil, or_false] at hm
    rcases hm with rfl | rfl | rfl | rfl <;> decide
  · unfold isDigit at h
    simp only [Bool.or_eq_true, Bool.and_eq_true, decide_eq_true_eq] at h
    have hc : ('0'.toNat ≤ c.toNat ∧ c.toNat ≤ '9'.toNat) ∨ ('a'.toNat ≤ c.toNat ∧ c.toNat ≤ 'f'.toNat) := h
    have hascii : ∀ n < 128, (48 ≤ n ∧ n ≤ 57) ∨ (97 ≤ n ∧ n ≤ 102) →
        Policy.isKeyIdChar (Char.ofNat n) = true := by decide
    have hlt : c.toNat < 128 := by
      simp only [Char.reduceToNat] at hc
      omega
    have hk := hascii c.toNat hlt hc
    rw [Char.ofNat_toNat] at hk
    exact ⟨hk, hlt⟩

/-- a random identifier is always acceptable as that of a key -/
theorem Policy.checkKeyId_of_isVersion4 {s : String} (h : Uuid.isVersion4 s = true) :
    checkKeyId s = .ok () := by
  obtain ⟨hlen, hall⟩ := Bool.and_eq_true_iff.1 h
  have hchar : ∀ c ∈ s.toList, isKeyIdChar c = true ∧ c.toNat < 128 := by
    intro c hc
    obtain ⟨place, hplace⟩ := List.mem_iff_getElem?.1 hc
    have hm : (c, place) ∈ s.toList.zipIdx := List.mem_zipIdx_iff_getElem?.2 hplace
    exact Uuid.isKeyIdChar_of_fits (List.all_eq_true.1 hall _ hm)
  have hsize : (utf8 s).length = 36 := by
    rw [← String.ofList_toList (s := s), utf8_ofList_of_ascii fun c hc => (hchar c hc).2]
    rw [asciiBytes, List.length_map]
    exact beq_iff_eq.1 hlen
  have hfind : (s.toList.find? fun c => !isKeyIdChar c) = none :=
    List.find?_eq_none.2 fun c hc => by rw [(hchar c hc).1]; decide
  unfold checkKeyId
  rw [if_neg (Uuid.ne_empty_of_isVersion4 h), if_neg (by rw [hsize]; decide), hfind]

/-! ## rings -/

namespace KeyRing

variable {r s : KeyRing} {k : SigningKey} {history : List SigningKey} {now expiration : Instant}

/-- a key of an acceptable identifier and of a window that is not empty is refused only if its
identifier is registered -/
theorem of_insert_error (hnamed : Policy.checkKeyId k.keyId = .ok ())
    (hwindow : k.validFrom < k.validUntil) {error : TokenError} (h : r.insert k = .error error) :
    error = .precondition ("key '" ++ k.keyId ++ "' is already registered") ∧
      ∃ e ∈ r.entries, e.key.keyId = k.keyId := by
  cases hf : r.find? k.keyId with
  | none =>
    rw [insert_eq_ok_iff.2 ⟨hnamed, hwindow, hf, rfl⟩] at h
    cases h
  | some e =>
    have hk := List.find?_some hf
    refine ⟨?_, e, List.mem_of_find?_eq_some hf, beq_iff_eq.1 hk⟩
    unfold insert at h
    rw [hnamed, hf] at h
    simp only [if_neg (Instant.not_le.2 hwindow)] at h
    exact (Except.error.inj h).symm

/-- behind its registration a key is selected for all that it covers, if its window has begun -/
theorem select?_of_insert (hrec : r.Records history) (h : r.insert k = .ok s)
    (hbegun : k.validFrom ≤ now) (hcover : expiration ≤ k.validUntil) :
    s.select? now expiration = some ⟨k, r.nextActivation, none⟩ := by
  obtain ⟨-, -, hentries⟩ := of_insert h
  have hlast : (⟨k, r.nextActivation, none⟩ : KeyEntry) ∈ s.entries := by
    rw [hentries]
    exact List.mem_append_right _ List.mem_cons_self
  have heligible : (⟨k, r.nextActivation, none⟩ : KeyEntry).Eligible now expiration :=
    ⟨rfl, hbegun, hcover⟩
  cases hs : s.select? now expiration with
  | none => exact absurd heligible (select?_eq_none_iff.1 hs _ hlast)
  | some e =>
    obtain ⟨hm, -, hle⟩ := of_select? hs
    have hnext : r.nextActivation ≤ e.activation := hle _ hlast heligible
    rw [hentries] at hm
    rcases List.mem_append.1 hm with hold | hnew
    · -- all the others were activated before
      have hlt := hrec.lt_length hold
      have hlen := hrec.next
      omega
    · rw [List.mem_singleton.1 hnew]

/-- for what a key does not cover its registration changes nothing -/
theorem select?_of_insert_of_lt (h : r.insert k = .ok s) (hlate : k.validUntil < expiration) :
    s.select? now expiration = r.select? now expiration := by
  have hcovers : (⟨k, r.nextActivation, none⟩ : KeyEntry).covers now expiration = false := by
    rw [Bool.eq_false_iff]
    intro hc
    exact Instant.not_le.2 hlate (KeyEntry.covers_iff.1 hc).covering
  unfold select?
  rw [(of_insert h).2.2, List.filter_append, List.filter_cons_of_neg (by rw [hcovers]; decide),
    List.filter_nil, List.append_nil]

end KeyRing

/-! ## authorities -/

namespace Authority

variable {a b : Authority} {r : KeyRing} {validity : Delta} {validUntil : Instant}

/-- the identifier that a rotation makes of the octets that come next -/
def freshKeyId (a : Authority) : String := Uuid.text (Uuid.ofRandom (a.random.draw 16).1)

/-- the key that a rotation makes of the octets behind those -/
def freshKey (a : Authority) (validUntil : Instant) : SigningKey :=
  ⟨a.freshKeyId, ((a.random.draw 16).2.draw 32).1, a.now, validUntil⟩

theorem keyId_freshKey (a : Authority) (validUntil : Instant) :
    (a.freshKey validUntil).keyId = a.freshKeyId := rfl

/-- an authority behind the octets of a rotation -/
def drawn (a : Authority) : Authority := { a with random := ((a.random.draw 16).2.draw 32).2 }

/-- why a rotation is refused -/
inductive Refuses (a : Authority) (validity : Delta) : TokenError → Prop where
  | notPositive (span : validity.total ≤ 0) :
      Refuses a validity (.precondition "key validity must be positive")
  | beyondCalendar (span : 0 < validity.total) (beyond : a.now.add? validity = none) :
      Refuses a validity (.precondition "key validity overflows the calendar")
  | registered (span : 0 < validity.total) (within : (a.now.add? validity).isSome)
      {e : KeyEntry} (entry : e ∈ a.provider.ring.entries) (same : e.key.keyId = a.freshKeyId) :
      Refuses a validity (.precondition ("key '" ++ a.freshKeyId ++ "' is already registered"))

/-- a key takes over from those that were there before, as long as the clock is not moved -/
structure TakenOver (a b : Authority) (k : SigningKey) : Prop where
  /-- there is one more key, and all others are as they were -/
  added : ∃ n, b.provider.ring.entries = a.provider.ring.entries ++ [⟨k, n, none⟩]
  clock : b.now = a.now
  chosen : ∀ expiration, expiration ≤ k.validUntil → (b.faults.pass selectSite).1 = false →
    ((select expiration).run b).1 = .ok ⟨k.keyId, .edDSA, .ed25519 k.secret⟩
  others : ∀ expiration, k.validUntil < expiration →
    ((select expiration).run b).1 = ((select expiration).run a).1

theorem rotate_of_not_positive (h : ¬ 0 < validity.total) : (rotate validity).run a =
    (.error (.precondition "key validity must be positive"), a) := by
  unfold rotate
  rw [if_neg fun hp => h ((Delta.isPositive_iff validity).1 hp)]
  rfl

theorem rotate_of_beyond (h : 0 < validity.total) (hu : a.now.add? validity = none) :
    (rotate validity).run a = (.error (.precondition "key validity overflows the calendar"), a) := by
  unfold rotate
  rw [if_pos ((Delta.isPositive_iff validity).2 h)]
  simp only [Effect.run_bind, Effect.run_get, hu]
  rfl

/-- a rotation within the calendar registers its fresh key -/
theorem rotate_of_within (h : 0 < validity.total) (hu : a.now.add? validity = some validUntil) :
    (rotate validity).run a = (do
      insertKey (a.freshKey validUntil)
      note (.info "rotated signing key" [("kid", a.freshKeyId), ("valid_until", validUntil.text)])
      pure a.freshKeyId : Act String).run a.drawn := by
  have hid : drawUuid.run a = (.ok a.freshKeyId, { a with random := (a.random.draw 16).2 }) := rfl
  have hsecret : (draw 32).run { a with random := (a.random.draw 16).2 } =
      (.ok ((a.random.draw 16).2.draw 32).1, a.drawn) := rfl
  unfold rotate freshKey
  rw [if_pos ((Delta.isPositive_iff validity).2 h)]
  simp only [Effect.run_bind, Effect.run_get, hu, hid, hsecret]

/-- a fresh key is refused only if its identifier is registered -/
theorem of_insert_freshKey (hpos : 0 < validity.total) (hu : a.now.add? validity = some validUntil)
    {error : TokenError} (h : r.insert (a.freshKey validUntil) = .error error) :
    error = .precondition ("key '" ++ a.freshKeyId ++ "' is already registered") ∧
      ∃ e ∈ r.entries, e.key.keyId = a.freshKeyId := by
  have hnamed : Policy.checkKeyId (a.freshKey validUntil).keyId = .ok () :=
    Policy.checkKeyId_of_isVersion4 (Uuid.isVersion4_text (RandomStream.length_draw 16 a.random))
  have hwindow : (a.freshKey validUntil).validFrom < (a.freshKey validUntil).validUntil :=
    Instant.lt_of_add? ((Delta.isPositive_iff validity).2 hpos) hu
  have he := KeyRing.of_insert_error hnamed hwindow h
  rwa [keyId_freshKey] at he

/-! ### what a rotation leaves alone -/

/-- the clocks and the faults are left as they are -/
def KeepsWorld (a b : Authority) : Prop :=
  b.systemTime = a.systemTime ∧ b.clock = a.clock ∧ b.faults = a.faults

instance : Std.Refl KeepsWorld := ⟨fun _ => ⟨rfl, rfl, rfl⟩⟩

instance : Trans KeepsWorld KeepsWorld KeepsWorld :=
  ⟨fun h k => ⟨k.1.trans h.1, k.2.1.trans h.2.1, k.2.2.trans h.2.2⟩⟩

theorem KeepsWorld.now (h : KeepsWorld a b) : b.now = a.now := by
  unfold Authority.now
  rw [h.1, h.2.1]

theorem lax_keepsWorld : Lax KeepsWorld := ⟨fun _ _ => ⟨rfl, rfl, rfl⟩⟩

theorem keepsWorld_draw (n : Nat) : (draw n).Moves KeepsWorld := fun _ => ⟨rfl, rfl, rfl⟩

theorem keepsWorld_withRing (a : Authority) (r : KeyRing) : KeepsWorld a (a.withRing r) := by
  unfold withRing
  split <;> exact ⟨rfl, rfl, rfl⟩

theorem keepsWorld_insertKey (k : SigningKey) : (insertKey k).Moves KeepsWorld := by
  refine Effect.moves_bind Effect.moves_get fun a => ?_
  refine Effect.moves_bind (Effect.moves_ofExcept _) fun ring => ?_
  refine Effect.moves_bind (lax_keepsWorld.moves_note _) fun _ => ?_
  exact Effect.moves_modify fun a => keepsWorld_withRing a ring

theorem keepsWorld_rotate (validity : Delta) : (rotate validity).Moves KeepsWorld := by
  unfold rotate
  split
  · refine Effect.moves_bind Effect.moves_get fun a => ?_
    split
    · exact Effect.moves_fail _
    · refine Effect.moves_bind (Effect.moves_bind (keepsWorld_draw 16) fun _ => Effect.moves_pure _)
        fun keyId => ?_
      refine Effect.moves_bind (keepsWorld_draw 32) fun secret => ?_
      refine Effect.moves_bind (keepsWorld_insertKey _) fun _ => ?_
      exact Effect.moves_bind (lax_keepsWorld.moves_note _) fun _ => Effect.moves_pure _
  · exact Effect.moves_fail _

/-! ### what a rotation does -/

/-- a rotation is refused, or registers its fresh key -/
theorem rotate_outcome (hr : a.provider = .rotating r) (validity : Delta) :
    (∃ e, ((rotate validity).run a).1 = .error e ∧ a.Refuses validity e ∧
        ((rotate validity).run a).2.provider = .rotating r) ∨
      ∃ validUntil s, 0 < validity.total ∧ a.now.add? validity = some validUntil ∧
        (∀ e ∈ r.entries, e.key.keyId ≠ a.freshKeyId) ∧ r.insert (a.freshKey validUntil) = .ok s ∧
        ((rotate validity).run a).1 = .ok a.freshKeyId ∧
        ((rotate validity).run a).2.provider = .rotating s := by
  have hring : a.provider.ring = r := congrArg Provider.ring hr
  by_cases hpos : 0 < validity.total
  case neg =>
    rw [rotate_of_not_positive hpos]
    exact Or.inl ⟨_, rfl, .notPositive (Int.not_lt.1 hpos), hr⟩
  cases hu : a.now.add? validity with
  | none =>
    rw [rotate_of_beyond hpos hu]
    exact Or.inl ⟨_, rfl, .beyondCalendar hpos hu, hr⟩
  | some validUntil =>
    have hdrawn : a.drawn.provider = .rotating r := hr
    rw [rotate_of_within hpos hu]
    rcases insertKey_cases hdrawn (a.freshKey validUntil) with ⟨e, hi, hrun⟩ | ⟨s, hi, ho, hp⟩
    · rw [Effect.run_bind_of_error (congrArg Prod.fst hrun), hrun]
      obtain ⟨rfl, x, hx, hk⟩ := of_insert_freshKey hpos hu hi
      exact Or.inl ⟨_, rfl, .registered hpos (by rw [hu]; rfl) (hring ▸ hx) hk, hr⟩
    · rw [Effect.run_bind_of_ok ho]
      have hfree := KeyRing.find?_eq_none_iff.1 (KeyRing.of_insert hi).2.1
      rw [keyId_freshKey] at hfree
      generalize ((insertKey (a.freshKey validUntil)).run a.drawn).2 = c at hp ⊢
      exact Or.inr ⟨validUntil, s, hpos, rfl, hfree, hi, rfl, hp⟩

theorem takenOver_of_insert {history : List SigningKey} {s : KeyRing} {k : SigningKey}
    (hr : a.provider = .rotating r) (hs : b.provider = .rotating s) (hrec : r.Records history)
    (hi : r.insert k = .ok s) (hfrom : k.validFrom = a.now) (hw : KeepsWorld a b) : TakenOver a b k := by
  have hring : a.provider.ring = r := congrArg Provider.ring hr
  have hsring : b.provider.ring = s := congrArg Provider.ring hs
  refine ⟨⟨r.nextActivation, ?_⟩, hw.now, fun expiration hcover hq => ?_, fun expiration hlate => ?_⟩
  · rw [hring, hsring, (KeyRing.of_insert hi).2.2]
  · have hbegun : k.validFrom ≤ b.now := by
      rw [hfrom, hw.now]
      exact Instant.le_refl _
    rw [select_of_quiet hs hq, KeyRing.select?_of_insert hrec hi hbegun hcover]
    rfl
  · rw [select_fst hs, select_fst hr, hw.now, hw.2.2, KeyRing.select?_of_insert_of_lt hi hlate]

/-- Over every ring that calls lead to, at any time, for any span and whatever octets are drawn, a
rotation is refused if and only if the span is not positive, or leads behind the calendar, or the
identifier that is drawn is registered. It leaves the ring as it is then, and in the first two cases the
whole authority, so that nothing was drawn. Otherwise the fresh key takes over. -/
theorem rotate_afterAll (a : Authority) (calls : List Call) (validity : Delta) :
    let b := a.emptied.afterAll calls
    let c := b.after (.rotate validity)
    let answer := ((rotate validity).run b).1
    ((∃ e, answer = .error e) ↔ validity.total ≤ 0 ∨ b.now.add? validity = none ∨
      ∃ e ∈ b.provider.ring.entries, e.key.keyId = b.freshKeyId) ∧
    (∀ e, answer = .error e → b.Refuses validity e ∧ c.provider = b.provider) ∧
    (validity.total ≤ 0 ∨ b.now.add? validity = none → c = b) ∧
    ∀ keyId, answer = .ok keyId → keyId = b.freshKeyId ∧ ∃ validUntil,
      b.now.add? validity = some validUntil ∧ b.now < validUntil ∧
        TakenOver b c (b.freshKey validUntil) := by
  obtain ⟨r, hr, hrec⟩ := records_reachable a calls
  intro b c answer
  have hring : b.provider.ring = r := congrArg Provider.ring hr
  have hkept : validity.total ≤ 0 ∨ b.now.add? validity = none → c = b := by
    intro h
    by_cases hpos : 0 < validity.total
    · have hu := h.resolve_left (Int.not_le.2 hpos)
      exact congrArg Prod.snd (rotate_of_beyond hpos hu)
    · exact congrArg Prod.snd (rotate_of_not_positive hpos)
  rcases rotate_outcome hr validity with ⟨e, he, hrefuses, hc⟩ |
    ⟨validUntil, s, hpos, hu, hfree, hi, ho, hs⟩
  · refine ⟨⟨fun _ => ?_, fun _ => ⟨e, he⟩⟩, fun e' he' => ?_, hkept, fun keyId hk => ?_⟩
    · cases hrefuses with
      | notPositive span => exact Or.inl span
      | beyondCalendar _ beyond => exact Or.inr (Or.inl beyond)
      | registered _ _ entry same => exact Or.inr (Or.inr ⟨_, entry, same⟩)
    · obtain rfl := Except.error.inj (he.symm.trans he')
      exact ⟨hrefuses, hc.trans hr.symm⟩
    · cases he.symm.trans hk
  · refine ⟨⟨fun ⟨e, he⟩ => ?_, fun h => ?_⟩, fun e he => ?_, hkept, fun keyId hk => ?_⟩
    · cases ho.symm.trans he
    · rcases h with h | h | ⟨e, he, hk⟩
      · exact absurd hpos (Int.not_lt.2 h)
      · cases hu.symm.trans h
      · exact absurd hk (hfree e (hring ▸ he))
    · cases ho.symm.trans he
    · obtain rfl := Except.ok.inj (ho.symm.trans hk)
      refine ⟨rfl, validUntil, hu, ?_, ?_⟩
      · exact Instant.lt_of_add? ((Delta.isPositive_iff validity).2 hpos) hu
      · exact takenOver_of_insert hr hs hrec hi rfl (keepsWorld_rotate validity b)

end Authority

end Credentials
