import Credentials.Proofs.Token.Issued

/-!
# What verification learns from the ring

* `Standing`                    what a ring knows of a key identifier: nothing, that it is revoked, or the
                                public key in use under it;
* `KeyRing.Holds`               the standing of an identifier, told from the registered keys;
* `KeyRing.WellFormed.answer_of_holds`   a well-formed ring answers with the standing;
* `Uncleared`                   the header of a token is not read, names no acceptable key, or declares
                                an algorithm that is not that of the ring;
* `Authority.verify_of_holds`   the outcome of verification, by the standing of the header's identifier;
* `Authority.verify_eq_of_standing`   over every two rings that calls lead to: the outcome of a token
                                that is not cleared is the same, and so is that of any other one, if the
                                standing of its header's identifier is.

No other key has a say, and neither have windows, the order of registrations and the clock of the ring:
they are no part of a standing.
-/

namespace Credentials

/-- what a ring knows of a key identifier -/
inductive Standing where
  | absent
  | revoked
  | present (key : VerifyingKey)

def Standing.answer (keyId : String) : Standing → Except TokenError VerifyingKey
  | .absent => .error (.keyNotFound keyId)
  | .revoked => .error (.keyRevoked keyId)
  | .present key => .ok key

namespace KeyRing

/-- the standing of an identifier, told from the registered keys -/
inductive Holds (r : KeyRing) (keyId : String) : Standing → Prop where
  | absent (unregistered : ∀ e ∈ r.entries, e.key.keyId ≠ keyId) : Holds r keyId .absent
  | revoked {e : KeyEntry} (registered : e ∈ r.entries) (named : e.key.keyId = keyId)
      (revoked : e.revoked = true) : Holds r keyId .revoked
  | present {e : KeyEntry} (registered : e ∈ r.entries) (named : e.key.keyId = keyId)
      (inUse : e.revoked = false) : Holds r keyId (.present (.ofSecret e.key.secret))

variable {r : KeyRing} {keyId : String}

theorem verifyingKey_of_find? {e : KeyEntry} (h : r.find? keyId = some e) :
    r.verifyingKey keyId
      = if e.revoked then .error (.keyRevoked keyId) else .ok (.ofSecret e.key.secret) := by
  unfold verifyingKey
  rw [h]

theorem exists_holds (r : KeyRing) (keyId : String) : ∃ s, r.Holds keyId s := by
  by_cases h : ∀ e ∈ r.entries, e.key.keyId ≠ keyId
  · exact ⟨.absent, .absent h⟩
  · simp only [ne_eq, Classical.not_forall, Classical.not_not] at h
    obtain ⟨e, hm, hk⟩ := h
    cases hr : e.revoked with
    | true => exact ⟨.revoked, .revoked hm hk hr⟩
    | false => exact ⟨_, .present hm hk hr⟩

/-- a well-formed ring answers with the standing -/
theorem WellFormed.answer_of_holds (hw : r.WellFormed) {s : Standing} (h : r.Holds keyId s) :
    r.verifyingKey keyId = s.answer keyId := by
  cases h with
  | absent hn =>
    unfold verifyingKey
    rw [find?_eq_none_iff.2 hn]
    rfl
  | revoked hm hk hr =>
    rw [verifyingKey_of_find? (hw.find?_eq_some_iff.2 ⟨hm, hk⟩), if_pos hr]
    rfl
  | present hm hk hr =>
    rw [verifyingKey_of_find? (hw.find?_eq_some_iff.2 ⟨hm, hk⟩), hr]
    rfl

end KeyRing

/-! ## headers that are not cleared -/

/-- a token whose key is not even looked for -/
inductive Uncleared (token : String) : Prop where
  | unread {e : TokenError} (refused : Header.ofToken token = .error e)
  | unnamed {header : Header} (read : Header.ofToken token = .ok header) (unnamed : header.keyId = none)
  | misnamed {header : Header} {keyId : String} {e : TokenError}
      (read : Header.ofToken token = .ok header) (named : header.keyId = some keyId)
      (refused : Policy.checkKeyId keyId = .error e)
  | foreign {header : Header} (read : Header.ofToken token = .ok header)
      (foreign : header.algorithm ≠ .edDSA)

variable {token keyId : String}

theorem Uncleared.not_ok (h : Uncleared token) : clearedKeyId token ≠ .ok keyId := by
  intro hc
  obtain ⟨header, hh, hk, hn, ha⟩ := clearedKeyId_eq_ok_iff.1 hc
  cases h with
  | unread he =>
    rw [hh] at he
    cases he
  | unnamed hh' hno =>
    obtain rfl := Except.ok.inj (hh.symm.trans hh')
    rw [hk] at hno
    cases hno
  | misnamed hh' hk' hr =>
    obtain rfl := Except.ok.inj (hh.symm.trans hh')
    obtain rfl := Option.some.inj (hk.symm.trans hk')
    rw [hn] at hr
    cases hr
  | foreign hh' hf =>
    obtain rfl := Except.ok.inj (hh.symm.trans hh')
    exact hf ha

theorem Uncleared.error (h : Uncleared token) : ∃ e, clearedKeyId token = .error e := by
  cases hc : clearedKeyId token with
  | ok keyId => exact absurd hc h.not_ok
  | error e => exact ⟨e, rfl⟩

theorem cleared_of_not_uncleared (h : ¬ Uncleared token) :
    ∃ header keyId, Header.ofToken token = .ok header ∧ header.keyId = some keyId ∧
      clearedKeyId token = .ok keyId := by
  cases hh : Header.ofToken token with
  | error e => exact absurd (.unread hh) h
  | ok header =>
    cases hk : header.keyId with
    | none => exact absurd (.unnamed hh hk) h
    | some keyId =>
      cases hn : Policy.checkKeyId keyId with
      | error e => exact absurd (.misnamed hh hk hn) h
      | ok _ =>
        by_cases ha : header.algorithm = .edDSA
        · exact ⟨header, keyId, rfl, hk, clearedKeyId_eq_ok_iff.2 ⟨header, hh, hk, hn, ha⟩⟩
        · exact absurd (.foreign hh ha) h

/-! ## verification -/

namespace Authority

variable {a : Authority}

def atTime (a : Authority) (t : Instant) : Authority := { a with systemTime := t }

/-- the outcome of verification, by the standing of the header's identifier -/
theorem verify_of_holds (hw : a.provider.ring.WellFormed) {s : Standing}
    (hk : clearedKeyId token = .ok keyId) (hs : a.provider.ring.Holds keyId s)
    (audience : Option String) :
    ((verify token audience).run a).1 =
      s.answer keyId >>= fun key => verifyUnder token key audience a.systemTime.clockSeconds := by
  rw [verify_fst, hk, ← hw.answer_of_holds hs]
  rfl

theorem wellFormed_ring (a : Authority) (before : List Call) :
    (a.emptied.afterAll before).provider.ring.WellFormed := by
  obtain ⟨r, hr, hw⟩ := wellFormed_reachable a before
  rw [hr]
  exact hw

/-- A token whose header is not cleared gets one and the same error over all rings that calls lead to,
whatever the audience and the times. The identifier of any other header has some standing with every such
ring. If it is not registered or is revoked, the outcome of every token with this header says so. Over two
rings where its standing is the same, at the same time, the outcome is the same. -/
theorem verify_eq_of_standing (token : String) :
    (Uncleared token → ∃ e, ∀ (a : Authority) (before : List Call) (t : Instant)
      (audience : Option String),
      ((verify token audience).run ((a.emptied.afterAll before).atTime t)).1 = .error e) ∧
    (¬ Uncleared token → ∃ header keyId, Header.ofToken token = .ok header ∧
      header.keyId = some keyId ∧
      ∀ (a : Authority) (before : List Call),
        let r := (a.emptied.afterAll before).provider.ring
        (∃ s, r.Holds keyId s) ∧
        ∀ (t : Instant) (audience : Option String),
          let outcome (token : String) :=
            ((verify token audience).run ((a.emptied.afterAll before).atTime t)).1
          (∀ token', Header.ofToken token' = .ok header →
            (r.Holds keyId .absent → outcome token' = .error (.keyNotFound keyId)) ∧
            (r.Holds keyId .revoked → outcome token' = .error (.keyRevoked keyId))) ∧
          ∀ (b : Authority) (before' : List Call) (s : Standing), r.Holds keyId s →
            (b.emptied.afterAll before').provider.ring.Holds keyId s →
            outcome token = ((verify token audience).run ((b.emptied.afterAll before').atTime t)).1) := by
  constructor
  · intro hu
    obtain ⟨e, he⟩ := hu.error
    refine ⟨e, fun a before t audience => ?_⟩
    rw [verify_fst, he]
    rfl
  · intro hc
    obtain ⟨header, keyId, hh, hk, hcl⟩ := cleared_of_not_uncleared hc
    -- a token is cleared by its header alone
    have hcleared : ∀ token', Header.ofToken token' = .ok header → clearedKeyId token' = .ok keyId := by
      intro token' hh'
      rw [← hcl, clearedKeyId, clearedKeyId, hh, hh']
    refine ⟨header, keyId, hh, hk, fun a before => ⟨KeyRing.exists_holds _ _, fun t audience => ?_⟩⟩
    have hout : ∀ token', Header.ofToken token' = .ok header → ∀ s,
        (a.emptied.afterAll before).provider.ring.Holds keyId s → _ := fun token' hh' s hs =>
      verify_of_holds (a := (a.emptied.afterAll before).atTime t) (wellFormed_ring a before)
        (hcleared token' hh') hs audience
    refine ⟨fun token' hh' => ⟨hout token' hh' .absent, hout token' hh' .revoked⟩,
      fun b before' s hs hs' => ?_⟩
    exact (hout token hh s hs).trans (verify_of_holds (a := (b.emptied.afterAll before').atTime t)
      (wellFormed_ring b before') hcl hs' audience).symm

/-- one key is registered alone, behind another one, not at all, and revoked; a text without segments is
not cleared -/
theorem verify_eq_of_standing_one_key :
    let t : Instant := ⟨60, 0, by decide, by decide⟩
    let k : SigningKey := ⟨"k1", [], ⟨0, 0, by decide, by decide⟩, t⟩
    let a : Authority := ⟨t, none, ⟨.generator 0⟩, [], [], .rotating .empty⟩
    let token := (signedBy ⟨k, 0, none⟩ ⟨"jti", "sub", "iss", "aud", 60, 60, 120, "name"⟩).text
    let outcome (token : String) (before : List Call) :=
      ((verify token none).run ((a.emptied.afterAll before).atTime t)).1
    ¬ Uncleared token ∧ outcome token [] = .error (.keyNotFound "k1") ∧
      outcome token [.insertKey k, .revoke "k1"] = .error (.keyRevoked "k1") ∧
      outcome token [.insertKey k] = outcome token [.insertKey { k with keyId := "k2" }, .insertKey k] ∧
      Uncleared "k1" ∧ ∃ e, outcome "k1" [] = .error e ∧ outcome "k1" [.insertKey k] = .error e := by
  intro t k a token outcome
  have hread : Header.ofToken token = .ok (.plain .edDSA "k1") := ofToken_signedBy ⟨k, 0, none⟩ _
  have hc : ¬ Uncleared token := fun hu =>
    hu.not_ok (clearedKeyId_eq_ok_iff.2 ⟨_, hread, rfl, rfl, rfl⟩)
  obtain ⟨header, keyId, hh, hk, h⟩ := (verify_eq_of_standing token).2 hc
  obtain rfl := Except.ok.inj (hread.symm.trans hh)
  obtain rfl : "k1" = keyId := Option.some.inj hk
  have hone : (a.emptied.afterAll [.insertKey k]).provider.ring.entries = [⟨k, 0, none⟩] := by
    decide +kernel
  have htwo : (a.emptied.afterAll [.insertKey { k with keyId := "k2" }, .insertKey k]).provider.ring.entries
      = [⟨{ k with keyId := "k2" }, 0, none⟩, ⟨k, 1, none⟩] := by decide +kernel
  have hrev : (a.emptied.afterAll [.insertKey k, .revoke "k1"]).provider.ring.entries
      = [⟨k, 0, some t⟩] := by decide +kernel
  have hbad : Uncleared "k1" := .unread (e := .invalidTokenFormat _) rfl
  obtain ⟨e, he⟩ := (verify_eq_of_standing "k1").1 hbad
  refine ⟨hc, (((h a []).2 t none).1 token hread).1 (.absent fun e hm => absurd hm List.not_mem_nil),
    (((h a _).2 t none).1 token hread).2 (.revoked (e := ⟨k, 0, some t⟩) ?_ rfl rfl),
    ((h a _).2 t none).2 a _ _ (.present (e := ⟨k, 0, none⟩) ?_ rfl rfl)
      (.present (e := ⟨k, 1, none⟩) ?_ rfl rfl),
    hbad, e, he a [] t none, he a [.insertKey k] t none⟩
  · rw [hrev]
    exact List.mem_cons_self
  · rw [hone]
    exact List.mem_cons_self
  · rw [htwo]
    exact List.mem_cons_of_mem _ List.mem_cons_self

end Authority

end Credentials
