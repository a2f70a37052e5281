import Credentials.Proofs.Run.Moves
import Credentials.Token.Issuer
import Credentials.Token.Verifier
import Mathlib.Data.List.Nodup

/-!
# Runs of an authority over a ring

* `KeyRing.insert_eq_ok_iff`, `KeyRing.revoke_eq_ok_iff`   what a ring takes, and what becomes of it;
* `KeyRing.map_of_revoke`, `KeyRing.of_mem_revoke`   what a revocation leaves of the entries;
* `Authority.Call`           a call on an authority, or a change of the world around it;
* `Authority.after`          the authority behind a call, whether it succeeds or fails;
* `Authority.Lax`            a relation to which the log does not matter;
* `Authority.Call.Changes`   what a call can do to a ring;
* `Authority.registers`      the key that a call registers, by what it answers;
* `Authority.steps_after`    a call registers that key, revokes, prunes, or leaves the ring alone;
* `KeyRing.WellFormed`       the identifiers of a ring are acceptable, and no two of them are the same;
* `wellFormed_afterAll`      every ring that calls lead to is so;
* `KeyRing.mem_of_changes`   a key in use stays until it is revoked or its window has ended.
-/

namespace Credentials

/-- a call on an authority, or a change of the world around it -/
inductive Authority.Call where
  | insertKey (k : SigningKey)
  | rotate (validity : Delta)
  | revoke (keyId : String)
  | prune (t : Instant)
  | select (expiration : Instant)
  /-- a token for an identity, stamped with the instant of the issuer's clock -/
  | issueAt (now : Instant) (i : Identity)
  | verify (token : String) (audience : Option String)
  /-- both clocks are set, and the fault plans -/
  | setWorld (systemTime : Instant) (clock : Option Instant) (faults : Faults)

/-! ## what a ring takes -/

namespace KeyRing

variable {r s : KeyRing}

theorem find?_eq_none_iff {keyId : String} :
    r.find? keyId = none ↔ ∀ e ∈ r.entries, e.key.keyId ≠ keyId := by
  unfold find?
  simp only [List.find?_eq_none, beq_iff_eq, ne_eq]

/-- a ring takes a key of an acceptable and new identifier and of a window that is not empty -/
theorem insert_eq_ok_iff {k : SigningKey} : r.insert k = .ok s ↔
    Policy.checkKeyId k.keyId = .ok () ∧ k.validFrom < k.validUntil ∧ r.find? k.keyId = none ∧
      s = ⟨r.entries ++ [⟨k, r.nextActivation, none⟩], r.nextActivation + 1⟩ := by
  unfold insert
  cases hc : Policy.checkKeyId k.keyId with
  | error e => exact ⟨fun h => (nomatch h), fun h => nomatch h.1⟩
  | ok _ =>
    by_cases hw : k.validUntil ≤ k.validFrom
    · simp only [if_pos hw]
      exact ⟨fun h => (nomatch h), fun h => absurd hw (Instant.not_le.2 h.2.1)⟩
    · cases hf : r.find? k.keyId with
      | some e =>
        simp only [if_neg hw, Option.isSome_some, if_true]
        exact ⟨fun h => (nomatch h), fun h => nomatch h.2.2.1⟩
      | none =>
        simp only [if_neg hw, Option.isSome_none, Bool.false_eq_true, if_false]
        exact ⟨fun h => ⟨trivial, Instant.not_le.1 hw, trivial, (Except.ok.inj h).symm⟩,
          fun h => congrArg _ h.2.2.2.symm⟩

theorem insert_error {k : SigningKey} {e : TokenError} (h : r.insert k = .error e) :
    ∃ message, e = .precondition message := by
  unfold insert at h
  split at h
  · exact ⟨_, (Except.error.inj h).symm⟩
  · split at h
    · exact ⟨_, (Except.error.inj h).symm⟩
    · split at h
      · exact ⟨_, (Except.error.inj h).symm⟩
      · cases h

/-- what an insertion that succeeds has checked, and what it does -/
theorem of_insert {k : SigningKey} (h : r.insert k = .ok s) :
    Policy.checkKeyId k.keyId = .ok () ∧ r.find? k.keyId = none ∧
      s.entries = r.entries ++ [⟨k, r.nextActivation, none⟩] := by
  obtain ⟨hn, -, hf, rfl⟩ := insert_eq_ok_iff.1 h
  exact ⟨hn, hf, rfl⟩

/-- a key is found under its identifier behind its registration -/
theorem find?_of_insert {k : SigningKey} (h : r.insert k = .ok s) :
    (s.find? k.keyId).map KeyEntry.key = some k := by
  obtain ⟨-, -, hf, rfl⟩ := insert_eq_ok_iff.1 h
  have hn : r.entries.find? (fun e => e.key.keyId == k.keyId) = none := hf
  simp [find?, List.find?_append, hn]

/-! ## what a ring revokes -/

variable {keyId : String} {now : Instant}

/-- of the entries of an identifier the first one is revoked, and all others are left as they are -/
theorem revokeFirst?_eq_some_iff {es fs : List KeyEntry} : revokeFirst? keyId now es = some fs ↔
    ∃ before e after, es = before ++ e :: after ∧ e.key.keyId = keyId ∧
      (∀ f ∈ before, f.key.keyId ≠ keyId) ∧ fs = before ++ e.revoke now :: after := by
  induction es generalizing fs with
  | nil =>
    refine ⟨fun h => (nomatch h), ?_⟩
    rintro ⟨before, e, after, h, -⟩
    cases before <;> cases h
  | cons x es ih =>
    rw [revokeFirst?]
    by_cases hx : x.key.keyId = keyId
    · rw [if_pos (beq_iff_eq.2 hx)]
      constructor
      · intro h
        exact ⟨[], x, es, rfl, hx, fun _ hf => absurd hf List.not_mem_nil, (Option.some.inj h).symm⟩
      · rintro ⟨before, e, after, hsplit, -, hfirst, rfl⟩
        cases before with
        | nil =>
          obtain ⟨rfl, rfl⟩ := List.cons.inj hsplit
          rfl
        | cons y before =>
          obtain ⟨rfl, -⟩ := List.cons.inj hsplit
          exact absurd hx (hfirst x List.mem_cons_self)
    · rw [if_neg fun h => hx (beq_iff_eq.1 h), Option.map_eq_map, Option.map_eq_some_iff]
      constructor
      · rintro ⟨gs, hgs, rfl⟩
        obtain ⟨before, e, after, rfl, he, hfirst, rfl⟩ := ih.1 hgs
        refine ⟨x :: before, e, after, rfl, he, fun f hf => ?_, rfl⟩
        rcases List.mem_cons.1 hf with rfl | hf
        · exact hx
        · exact hfirst f hf
      · rintro ⟨before, e, after, hsplit, he, hfirst, rfl⟩
        cases before with
        | nil =>
          obtain ⟨rfl, -⟩ := List.cons.inj hsplit
          exact absurd he hx
        | cons y before =>
          obtain ⟨rfl, rfl⟩ := List.cons.inj hsplit
          exact ⟨_, ih.2 ⟨before, e, after, rfl, he,
            fun f hf => hfirst f (List.mem_cons_of_mem _ hf), rfl⟩, rfl⟩

/-- a ring revokes the first entry of an identifier and leaves all others as they are -/
theorem revoke_eq_ok_iff : r.revoke keyId now = .ok s ↔
    ∃ before e after, r.entries = before ++ e :: after ∧ e.key.keyId = keyId ∧
      (∀ f ∈ before, f.key.keyId ≠ keyId) ∧
      s = { r with entries := before ++ e.revoke now :: after } := by
  have hrun : r.revoke keyId now = .ok s ↔
      ∃ es, revokeFirst? keyId now r.entries = some es ∧ s = { r with entries := es } := by
    unfold revoke
    cases revokeFirst? keyId now r.entries with
    | none => exact ⟨fun h => (nomatch h), fun ⟨_, h, _⟩ => (nomatch h)⟩
    | some es => exact ⟨fun h => ⟨es, rfl, (Except.ok.inj h).symm⟩, fun ⟨_, h, hs⟩ => by
        rw [hs, Option.some.inj h]⟩
  rw [hrun]
  constructor
  · rintro ⟨es, hes, rfl⟩
    obtain ⟨before, e, after, hsplit, he, hfirst, rfl⟩ := revokeFirst?_eq_some_iff.1 hes
    exact ⟨before, e, after, hsplit, he, hfirst, rfl⟩
  · rintro ⟨before, e, after, hsplit, he, hfirst, rfl⟩
    exact ⟨_, revokeFirst?_eq_some_iff.2 ⟨before, e, after, hsplit, he, hfirst, rfl⟩, rfl⟩

/-- a ring revokes any key that is registered -/
theorem exists_revoke_iff : (∃ s, r.revoke keyId now = .ok s) ↔ (r.find? keyId).isSome = true := by
  constructor
  · rintro ⟨s, h⟩
    obtain ⟨before, e, after, hsplit, he, -⟩ := revoke_eq_ok_iff.1 h
    rw [← Option.not_isNone, Bool.not_eq_true', ← Bool.not_eq_true, Option.isNone_iff_eq_none,
      find?_eq_none_iff]
    intro hnone
    exact hnone e (by rw [hsplit]; exact List.mem_append_right _ List.mem_cons_self) he
  · intro h
    obtain ⟨e, hf⟩ := Option.isSome_iff_exists.1 h
    obtain ⟨he, before, after, hsplit, hfirst⟩ := List.find?_eq_some_iff_append.1 hf
    refine ⟨_, revoke_eq_ok_iff.2 ⟨before, e, after, hsplit, beq_iff_eq.1 he, fun f hf => ?_, rfl⟩⟩
    have hne := hfirst f hf
    simpa using hne

section
variable (h : r.revoke keyId now = .ok s)
include h

theorem nextActivation_of_revoke : s.nextActivation = r.nextActivation := by
  obtain ⟨_, _, _, -, -, -, rfl⟩ := revoke_eq_ok_iff.1 h
  rfl

/-- a revocation leaves all of an entry but what it is about -/
theorem map_of_revoke {α : Type} {g : KeyEntry → α} (hg : ∀ e, g (e.revoke now) = g e) :
    s.entries.map g = r.entries.map g := by
  obtain ⟨before, e, after, hsplit, -, -, rfl⟩ := revoke_eq_ok_iff.1 h
  simp only [hsplit, List.map_append, List.map_cons, hg]

/-- an entry behind a revocation was there before, or is the revoked one -/
theorem of_mem_revoke {e : KeyEntry} (he : e ∈ s.entries) :
    e ∈ r.entries ∨ ∃ f ∈ r.entries, f.key.keyId = keyId ∧ e = f.revoke now := by
  obtain ⟨before, f, after, hsplit, hf, -, rfl⟩ := revoke_eq_ok_iff.1 h
  rw [hsplit]
  simp only [List.mem_append, List.mem_cons] at he ⊢
  rcases he with he | rfl | he
  · exact Or.inl (Or.inl he)
  · exact Or.inr ⟨f, Or.inr (Or.inl rfl), hf, rfl⟩
  · exact Or.inl (Or.inr (Or.inr he))

/-- the entry of the identifier is there, revoked -/
theorem exists_mem_revoke : ∃ e : KeyEntry, e.revoke now ∈ s.entries ∧ e.key.keyId = keyId := by
  obtain ⟨before, e, after, -, he, -, rfl⟩ := revoke_eq_ok_iff.1 h
  exact ⟨e, List.mem_append_right _ List.mem_cons_self, he⟩

/-- an entry stays, or it is the one of the identifier and is there revoked -/
theorem mem_or_mem_revoke {e : KeyEntry} (he : e ∈ r.entries) :
    e ∈ s.entries ∨ (e.key.keyId = keyId ∧ e.revoke now ∈ s.entries) := by
  obtain ⟨before, f, after, hsplit, hf, -, rfl⟩ := revoke_eq_ok_iff.1 h
  rw [hsplit] at he
  simp only [List.mem_append, List.mem_cons] at he ⊢
  rcases he with he | rfl | he
  · exact Or.inl (Or.inl he)
  · exact Or.inr ⟨hf, Or.inr (Or.inl rfl)⟩
  · exact Or.inl (Or.inr (Or.inr he))

/-- an entry behind a revocation has the key and the number of one from before -/
theorem exists_of_mem_revoke {e : KeyEntry} (he : e ∈ s.entries) :
    ∃ f ∈ r.entries, f.key = e.key ∧ f.activation = e.activation := by
  rcases of_mem_revoke h he with he | ⟨f, hf, -, rfl⟩
  · exact ⟨e, he, rfl, rfl⟩
  · exact ⟨f, hf, (f.key_revoke now).symm, (f.activation_revoke now).symm⟩

end

end KeyRing

namespace Authority

/-- an authority over a ring without keys -/
def emptied (a : Authority) : Authority := { a with provider := .rotating .empty }

/-- the authority behind a call -/
def after (a : Authority) : Call → Authority
  | .insertKey k => ((insertKey k).run a).2
  | .rotate validity => ((rotate validity).run a).2
  | .revoke keyId => ((revoke keyId).run a).2
  | .prune t => ((prune t).run a).2
  | .select expiration => ((select expiration).run a).2
  | .issueAt now i => ((issueAt now i).run a).2
  | .verify token audience => ((verify token audience).run a).2
  | .setWorld systemTime clock faults =>
    { a with systemTime := systemTime, clock := clock, faults := faults }

/-- the authority behind calls -/
def afterAll (a : Authority) (cs : List Call) : Authority := cs.foldl after a

/-! ## steps under any relation -/

/-- a relation to which the log does not matter -/
structure Lax (R : Authority → Authority → Prop) : Prop where
  log (a : Authority) (entries : List LogEntry) : R a { a with log := entries }

namespace Lax

variable {R : Authority → Authority → Prop}

theorem moves_note (l : Lax R) (e : LogEntry) : (note e).Moves R := fun a => l.log a _

variable [Trans R R R]

theorem moves_orNote (l : Lax R) {α : Type} {x : Act α} (h : x.Moves R) (entry : TokenError → LogEntry) :
    (orNote x entry).Moves R := Effect.moves_onFailure h fun _ a => l.log a _

theorem moves_verify [Std.Refl R] (l : Lax R) (token : String) (audience : Option String) :
    (verify token audience).Moves R := by
  refine Effect.moves_bind (l.moves_note _) fun _ => ?_
  refine Effect.moves_bind (Effect.moves_ofExcept _) fun keyId => ?_
  have hkey : (verifyingKey keyId).Moves R :=
    Effect.moves_bind Effect.moves_get fun _ => Effect.moves_ofExcept _
  refine Effect.moves_bind (l.moves_orNote hkey _) fun key => ?_
  refine Effect.moves_bind Effect.moves_get fun a => ?_
  refine Effect.moves_bind (Effect.moves_ofExcept _) fun claims => ?_
  exact Effect.moves_bind (l.moves_note _) fun _ => Effect.moves_pure _

end Lax

/-! ## what calls do to a ring -/

/-- what a call can do to a ring -/
inductive Call.Changes : Call → KeyRing → KeyRing → Prop where
  | nothing (c : Call) (r : KeyRing) : Changes c r r
  | insert (c : Call) {r s : KeyRing} {k : SigningKey} (h : r.insert k = .ok s) : Changes c r s
  | revoke {keyId : String} {now : Instant} {r s : KeyRing} (h : r.revoke keyId now = .ok s) :
      Changes (.revoke keyId) r s
  | prune (t : Instant) (r : KeyRing) : Changes (.prune t) r (r.prune t)

variable {a b : Authority} {r : KeyRing}

/-- a ring is left as it is -/
def KeepsRing (a b : Authority) : Prop :=
  ∀ r, a.provider = .rotating r → b.provider = .rotating r

theorem KeepsRing.of_eq (h : b.provider = a.provider) : KeepsRing a b := fun _ hr => h.trans hr

instance : Std.Refl KeepsRing := ⟨fun _ _ h => h⟩

instance : Trans KeepsRing KeepsRing KeepsRing := ⟨fun h k r hr => k r (h r hr)⟩

theorem lax_keepsRing : Lax KeepsRing := ⟨fun _ _ => .of_eq rfl⟩

theorem keeps_draw (n : Nat) : (draw n).Moves KeepsRing := fun _ => .of_eq rfl

theorem keeps_drawUuid : drawUuid.Moves KeepsRing :=
  Effect.moves_bind (keeps_draw 16) fun _ => Effect.moves_pure _

theorem keeps_passSite (site : String) : (passSite site).Moves KeepsRing := by
  refine Effect.moves_bind (Effect.moves_modifyGet fun _ => .of_eq rfl) fun fails => ?_
  split
  · exact Effect.moves_fail _
  · exact Effect.moves_pure _

theorem keeps_select (expiration : Instant) : (select expiration).Moves KeepsRing := by
  intro a r hr
  unfold select
  rw [Effect.run_bind_of_ok (x := Effect.get) rfl]
  simp only [Effect.run_get, hr]
  refine Effect.moves_bind (keeps_passSite selectSite) (fun _ => ?_) a r hr
  split
  · exact Effect.moves_pure _
  · exact Effect.moves_bind (lax_keepsRing.moves_note _) fun _ => Effect.moves_fail _

theorem keeps_issueAt (now : Instant) (i : Identity) : (issueAt now i).Moves KeepsRing := by
  refine Effect.moves_bind (lax_keepsRing.moves_note _) fun _ => ?_
  refine Effect.moves_bind (Effect.moves_ofExcept _) fun unnumbered => ?_
  refine Effect.moves_bind keeps_drawUuid fun jti => ?_
  refine Effect.moves_bind (lax_keepsRing.moves_orNote (keeps_select i.expiration) _) fun handle => ?_
  refine Effect.moves_bind (lax_keepsRing.moves_orNote (Effect.moves_ofExcept _) _) fun token => ?_
  exact Effect.moves_bind (lax_keepsRing.moves_note _) fun _ => Effect.moves_pure _

theorem provider_withRing (h : a.provider = .rotating r) (s : KeyRing) :
    (a.withRing s).provider = .rotating s := by
  unfold withRing
  rw [h]

/-- a key is registered if and only if the ring takes it; a refusal changes nothing -/
theorem insertKey_cases (hr : a.provider = .rotating r) (k : SigningKey) :
    (∃ e, r.insert k = .error e ∧ (insertKey k).run a = (.error e, a)) ∨
      ∃ s, r.insert k = .ok s ∧ ((insertKey k).run a).1 = .ok () ∧
        ((insertKey k).run a).2.provider = .rotating s := by
  have hring : a.provider.ring = r := by rw [hr]; rfl
  unfold insertKey
  rw [Effect.run_bind_of_ok (x := Effect.get) rfl, hring]
  cases hi : r.insert k with
  | error e =>
    rw [Effect.run_bind_of_error (x := Effect.ofExcept _) rfl]
    exact Or.inl ⟨e, rfl, rfl⟩
  | ok s =>
    rw [Effect.run_bind_of_ok (x := Effect.ofExcept _) rfl]
    refine Or.inr ⟨s, rfl, rfl, ?_⟩
    exact provider_withRing (a := a.record _) hr s

/-- a rotation registers the key whose identifier it gives -/
theorem rotate_cases (hr : a.provider = .rotating r) (validity : Delta) :
    (∃ e, ((rotate validity).run a).1 = .error e ∧
        ((rotate validity).run a).2.provider = .rotating r) ∨
      ∃ k s, r.insert k = .ok s ∧ ((rotate validity).run a).1 = .ok k.keyId ∧
        ((rotate validity).run a).2.provider = .rotating s := by
  unfold rotate
  split
  · rw [Effect.run_bind_of_ok (x := Effect.get) rfl]
    simp only [Effect.run_get]
    cases a.now.add? validity with
    | none => exact Or.inl ⟨_, rfl, hr⟩
    | some validUntil =>
      obtain ⟨keyId, hk⟩ : ∃ x, (drawUuid.run a).1 = .ok x := ⟨_, rfl⟩
      have hu := keeps_drawUuid a r hr
      rw [Effect.run_bind_of_ok hk]
      generalize (drawUuid.run a).2 = b at hu ⊢
      obtain ⟨secret, hs⟩ : ∃ x, ((draw 32).run b).1 = .ok x := ⟨_, rfl⟩
      have hd := keeps_draw 32 b r hu
      rw [Effect.run_bind_of_ok hs]
      generalize ((draw 32).run b).2 = b at hd ⊢
      rcases insertKey_cases hd ⟨keyId, secret, a.now, validUntil⟩ with ⟨e, -, he⟩ | ⟨s, hi, ho, hp⟩
      · rw [Effect.run_bind_of_error (congrArg Prod.fst he), he]
        exact Or.inl ⟨e, rfl, hd⟩
      · rw [Effect.run_bind_of_ok ho]
        exact Or.inr ⟨_, s, hi, rfl, hp⟩
  · exact Or.inl ⟨_, rfl, hr⟩

theorem revoke_cases (hr : a.provider = .rotating r) (keyId : String) :
    (∃ e, r.revoke keyId a.now = .error e ∧ (revoke keyId).run a = (.error e, a)) ∨
      ∃ s, r.revoke keyId a.now = .ok s ∧ ((revoke keyId).run a).1 = .ok () ∧
        ((revoke keyId).run a).2.provider = .rotating s := by
  have hring : a.provider.ring = r := by rw [hr]; rfl
  unfold revoke
  rw [Effect.run_bind_of_ok (x := Effect.get) rfl]
  simp only [Effect.run_get, hring]
  cases hi : r.revoke keyId a.now with
  | error e => exact Or.inl ⟨e, rfl, rfl⟩
  | ok s =>
    rw [Effect.run_bind_of_ok (x := Effect.ofExcept _) rfl]
    refine Or.inr ⟨s, rfl, ?_⟩
    split
    · exact ⟨rfl, provider_withRing (a := a.record _) hr s⟩
    · exact ⟨rfl, provider_withRing hr s⟩

theorem provider_prune (hr : a.provider = .rotating r) (t : Instant) :
    ((prune t).run a).2.provider = .rotating (r.prune t) := by
  have hring : a.provider.ring = r := by rw [hr]; rfl
  unfold prune
  rw [Effect.run_bind_of_ok (x := Effect.get) rfl]
  dsimp only
  split
  · show ((a.record _).withRing (a.provider.ring.prune t)).provider = _
    rw [hring]
    exact provider_withRing (a := a.record _) hr _
  · show (a.withRing (a.provider.ring.prune t)).provider = _
    rw [hring]
    exact provider_withRing hr _

/-- the key that a call registers: it is known by what the call answers -/
def registers (a : Authority) : Call → Option SigningKey
  | .insertKey k =>
    match ((insertKey k).run a).1 with
    | .ok () => some k
    | .error _ => none
  | .rotate validity =>
    match (rotate validity).run a with
    | (.ok keyId, b) => (b.provider.ring.find? keyId).map KeyEntry.key
    | (.error _, _) => none
  | _ => none

/-- what a call does to a ring, by the key it registers -/
inductive Call.Steps : Call → Option SigningKey → KeyRing → KeyRing → Prop where
  | nothing {c : Call} (hp : ∀ t, c ≠ .prune t) (r : KeyRing) : Steps c none r r
  | insert {c : Call} (hp : ∀ t, c ≠ .prune t) {r s : KeyRing} {k : SigningKey}
      (h : r.insert k = .ok s) : Steps c (some k) r s
  | revoke {keyId : String} {now : Instant} {r s : KeyRing} (h : r.revoke keyId now = .ok s) :
      Steps (.revoke keyId) none r s
  | prune (t : Instant) (r : KeyRing) : Steps (.prune t) none r (r.prune t)

/-- what a call does to the ring of an authority -/
theorem steps_after (hr : a.provider = .rotating r) (c : Call) :
    ∃ s, (a.after c).provider = .rotating s ∧ c.Steps (a.registers c) r s := by
  cases c with
  | insertKey k =>
    rcases insertKey_cases hr k with ⟨e, -, he⟩ | ⟨s, hi, ho, hp⟩
    · refine ⟨r, ?_, ?_⟩
      · rw [after, he, hr]
      · rw [registers, he]
        exact .nothing (by simp) r
    · refine ⟨s, hp, ?_⟩
      rw [registers, ho]
      exact .insert (by simp) hi
  | rotate validity =>
    rcases rotate_cases hr validity with ⟨e, ho, hp⟩ | ⟨k, s, hi, ho, hp⟩
    · refine ⟨r, hp, ?_⟩
      rw [registers, show (rotate validity).run a = (.error e, _) from Prod.ext ho rfl]
      exact .nothing (by simp) r
    · refine ⟨s, hp, ?_⟩
      rw [registers, show (rotate validity).run a = (.ok k.keyId, _) from Prod.ext ho rfl]
      show Call.Steps _ (Option.map _ (KeyRing.find? (Provider.ring _) k.keyId)) r s
      rw [hp, Provider.ring, KeyRing.find?_of_insert hi]
      exact .insert (by simp) hi
  | revoke keyId =>
    rcases revoke_cases hr keyId with ⟨e, -, he⟩ | ⟨s, hi, -, hp⟩
    · exact ⟨r, by rw [after, he, hr], .nothing (by simp) r⟩
    · exact ⟨s, hp, .revoke hi⟩
  | prune t => exact ⟨r.prune t, provider_prune hr t, .prune t r⟩
  | select expiration => exact ⟨r, keeps_select expiration a r hr, .nothing (by simp) r⟩
  | issueAt now i => exact ⟨r, keeps_issueAt now i a r hr, .nothing (by simp) r⟩
  | verify token audience =>
    exact ⟨r, lax_keepsRing.moves_verify token audience a r hr, .nothing (by simp) r⟩
  | setWorld systemTime clock faults => exact ⟨r, hr, .nothing (by simp) r⟩

theorem Call.Steps.changes {c : Call} {k : Option SigningKey} {s : KeyRing} (h : c.Steps k r s) :
    c.Changes r s := by
  cases h with
  | nothing _ => exact .nothing c r
  | insert _ hi => exact .insert c hi
  | revoke hi => exact .revoke hi
  | prune t => exact .prune t r

theorem changes_after (hr : a.provider = .rotating r) (c : Call) :
    ∃ s, (a.after c).provider = .rotating s ∧ c.Changes r s := by
  obtain ⟨s, hs, h⟩ := steps_after hr c
  exact ⟨s, hs, h.changes⟩

end Authority

/-! ## what every ring is like -/

namespace KeyRing

/-- the identifiers of a ring are acceptable, and no two of them are the same -/
structure WellFormed (r : KeyRing) : Prop where
  distinct : (r.entries.map fun e => e.key.keyId).Nodup
  named : ∀ e ∈ r.entries, Policy.checkKeyId e.key.keyId = .ok ()

theorem wellFormed_empty : empty.WellFormed := ⟨List.nodup_nil, fun _ h => absurd h List.not_mem_nil⟩

variable {r s : KeyRing}

theorem WellFormed.of_changes (h : r.WellFormed) {c : Authority.Call} (hc : c.Changes r s) :
    s.WellFormed := by
  cases hc with
  | nothing => exact h
  | insert _ hi =>
    obtain ⟨hn, hf, he⟩ := of_insert hi
    refine ⟨?_, fun e hm => ?_⟩
    · rw [he, List.map_append, List.nodup_append]
      refine ⟨h.distinct, List.pairwise_singleton _ _, ?_⟩
      intro x hx y hy
      obtain ⟨e, hm, rfl⟩ := List.mem_map.1 hx
      obtain rfl := List.mem_singleton.1 hy
      intro heq
      exact find?_eq_none_iff.1 hf e hm heq
    · rw [he] at hm
      rcases List.mem_append.1 hm with hm | hm
      · exact h.named e hm
      · obtain rfl := List.mem_singleton.1 hm
        exact hn
  | revoke hi =>
    refine ⟨?_, fun e hm => ?_⟩
    · rw [map_of_revoke hi fun e => by rw [e.key_revoke]]
      exact h.distinct
    · obtain ⟨f, hf, hk, -⟩ := exists_of_mem_revoke hi hm
      rw [← hk]
      exact h.named f hf
  | prune t =>
    refine ⟨?_, fun e hm => h.named e (List.mem_filter.1 hm).1⟩
    exact h.distinct.sublist (List.filter_sublist.map _)

/-- in a well-formed ring a key is found under its identifier -/
theorem WellFormed.find?_eq_some_iff (h : r.WellFormed) {keyId : String} {e : KeyEntry} :
    r.find? keyId = some e ↔ e ∈ r.entries ∧ e.key.keyId = keyId := by
  constructor
  · intro hf
    have hk := List.find?_some hf
    exact ⟨List.mem_of_find?_eq_some hf, beq_iff_eq.1 hk⟩
  · rintro ⟨hm, rfl⟩
    cases hf : r.find? e.key.keyId with
    | none => exact absurd rfl (find?_eq_none_iff.1 hf e hm)
    | some x =>
      have hx := List.mem_of_find?_eq_some hf
      have hk := List.find?_some hf
      rw [List.inj_on_of_nodup_map h.distinct hx hm (beq_iff_eq.1 hk)]

/-- the public key of an identifier is that of the one key in use under it -/
theorem WellFormed.verifyingKey_eq_ok_iff (h : r.WellFormed) {keyId : String} {k : VerifyingKey} :
    r.verifyingKey keyId = .ok k ↔
      ∃ e ∈ r.entries, e.key.keyId = keyId ∧ e.revoked = false ∧ k = .ofSecret e.key.secret := by
  unfold verifyingKey
  cases hf : r.find? keyId with
  | none =>
    constructor
    · intro ho
      cases ho
    · rintro ⟨e, hm, hk, -, -⟩
      rw [h.find?_eq_some_iff.2 ⟨hm, hk⟩] at hf
      cases hf
  | some e =>
    obtain ⟨hm, hk⟩ := h.find?_eq_some_iff.1 hf
    constructor
    · intro ho
      cases hr : e.revoked with
      | true =>
        simp only [hr, if_true] at ho
        cases ho
      | false =>
        simp only [hr, Bool.false_eq_true, if_false] at ho
        exact ⟨e, hm, hk, hr, (Except.ok.inj ho).symm⟩
    · rintro ⟨e', hm', hk', hr, rfl⟩
      have he := h.find?_eq_some_iff.2 ⟨hm', hk'⟩
      rw [hf] at he
      obtain rfl := Option.some.inj he
      simp only [hr, Bool.false_eq_true, if_false]

/-- a key stays in use until it is revoked itself, or its window has ended at a pruning -/
theorem mem_of_changes {e : KeyEntry} (hm : e ∈ r.entries) {c : Authority.Call} (hc : c.Changes r s)
    (hr : c ≠ .revoke e.key.keyId) (hp : ∀ t, c = .prune t → t ≤ e.key.validUntil) :
    e ∈ s.entries := by
  cases hc with
  | nothing => exact hm
  | insert _ hi =>
    rw [(of_insert hi).2.2]
    exact List.mem_append_left _ hm
  | revoke hi => exact (mem_or_mem_revoke hi hm).resolve_right fun h => hr (congrArg _ h.1.symm)
  | prune t => exact List.mem_filter.2 ⟨hm, decide_eq_true (hp t rfl)⟩

end KeyRing

namespace Authority

variable {a : Authority} {r : KeyRing}

/-- calls keep a ring a ring, and a well-formed one well-formed -/
theorem wellFormed_afterAll (hr : a.provider = .rotating r) (hw : r.WellFormed) (cs : List Call) :
    ∃ s, (a.afterAll cs).provider = .rotating s ∧ s.WellFormed := by
  induction cs generalizing a r with
  | nil => exact ⟨r, hr, hw⟩
  | cons c cs ih =>
    obtain ⟨s, hs, hc⟩ := changes_after hr c
    exact ih hs (hw.of_changes hc)

/-- every ring that calls lead to is well-formed -/
theorem wellFormed_reachable (a : Authority) (cs : List Call) :
    ∃ s, (a.emptied.afterAll cs).provider = .rotating s ∧ s.WellFormed :=
  wellFormed_afterAll (a := a.emptied) rfl KeyRing.wellFormed_empty cs

/-- a key in use stays behind calls that do not revoke it, and prune only as long as its window is
open -/
theorem mem_afterAll (hr : a.provider = .rotating r) {e : KeyEntry} (hm : e ∈ r.entries)
    (cs : List Call) (hv : Call.revoke e.key.keyId ∉ cs)
    (hp : ∀ t, Call.prune t ∈ cs → t ≤ e.key.validUntil) :
    ∃ s, (a.afterAll cs).provider = .rotating s ∧ e ∈ s.entries := by
  induction cs generalizing a r with
  | nil => exact ⟨r, hr, hm⟩
  | cons c cs ih =>
    obtain ⟨s, hs, hc⟩ := changes_after hr c
    have hms : e ∈ s.entries := by
      refine KeyRing.mem_of_changes hm hc (fun h => hv ?_) fun t h => hp t ?_
      · rw [h]; exact List.mem_cons_self
      · rw [h]; exact List.mem_cons_self
    exact ih hs hms (fun h => hv (List.mem_cons_of_mem _ h)) fun t h => hp t (List.mem_cons_of_mem _ h)

end Authority

end Credentials
