import Credentials.Proofs.Token.Issued
import Credentials.Proofs.Token.Journal

/-!
# Refused issuances leave no trace

* `Identity.Unfit`           an identity for which no token is issued at an instant;
* `Identity.check_of_unfit`, `Identity.check_of_fit`   the check refuses these identities and no others;
* `Authority.asked`          an authority whose provider was asked for a signer once;
* `select_snd`, `issueAt_snd`   what a selection and an issuance do, the log aside;
* `Call.asks`                the expiration that a call asks the provider for;
* `provider_afterAll`        a provider without a ring has been asked for these, and for nothing else;
* `journal_filter`           calls that are refused can be left out: all others answer the same;
* `Authority.issuances_afterAll`   all of this, for every authority and all calls.

The check comes before the identifier is drawn and before the provider is asked, so a refusal moves
nothing but the log, and no call looks at the log.
-/

namespace Credentials

/-! ## identities that are refused -/

/-- a text that is not there, or that has nothing but blank characters -/
def Missing : Option String → Prop
  | none => True
  | some v => ∀ c ∈ v.toList, Text.isBlank c = true

instance : DecidablePred Missing
  | none => isTrue trivial
  | some v => decidable_of_iff (v.toList.all Text.isBlank = true) List.all_eq_true

theorem required_of_missing {value : Option String} (h : Missing value) (what : String) :
    required value what = .error (.precondition (what ++ " required")) := by
  cases value with
  | none => rfl
  | some v => exact if_pos (List.all_eq_true.2 h)

theorem required_of_not_missing {value : Option String} (h : ¬ Missing value) (what : String) :
    ∃ v, required value what = .ok v := by
  cases value with
  | none => exact absurd trivial h
  | some v => exact ⟨v, if_neg fun hb => h (List.all_eq_true.1 hb)⟩

namespace Identity

variable {i : Identity} {now : Instant}

/-- an identity for which no token is issued at an instant -/
def Unfit (i : Identity) (now : Instant) : Prop :=
  Missing i.principal ∨ Missing i.name ∨ Missing (some i.issuer) ∨ i.expiration ≤ now ∨ now.seconds < 0

instance : Decidable (i.Unfit now) :=
  inferInstanceAs (Decidable (Missing i.principal ∨ Missing i.name ∨ Missing (some i.issuer) ∨
    i.expiration ≤ now ∨ now.seconds < 0))

def earlyExpiration : String := "expiration is before the Unix epoch"

theorem notAfter_ne (i : Identity) (now : Instant) :
    "expiration " ++ i.expiration.text ++ " is not after issuance time " ++ now.text
      ≠ earlyExpiration := by
  intro h
  -- the other complaint ends with a time zone
  have hl := congrArg (fun s => s.toList.getLast?) h
  unfold Instant.text at hl
  have hzone : " UTC".toList.getLast? = some 'C' := by decide
  simp only [String.toList_append, List.getLast?_append, hzone, Option.some_or] at hl
  exact absurd hl (by decide)

/-- an unfit identity is refused, and never for an expiration before the epoch -/
theorem check_of_unfit (h : i.Unfit now) :
    ∃ m, i.check now = .error (.precondition m) ∧ m ≠ earlyExpiration := by
  unfold check
  -- the checks in their order: each is reached only behind those that pass
  by_cases hp : Missing i.principal
  · rw [required_of_missing hp]
    exact ⟨_, rfl, by decide⟩
  obtain ⟨p, ep⟩ := required_of_not_missing hp "principal"
  rw [ep]
  by_cases hn : Missing i.name
  · rw [required_of_missing hn]
    exact ⟨_, rfl, by decide⟩
  obtain ⟨n, en⟩ := required_of_not_missing hn "name"
  rw [en]
  by_cases hi : Missing (some i.issuer)
  · rw [required_of_missing hi]
    exact ⟨_, rfl, by decide⟩
  obtain ⟨s, es⟩ := required_of_not_missing hi "issuer"
  rw [es]
  by_cases he : i.expiration ≤ now
  · exact ⟨_, if_pos he, notAfter_ne i now⟩
  have hearly : now.seconds < 0 := by
    rcases h with h | h | h | h | h
    · exact absurd h hp
    · exact absurd h hn
    · exact absurd h hi
    · exact absurd h he
    · exact h
  refine ⟨_, (if_neg he).trans ?_, (?_ : "issuance time" ++ " is before the Unix epoch" ≠ _)⟩
  · rw [Instant.epochSeconds, if_neg (Int.not_le.2 hearly)]
    rfl
  · decide

theorem check_of_fit (h : ¬ i.Unfit now) : ∃ f, i.check now = .ok f := by
  simp only [Unfit, not_or, Int.not_lt] at h
  obtain ⟨hp, hn, hi, he, hearly⟩ := h
  obtain ⟨p, ep⟩ := required_of_not_missing hp "principal"
  obtain ⟨n, en⟩ := required_of_not_missing hn "name"
  obtain ⟨s, es⟩ := required_of_not_missing hi "issuer"
  -- what expires behind an instant since the epoch does so since the epoch, so that the last check passes
  have hlate : 0 ≤ i.expiration.seconds := by
    have hlt := Instant.lt_iff.1 (Instant.not_le.1 he)
    omega
  have hat : now.epochSeconds "issuance time" = .ok now.seconds.toNat := if_pos hearly
  have hexp : i.expiration.epochSeconds "expiration" = .ok i.expiration.seconds.toNat := if_pos hlate
  unfold check
  rw [ep, en, es, hat, hexp]
  exact ⟨_, if_neg he⟩

end Identity

/-- a handle fails to sign in one way only -/
theorem signClaims_error {h : SignerHandle} {c : Claims} {e : TokenError}
    (he : signClaims h c = .error e) : ∃ algorithm keyId cause, e = .signing algorithm keyId cause := by
  unfold signClaims at he
  rcases bind_eq_error_iff.1 he with he | ⟨_, -, he⟩
  · obtain ⟨_, -, rfl⟩ := mapError_eq_error_iff.1 he
    exact ⟨_, _, _, rfl⟩
  · split at he
    · exact ⟨_, _, _, (Except.error.inj he).symm⟩
    · rcases bind_eq_error_iff.1 he with he | ⟨_, -, he⟩
      · obtain ⟨_, -, rfl⟩ := mapError_eq_error_iff.1 he
        exact ⟨_, _, _, rfl⟩
      · cases he

/-! ## what a call does to the source of signers -/

/-- a provider that was asked for a signer once more; a ring does not count -/
def Provider.asked : Provider → Instant → Provider
  | .rotating ring, _ => .rotating ring
  | .fixed handle calls _, expiration => .fixed handle (calls + 1) (some expiration)
  | .failing error calls, _ => .failing error (calls + 1)

theorem Provider.foldl_asked_fixed (handle : SignerHandle) (calls : Nat) (last : Option Instant)
    (es : List Instant) : es.foldl asked (.fixed handle calls last)
      = .fixed handle (calls + es.length) (es.getLast?.or last) := by
  induction es generalizing calls last with
  | nil => rfl
  | cons e es ih =>
    show es.foldl asked (.fixed handle (calls + 1) (some e)) = _
    rw [ih, List.length_cons, Nat.add_right_comm, Nat.add_assoc calls, List.getLast?_cons]
    cases es.getLast? <;> rfl

theorem Provider.foldl_asked_failing (error : TokenError) (calls : Nat) (es : List Instant) :
    es.foldl asked (.failing error calls) = .failing error (calls + es.length) := by
  induction es generalizing calls with
  | nil => rfl
  | cons e es ih =>
    show es.foldl asked (.failing error (calls + 1)) = _
    rw [ih, List.length_cons, Nat.add_right_comm, Nat.add_assoc calls]

namespace Authority

variable {a b : Authority} {i : Identity} {now : Instant} {f : Unnumbered}

/-- an authority whose provider was asked for a signer once; a ring passes its site of faults -/
def asked (a : Authority) (expiration : Instant) : Authority :=
  { a with
    provider := a.provider.asked expiration
    faults := match a.provider with
      | .rotating _ => (a.faults.pass selectSite).2
      | _ => a.faults }

theorem passSite_snd (a : Authority) (site : String) :
    ((passSite site).run a).2 = { a with faults := (a.faults.pass site).2 } := by
  unfold passSite
  simp only [Effect.run_bind, Effect.run_modifyGet]
  split <;> rfl

/-- a selection asks the provider once, and does nothing else but log -/
theorem select_snd (a : Authority) (expiration : Instant) :
    SameButLog (a.asked expiration) ((select expiration).run a).2 := by
  unfold select asked
  rw [Effect.run_bind_of_ok (x := Effect.get) rfl, Effect.run_get]
  cases hp : a.provider with
  | rotating ring =>
    have hpass : ((passSite selectSite).run a).2
        = { a with provider := .rotating ring, faults := (a.faults.pass selectSite).2 } := by
      rw [passSite_snd, ← hp]
    dsimp only [Provider.asked]
    rw [← hpass]
    refine Effect.moves_behind (fun _ => ?_) (passSite selectSite) a
    split
    · exact Effect.moves_pure _
    · exact Effect.moves_bind (lax_sameButLog.moves_note _) fun _ => Effect.moves_fail _
  | fixed handle calls last => exact ⟨a.log, rfl⟩
  | failing error calls => exact ⟨a.log, rfl⟩

theorem issueAt_of_unfit (a : Authority) (h : i.Unfit now) :
    ∃ m, m ≠ Identity.earlyExpiration ∧ (issueAt now i).run a
      = (.error (.precondition m), a.record (.span "get_bearer_token" [("issuer", i.issuer)])) := by
  obtain ⟨m, hc, hm⟩ := Identity.check_of_unfit h
  refine ⟨m, hm, ?_⟩
  unfold issueAt
  rw [Effect.run_bind_of_ok (x := note _) rfl, hc, Effect.run_bind_of_error (x := Effect.ofExcept _) rfl]
  rfl

/-- any other issuance draws one identifier and asks the provider once, and does nothing else but log -/
theorem issueAt_snd (a : Authority) (h : i.check now = .ok f) :
    SameButLog { a.asked i.expiration with random := (a.random.draw 16).2 } ((issueAt now i).run a).2 := by
  unfold issueAt
  rw [Effect.run_bind_of_ok (x := note _) rfl, h, Effect.run_bind_of_ok (x := Effect.ofExcept _) rfl,
    Effect.run_bind_of_ok (x := drawUuid) (drawUuid_fst _)]
  generalize hb : (drawUuid.run _).2 = b
  have hasked : SameButLog { a.asked i.expiration with random := (a.random.draw 16).2 }
      (b.asked i.expiration) := by
    rw [← hb]
    exact ⟨_, rfl⟩
  refine (hasked.trans (select_snd b i.expiration)).trans ?_
  refine SameButLog.trans (Effect.moves_looking (fun _ a => lax_sameButLog.log a _) (select i.expiration) b)
    (Effect.moves_behind (fun handle => ?_) (orNote (select i.expiration) _) b)
  refine Effect.moves_bind (lax_sameButLog.moves_orNote (Effect.moves_ofExcept _) _) fun token => ?_
  exact Effect.moves_bind (lax_sameButLog.moves_note _) fun _ => Effect.moves_pure _

theorem select_ne_precondition {r : KeyRing} (hr : a.provider = .rotating r) {expiration : Instant}
    {m : String} : ((select expiration).run a).1 ≠ .error (.precondition m) := by
  unfold select
  rw [Effect.run_bind_of_ok (x := Effect.get) rfl]
  simp only [Effect.run_get, hr]
  intro h
  rcases hp : ((passSite selectSite).run a).1 with e | _
  · rw [Effect.run_bind_of_error hp] at h
    unfold passSite at hp
    simp only [Effect.run_bind, Effect.run_modifyGet] at hp
    split at hp
    · rw [← Except.error.inj hp] at h
      cases h
    · cases hp
  · rw [Effect.run_bind_of_ok hp] at h
    split at h <;> cases h

theorem unfit_of_issueAt {m : String} {entry : LogEntry}
    (h : (issueAt now i).run a = (.error (.precondition m), a.record entry)) : i.Unfit now := by
  by_contra hfit
  obtain ⟨f, hf⟩ := Identity.check_of_fit hfit
  obtain ⟨log, hlog⟩ := issueAt_snd a hf
  rw [h] at hlog
  -- so the provider was asked, and yet it is the one from before: it has a ring
  have hp : a.provider = a.provider.asked i.expiration := congrArg Authority.provider hlog
  have ho := issueAt_fst a now i
  rw [h, hf] at ho
  change _ = ((select i.expiration).run a).1 >>= _ at ho
  cases hr : a.provider with
  | rotating r =>
    rcases bind_eq_error_iff.1 ho.symm with hs | ⟨handle, -, hs⟩
    · exact select_ne_precondition hr hs
    · obtain ⟨_, _, _, he⟩ := signClaims_error (map_eq_error_iff.1 hs)
      cases he
  | fixed handle calls last =>
    rw [hr] at hp
    injection hp with _ hcalls
    omega
  | failing error calls =>
    rw [hr] at hp
    injection hp with _ hcalls
    omega

/-! ## how often a provider is asked -/

/-- the expiration that a call asks the provider for -/
def Call.asks : Call → Option Instant
  | .select expiration => some expiration
  | .issueAt now i => if i.Unfit now then none else some i.expiration
  | _ => none

theorem asks_of_unfit (h : i.Unfit now) : (Call.issueAt now i).asks = none := if_pos h

theorem asks_of_fit (h : ¬ i.Unfit now) : (Call.issueAt now i).asks = some i.expiration := if_neg h

/-- a provider without a ring is left as it is -/
def KeepsSource (a b : Authority) : Prop :=
  (∀ r, a.provider ≠ .rotating r) → b.provider = a.provider

theorem KeepsSource.of_eq (h : b.provider = a.provider) : KeepsSource a b := fun _ => h

instance : Std.Refl KeepsSource := ⟨fun _ _ => rfl⟩

instance : Trans KeepsSource KeepsSource KeepsSource where
  trans h h' hs := (h' fun r hr => hs r ((h hs).symm.trans hr)).trans (h hs)

theorem lax_keepsSource : Lax KeepsSource := ⟨fun _ _ => .of_eq rfl⟩

theorem keepsSource_draw (n : Nat) : (draw n).Moves KeepsSource := fun _ => .of_eq rfl

theorem keepsSource_withRing (ring : KeyRing) :
    Effect.Moves KeepsSource (Effect.modify fun a => a.withRing ring : Act Unit) := by
  intro a hs
  show (a.withRing ring).provider = a.provider
  unfold withRing
  split
  · rename_i r hr
    exact absurd hr (hs r)
  · rfl

theorem keepsSource_insertKey (k : SigningKey) : (insertKey k).Moves KeepsSource := by
  refine Effect.moves_bind Effect.moves_get fun a => ?_
  refine Effect.moves_bind (Effect.moves_ofExcept _) fun ring => ?_
  exact Effect.moves_bind (lax_keepsSource.moves_note _) fun _ => keepsSource_withRing ring

theorem keepsSource_rotate (validity : Delta) : (rotate validity).Moves KeepsSource := by
  unfold rotate
  split
  · refine Effect.moves_bind Effect.moves_get fun a => ?_
    split
    · exact Effect.moves_fail _
    · refine Effect.moves_bind (Effect.moves_bind (keepsSource_draw 16) fun _ => Effect.moves_pure _)
        fun keyId => ?_
      refine Effect.moves_bind (keepsSource_draw 32) fun secret => ?_
      refine Effect.moves_bind (keepsSource_insertKey _) fun _ => ?_
      exact Effect.moves_bind (lax_keepsSource.moves_note _) fun _ => Effect.moves_pure _
  · exact Effect.moves_fail _

theorem keepsSource_revoke (keyId : String) : (revoke keyId).Moves KeepsSource := by
  refine Effect.moves_bind Effect.moves_get fun a => ?_
  refine Effect.moves_bind (Effect.moves_ofExcept _) fun next => ?_
  split
  · exact Effect.moves_bind (lax_keepsSource.moves_note _) fun _ => keepsSource_withRing next
  · exact keepsSource_withRing next

theorem keepsSource_prune (t : Instant) : (prune t).Moves KeepsSource := by
  refine Effect.moves_bind Effect.moves_get fun a => ?_
  dsimp only
  split
  · refine Effect.moves_bind (lax_keepsSource.moves_note _) fun _ => ?_
    exact Effect.moves_bind (keepsSource_withRing _) fun _ => Effect.moves_pure _
  · exact Effect.moves_bind (keepsSource_withRing _) fun _ => Effect.moves_pure _

theorem provider_after (hs : ∀ r, a.provider ≠ .rotating r) (c : Call) :
    (a.after c).provider = c.asks.toList.foldl Provider.asked a.provider := by
  cases c with
  | insertKey k => exact keepsSource_insertKey k a hs
  | rotate validity => exact keepsSource_rotate validity a hs
  | revoke keyId => exact keepsSource_revoke keyId a hs
  | prune t => exact keepsSource_prune t a hs
  | verify token audience => exact lax_keepsSource.moves_verify token audience a hs
  | setWorld systemTime clock faults => rfl
  | select expiration =>
    obtain ⟨log, hlog⟩ := select_snd a expiration
    exact congrArg Authority.provider hlog
  | issueAt now i =>
    by_cases hu : i.Unfit now
    · obtain ⟨m, -, h⟩ := issueAt_of_unfit a hu
      rw [asks_of_unfit hu, after, h]
      rfl
    · obtain ⟨f, hf⟩ := Identity.check_of_fit hu
      obtain ⟨log, hlog⟩ := issueAt_snd a hf
      rw [asks_of_fit hu]
      exact congrArg Authority.provider hlog

theorem not_rotating_asked {p : Provider} (h : ∀ r, p ≠ .rotating r) (es : List Instant) :
    ∀ r, es.foldl Provider.asked p ≠ .rotating r := by
  cases p with
  | rotating r => exact absurd rfl (h r)
  | fixed handle calls last =>
    rw [Provider.foldl_asked_fixed]
    exact fun r hr => Provider.noConfusion hr
  | failing error calls =>
    rw [Provider.foldl_asked_failing]
    exact fun r hr => Provider.noConfusion hr

/-- a provider without a ring has been asked for the expirations of the calls, and for nothing else -/
theorem provider_afterAll (hs : ∀ r, a.provider ≠ .rotating r) (cs : List Call) :
    (a.afterAll cs).provider = (cs.filterMap Call.asks).foldl Provider.asked a.provider := by
  induction cs generalizing a with
  | nil => rfl
  | cons c cs ih =>
    have hc := provider_after hs c
    have hs' : ∀ r, (a.after c).provider ≠ .rotating r := by
      rw [hc]
      exact not_rotating_asked hs _
    show ((a.after c).afterAll cs).provider = _
    rw [ih hs', hc, ← List.foldl_append, List.filterMap_cons]
    cases c.asks <;> rfl

/-! ## runs without the calls that are refused -/

/-- an issuance for an unfit identity -/
def Call.refused : Call → Bool
  | .issueAt now i => i.Unfit now
  | _ => false

theorem sameButLog_refused {c : Call} (h : c.refused = true) (a : Authority) :
    SameButLog a (a.after c) := by
  cases c with
  | issueAt now i =>
    obtain ⟨m, -, hrun⟩ := issueAt_of_unfit a (of_decide_eq_true h)
    rw [after, hrun]
    exact ⟨_, rfl⟩
  | _ => cases h

theorem journal_filter (h : SameButLog a b) (cs : List Call) :
    a.journal (cs.filter fun c => !c.refused) = (b.journal cs).filter fun r => !r.1.refused := by
  induction cs generalizing a b with
  | nil => rfl
  | cons c cs ih =>
    rw [journal]
    cases hr : c.refused with
    | true =>
      -- one run stays where it is, and the other one only logs
      rw [List.filter_cons_of_neg (by simp [hr]), List.filter_cons_of_neg (by simp [hr])]
      exact ih (h.trans (sameButLog_refused hr b))
    | false =>
      obtain ⟨he, hs⟩ := blind_after h c
      rw [List.filter_cons_of_pos (by simp [hr]), List.filter_cons_of_pos (by simp [hr]), journal, he]
      exact congrArg _ (ih hs)

/-- An issuance fails with a precondition before anything but the log has moved just for the unfit
identities, and never because the expiration is before the epoch. Any other issuance asks the provider once,
for the expiration of the identity as it is, passes its failure on unchanged, and has its signer sign what
the identity says. So a provider without a ring has been asked for the expirations of the calls that are
not refused, and without the refused ones every other call gives the same answer. -/
theorem issuances_afterAll (a : Authority) :
    (∀ (now : Instant) (i : Identity),
      let refusal (m : String) : Except TokenError String × Authority :=
        (.error (.precondition m), a.record (.span "get_bearer_token" [("issuer", i.issuer)]))
      ((∃ m, (issueAt now i).run a = refusal m) ↔ i.Unfit now) ∧
      (issueAt now i).run a ≠ refusal "expiration is before the Unix epoch" ∧
      (¬ i.Unfit now → ∃ claims : Claims, i.Says now claims ∧
        SameButLog { a.asked i.expiration with random := (a.random.draw 16).2 } ((issueAt now i).run a).2 ∧
        ((issueAt now i).run a).1 = match ((select i.expiration).run a).1 with
          | .error e => .error e
          | .ok handle => (signClaims handle claims).map Compact.text)) ∧
    (∀ (cs : List Call) (handle : SignerHandle) (calls : Nat) (last : Option Instant),
      a.provider = .fixed handle calls last →
      (a.afterAll cs).provider = .fixed handle (calls + (cs.filterMap Call.asks).length)
        ((cs.filterMap Call.asks).getLast?.or last)) ∧
    (∀ (cs : List Call) (error : TokenError) (calls : Nat), a.provider = .failing error calls →
      (a.afterAll cs).provider = .failing error (calls + (cs.filterMap Call.asks).length)) ∧
    ∀ cs : List Call,
      a.journal (cs.filter fun c => !c.refused) = (a.journal cs).filter fun r => !r.1.refused := by
  refine ⟨fun now i => ⟨⟨?_, ?_⟩, ?_, fun hfit => ?_⟩, fun cs handle calls last hp => ?_,
    fun cs error calls hp => ?_, journal_filter (Std.Refl.refl a)⟩
  · rintro ⟨m, h⟩
    exact unfit_of_issueAt h
  · intro hu
    obtain ⟨m, -, h⟩ := issueAt_of_unfit a hu
    exact ⟨m, h⟩
  · intro h
    obtain ⟨m, hm, h'⟩ := issueAt_of_unfit a (unfit_of_issueAt h)
    rw [h] at h'
    cases h'
    exact hm rfl
  · obtain ⟨f, hf⟩ := Identity.check_of_fit hfit
    obtain ⟨-, hsays⟩ := Identity.says_of_check hf (Uuid.text (Uuid.ofRandom (a.random.draw 16).1))
    refine ⟨_, hsays, issueAt_snd a hf, ?_⟩
    rw [issueAt_fst, hf]
    change ((select i.expiration).run a).1 >>= _ = _
    cases ((select i.expiration).run a).1 <;> rfl
  · rw [provider_afterAll (by rw [hp]; exact fun r hr => Provider.noConfusion hr), hp,
      Provider.foldl_asked_fixed]
  · rw [provider_afterAll (by rw [hp]; exact fun r hr => Provider.noConfusion hr), hp,
      Provider.foldl_asked_failing]

/-- a blank principal, a token, and one that would have expired: the provider is asked once, and the token
is that of a run on its own -/
theorem issuances_afterAll_of_three :
    let start : Instant := ⟨0, 0, by decide, by decide⟩
    let last : Instant := ⟨10, 0, by decide, by decide⟩
    let alice : Identity := .new "alice" "idp" last
    let handle : SignerHandle := ⟨"k1", .edDSA, .ed25519 []⟩
    let a : Authority := ⟨start, none, ⟨.generator 0⟩, [], [], .fixed handle 0 none⟩
    let cs : List Call :=
      [.issueAt start { alice with principal := some " \t" }, .issueAt start alice, .issueAt last alice]
    alice.Unfit last ∧ ¬ alice.Unfit start ∧ a.provider = .fixed handle 0 none ∧
      (a.afterAll cs).provider = .fixed handle 1 (some last) ∧
      a.journal [.issueAt start alice] = (a.journal cs).filter fun r => !r.1.refused := by
  intro start last alice handle a cs
  have hlate : alice.Unfit last := by decide +kernel
  have hfit : ¬ alice.Unfit start := by decide +kernel
  have hasks : cs.filterMap Call.asks = [last] := by decide +kernel
  have hkept : (cs.filter fun c => !c.refused) = [.issueAt start alice] := by
    have hblank : ({ alice with principal := some " \t" } : Identity).Unfit start := by decide +kernel
    simp [cs, Call.refused, hlate, hfit, hblank]
  obtain ⟨-, hcount, -, hleft⟩ := issuances_afterAll a
  refine ⟨hlate, hfit, rfl, ?_, ?_⟩
  · have h := hcount cs handle 0 none rfl
    rw [hasks] at h
    exact h
  · rw [← hkept]
    exact hleft cs

end Authority

end Credentials
