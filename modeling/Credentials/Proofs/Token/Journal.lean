import Credentials.Proofs.Run.Alike
import Credentials.Proofs.Token.Run

/-!
# What calls on an authority answer

* `Authority.answer`       the answer of a call;
* `Authority.journal`      calls, one after another, with their answers;
* `Authority.SameButLog`   two authorities differ in their logs only;
* `Authority.Act.Blind`    a computation that does not look at the log, which holds of every call;
* `Authority.blind_after`  authorities that differ in their logs only give the same answer to a call,
                           and differ in their logs only behind it.
-/

namespace Credentials.Authority

/-- the answers of a call -/
abbrev Call.Answer : Call → Type
  | .insertKey _ => Except TokenError Unit
  | .rotate _ => Except TokenError String
  | .revoke _ => Except TokenError Unit
  | .prune _ => Except TokenError Nat
  | .select _ => Except TokenError SignerHandle
  | .issueAt .. => Except TokenError String
  | .verify .. => Except TokenError Claims
  | .setWorld .. => Unit

def answer (a : Authority) : (c : Call) → c.Answer
  | .insertKey k => ((insertKey k).run a).1
  | .rotate validity => ((rotate validity).run a).1
  | .revoke keyId => ((revoke keyId).run a).1
  | .prune t => ((prune t).run a).1
  | .select expiration => ((select expiration).run a).1
  | .issueAt now i => ((issueAt now i).run a).1
  | .verify token audience => ((verify token audience).run a).1
  | .setWorld .. => ()

/-- calls, one after another, with their answers -/
def journal (a : Authority) : List Call → List ((c : Call) × c.Answer)
  | [] => []
  | c :: cs => ⟨c, a.answer c⟩ :: (a.after c).journal cs

/-- two authorities differ in their logs only -/
def SameButLog (a b : Authority) : Prop := ∃ log, b = { a with log := log }

variable {a b c : Authority}

theorem SameButLog.trans (h : SameButLog a b) (h' : SameButLog b c) : SameButLog a c := by
  obtain ⟨_, rfl⟩ := h
  obtain ⟨log, rfl⟩ := h'
  exact ⟨log, rfl⟩

instance : Std.Refl SameButLog := ⟨fun a => ⟨a.log, rfl⟩⟩

instance : Trans SameButLog SameButLog SameButLog := ⟨SameButLog.trans⟩

theorem lax_sameButLog : Lax SameButLog := ⟨fun _ entries => ⟨entries, rfl⟩⟩

/-! ## no step looks at the log -/

/-- a computation that does not look at the log -/
abbrev Act.Blind {α : Type} (x : Act α) : Prop := Effect.Alike SameButLog x x

theorem blind_note (e : LogEntry) : (note e).Blind := by
  rintro a _ ⟨log, rfl⟩
  exact ⟨rfl, e :: log, rfl⟩

theorem blind_orNote {α : Type} {x : Act α} (h : x.Blind) (entry : TokenError → LogEntry) :
    (orNote x entry).Blind := by
  refine Effect.alike_onFailure h ?_
  rintro e a _ ⟨log, rfl⟩
  exact ⟨entry e :: log, rfl⟩

theorem blind_draw (n : Nat) : (draw n).Blind := by
  rintro a _ ⟨log, rfl⟩
  exact ⟨rfl, log, rfl⟩

theorem blind_drawUuid : drawUuid.Blind :=
  Effect.alike_bind (blind_draw 16) fun _ => Effect.alike_pure _

theorem blind_passSite (site : String) : (passSite site).Blind := by
  refine Effect.alike_bind (Effect.alike_modifyGet ?_) fun fails => ?_
  · rintro a _ ⟨log, rfl⟩
    exact ⟨rfl, log, rfl⟩
  · split
    · exact Effect.alike_fail _
    · exact Effect.alike_pure _

theorem blind_modify {f : Authority → Authority}
    (h : ∀ (a : Authority) log, ∃ log', f { a with log := log } = { f a with log := log' }) :
    Act.Blind (Effect.modify f) := by
  refine Effect.alike_modify ?_
  rintro a _ ⟨log, rfl⟩
  exact h a log

theorem blind_withRing (ring : KeyRing) :
    Act.Blind (Effect.modify fun a => a.withRing ring) := by
  refine blind_modify fun ⟨_, _, _, _, _, p⟩ log => ⟨log, ?_⟩
  cases p <;> rfl

theorem blind_get_bind {α : Type} {f : Authority → Act α}
    (h : ∀ (a : Authority) log, Effect.Alike SameButLog (f a) (f { a with log := log })) :
    Act.Blind (Effect.get >>= f) := by
  refine Effect.alike_get_bind ?_
  rintro a _ ⟨log, rfl⟩
  exact h a log

theorem blind_insertKey (k : SigningKey) : (insertKey k).Blind :=
  blind_get_bind fun _ _ => Effect.alike_bind (Effect.alike_ofExcept _) fun ring =>
    Effect.alike_bind (blind_note _) fun _ => blind_withRing ring

theorem now_log (a : Authority) (log : List LogEntry) : ({ a with log := log } : Authority).now = a.now :=
  rfl

theorem blind_rotate (validity : Delta) : (rotate validity).Blind := by
  unfold rotate
  split
  · refine blind_get_bind fun a log => ?_
    rw [now_log a log]
    cases a.now.add? validity with
    | none => exact Effect.alike_fail _
    | some validUntil =>
      refine Effect.alike_bind blind_drawUuid fun keyId => ?_
      refine Effect.alike_bind (blind_draw 32) fun secret => ?_
      refine Effect.alike_bind (blind_insertKey _) fun _ => ?_
      exact Effect.alike_bind (blind_note _) fun _ => Effect.alike_pure _
  · exact Effect.alike_fail _

theorem blind_revoke (keyId : String) : (revoke keyId).Blind := by
  refine blind_get_bind fun a log => ?_
  refine Effect.alike_bind (Effect.alike_ofExcept _) fun next => ?_
  split
  · exact Effect.alike_bind (blind_note _) fun _ => blind_withRing next
  · exact blind_withRing next

theorem blind_prune (t : Instant) : (prune t).Blind := by
  refine blind_get_bind fun a log => ?_
  dsimp only
  split
  · refine Effect.alike_bind (blind_note _) fun _ => ?_
    exact Effect.alike_bind (blind_withRing _) fun _ => Effect.alike_pure _
  · exact Effect.alike_bind (blind_withRing _) fun _ => Effect.alike_pure _

theorem blind_select (expiration : Instant) : (select expiration).Blind := by
  refine blind_get_bind fun a log => ?_
  rw [now_log a log]
  dsimp only
  cases a.provider with
  | rotating ring =>
    refine Effect.alike_bind (blind_passSite selectSite) fun _ => ?_
    split
    · exact Effect.alike_pure _
    · exact Effect.alike_bind (blind_note _) fun _ => Effect.alike_fail _
  | fixed handle calls last =>
    exact Effect.alike_bind (blind_modify fun _ log => ⟨log, rfl⟩) fun _ => Effect.alike_pure _
  | failing error calls =>
    exact Effect.alike_bind (blind_modify fun _ log => ⟨log, rfl⟩) fun _ => Effect.alike_fail _

theorem blind_issueAt (now : Instant) (i : Identity) : (issueAt now i).Blind := by
  refine Effect.alike_bind (blind_note _) fun _ => ?_
  refine Effect.alike_bind (Effect.alike_ofExcept _) fun unnumbered => ?_
  refine Effect.alike_bind blind_drawUuid fun jti => ?_
  refine Effect.alike_bind (blind_orNote (blind_select i.expiration) _) fun handle => ?_
  refine Effect.alike_bind (blind_orNote (Effect.alike_ofExcept _) _) fun token => ?_
  exact Effect.alike_bind (blind_note _) fun _ => Effect.alike_pure _

theorem blind_verifyingKey (keyId : String) : (verifyingKey keyId).Blind :=
  blind_get_bind fun _ _ => Effect.alike_ofExcept _

theorem blind_verify (token : String) (audience : Option String) : (verify token audience).Blind := by
  refine Effect.alike_bind (blind_note _) fun _ => ?_
  refine Effect.alike_bind (Effect.alike_ofExcept _) fun keyId => ?_
  refine Effect.alike_bind (blind_orNote (blind_verifyingKey keyId) _) fun key => ?_
  refine blind_get_bind fun a log => ?_
  refine Effect.alike_bind (Effect.alike_ofExcept _) fun claims => ?_
  exact Effect.alike_bind (blind_note _) fun _ => Effect.alike_pure _

theorem blind_after (h : SameButLog a b) (c : Call) :
    a.answer c = b.answer c ∧ SameButLog (a.after c) (b.after c) := by
  cases c with
  | insertKey k => exact blind_insertKey k a b h
  | rotate validity => exact blind_rotate validity a b h
  | revoke keyId => exact blind_revoke keyId a b h
  | prune t => exact blind_prune t a b h
  | select expiration => exact blind_select expiration a b h
  | issueAt now i => exact blind_issueAt now i a b h
  | verify token audience => exact blind_verify token audience a b h
  | setWorld systemTime clock faults =>
    obtain ⟨log, rfl⟩ := h
    exact ⟨rfl, log, rfl⟩

end Credentials.Authority
