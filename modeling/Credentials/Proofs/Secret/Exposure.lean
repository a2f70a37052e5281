import Credentials.Proofs.Secret.Answers
import Credentials.Proofs.Secret.Footprint

/-!
# What a failed read tells of a stored value

* `JsonType`, `Json.type`        the six types of values;
* `Response.told`                what a message tells of a value beyond its type;
* `Response.check_error_iff`     two values of one type are refused with one message iff the same is told;
* `Vault.Rivals`                 two vaults that answer for a key with two responses, and are otherwise on
                                 one level: any other secret may differ as well;
* `Vault.alike_fetch`            they come to their answers alike, or fail alike before;
* `Vault.read_error_iff`         behind that they fail alike iff the same is told of their values.

Of strings, arrays and objects nothing but the type is told. A boolean or a number where a string should
stand is spelled out, in the error as well as in the log.
-/

namespace Credentials

open Effect (Agree Alike AlikeUpTo)

/-- the types of values -/
inductive JsonType where
  | null
  | bool
  | number
  | string
  | array
  | object
  deriving DecidableEq, Repr

/-- the type of a value -/
def Json.type : Json → JsonType
  | .null => .null
  | .bool _ => .bool
  | .number _ => .number
  | .string _ => .string
  | .array _ => .array
  | .object _ => .object

namespace Response

/-- what a message tells of a value that stands for a secret, beyond its type -/
def told : Json → Option String
  | .bool b => some (Json.Found.bool b).text
  | .number n => some (Json.Found.number n).text
  | _ => none

/-- the message about a value that is neither a string nor null -/
def refusal (j : Json) : String :=
  "'value' is not a string or null: " ++ (Json.Error.invalidType (found j) "a string").message

variable {r s : Response} {j k : Json}

theorem refusal_inj : refusal j = refusal k ↔ (found j).text = (found k).text := by
  unfold refusal Json.Error.message
  simp only [String.append_right_inj, String.append_left_inj]

theorem check_of_holds (h : r.Holds j) :
    r.check = match j with
      | .null => .ok ⟨none⟩
      | .string s => .ok ⟨some s⟩
      | j => .error (refusal j) := by
  obtain ⟨members, hd, hl⟩ := h
  unfold check
  simp only [hd, hl]
  cases j <;> rfl

/-- a value of the same type is refused too, with the same message iff the same is told of it -/
theorem check_error_iff (hr : r.Holds j) (hs : s.Holds k) (ht : j.type = k.type) {m : String}
    (h : r.check = .error m) : ∃ m', s.check = .error m' ∧ (m' = m ↔ told j = told k) := by
  rw [check_of_holds hr] at h
  rw [check_of_holds hs]
  cases j with
  | null | string => cases h
  | bool b =>
    cases k with
    | bool c =>
      obtain rfl := Except.error.inj h
      refine ⟨_, rfl, refusal_inj.trans ?_⟩
      rw [eq_comm, told, told, Option.some.injEq]
      rfl
    | null | number | string | array | object => cases ht
  | number n =>
    cases k with
    | number c =>
      obtain rfl := Except.error.inj h
      refine ⟨_, rfl, refusal_inj.trans ?_⟩
      rw [eq_comm, told, told, Option.some.injEq]
      rfl
    | null | bool | string | array | object => cases ht
  | array items =>
    cases k with
    | array others =>
      obtain rfl := Except.error.inj h
      exact ⟨_, rfl, iff_of_true rfl rfl⟩
    | null | bool | number | string | object => cases ht
  | object members =>
    cases k with
    | object others =>
      obtain rfl := Except.error.inj h
      exact ⟨_, rfl, iff_of_true rfl rfl⟩
    | null | bool | number | string | array => cases ht

end Response

/-- two backends that answer for a key with two responses, which are stored or scripted, and that are of
one kind otherwise -/
inductive Backend.Rivals (space key : String) (r s : Response) (b c : Backend) : Prop
  | stored (hm : b.kind.inMemory) (hk : c.kind = b.kind) (hb : b.store.get? space key = some r)
    (hc : c.store.get? space key = some s) (hn : c.nextHandle = b.nextHandle)
  | scripted {puts : List (String × Envelope)} (hb : b.kind = .scripted (some r) puts)
    (hc : c.kind = .scripted (some s) puts) (hn : c.nextHandle = b.nextHandle)

namespace Vault

/-- two vaults over such backends, with the same services, faults and log -/
structure Rivals (space key : String) (r s : Response) (v w : Vault) : Prop where
  backend : Backend.Rivals space key r s v.backend w.backend
  services : w.services = v.services
  faults : w.faults = v.faults
  log : w.log = v.log

variable {v w : Vault} {svc : Nat} {space key : String} {r s : Response} {j k : Json}

theorem level_rivals : Level (Rivals space key r s) where
  faults h := h.faults
  caches h svc := by rw [cacheOf, cacheOf, h.services]
  logged h e := { h with log := congrArg (e :: ·) h.log }
  planned h plans := { h with faults := rfl }
  kept h svc f := { h with services := congrArg (List.modify · svc _) h.services }

/-! ## the answer -/

theorem Rivals.nextHandle (h : Rivals space key r s v w) :
    w.backend.nextHandle = v.backend.nextHandle := by
  cases h.backend with
  | stored _ _ _ _ hn => exact hn
  | scripted _ _ hn => exact hn

theorem rivals_newHandle (n : String) (engine : Engine) :
    Alike (Rivals space key r s) (newHandle n engine) (newHandle n engine) := by
  refine Effect.alike_modifyGet fun v w h => ?_
  simp only [h.nextHandle, true_and]
  refine { h with backend := ?_ }
  cases h.backend with
  | stored hm hk hb hc _ => exact .stored hm hk hb hc rfl
  | scripted hb hc _ => exact .scripted hb hc rfl

theorem rivals_constructInMemory (n : String) (engine : Engine) :
    Alike (Rivals space key r s) (constructInMemory n engine) (constructInMemory n engine) := by
  refine Effect.alike_bind (level_rivals.alike_passSite _) fun _ => ?_
  refine Effect.alike_bind (Effect.alike_modify fun v w h => { h with backend := ?_ }) fun _ =>
    rivals_newHandle n engine
  cases h.backend with
  | stored hm hk hb hc hn =>
    exact .stored hm hk ((Store.get?_openSpace ..).trans hb) ((Store.get?_openSpace ..).trans hc) hn
  | scripted hb hc hn => exact .scripted hb hc hn

theorem rivals_construct (n : String) (engine : Engine) :
    Alike (Rivals space key r s) (construct n engine) (construct n engine) := by
  intro v w h
  cases h.backend with
  | stored hm hk hb hc hn =>
    have hmet : Rivals space key r s (v.met n engine) (w.met n engine) :=
      { h with
        backend := .stored (Desk.inMemory_attempted hm) (congrArg (·.attempted n engine) hk) hb hc hn }
    rw [run_construct hm, run_construct (hk ▸ hm), hk]
    cases v.backend.kind.refusal? n with
    | some e => exact ⟨rfl, hmet⟩
    | none => exact rivals_constructInMemory n engine _ _ hmet
  | scripted hb hc _ =>
    rw [run_construct_of_scripted hb, run_construct_of_scripted hc]
    exact rivals_newHandle n engine v w h

theorem rivals_getThrough {hd : Handle} (hs : hd.space = space) :
    AlikeUpTo (Rivals space key r s) (fun a b => a = some r ∧ b = some s) (getThrough hd key)
      (getThrough hd key) := by
  intro v w h
  cases h.backend with
  | stored hm hk hb hc hn =>
    rw [run_getThrough hm, run_getThrough (hk ▸ hm), hs, hb, hc]
    unfold passed
    rw [h.faults]
    refine ⟨?_, level_rivals.planned h _⟩
    dsimp only
    split
    · exact .error _
    · exact .ok ⟨rfl, rfl⟩
  | scripted hb hc _ =>
    have hrun : ∀ {u : Vault} {a puts}, u.backend.kind = .scripted a puts →
        (getThrough hd key).run u = (.ok a, u) := fun hu => by
      unfold getThrough
      rw [Effect.run_bind, Effect.run_get]
      simp only [hu, Effect.run_pure]
    rw [hrun hb, hrun hc]
    exact ⟨.ok ⟨rfl, rfl⟩, h⟩

/-- vaults that are rivals come to their answers alike, or fail alike before -/
theorem alike_fetch (h : Rivals space key r s v w) (hf : v.HandlesFit) (svc : Nat) :
    Agree (fun a b => a = some r ∧ b = some s) ((fetch svc space key).run v).1
        ((fetch svc space key).run w).1 ∧
      Rivals space key r s ((fetch svc space key).run v).2 ((fetch svc space key).run w).2 := by
  unfold fetch
  rw [Effect.run_bind_of_ok (x := note _) rfl, Effect.run_bind_of_ok (x := note _) rfl]
  -- the entry of the call leaves rivals, and handles as they are
  have hn := (level_rivals.alike_note (.span "read_key_value_secret" [("namespace", space), ("key", key)])
    v w h).2
  replace hf : ((note (.span "read_key_value_secret" [("namespace", space), ("key", key)])).run
    v).2.HandlesFit := hf.congr rfl
  generalize ((note _).run v).2 = v, ((note _).run w).2 = w at hn hf ⊢
  obtain ⟨hsame, hopen⟩ := level_rivals.alike_openSpace (rivals_construct space) svc v w hn
  cases ho : ((openSpace svc space).run v).1 with
  | error e =>
    rw [Effect.run_bind_of_error ho, Effect.run_bind_of_error (hsame.symm.trans ho)]
    exact ⟨.error e, hopen⟩
  | ok hd =>
    rw [Effect.run_bind_of_ok ho, Effect.run_bind_of_ok (hsame.symm.trans ho)]
    exact level_rivals.alike_orNote (rivals_getThrough (space_of_openSpace hf ho)) _ _ _ hopen

/-- an answer that is refused is refused in the log as well -/
theorem run_conclude {a : Option Response} {e : SecretError} (h : answer space key a = .error e)
    (v : Vault) : (conclude space key a).run v
      = (.error e, { v with log := keyFailed "malformed key-value response" space key e :: v.log }) := by
  cases a with
  | none => cases h
  | some r =>
    have he := map_eq_error_iff.1 h
    have hx : ((Effect.ofExcept (r.envelope space key) : Act Envelope).run v).1 = .error e := he
    unfold conclude orNote
    rw [Effect.run_bind_of_error (by rw [Effect.run_onFailure_fst, hx]),
      Effect.run_onFailure_of_error hx]
    rfl

theorem keyFailed_inj {name : String} {e e' : SecretError} :
    keyFailed name space key e = keyFailed name space key e' ↔ e.message = e'.message := by
  simp [keyFailed, LogEntry.warn]

theorem contractViolation_message_inj {m m' : String} :
    (SecretError.contractViolation space key m).message
      = (SecretError.contractViolation space key m').message ↔ m = m' := by
  unfold SecretError.message
  exact String.append_right_inj _

/-- Two vaults answer for a key with two responses, whose members `value` are of one type. If a read
fails on one of them, it fails on the other, and both the errors and the logs are the same iff there was
no answer yet, or the same is told of both values. So they are, whenever these are strings, arrays or
objects, whatever is in them and beside them; a boolean or a number gives itself away. -/
theorem read_error_iff (h : Rivals space key r s v w) (hf : v.HandlesFit) (hr : r.Holds j)
    (hs : s.Holds k) (ht : j.type = k.type) {e : SecretError}
    (he : ((read svc space key).run v).1 = .error e) :
    ∃ e', ((read svc space key).run w).1 = .error e' ∧
      (e' = e ↔ ((fetch svc space key).run v).1 = .error e ∨ Response.told j = Response.told k) ∧
      (((read svc space key).run w).2.log = ((read svc space key).run v).2.log ↔
        ((fetch svc space key).run v).1 = .error e ∨ Response.told j = Response.told k) := by
  obtain ⟨hfetch, hafter⟩ := alike_fetch h hf svc
  rw [read_eq] at he ⊢
  rcases hfetch.elim with ⟨_, _, hv, hw, rfl, rfl⟩ | ⟨e', hv, hw⟩
  · rw [Effect.run_bind_of_ok hv] at he ⊢
    rw [Effect.run_bind_of_ok hw, hv]
    rw [conclude_fst] at he
    obtain ⟨_, m, hrm, hcheck, rfl⟩ := answer_eq_error_iff.1 he
    obtain rfl := Option.some.inj hrm
    obtain ⟨m', hcheck', htold⟩ := Response.check_error_iff hr hs ht hcheck
    have he' : answer space key (some s) = .error (.contractViolation space key m') :=
      answer_eq_error_iff.2 ⟨s, m', rfl, hcheck', rfl⟩
    rw [run_conclude he, run_conclude he', hafter.log]
    refine ⟨_, rfl, ?_, ?_⟩
    · simpa using htold
    · rw [List.cons.injEq, and_iff_left rfl]
      simpa [keyFailed_inj, contractViolation_message_inj] using htold
  · rw [Effect.run_bind_of_error hv] at he ⊢
    rw [Effect.run_bind_of_error hw]
    obtain rfl := Except.error.inj he
    exact ⟨e', rfl, iff_of_true rfl (.inl hv), iff_of_true hafter.log (.inl hv)⟩

/-- a memory with one response or another planted at a key -/
theorem rivals_plant (hm : v.backend.kind.inMemory) (space key : String) (r s : Response) :
    Rivals space key r s ((plant space key r).run v).2 ((plant space key s).run v).2 := by
  have hput : ∀ a, (v.backend.store.put space key a).get? space key = some a := fun a => by
    rw [Store.get?_put, if_pos ⟨rfl, rfl⟩]
  exact ⟨.stored hm rfl (hput r) (hput s) rfl, rfl, rfl, rfl⟩

/-- an object with a value in the place of a password, and a remark -/
def remarked (j : Json) (remark : String) : Response :=
  ⟨some (.object [("remark", .string remark), ("value", j)])⟩

theorem holds_remarked (j : Json) (remark : String) : (remarked j remark).Holds j := ⟨_, rfl, rfl⟩

/-- a memory with one service over it -/
def served : Vault := (initial ⟨.generator 7⟩).after (.start .loopback)

/-- the same memory, where such an object is at the place of a password -/
def withPassword (j : Json) (remark : String) : Vault :=
  ((plant "app" "password" (remarked j remark)).run served).2

/-- a list of passwords is refused without a word of it -/
theorem read_error_iff_passwords :
    let v := withPassword (.array [.string "swordfish"]) "old"
    let w := withPassword (.array [.string "hunter2", .null]) "new"
    v.services.length = 1 ∧ ∃ e, ((read 0 "app" "password").run v).1 = .error e ∧
      ((read 0 "app" "password").run w).1 = .error e ∧
      ((read 0 "app" "password").run w).2.log = ((read 0 "app" "password").run v).2.log := by
  intro v w
  have hserved : served.HandlesFit := (handlesFit_initial ⟨.generator 7⟩).startService .loopback
  have hf : v.HandlesFit := hserved.congr rfl
  have he : ((read 0 "app" "password").run v).1
      = .error (.contractViolation "app" "password" (Response.refusal (.array []))) := rfl
  have hrivals : Rivals "app" "password" (remarked _ _) (remarked _ _) v w :=
    rivals_plant (v := served) trivial "app" "password" _ _
  obtain ⟨e', hw, herror, hlog⟩ :=
    read_error_iff hrivals hf (holds_remarked _ _) (holds_remarked _ _) rfl he
  obtain rfl := herror.2 (.inr rfl)
  exact ⟨rfl, _, he, hw, hlog.2 (.inr rfl)⟩

/-- a number is given away -/
theorem not_hidden_number :
    served.services.length = 1 ∧ (Json.nat 41).type = (Json.nat 42).type ∧
    ¬ ∀ e e', ((read 0 "app" "password").run (withPassword (.nat 41) "")).1 = .error e →
      ((read 0 "app" "password").run (withPassword (.nat 42) "")).1 = .error e' →
      e' = e ∧ ((read 0 "app" "password").run (withPassword (.nat 42) "")).2.log
        = ((read 0 "app" "password").run (withPassword (.nat 41) "")).2.log := by
  refine ⟨rfl, rfl, fun h => ?_⟩
  have he := (h (.contractViolation "app" "password" (Response.refusal (.nat 41)))
    (.contractViolation "app" "password" (Response.refusal (.nat 42))) rfl rfl).1
  have hm := Response.refusal_inj.1 (SecretError.contractViolation.inj he).2.2
  exact absurd hm (by decide)

end Vault

end Credentials
