import Credentials.Proofs.Run.Moves
import Credentials.Proofs.Secret.Secrecy
import Mathlib.Data.List.Forall2

/-!
# Failures and the warnings about them

* `LogEntry.isWarning`      an event that warns;
* `Vault.Tells`             a warning tells of an error at a place;
* `Vault.Quiet`             nothing was logged that warns;
* `Vault.Warns`             a computation warns of its failure, once, and of nothing else;
* `Vault.Warns.bind`        so do two of them, one behind the other;
* `Vault.warns_openSpace`, `Vault.warns_encrypt`, `Vault.warns_write`, `Vault.warns_read`, …   the
                            operations of a service do;
* `Vault.complaints`        the failures of a run that are to be warned of;
* `Vault.warned_once`       in every run each of them is warned of once, in their order.

What the backend does on its own is quiet. A failure of it is looked at in one place on its way to the
caller: where a handle is opened, or behind that by the operation itself.
-/

namespace Credentials

namespace LogEntry

/-- an event that warns -/
def isWarning (e : LogEntry) : Bool := decide (e.kind = .event) && decide (e.level = .warn)

/-- the values of the fields of one name -/
def values (e : LogEntry) (name : String) : List String :=
  (e.fields.filter fun f => f.1 = name).map Prod.snd

end LogEntry

namespace Vault

/-- a warning tells of an error at a place, which is a field with its value -/
structure Tells (place : String × String) (e : SecretError) (entry : LogEntry) : Prop where
  warning : entry.isWarning = true
  error : entry.values "error" = [e.message]
  place : entry.values place.1 = [place.2]

/-- the entries that warn -/
def warnings (entries : List LogEntry) : List LogEntry := entries.filter LogEntry.isWarning

theorem warnings_append (es fs : List LogEntry) : warnings (es ++ fs) = warnings es ++ warnings fs :=
  List.filter_append es fs

variable {α β : Type} {place : String × String} {v w u : Vault}

/-! ## what the backend does is quiet -/

/-- entries were added to the log, and none of them warns -/
def Quiet (v w : Vault) : Prop := ∃ entries, w.log = entries ++ v.log ∧ warnings entries = []

theorem quiet_of_log (h : w.log = v.log) : Quiet v w := ⟨[], h, rfl⟩

theorem Quiet.trans (h : Quiet v w) (h' : Quiet w u) : Quiet v u := by
  obtain ⟨es, hw, he⟩ := h
  obtain ⟨fs, hu, hf⟩ := h'
  refine ⟨fs ++ es, ?_, ?_⟩
  · rw [hu, hw, List.append_assoc]
  · rw [warnings_append, he, hf]
    rfl

instance : Std.Refl Quiet := ⟨fun _ => quiet_of_log rfl⟩

instance : Trans Quiet Quiet Quiet := ⟨Quiet.trans⟩

theorem quiet_note {e : LogEntry} (h : e.isWarning = false) : (note e).Moves Quiet := by
  refine Effect.moves_modify fun v => ⟨[e], rfl, ?_⟩
  unfold warnings
  rw [List.filter_cons_of_neg (by rw [h]; exact Bool.false_ne_true), List.filter_nil]

theorem quiet_modify {f : Vault → Vault} (h : ∀ v, (f v).log = v.log) :
    (Effect.modify f : Act Unit).Moves Quiet := Effect.moves_modify fun v => quiet_of_log (h v)

theorem quiet_draw (n : Nat) : (draw n).Moves Quiet :=
  Effect.moves_modifyGet fun _ => quiet_of_log rfl

theorem quiet_passSite (site : String) : (passSite site).Moves Quiet :=
  moves_passSite (fun _ _ => quiet_of_log rfl) site

theorem quiet_encryptTransit (path : String) (m : Bytes) : (encryptTransit path m).Moves Quiet := by
  have hkey : (transitKey path).Moves Quiet :=
    moves_transitKey (quiet_note rfl) quiet_draw fun _ => quiet_modify fun _ => rfl
  exact moves_encryptTransit quiet_passSite quiet_draw hkey m

theorem quiet_decryptTransit (path ciphertext : String) : (decryptTransit path ciphertext).Moves Quiet :=
  moves_decryptTransit quiet_passSite path ciphertext

theorem quiet_construct (space : String) (engine : Engine) : (construct space engine).Moves Quiet := by
  have hnew : (newHandle space engine).Moves Quiet := Effect.moves_modifyGet fun _ => quiet_of_log rfl
  refine moves_construct (fun _ => quiet_modify fun _ => rfl) hnew ?_
  refine Effect.moves_bind (quiet_passSite _) fun _ => ?_
  exact Effect.moves_bind (quiet_modify fun _ => rfl) fun _ => hnew

theorem quiet_putThrough (h : Handle) (key : String) (e : Envelope) : (putThrough h key e).Moves Quiet := by
  refine Effect.moves_bind Effect.moves_get fun v => ?_
  split
  · exact quiet_modify fun _ => rfl
  · exact Effect.moves_bind (quiet_passSite _) fun _ => quiet_modify fun _ => rfl

theorem quiet_getThrough (h : Handle) (key : String) : (getThrough h key).Moves Quiet :=
  moves_getThrough quiet_passSite h key

theorem quiet_startService (config : VaultConfig) : (startService config).Moves Quiet :=
  Effect.moves_bind (Effect.moves_ofExcept _) fun _ =>
    Effect.moves_bind (quiet_note rfl) fun _ => quiet_modify fun _ => rfl

/-! ## what a service does warns of its failures -/

/-- the warnings that go with an outcome: none with a success, and one with a failure, which tells of it -/
def Reported (place : String × String) (r : Except SecretError α) (ws : List LogEntry) : Prop :=
  match r with
  | .ok _ => ws = []
  | .error e => ∃ entry, ws = [entry] ∧ Tells place e entry

/-- a step from one vault to another has logged the warnings that go with its outcome, and no others -/
def Warned (place : String × String) (v : Vault) (step : Except SecretError α × Vault) : Prop :=
  ∃ entries, step.2.log = entries ++ v.log ∧ Reported place step.1 (warnings entries)

/-- a computation warns of its failure, once, and of nothing else -/
def Warns (place : String × String) (x : Act α) : Prop := ∀ v, Warned place v (x.run v)

theorem warns_pure (a : α) : Warns place (pure a : Act α) := fun _ => ⟨[], rfl, rfl⟩

theorem warns_get : Warns place (Effect.get : Act Vault) := fun _ => ⟨[], rfl, rfl⟩

theorem warns_modify {f : Vault → Vault} (h : ∀ v, (f v).log = v.log) :
    Warns place (Effect.modify f : Act Unit) := fun v => ⟨[], h v, rfl⟩

theorem warns_note {e : LogEntry} (h : e.isWarning = false) : Warns place (note e) := quiet_note h

/-- whichever of two steps fails has warned of it, and the other one has not -/
theorem Warns.bind {x : Act α} {f : α → Act β} (hx : Warns place x) (hf : ∀ a, Warns place (f a)) :
    Warns place (x >>= f) := by
  intro v
  obtain ⟨es, hlog, hr⟩ := hx v
  cases hres : (x.run v).1 with
  | ok a =>
    obtain ⟨fs, hlog', hr'⟩ := hf a (x.run v).2
    rw [hres] at hr
    rw [Effect.run_bind_of_ok hres]
    refine ⟨fs ++ es, ?_, ?_⟩
    · rw [hlog', hlog, List.append_assoc]
    · rw [warnings_append, show warnings es = [] from hr, List.append_nil]
      exact hr'
  | error e =>
    rw [hres] at hr
    rw [Effect.run_bind_of_error hres]
    exact ⟨es, hlog, hr⟩

/-- what is quiet and looked at warns -/
theorem warns_orNote {x : Act α} (hx : x.Moves Quiet) {entry : SecretError → LogEntry}
    (he : ∀ e, Tells place e (entry e)) : Warns place (orNote x entry) := by
  intro v
  obtain ⟨es, hlog, hw⟩ := hx v
  unfold orNote
  cases hres : (x.run v).1 with
  | ok a =>
    rw [Effect.run_onFailure_of_ok hres]
    refine ⟨es, hlog, ?_⟩
    rw [hres]
    exact hw
  | error e =>
    rw [Effect.run_onFailure_of_error hres]
    refine ⟨entry e :: es, congrArg _ hlog, entry e, ?_, he e⟩
    unfold warnings at hw ⊢
    rw [List.filter_cons_of_pos (he e).warning, hw]

theorem tells_keyFailed (name space key : String) (e : SecretError) :
    Tells ("namespace", space) e (keyFailed name space key e) := ⟨rfl, rfl, rfl⟩

theorem warns_openSpace (svc : Nat) (space : String) : Warns ("namespace", space) (openSpace svc space) := by
  refine warns_get.bind fun v => ?_
  dsimp only
  split
  · exact warns_pure _
  · refine (warns_orNote (quiet_construct _ _) fun e => ⟨rfl, rfl, rfl⟩).bind fun h => ?_
    refine (warns_note rfl).bind fun _ => ?_
    exact (warns_modify fun _ => rfl).bind fun _ => warns_pure _

theorem warns_encrypt (path : String) (m : Bytes) : Warns ("transit_path", path) (encrypt path m) :=
  (warns_note rfl).bind fun _ => warns_orNote (quiet_encryptTransit path m) fun _ => ⟨rfl, rfl, rfl⟩

theorem warns_decrypt (path ciphertext : String) :
    Warns ("transit_path", path) (decrypt path ciphertext) :=
  (warns_note rfl).bind fun _ => warns_orNote (quiet_decryptTransit path ciphertext)
    fun _ => ⟨rfl, rfl, rfl⟩

theorem warns_write (svc : Nat) (space key value : String) :
    Warns ("namespace", space) (write svc space key value) :=
  (warns_note rfl).bind fun _ => (warns_openSpace svc space).bind fun h =>
    warns_orNote (quiet_putThrough h key _) (tells_keyFailed _ space key)

theorem warns_read (svc : Nat) (space key : String) : Warns ("namespace", space) (read svc space key) := by
  refine (warns_note rfl).bind fun _ => ?_
  refine (warns_openSpace svc space).bind fun h => ?_
  refine (warns_orNote (quiet_getThrough h key) (tells_keyFailed _ space key)).bind fun response => ?_
  cases response with
  | none => exact (warns_note rfl).bind fun _ => warns_pure _
  | some r =>
    exact (warns_orNote (Effect.moves_ofExcept _) (tells_keyFailed _ space key)).bind
      fun _ => warns_pure _

/-! ## whole runs -/

/-- the place that a call on a service names in its warnings; the backend on its own has none -/
def Call.place? : Call → Option (String × String)
  | .write _ space _ _ | .read _ space _ | .openSpace _ space => some ("namespace", space)
  | .encrypt path _ | .decrypt path _ => some ("transit_path", path)
  | _ => none

/-- the failure of a call that is to be warned of, with its place -/
def Call.complaint (c : Call) (r : Except SecretError Unit) : List ((String × String) × SecretError) :=
  match c.place?, r with
  | some place, .error e => [(place, e)]
  | _, _ => []

/-- the failures of a run that are to be warned of, with their places -/
def complaints (v : Vault) : List (Faults × Call) → List ((String × String) × SecretError)
  | [] => []
  | (faults, c) :: cs =>
    c.complaint ((v.withFaults faults).verdict c) ++ ((v.withFaults faults).after c).complaints cs

/-- warnings tell of failures, one by one -/
def TellAll (fs : List ((String × String) × SecretError)) (ws : List LogEntry) : Prop :=
  List.Forall₂ (fun f entry => Tells f.1 f.2 entry) fs ws

variable {c : Call}

theorem tellAll_of_warned {step : Except SecretError α × Vault} (hp : c.place? = some place)
    (h : Warned place v step) : ∃ entries, step.2.log = entries ++ v.log ∧
      TellAll (c.complaint (succeeded step.1)) (warnings entries).reverse := by
  obtain ⟨entries, hlog, hr⟩ := h
  refine ⟨entries, hlog, ?_⟩
  unfold Call.complaint
  rw [hp]
  cases hs : step.1 with
  | ok a =>
    rw [hs] at hr
    rw [show warnings entries = [] from hr]
    exact .nil
  | error e =>
    rw [hs] at hr
    obtain ⟨entry, hw, ht⟩ := hr
    rw [hw]
    exact .cons ht .nil

theorem tellAll_of_quiet (hp : c.place? = none) (h : Quiet v w) (r : Except SecretError Unit) :
    ∃ entries, w.log = entries ++ v.log ∧ TellAll (c.complaint r) (warnings entries).reverse := by
  obtain ⟨entries, hlog, hw⟩ := h
  refine ⟨entries, hlog, ?_⟩
  unfold Call.complaint
  rw [hp, hw]
  exact .nil

/-- what a call logs tells of its failure, if that is to be warned of -/
theorem tellAll_after (v : Vault) (c : Call) : ∃ entries, (v.after c).log = entries ++ v.log ∧
    TellAll (c.complaint (v.verdict c)) (warnings entries).reverse := by
  cases c with
  | start config => exact tellAll_of_quiet rfl (quiet_startService config v) _
  | write svc space key value => exact tellAll_of_warned rfl (warns_write svc space key value v)
  | read svc space key => exact tellAll_of_warned rfl (warns_read svc space key v)
  | encrypt path m => exact tellAll_of_warned rfl (warns_encrypt path m v)
  | decrypt path ciphertext => exact tellAll_of_warned rfl (warns_decrypt path ciphertext v)
  | openSpace svc space => exact tellAll_of_warned rfl (warns_openSpace svc space v)
  | construct space engine => exact tellAll_of_quiet rfl (quiet_construct space engine v) _
  | putThrough h key e => exact tellAll_of_quiet rfl (quiet_putThrough h key e v) _
  | getThrough h key => exact tellAll_of_quiet rfl (quiet_getThrough h key v) _
  | encryptTransit path m => exact tellAll_of_quiet rfl (quiet_encryptTransit path m v) _
  | decryptTransit path ciphertext =>
    exact tellAll_of_quiet rfl (quiet_decryptTransit path ciphertext v) _
  | plant space key r => exact tellAll_of_quiet rfl (quiet_of_log rfl) _

/-- the warnings of a run tell of its failures, in their order -/
theorem tellAll_afterUnder (v : Vault) (cs : List (Faults × Call)) :
    ∃ entries, (v.afterUnder cs).log = entries ++ v.log ∧
      TellAll (v.complaints cs) (warnings entries).reverse := by
  induction cs generalizing v with
  | nil => exact ⟨[], rfl, .nil⟩
  | cons call cs ih =>
    obtain ⟨faults, c⟩ := call
    obtain ⟨es, hlog, htell⟩ := tellAll_after (v.withFaults faults) c
    obtain ⟨fs, hlog', htell'⟩ := ih ((v.withFaults faults).after c)
    refine ⟨fs ++ es, ?_, ?_⟩
    · show (((v.withFaults faults).after c).afterUnder cs).log = _
      rw [hlog', hlog, List.append_assoc]
      rfl
    · rw [warnings_append, List.reverse_append]
      exact List.rel_append htell htell'

/-- In every run, over whatever backend, with whatever fault plans and planted responses, each operation
of a service that fails logs one warning, with the wording of the error that is answered and the path or
the namespace of the call, and one that succeeds logs none. So the warnings of the run are its failures,
in their order. -/
theorem warned_once (v : Vault) (cs : List (Faults × Call)) :
    (∀ faults, let u := (v.afterUnder cs).withFaults faults
      (∀ path m, Warned ("transit_path", path) u ((encrypt path m).run u)) ∧
      (∀ path ciphertext, Warned ("transit_path", path) u ((decrypt path ciphertext).run u)) ∧
      (∀ svc space key value, Warned ("namespace", space) u ((write svc space key value).run u)) ∧
      ∀ svc space key, Warned ("namespace", space) u ((read svc space key).run u)) ∧
    ∃ entries, (v.afterUnder cs).log = entries ++ v.log ∧
      TellAll (v.complaints cs) (warnings entries).reverse := by
  refine ⟨fun faults => ⟨?_, ?_, ?_, ?_⟩, tellAll_afterUnder v cs⟩
  · intro path m
    exact warns_encrypt path m _
  · intro path ciphertext
    exact warns_decrypt path ciphertext _
  · intro svc space key value
    exact warns_write svc space key value _
  · intro svc space key
    exact warns_read svc space key _

/-- a handle that cannot be made, and a response without data behind one that can -/
example : (warnings ((initial ⟨.generator 7⟩).afterUnder [([], .start .loopback),
      ([("memory-backend-kv-handle", [⟨none, true⟩])], .write 0 "app" "password" "swordfish"),
      ([], .plant "app" "password" ⟨none⟩), ([], .read 0 "app" "password")]).log).map LogEntry.name
    = ["malformed key-value response", "failed to create key-value handle"] := by decide

end Vault

end Credentials
