import Credentials.Proofs.Secret.Twins

/-!
# Secrets are not to be seen

* `Vault.Given`            the ciphertexts that two runs have given for one path;
* `Vault.Call.Counterpart` two calls are the same but for the secrets that they are made with;
* `Vault.Counterparts`     so are two runs, call by call;
* `Vault.verdicts`         which calls succeed, and why the others fail;
* `Vault.Call.Counterpart.alike`   counterparts on twins succeed or fail alike, and leave twins;
* `Vault.secrets_unseen`   runs of counterparts log the same, and their calls succeed or fail alike.

A ciphertext is no secret, but it depends on one: where one run decrypts what it was given, the other one
decrypts what it was given itself at the same place. Both are good, since the key of a path stays.
-/

namespace Credentials.Vault

open Effect (Agree)

/-! ## runs with different secrets -/

/-- what one run and the other were given for one path -/
structure Given where
  path : String
  first : String
  second : String

/-- two calls of a service are the same but for strings, plaintexts of one length, tokens, and ciphertexts
that were given at the same place -/
inductive Call.Counterpart (given : List Given) : Call → Call → Prop
  | start {c d : VaultConfig} (h : c.SameButToken d) : Counterpart given (.start c) (.start d)
  | write (svc : Nat) (space key value value' : String) :
      Counterpart given (.write svc space key value) (.write svc space key value')
  | read (svc : Nat) (space key : String) : Counterpart given (.read svc space key) (.read svc space key)
  | encrypt (path : String) {m m' : Bytes} (h : m.length = m'.length) :
      Counterpart given (.encrypt path m) (.encrypt path m')
  | decrypt (path ciphertext : String) :
      Counterpart given (.decrypt path ciphertext) (.decrypt path ciphertext)
  | decryptGiven {g : Given} (h : g ∈ given) :
      Counterpart given (.decrypt g.path g.first) (.decrypt g.path g.second)

/-- what two encryptions give -/
def gained (v w : Vault) : Call → Call → List Given
  | .encrypt path m, .encrypt _ m' =>
    match ((encrypt path m).run v).1, ((encrypt path m').run w).1 with
    | .ok c, .ok d => [⟨path, c, d⟩]
    | _, _ => []
  | _, _ => []

/-- two runs are counterparts call by call, each pair of calls under the same fault plans -/
inductive Counterparts : List Given → Vault → Vault → List (Faults × Call) → List (Faults × Call) → Prop
  | nil (given : List Given) (v w : Vault) : Counterparts given v w [] []
  | cons {given : List Given} {v w : Vault} {c d : Call} {cs ds : List (Faults × Call)} (faults : Faults)
      (h : c.Counterpart given d)
      (hr : Counterparts (gained (v.withFaults faults) (w.withFaults faults) c d ++ given)
        ((v.withFaults faults).after c) ((w.withFaults faults).after d) cs ds) :
      Counterparts given v w ((faults, c) :: cs) ((faults, d) :: ds)

/-- whether something has succeeded, or why it has failed -/
def succeeded {α : Type} (r : Except SecretError α) : Except SecretError Unit := r.map fun _ => ()

/-- whether a call succeeds, or why it fails -/
def verdict (v : Vault) : Call → Except SecretError Unit
  | .start config => succeeded ((startService config).run v).1
  | .write svc space key value => succeeded ((write svc space key value).run v).1
  | .read svc space key => succeeded ((read svc space key).run v).1
  | .encrypt path plaintext => succeeded ((encrypt path plaintext).run v).1
  | .decrypt path ciphertext => succeeded ((decrypt path ciphertext).run v).1
  | .openSpace svc space => succeeded ((openSpace svc space).run v).1
  | .construct space engine => succeeded ((construct space engine).run v).1
  | .putThrough h key e => succeeded ((putThrough h key e).run v).1
  | .getThrough h key => succeeded ((getThrough h key).run v).1
  | .encryptTransit path plaintext => succeeded ((encryptTransit path plaintext).run v).1
  | .decryptTransit path ciphertext => succeeded ((decryptTransit path ciphertext).run v).1
  | .plant space key r => succeeded ((plant space key r).run v).1

/-- which of the calls succeed, one after another, and why the others fail -/
def verdicts (v : Vault) : List (Faults × Call) → List (Except SecretError Unit)
  | [] => []
  | (faults, c) :: cs => (v.withFaults faults).verdict c :: ((v.withFaults faults).after c).verdicts cs

/-! ## one step -/

variable {v w : Vault} {given : List Given}

theorem succeeded_eq_of_agree {α β : Type} {Q : α → β → Prop} {r : Except SecretError α}
    {s : Except SecretError β} (h : Agree Q r s) : succeeded r = succeeded s := by
  cases h with
  | ok _ => rfl
  | error e => rfl

/-- what was given for a path is good under the key that is there -/
def Opens (v : Vault) (given : List Given) : Prop :=
  ∀ g ∈ given, ∃ key, v.keyAt g.path = some key ∧
    (∃ m, Ciphertext.plaintext g.path (some key) g.first = .ok m) ∧
    ∃ m, Ciphertext.plaintext g.path (some key) g.second = .ok m

theorem Opens.after (h : v.Opens given) (hm : v.backend.kind = .memory) (c : Call) :
    (v.after c).Opens given := by
  intro g hg
  obtain ⟨key, hk, hopen⟩ := h g hg
  exact ⟨key, (keysAdded_after v c).keeps hm hk, hopen⟩

theorem Opens.agree (h : v.Opens given) {g : Given} (hg : g ∈ given) :
    Agree Unseen (Ciphertext.plaintext g.path (v.keyAt g.path) g.first)
      (Ciphertext.plaintext g.path (v.keyAt g.path) g.second) := by
  obtain ⟨key, hk, ⟨m, hm⟩, m', hm'⟩ := h g hg
  rw [hk, hm, hm']
  exact .ok trivial

/-- counterparts on twins succeed or fail alike, and leave twins -/
theorem Call.Counterpart.alike {c d : Call} (h : c.Counterpart given d) (ht : Twin v w)
    (hg : v.Opens given) : v.verdict c = w.verdict d ∧ Twin (v.after c) (w.after d) := by
  cases h with
  | start h =>
    obtain ⟨ho, hs⟩ := alike_startService h v w ht
    exact ⟨congrArg succeeded ho, hs⟩
  | write svc space key value value' =>
    obtain ⟨ho, hs⟩ := alike_write svc space key value value' v w ht
    exact ⟨congrArg succeeded ho, hs⟩
  | read svc space key =>
    obtain ⟨ho, hs⟩ := alike_read svc space key v w ht
    exact ⟨succeeded_eq_of_agree ho, hs⟩
  | encrypt path h =>
    obtain ⟨ho, hs⟩ := alike_encrypt path h v w ht
    exact ⟨succeeded_eq_of_agree ho, hs⟩
  | decrypt path ciphertext =>
    obtain ⟨ho, hs, -⟩ := alike_decrypt (.refl (fun _ => trivial) _) v w ⟨ht, rfl⟩
    exact ⟨succeeded_eq_of_agree ho, hs⟩
  | decryptGiven h =>
    obtain ⟨ho, hs, -⟩ := alike_decrypt (hg.agree h) v w ⟨ht, rfl⟩
    exact ⟨succeeded_eq_of_agree ho, hs⟩

/-- what counterparts are given is good from then on -/
theorem Call.Counterpart.opens_gained {c d : Call} (h : c.Counterpart given d) (ht : Twin v w)
    (hs : Twin (v.after c) (w.after d)) : (v.after c).Opens (gained v w c d) := by
  cases h with
  | @encrypt path m m' h =>
    intro g hg
    unfold gained at hg
    dsimp only at hg
    split at hg
    · rename_i c d hc hd
      obtain rfl := List.mem_singleton.1 hg
      obtain ⟨key, nonce, hl, -, hk, htext⟩ := ok_of_encrypt ht.memory (Or.inl rfl) hc
      obtain ⟨key', nonce', hl', -, hk', htext'⟩ := ok_of_encrypt ht.memory' (Or.inl rfl) hd
      -- the twin has drawn the same key
      have hsame := hs.keyAt path
      change ((Vault.encrypt path m').run w).2.keyAt path = ((Vault.encrypt path m).run v).2.keyAt path
        at hsame
      rw [hk, hk'] at hsame
      obtain rfl := Option.some.inj hsame
      exact ⟨_, hk, ⟨m, Ciphertext.plaintext_of_text? hl htext path⟩, m',
        Ciphertext.plaintext_of_text? hl' htext' path⟩
    · cases hg
  | _ => exact fun _ hg => absurd hg List.not_mem_nil

/-! ## whole runs -/

theorem Counterparts.alike {cs ds : List (Faults × Call)} (h : Counterparts given v w cs ds)
    (ht : Twin v w) (hg : v.Opens given) :
    v.verdicts cs = w.verdicts ds ∧ Twin (v.afterUnder cs) (w.afterUnder ds) := by
  induction h with
  | nil => exact ⟨rfl, ht⟩
  | @cons given v w c d cs ds faults h hr ih =>
    have htf := ht.withFaults faults
    obtain ⟨ho, hs⟩ := h.alike htf hg
    have hgained := h.opens_gained htf hs
    have hgiven := Opens.after (v := v.withFaults faults) hg ht.memory c
    obtain ⟨hos, hss⟩ := ih hs fun g hm => (List.mem_append.1 hm).elim (hgained g) (hgiven g)
    refine ⟨?_, hss⟩
    rw [verdicts, verdicts, ho, hos]

/-- Two runs of a service over a memory, with the same random octets and faults, that differ only in the
strings written, in plaintexts of one length, in tokens, and in ciphertexts that each was given at the
same place: they log the same entries, and their calls succeed or fail alike and for the same reasons.
Settings that differ in their tokens are shown and written alike. -/
theorem secrets_unseen (random : RandomStream) (cs ds : List (Faults × Call))
    (h : Counterparts [] (initial random) (initial random) cs ds) :
    ((initial random).afterUnder cs).log = ((initial random).afterUnder ds).log ∧
    (initial random).verdicts cs = (initial random).verdicts ds ∧
    ∀ c d : VaultConfig, c.SameButToken d → c.text = d.text ∧ c.toJson.text = d.toJson.text := by
  obtain ⟨ho, hs⟩ := h.alike (twin_initial random) fun _ hg => absurd hg List.not_mem_nil
  exact ⟨hs.log.symm, ho, fun c d hc => ⟨hc.hidden.1, congrArg Json.text hc.hidden.2⟩⟩

theorem memory_after (hm : v.backend.kind = .memory) (faults : Faults) (c : Call) :
    ((v.withFaults faults).after c).backend.kind = .memory := (keysAdded_after (v.withFaults faults) c hm).1

/-- without faults a service over a memory encrypts every message within the limit -/
theorem exists_ok_encrypt (hm : v.backend.kind = .memory) (path : String) {m : Bytes}
    (hw : Sealing.withinLimit m = true) : ∃ c, ((encrypt path m).run (v.withFaults [])).1 = .ok c := by
  obtain ⟨u, hb, hu, h, -⟩ := encrypt_run (v.withFaults []) path m
  rw [h]
  exact exists_ok_encryptTransit (by rw [hb]; exact hm) (by rw [hu]; rfl) path hw

/-- a service starts, writes, encrypts and decrypts, and then fails to read -/
def fiveCalls (token value : String) (m : Bytes) (ciphertext : String) : List (Faults × Call) :=
  [([], .start { VaultConfig.loopback with token := token }),
    ([], .write 0 "app" "password" value), ([], .encrypt "app" m), ([], .decrypt "app" ciphertext),
    ([("memory-kv-get", [⟨none, true⟩])], .read 0 "app" "password")]

/-- over any memory each of two runs can decrypt what it was given -/
theorem exists_counterparts (v : Vault) (hm : v.backend.kind = .memory) {token token' : String}
    (ht : Text.isBlankText token = Text.isBlankText token') (value value' : String) (m m' : Bytes)
    (hw : Sealing.withinLimit m = true) (hl : m.length = m'.length) :
    ∃ c d, Counterparts [] v v (fiveCalls token value m c) (fiveCalls token' value' m' d) := by
  have hok : ∀ token value m, Sealing.withinLimit m = true → ∃ c, ((encrypt "app" m).run
      ((((v.withFaults []).after (.start { VaultConfig.loopback with token := token })).withFaults
        []).after (.write 0 "app" "password" value)|>.withFaults [])).1 = .ok c := by
    intro token value m hw
    exact exists_ok_encrypt (memory_after (memory_after hm _ _) _ _) "app" hw
  have hw' : Sealing.withinLimit m' = true := by
    unfold Sealing.withinLimit at hw ⊢
    rwa [hl] at hw
  obtain ⟨c, hc⟩ := hok token value m hw
  obtain ⟨d, hd⟩ := hok token' value' m' hw'
  refine ⟨c, d, .cons _ (.start ⟨rfl, rfl, rfl, rfl, ht⟩) (.cons _ (.write _ _ _ _ _) ?_)⟩
  refine .cons _ (.encrypt _ hl) (.cons _ (.decryptGiven (g := ⟨"app", c, d⟩) ?_) ?_)
  · unfold gained
    simp only [hc, hd]
    exact List.mem_cons_self
  · exact .cons _ (.read _ _ _) (.nil _ _ _)

/-- two runs with different tokens, strings and plaintexts, each of which decrypts what it was given and
then fails to read -/
theorem secrets_unseen_five_calls :
    let v := initial ⟨.generator 7⟩
    ∃ c d, Counterparts [] v v (fiveCalls "root" "swordfish" [1, 2] c) (fiveCalls "guest" "" [3, 4] d) ∧
      (v.afterUnder (fiveCalls "root" "swordfish" [1, 2] c)).log
        = (v.afterUnder (fiveCalls "guest" "" [3, 4] d)).log ∧
      v.verdicts (fiveCalls "root" "swordfish" [1, 2] c) = v.verdicts (fiveCalls "guest" "" [3, 4] d) := by
  intro v
  obtain ⟨c, d, h⟩ := exists_counterparts v rfl (show Text.isBlankText "root" = Text.isBlankText "guest"
    by decide) "swordfish" "" [1, 2] [3, 4] rfl rfl
  obtain ⟨hlog, hverdicts, -⟩ := secrets_unseen _ _ _ h
  exact ⟨c, d, h, hlog, hverdicts⟩

end Credentials.Vault
