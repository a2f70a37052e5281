import Credentials.Secret.Service

/-!
# Settings that a service is started with

* `VaultConfig.Follows`            what follows the scheme of a web address;
* `VaultConfig.hostOf`             the host of what follows it;
* `VaultConfig.Sound`              an address, a token and limits that can be used;
* `VaultConfig.Usable`             so that the address names a host;
* `VaultConfig.HostOverlooked`     so that it names none, and has more than slashes in its place;
* `VaultConfig.validate_eq_ok_iff` what the check of settings comes to;
* `VaultConfig.accepted_iff`       settings of the last two kinds are accepted, and no others.

The check looks at all that follows the scheme and takes it for a host if anything but slashes is in it.
A path, a query or a fragment will do.
-/

namespace Credentials

namespace VaultConfig

/-- this follows the scheme of a web address -/
def Follows (uri : String) (rest : List Char) : Prop :=
  uri.toList = "https://".toList ++ rest ∨ uri.toList = "http://".toList ++ rest

/-- the host of what follows the scheme: it ends with the first slash, question mark or number sign -/
def hostOf (rest : List Char) : List Char := rest.takeWhile fun ch => decide (ch ∉ ['/', '?', '#'])

/-- a web address with a host in this sense, a token that is not blank, and two limits -/
structure Sound (named : List Char → Prop) (c : VaultConfig) : Prop where
  address : ∃ rest, Follows c.uri rest ∧ named rest
  token : ∃ ch ∈ c.token.toList, Text.isBlank ch = false
  connectTimeout : c.connectTimeout ≠ .zero
  readTimeout : c.readTimeout ≠ .zero

/-- settings whose address names a host -/
def Usable (c : VaultConfig) : Prop := c.Sound fun rest => hostOf rest ≠ []

/-- settings whose address names none, but has more than slashes behind its scheme -/
def HostOverlooked (c : VaultConfig) : Prop :=
  c.Sound fun rest => hostOf rest = [] ∧ ∃ ch ∈ rest, ch ≠ '/'

/-! ## the parts of the check -/

theorem after?_eq_some_iff {start cs rest : List Char} :
    after? start cs = some rest ↔ cs = start ++ rest := by
  unfold after?
  constructor
  · intro h
    split at h
    · rename_i hp
      obtain ⟨more, rfl⟩ := List.isPrefixOf_iff_prefix.1 hp
      obtain rfl := Option.some.inj h
      rw [List.drop_left]
    · cases h
  · rintro rfl
    rw [if_pos (List.isPrefixOf_iff_prefix.2 (List.prefix_append start rest)), List.drop_left]

theorem afterScheme?_eq_some_iff {uri : String} {rest : List Char} :
    afterScheme? uri = some rest ↔ Follows uri rest := by
  unfold afterScheme? Follows
  rw [← after?_eq_some_iff, ← after?_eq_some_iff]
  constructor
  · intro h
    split at h
    · rename_i r hr
      exact .inl (hr.trans h)
    · exact .inr h
  · rintro (h | h)
    · rw [h]
    · -- an address has one scheme only
      have hnone : after? "https://".toList uri.toList = none := by
        rw [after?_eq_some_iff.1 h]
        rfl
      rw [hnone]
      exact h

theorem all_slashes_eq_false_iff {rest : List Char} :
    rest.all (· == '/') = false ↔ ∃ ch ∈ rest, ch ≠ '/' := by
  rw [List.all_eq_false]
  simp only [beq_iff_eq, ne_eq]

/-- where a host is named, there is more than slashes -/
theorem exists_ne_slash_of_hostOf {rest : List Char} (h : hostOf rest ≠ []) :
    ∃ ch ∈ rest, ch ≠ '/' := by
  cases rest with
  | nil => exact absurd rfl h
  | cons ch r =>
    refine ⟨ch, List.mem_cons_self, ?_⟩
    rintro rfl
    exact h rfl

theorem isBlankText_eq_false_iff {s : String} :
    Text.isBlankText s = false ↔ ∃ ch ∈ s.toList, Text.isBlank ch = false := by
  unfold Text.isBlankText
  rw [List.all_eq_false]
  simp only [Bool.not_eq_true]

theorem isZero_eq_false_iff {s : Span} : s.isZero = false ↔ s ≠ .zero := by
  have h : s.isZero = true ↔ s = .zero := by
    unfold Span.isZero
    rw [Bool.and_eq_true, beq_iff_eq, beq_iff_eq]
    exact (Span.ext_iff (y := .zero)).symm
  rw [← Bool.not_eq_true, h]

/-- settings with nothing wrong so far, and nothing wrong in what is left -/
theorem refuse_eq_ok_iff {wrong : Bool} {m : String} {left : Except SecretError Unit} :
    (if wrong then .error (.configuration m) else left) = .ok () ↔ wrong = false ∧ left = .ok () := by
  cases wrong with
  | false => exact ⟨fun h => ⟨rfl, h⟩, fun h => h.2⟩
  | true =>
    constructor
    · intro h
      cases h
    · intro h
      cases h.1

/-! ## the check -/

theorem validate_eq_ok_iff {c : VaultConfig} :
    c.validate = .ok () ↔ c.Sound fun rest => ∃ ch ∈ rest, ch ≠ '/' := by
  unfold validate
  cases hscheme : afterScheme? c.uri with
  | none =>
    constructor
    · intro h
      cases h
    · rintro ⟨⟨rest, hrest, -⟩, -⟩
      rw [afterScheme?_eq_some_iff.2 hrest] at hscheme
      cases hscheme
  | some rest =>
    have hfollows := afterScheme?_eq_some_iff.1 hscheme
    dsimp only
    rw [refuse_eq_ok_iff, refuse_eq_ok_iff, refuse_eq_ok_iff, refuse_eq_ok_iff,
      all_slashes_eq_false_iff, isBlankText_eq_false_iff, isZero_eq_false_iff, isZero_eq_false_iff]
    constructor
    · rintro ⟨hhost, htoken, hconnect, hread, -⟩
      exact ⟨⟨rest, hfollows, hhost⟩, htoken, hconnect, hread⟩
    · rintro ⟨⟨other, hother, hhost⟩, htoken, hconnect, hread⟩
      rw [afterScheme?_eq_some_iff.2 hother] at hscheme
      obtain rfl := Option.some.inj hscheme
      exact ⟨hhost, htoken, hconnect, hread, rfl⟩

theorem refuse_eq_ok_or {wrong : Bool} {m : String} {left : Except SecretError Unit}
    (h : left = .ok () ∨ ∃ n, left = .error (.configuration n)) :
    (if wrong then .error (.configuration m) else left) = .ok () ∨
      ∃ n, (if wrong then .error (.configuration m) else left) = .error (.configuration n) := by
  cases wrong with
  | false => exact h
  | true => exact .inr ⟨m, rfl⟩

/-- nothing is wrong, or settings are refused as such -/
theorem validate_eq_ok_or (c : VaultConfig) :
    c.validate = .ok () ∨ ∃ m, c.validate = .error (.configuration m) := by
  unfold validate
  cases afterScheme? c.uri with
  | none => exact .inr ⟨_, rfl⟩
  | some rest =>
    apply refuse_eq_ok_or
    apply refuse_eq_ok_or
    apply refuse_eq_ok_or
    apply refuse_eq_ok_or
    exact .inl rfl

/-- what is accepted as a host is one, or none is there -/
theorem sound_iff {c : VaultConfig} :
    (c.Sound fun rest => ∃ ch ∈ rest, ch ≠ '/') ↔ c.Usable ∨ c.HostOverlooked := by
  constructor
  · rintro ⟨⟨rest, hrest, hhost⟩, htoken, hconnect, hread⟩
    by_cases h : hostOf rest = []
    · exact .inr ⟨⟨rest, hrest, h, hhost⟩, htoken, hconnect, hread⟩
    · exact .inl ⟨⟨rest, hrest, h⟩, htoken, hconnect, hread⟩
  · intro h
    rcases h with h | h
    · obtain ⟨⟨rest, hrest, hhost⟩, htoken, hconnect, hread⟩ := h
      exact ⟨⟨rest, hrest, exists_ne_slash_of_hostOf hhost⟩, htoken, hconnect, hread⟩
    · obtain ⟨⟨rest, hrest, -, hhost⟩, htoken, hconnect, hread⟩ := h
      exact ⟨⟨rest, hrest, hhost⟩, htoken, hconnect, hread⟩

/-- settings are accepted, by themselves, as they are built and by a service that is started with them,
iff they are usable or their missing host is overlooked; if they are not, all three refuse them, and the
vault stays as it is -/
theorem accepted_iff (c : VaultConfig) :
    (c.Usable ∨ c.HostOverlooked ↔ c.validate = .ok () ∧ c.build = .ok c ∧
      ∀ v, ((Vault.startService c).run v).1 = .ok ()) ∧
    (¬ (c.Usable ∨ c.HostOverlooked) ↔ ∃ m, c.validate = .error (.configuration m) ∧
      c.build = .error (.configuration m) ∧
      ∀ v, (Vault.startService c).run v = (.error (.configuration m), v)) := by
  rw [← sound_iff, ← validate_eq_ok_iff]
  refine ⟨⟨fun h => ?_, fun h => h.1⟩, fun h => ?_, ?_⟩
  · refine ⟨h, ?_, fun v => ?_⟩
    · unfold build
      rw [h]
      rfl
    · unfold Vault.startService
      rw [h]
      rfl
  · obtain ⟨m, hm⟩ := c.validate_eq_ok_or.resolve_left h
    refine ⟨m, hm, ?_, fun v => ?_⟩
    · unfold build
      rw [hm]
      rfl
    · unfold Vault.startService
      rw [hm]
      rfl
  · rintro ⟨m, hm, -⟩ h
    rw [hm] at h
    cases h

/-- settings with a path where the host should be -/
def pathOnly : VaultConfig :=
  ⟨"https:///v1", "root", .default, defaultConnectTimeout, defaultReadTimeout⟩

theorem pathOnly_accepted : pathOnly.validate = .ok () ∧ ¬ pathOnly.Usable := by
  refine ⟨rfl, ?_⟩
  rintro ⟨⟨rest, hrest, hhost⟩, -⟩
  have hscheme : afterScheme? "https:///v1" = some ['/', 'v', '1'] := by decide
  obtain rfl := Option.some.inj (hscheme.symm.trans (afterScheme?_eq_some_iff.2 hrest))
  exact hhost rfl

end VaultConfig

end Credentials
