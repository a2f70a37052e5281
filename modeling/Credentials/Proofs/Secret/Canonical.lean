import Credentials.Proofs.Run.Outcome
import Credentials.Proofs.Secret.Transit
import Mathlib.Logic.ExistsUnique

/-!
# Nothing is decrypted but what encrypting would have written

* `Ciphertext.octets_eq_ok_iff`      octets have one written form;
* `Ciphertext.plaintext_eq_ok_iff`   a text reads as a plaintext if and only if it is the written form of
                                     a nonce and of the plaintext sealed under it;
* `Ciphertext.of_plaintext_error`    everything else is refused, as an operation of decrypting;
* `Vault.Canonical`                  a text is the one ciphertext of a nonce and a plaintext at a path;
* `Vault.decrypt_iff_canonical`      every vault that calls lead to decrypts these texts and no others.

The nonce comes first and has a fixed length, so the octets tell it. The rest is what the nonce and the
plaintext seal to, the tag included: no octet of it is free.
-/

namespace Credentials

namespace Ciphertext

theorem octets_eq_ok_iff {c : String} {bs : Bytes} : octets c = .ok bs ↔ c = write bs := by
  constructor
  · intro h
    unfold octets at h
    split at h
    · rename_i hp
      have hd := (Base64.decode_utf8_eq_ok_iff Base64.standard_lawful).1 (mapError_eq_ok_iff.1 h)
      have hc := List.prefix_iff_eq_append.1 (List.isPrefixOf_iff_prefix.1 hp)
      rw [← String.toList_inj, toList_write, ← hd, String.toList_ofList]
      exact hc.symm
    · cases h
  · rintro rfl
    exact octets_write bs

theorem write_injective {bs bs' : Bytes} (h : write bs = write bs') : bs = bs' := by
  have ho := octets_write bs
  rw [h, octets_write bs'] at ho
  exact (Except.ok.inj ho).symm

theorem of_octets_error {c : String} {e : SecretError} (h : octets c = .error e) :
    ∃ message, e = refuse message := by
  unfold octets at h
  split at h
  · obtain ⟨b, -, rfl⟩ := mapError_eq_error_iff.1 h
    exact ⟨_, rfl⟩
  · exact ⟨_, (Except.error.inj h).symm⟩

/-- a text reads as a plaintext if and only if it is the written form of a nonce and of the plaintext
sealed under it -/
theorem plaintext_eq_ok_iff {path c : String} {key : Option Bytes} {m : Bytes} :
    plaintext path key c = .ok m ↔
      ∃ k nonce, key = some k ∧ nonce.length = nonceSize ∧ text? k nonce m = some c := by
  constructor
  · intro h
    obtain ⟨bs, ho, h⟩ := bind_eq_ok_iff.1 h
    split at h
    · cases h
    rename_i hlen
    cases key with
    | none => cases h
    | some k =>
      have hn : (bs.take nonceSize).length = nonceSize :=
        List.length_take_of_le (Nat.le_of_not_lt hlen)
      refine ⟨k, bs.take nonceSize, rfl, hn, ?_⟩
      cases hopen : Sealing.open? k (bs.take nonceSize) (bs.drop nonceSize) with
      | none => simp only [hopen] at h; cases h
      | some m' =>
        simp only [hopen] at h
        obtain rfl := Except.ok.inj h
        unfold text?
        rw [Sealing.seal?_of_open? hn hopen, Option.map_some, List.take_append_drop,
          ← octets_eq_ok_iff.1 ho]
  · rintro ⟨k, nonce, rfl, hn, ht⟩
    exact plaintext_of_text? hn ht path

theorem of_plaintext_error {path c : String} {key : Option Bytes} {e : SecretError}
    (h : plaintext path key c = .error e) : ∃ message, e = refuse message := by
  rcases bind_eq_error_iff.1 h with ho | ⟨bs, -, h⟩
  · exact of_octets_error ho
  · split at h
    · exact ⟨_, (Except.error.inj h).symm⟩
    · cases key with
      | none => exact ⟨_, (Except.error.inj h).symm⟩
      | some k =>
        dsimp only at h
        split at h
        · cases h
        · exact ⟨_, (Except.error.inj h).symm⟩

end Ciphertext

namespace Vault

/-- a text is the ciphertext of a plaintext under a nonce and the key of a path -/
inductive Canonical (v : Vault) (path : String) (nonce m : Bytes) (c : String) : Prop where
  | mk {key sealed : Bytes} (keyed : v.keyAt path = some key) (size : nonce.length = 24)
    (seals : Sealing.seal? key nonce m = some sealed)
    (written : c = "vault:v1:" ++ Base64.encode Base64.standard (nonce ++ sealed))

variable {v : Vault} {path c c' : String} {nonce nonce' m m' : Bytes}

theorem canonical_iff : v.Canonical path nonce m c ↔
    ∃ key, v.keyAt path = some key ∧ nonce.length = Ciphertext.nonceSize ∧
      Ciphertext.text? key nonce m = some c := by
  constructor
  · rintro ⟨hk, hn, hs, rfl⟩
    exact ⟨_, hk, hn, by rw [Ciphertext.text?, hs]; rfl⟩
  · rintro ⟨key, hk, hn, ht⟩
    obtain ⟨sealed, hs, rfl⟩ := Option.map_eq_some_iff.1 ht
    exact ⟨hk, hn, hs, rfl⟩

theorem Canonical.text_eq (h : v.Canonical path nonce m c) (h' : v.Canonical path nonce m c') :
    c = c' := by
  obtain ⟨key, hk, -, ht⟩ := canonical_iff.1 h
  obtain ⟨key', hk', -, ht'⟩ := canonical_iff.1 h'
  rw [hk] at hk'
  obtain rfl := Option.some.inj hk'
  rw [ht] at ht'
  exact Option.some.inj ht'

/-- a ciphertext tells its nonce and, under the key of the path, its plaintext -/
theorem Canonical.parts_eq (h : v.Canonical path nonce m c) (h' : v.Canonical path nonce' m' c) :
    nonce = nonce' ∧ m = m' := by
  obtain ⟨hk, hn, hs, rfl⟩ := h
  obtain ⟨hk', hn', hs', hw⟩ := h'
  rw [hk] at hk'
  obtain rfl := Option.some.inj hk'
  -- both nonces have the same length, so the octets fall apart in the same place
  obtain ⟨rfl, rfl⟩ := List.append_inj (Ciphertext.write_injective hw) (hn.trans hn'.symm)
  have ho := Sealing.open?_of_seal? hn hs
  rw [Sealing.open?_of_seal? hn hs'] at ho
  exact ⟨rfl, (Option.some.inj ho).symm⟩

/-- Behind any calls and faults, and as long as decrypting itself is not made to fail, a vault decrypts a
text to a plaintext, through a service or not, if and only if the text is canonical for the plaintext
under some nonce; the nonce is then the only one. So different texts that are decrypted at a path differ
in their nonces or in their plaintexts. Any other text is refused as an operation of decrypting. -/
theorem decrypt_iff_canonical (random : RandomStream) (before : List (Faults × Call)) (faults : Faults)
    (hf : (faults.pass decryptSite).1 = false) (path : String) :
    let v := ((initial random).afterUnder before).withFaults faults
    (∀ (c : String) (opening : Act Bytes),
      (opening = decrypt path c ∨ opening = decryptTransit path c) →
      (∀ m, (opening.run v).1 = .ok m ↔ ∃! nonce, v.Canonical path nonce m c) ∧
      ((¬ ∃ nonce m, v.Canonical path nonce m c) →
        ∃ message, (opening.run v).1 = .error (.rejected "decrypt" message))) ∧
    ∀ c c' nonce nonce' m m', v.Canonical path nonce m c → v.Canonical path nonce' m' c' →
      c ≠ c' → nonce ≠ nonce' ∨ m ≠ m' := by
  intro v
  have hm : v.backend.kind = .memory := reachable_memory random before
  refine ⟨fun c opening ho => ?_, fun c c' nonce nonce' m m' h h' hne => ?_⟩
  · have hrun := run_decrypt hm hf ho
    have hok : ∀ m, (opening.run v).1 = .ok m ↔ ∃ nonce, v.Canonical path nonce m c := by
      intro m
      rw [hrun, Ciphertext.plaintext_eq_ok_iff]
      constructor
      · rintro ⟨key, nonce, hk, hn, ht⟩
        exact ⟨nonce, canonical_iff.2 ⟨key, hk, hn, ht⟩⟩
      · rintro ⟨nonce, h⟩
        obtain ⟨key, hk, hn, ht⟩ := canonical_iff.1 h
        exact ⟨key, nonce, hk, hn, ht⟩
    refine ⟨fun m => (hok m).trans ⟨?_, ExistsUnique.exists⟩, fun hno => ?_⟩
    · rintro ⟨nonce, h⟩
      exact ⟨nonce, h, fun nonce' h' => (h'.parts_eq h).1⟩
    · cases hr : (opening.run v).1 with
      | ok m =>
        obtain ⟨nonce, h⟩ := (hok m).1 hr
        exact absurd ⟨nonce, m, h⟩ hno
      | error e =>
        obtain ⟨message, rfl⟩ := Ciphertext.of_plaintext_error (hrun.symm.trans hr)
        exact ⟨message, rfl⟩
  · by_cases hn : nonce = nonce'
    · subst hn
      refine .inr fun hmm => hne ?_
      subst hmm
      exact h.text_eq h'
    · exact .inl hn

/-- two octets that were encrypted come with the only nonce that their ciphertext can have; three octets
in the same writing are too few and are refused -/
theorem decrypt_iff_canonical_short :
    let v := ((initial ⟨.generator 0⟩).afterUnder [([], .encryptTransit "app" [104, 105])]).withFaults []
    (Faults.pass [] decryptSite).1 = false ∧
    (∃ c, ((decrypt "app" c).run v).1 = .ok [104, 105] ∧ ∃! nonce, v.Canonical "app" nonce [104, 105] c) ∧
    ∃ message, ((decrypt "app" "vault:v1:AAAA").run v).1 = .error (.rejected "decrypt" message) := by
  intro v
  have hf : (Faults.pass [] decryptSite).1 = false := rfl
  have hread := (decrypt_iff_canonical ⟨.generator 0⟩
    [([], .encryptTransit "app" [104, 105])] [] hf "app").1
  obtain ⟨c, hc⟩ := exists_ok_encryptTransit (v := initial ⟨.generator 0⟩) rfl rfl "app"
    (m := [104, 105]) rfl
  obtain ⟨key, nonce, hn, hk, ht⟩ := ok_of_encryptTransit (v := initial ⟨.generator 0⟩) rfl hc
  have hcan : v.Canonical "app" nonce [104, 105] c := canonical_iff.2 ⟨key, hk, hn, ht⟩
  have hone : ∃! nonce, v.Canonical "app" nonce [104, 105] c :=
    ⟨nonce, hcan, fun nonce' h' => (h'.parts_eq hcan).1⟩
  refine ⟨hf, ⟨c, ((hread c _ (Or.inl rfl)).1 _).2 hone, hone⟩, (hread _ _ (Or.inl rfl)).2 ?_⟩
  rintro ⟨nonce', m, ⟨-, hsize, hs, hw⟩⟩
  have hshort : Ciphertext.write [0, 0, 0] = "vault:v1:AAAA" := by decide
  have hlen := congrArg List.length (Ciphertext.write_injective (hshort.trans hw))
  rw [List.length_append, hsize] at hlen
  simp only [List.length_cons, List.length_nil] at hlen
  omega

end Vault

end Credentials
