import Credentials.Proofs.Bytes.Base64
import Credentials.Text.Form
import Mathlib.Logic.Function.Basic

/-!
# Form encoding is read back, and joins as texts do

* `Form.Plain`                the characters that stand for themselves;
* `Form.decode_encode`        a written form reads as the octets of the text it was written for;
* `Form.encode_injective`     no two texts have the same written form;
* `Form.plain_of_mem_encode`  a written form has plain characters, `%` and `+` in it, and no others;
* `Form.encode_append`        the written form of a joined text;
* `Form.encode_eq_self_iff`   the texts that are their own written form.

The two signs that a reader gives a meaning to, `%` and `+`, are written in digits themselves. So what
an octet was written as is read as this octet, whatever stands behind it.
-/

namespace Credentials.Form

/-! ## plain characters -/

/-- letters and digits, and the four signs that are written as they are -/
def Plain (c : Char) : Prop :=
  ('A' ≤ c ∧ c ≤ 'Z') ∨ ('a' ≤ c ∧ c ≤ 'z') ∨ ('0' ≤ c ∧ c ≤ '9') ∨ c ∈ ['-', '.', '_', '*']

instance : DecidablePred Plain := fun c =>
  inferInstanceAs (Decidable (('A' ≤ c ∧ c ≤ 'Z') ∨ _))

variable {c : Char}

theorem isPlain_iff : isPlain c = true ↔ Plain c := by
  have hupper : c.isUpper = decide ('A' ≤ c ∧ c ≤ 'Z') := rfl
  have hlower : c.isLower = (decide ('a' ≤ c) && decide (c ≤ 'z')) := rfl
  have hdigit : c.isDigit = (decide ('0' ≤ c) && decide (c ≤ '9')) := rfl
  have hletter : c.isAlphanum = ((c.isUpper || c.isLower) || c.isDigit) := rfl
  simp only [isPlain, Plain, hletter, hupper, hlower, hdigit, Bool.or_eq_true, Bool.and_eq_true,
    decide_eq_true_eq, beq_iff_eq, List.mem_cons, List.not_mem_nil, or_false, or_assoc]

theorem Plain.toNat_lt (h : Plain c) : c.toNat < 128 := by
  have hbelow : ∀ d : Char, d.toNat < 128 → c ≤ d → c.toNat < 128 := fun d hd hle =>
    Nat.lt_of_le_of_lt hle hd
  rcases h with h | h | h | h
  · exact hbelow 'Z' (by decide) h.2
  · exact hbelow 'z' (by decide) h.2
  · exact hbelow '9' (by decide) h.2
  · simp only [List.mem_cons, List.not_mem_nil, or_false] at h
    rcases h with rfl | rfl | rfl | rfl
    all_goals decide

/-! ## written octets read back -/

theorem value?_digit : ∀ n < 16, Hex.value? (digit n) = some n := by decide

theorem plain_digit : ∀ n < 16, Plain (digit n) := by decide

/-- a plain character is read as its octet -/
theorem decodeChars_plain (h : Plain c) (r : List Char) :
    decodeChars (c :: r) = asciiByte c :: decodeChars r := by
  have hplus : c ≠ '+' := fun e => absurd (e ▸ h) (by decide)
  have hpercent : c ≠ '%' := fun e => absurd (e ▸ h) (by decide)
  have hoctets : utf8 (String.singleton c) = [asciiByte c] := by
    rw [String.singleton_eq_ofList, utf8_ofList, List.flatMap_singleton,
      utf8EncodeChar_of_ascii h.toNat_lt]
  rw [decodeChars, hoctets]
  · rfl
  · exact hplus
  · intro _ _ _ e
    exact absurd e hpercent

/-- what an octet was written as is read as this octet, whatever stands behind it -/
theorem decodeChars_octet (b : UInt8) (r : List Char) :
    decodeChars (octet b ++ r) = b :: decodeChars r := by
  have hb := b.toNat_lt
  have hchar : asciiByte (Char.ofNat b.toNat) = b := by
    rw [asciiByte, Base64.toNat_ofNat hb, UInt8.ofNat_toNat]
  unfold octet
  dsimp only
  split
  · rename_i h
    rw [List.singleton_append, decodeChars_plain (isPlain_iff.1 h), hchar]
  split
  · rename_i h
    rw [← hchar, h]
    rfl
  · show decodeChars ('%' :: digit (b.toNat / 16) :: digit (b.toNat % 16) :: r) = _
    rw [decodeChars, value?_digit _ (by omega), value?_digit _ (by omega)]
    show UInt8.ofNat (b.toNat / 16 * 16 + b.toNat % 16) :: _ = _
    rw [Nat.div_add_mod', UInt8.ofNat_toNat]

/-- a written form reads as the octets of its text -/
theorem decode_encode (s : String) : decode (encode s) = utf8 s := by
  unfold decode encode
  rw [String.toList_ofList]
  induction utf8 s with
  | nil => rfl
  | cons b bs ih => rw [List.flatMap_cons, decodeChars_octet, ih]

example : encode "a b+ü" = "a+b%2B%C3%BC" ∧ decode "a+b%2B%C3%BC" = utf8 "a b+ü" := by decide

/-- no two texts have the same written form -/
theorem encode_injective : Function.Injective encode := by
  intro s t h
  have hoctets := congrArg decode h
  rw [decode_encode, decode_encode] at hoctets
  exact utf8_injective hoctets

theorem encode_ne_empty {s : String} (h : s ≠ "") : encode s ≠ "" := by
  show encode s ≠ encode ""
  exact encode_injective.ne h

/-! ## what is written -/

theorem plain_of_mem_octet {b : UInt8} (h : c ∈ octet b) : Plain c ∨ c = '%' ∨ c = '+' := by
  have hb := b.toNat_lt
  unfold octet at h
  dsimp only at h
  split at h
  · rename_i hp
    rw [List.mem_singleton.1 h]
    exact Or.inl (isPlain_iff.1 hp)
  split at h
  · exact Or.inr (Or.inr (List.mem_singleton.1 h))
  · simp only [List.mem_cons, List.not_mem_nil, or_false] at h
    rcases h with rfl | rfl | rfl
    · exact Or.inr (Or.inl rfl)
    · exact Or.inl (plain_digit _ (by omega))
    · exact Or.inl (plain_digit _ (by omega))

/-- a written form has plain characters, `%` and `+` in it, and no others -/
theorem plain_of_mem_encode {s : String} (h : c ∈ (encode s).toList) : Plain c ∨ c = '%' ∨ c = '+' := by
  rw [encode, String.toList_ofList] at h
  obtain ⟨b, -, hc⟩ := List.mem_flatMap.1 h
  exact plain_of_mem_octet hc

/-- the written form of a joined text -/
theorem encode_append (s t : String) : encode (s ++ t) = encode s ++ encode t := by
  unfold encode
  rw [utf8_append, List.flatMap_append, String.ofList_append]

/-! ## texts that are their own written form -/

/-- how a character is written: its octets, one after another -/
def written (c : Char) : List Char := (String.utf8EncodeChar c).flatMap octet

theorem toList_encode (s : String) : (encode s).toList = s.toList.flatMap written := by
  have hoctets : utf8 s = s.toList.flatMap String.utf8EncodeChar := by
    rw [← utf8_ofList, String.ofList_toList]
  unfold encode
  rw [String.toList_ofList, hoctets, List.flatMap_assoc]
  rfl

theorem written_of_ascii (h : c.toNat < 128) : written c = octet (asciiByte c) := by
  rw [written, utf8EncodeChar_of_ascii h, List.flatMap_singleton]

theorem ofNat_toNat_asciiByte (h : c.toNat < 128) : Char.ofNat (asciiByte c).toNat = c := by
  rw [toNat_asciiByte h, Char.ofNat_toNat]

theorem written_of_plain (h : Plain c) : written c = [c] := by
  rw [written_of_ascii h.toNat_lt, octet, ofNat_toNat_asciiByte h.toNat_lt]
  exact if_pos (isPlain_iff.2 h)

/-- if every part of a list becomes one part at least, the list does not become shorter -/
theorem length_le_length_flatMap {α β : Type} (l : List α) (f : α → List β)
    (h : ∀ x, 1 ≤ (f x).length) : l.length ≤ (l.flatMap f).length := by
  induction l with
  | nil => exact Nat.le_refl 0
  | cons x l ih =>
    rw [List.flatMap_cons, List.length_append, List.length_cons]
    have hx := h x
    omega

theorem one_le_length_octet (b : UInt8) : 1 ≤ (octet b).length := by
  unfold octet
  dsimp only
  split
  · exact Nat.le_refl 1
  split
  · exact Nat.le_refl 1
  · exact Nat.le_add_left 1 2

theorem utf8Size_le_length_written (c : Char) : c.utf8Size ≤ (written c).length := by
  rw [← String.length_utf8EncodeChar]
  exact length_le_length_flatMap _ _ one_le_length_octet

/-- what is neither plain nor a space is written with two characters at least -/
theorem two_le_length_written (hplain : ¬ Plain c) (hspace : c ≠ ' ') : 2 ≤ (written c).length := by
  by_cases h : c.toNat < 128
  · rw [written_of_ascii h, octet, ofNat_toNat_asciiByte h, if_neg fun hp => hplain (isPlain_iff.1 hp),
      if_neg hspace]
    exact Nat.le_add_left 2 1
  · have hsize : c.utf8Size ≠ 1 := fun e =>
      h (Nat.lt_succ_of_le (Char.utf8Size_eq_one_iff.1 e))
    have hpos := c.utf8Size_pos
    have hle := utf8Size_le_length_written c
    omega

/-- characters that are written as they are, one by one -/
theorem flatMap_written_eq_self_iff (cs : List Char) :
    cs.flatMap written = cs ↔ ∀ c ∈ cs, Plain c := by
  induction cs with
  | nil => exact iff_of_true rfl fun _ h => absurd h List.not_mem_nil
  | cons c cs ih =>
    rw [List.flatMap_cons, List.forall_mem_cons, ← ih]
    by_cases hplain : Plain c
    · rw [written_of_plain hplain, List.singleton_append, List.cons_inj_right]
      exact ⟨fun h => ⟨hplain, h⟩, fun h => h.2⟩
    refine iff_of_false (fun h => ?_) fun h => hplain h.1
    by_cases hspace : c = ' '
    · -- a space becomes another character
      subst hspace
      exact absurd (List.head_eq_of_cons_eq (show '+' :: cs.flatMap written = ' ' :: cs from h))
        (by decide)
    · -- anything else becomes longer, and what stands behind it does not become shorter
      have hlength := congrArg List.length h
      rw [List.length_append, List.length_cons] at hlength
      have hfirst := two_le_length_written hplain hspace
      have hrest := length_le_length_flatMap cs written fun d =>
        Nat.le_trans d.utf8Size_pos (utf8Size_le_length_written d)
      omega

/-- a text is its own written form exactly if all of its characters are plain -/
theorem encode_eq_self_iff (s : String) : encode s = s ↔ ∀ c ∈ s.toList, Plain c := by
  rw [← String.toList_inj, toList_encode, flatMap_written_eq_self_iff]

end Credentials.Form
