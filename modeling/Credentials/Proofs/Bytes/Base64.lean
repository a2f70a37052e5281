import Credentials.Bytes.Base64

/-!
# What Base64 reads is what Base64 writes

* `Scheme.Lawful`        every value below 64 has one symbol, and the padding is none of them;
* `decode_symbols`       written octets read back;
* `eq_symbols_of_decode` what reads as octets is their written form;
* `decode_eq_ok_iff`     both, so that octets have exactly one written form.
-/

namespace Credentials.Base64

/-- each value below 64 has its own symbol, an ASCII one that is not the padding -/
structure Scheme.Lawful (s : Scheme) : Prop where
  value_symbol : ∀ v < 64, s.value? (s.symbol v) = some v
  symbol_ascii : ∀ v < 64, (s.symbol v).toNat < 128
  symbol_of_value : ∀ b v, s.value? b = some v → v < 64 ∧ s.symbol v = b
  value_pad : s.value? pad = none

/-- a property of all octets, checked on numbers -/
theorem forall_octet {p : UInt8 → Prop} (h : ∀ n < 256, p (UInt8.ofNat n)) (b : UInt8) : p b := by
  have e := h b.toNat b.toNat_lt
  rwa [UInt8.ofNat_toNat] at e

theorem lawful_of_check (s : Scheme)
    (h1 : ∀ v < 64, s.value? (s.symbol v) = some v ∧ (s.symbol v).toNat < 128)
    (h2 : ∀ n < 256, ∀ v ∈ s.value? (UInt8.ofNat n), v < 64 ∧ s.symbol v = UInt8.ofNat n)
    (h3 : s.value? pad = none) : s.Lawful :=
  ⟨fun v hv => (h1 v hv).1, fun v hv => (h1 v hv).2,
    fun b v hv => forall_octet (p := fun b => ∀ v ∈ s.value? b, v < 64 ∧ s.symbol v = b) h2 b v hv,
    h3⟩

theorem standard_lawful : standard.Lawful :=
  lawful_of_check standard (by decide +kernel) (by decide +kernel) (by decide)

theorem url_lawful : url.Lawful :=
  lawful_of_check url (by decide +kernel) (by decide +kernel) (by decide)

variable {s : Scheme}

theorem symbol_ne_pad (hs : s.Lawful) {v : Nat} (hv : v < 64) : s.symbol v ≠ pad := by
  intro h
  have e := hs.value_symbol v hv
  rw [h, hs.value_pad] at e
  cases e

theorem valueAt_symbol (hs : s.Lawful) {v : Nat} (hv : v < 64) (i : Nat) :
    s.valueAt (s.symbol v) i = .ok v := by
  unfold Scheme.valueAt
  rw [hs.value_symbol v hv]

theorem value_of_valueAt {b : UInt8} {i v : Nat} (h : s.valueAt b i = .ok v) :
    s.value? b = some v := by
  unfold Scheme.valueAt at h
  split at h
  · rename_i hb
    cases h
    exact hb
  · cases h

/-! ## the last group -/

theorem scan_symbol (hs : s.Lawful) {v : Nat} (hv : v < 64) (start index : Nat)
    (vs : List (UInt8 × Nat)) (r : Bytes) :
    scan s start index ⟨vs, 0⟩ (s.symbol v :: r)
      = scan s start (index + 1) ⟨vs ++ [(s.symbol v, v)], 0⟩ r := by
  rw [scan, if_neg (symbol_ne_pad hs hv), if_neg (Nat.lt_irrefl 0), valueAt_symbol hs hv]
  rfl

theorem scan_pads (start : Nat) (vs : List (UInt8 × Nat)) (n : Nat) :
    ∀ index k, 2 ≤ index →
      scan s start index ⟨vs, k⟩ (List.replicate n pad) = .ok ⟨vs, k + n⟩ := by
  induction n with
  | zero => intro index k _; rfl
  | succ n ih =>
    intro index k h
    rw [List.replicate_succ, scan, if_pos rfl, if_neg (by omega), ih _ _ (by omega),
      Nat.add_right_comm, Nat.add_assoc]

theorem scan_padding (start index n : Nat) (vs : List (UInt8 × Nat)) (h : 2 ≤ index) :
    scan s start index ⟨vs, 0⟩ (s.padding n) = .ok ⟨vs, if s.padded then n else 0⟩ := by
  unfold Scheme.padding
  split
  · rw [scan_pads start vs n index 0 h, Nat.zero_add]
  · rfl

theorem finish_two (hs : s.Lawful) (start : Nat) {v w : Nat} (hv : v < 64) (hw : w < 64)
    (h0 : w % 16 = 0) :
    finish s start ([s.symbol v, s.symbol w] ++ s.padding 2)
      = .ok [UInt8.ofNat (v * 4 + w / 16)] := by
  have e : scan s start 0 ⟨[], 0⟩ ([s.symbol v, s.symbol w] ++ s.padding 2)
      = .ok ⟨[(s.symbol v, v), (s.symbol w, w)], if s.padded then 2 else 0⟩ := by
    rw [List.cons_append, List.cons_append, scan_symbol hs hv, scan_symbol hs hw]
    exact scan_padding start 2 2 _ (by omega)
  unfold finish
  rw [e]
  cases hp : s.padded <;> simp [bind, Except.bind, h0]

theorem finish_three (hs : s.Lawful) (start : Nat) {v w x : Nat} (hv : v < 64) (hw : w < 64)
    (hx : x < 64) (h0 : x % 4 = 0) :
    finish s start ([s.symbol v, s.symbol w, s.symbol x] ++ s.padding 1)
      = .ok [UInt8.ofNat (v * 4 + w / 16), UInt8.ofNat (w % 16 * 16 + x / 4)] := by
  have e : scan s start 0 ⟨[], 0⟩ ([s.symbol v, s.symbol w, s.symbol x] ++ s.padding 1)
      = .ok ⟨[(s.symbol v, v), (s.symbol w, w), (s.symbol x, x)], if s.padded then 1 else 0⟩ := by
    rw [List.cons_append, List.cons_append, List.cons_append, scan_symbol hs hv, scan_symbol hs hw,
      scan_symbol hs hx]
    exact scan_padding start 3 1 _ (by omega)
  unfold finish
  rw [e]
  cases hp : s.padded <;> simp [bind, Except.bind, h0]

theorem finish_four (hs : s.Lawful) (start : Nat) {v w x y : Nat} (hv : v < 64) (hw : w < 64)
    (hx : x < 64) (hy : y < 64) :
    finish s start [s.symbol v, s.symbol w, s.symbol x, s.symbol y]
      = .ok [UInt8.ofNat (v * 4 + w / 16), UInt8.ofNat (w % 16 * 16 + x / 4),
          UInt8.ofNat (x % 4 * 64 + y)] := by
  have e : scan s start 0 ⟨[], 0⟩ [s.symbol v, s.symbol w, s.symbol x, s.symbol y]
      = .ok ⟨[(s.symbol v, v), (s.symbol w, w), (s.symbol x, x), (s.symbol y, y)], 0⟩ := by
    rw [scan_symbol hs hv, scan_symbol hs hw, scan_symbol hs hx, scan_symbol hs hy]
    rfl
  unfold finish
  rw [e]
  cases hp : s.padded <;> simp [bind, Except.bind]

/-! ## written octets read back -/

/-- three octets out of the values of their four symbols -/
theorem octets_of_values (a b c : UInt8) :
    UInt8.ofNat (a.toNat / 4 * 4 + (a.toNat % 4 * 16 + b.toNat / 16) / 16) = a ∧
    UInt8.ofNat ((a.toNat % 4 * 16 + b.toNat / 16) % 16 * 16 +
      (b.toNat % 16 * 4 + c.toNat / 64) / 4) = b ∧
    UInt8.ofNat ((b.toNat % 16 * 4 + c.toNat / 64) % 4 * 64 + c.toNat % 64) = c := by
  have ha := a.toNat_lt
  have hb := b.toNat_lt
  have hc := c.toNat_lt
  have e1 : a.toNat / 4 * 4 + (a.toNat % 4 * 16 + b.toNat / 16) / 16 = a.toNat := by omega
  have e2 : (a.toNat % 4 * 16 + b.toNat / 16) % 16 * 16 + (b.toNat % 16 * 4 + c.toNat / 64) / 4
      = b.toNat := by omega
  have e3 : (b.toNat % 16 * 4 + c.toNat / 64) % 4 * 64 + c.toNat % 64 = c.toNat := by omega
  rw [e1, e2, e3]
  exact ⟨UInt8.ofNat_toNat, UInt8.ofNat_toNat, UInt8.ofNat_toNat⟩

theorem groups_symbols (hs : s.Lawful) (bs : Bytes) :
    ∀ start, groups s start (symbols s bs) = .ok bs := by
  induction bs using symbols.induct with
  | case1 a b c r ih =>
    intro start
    have ha := a.toNat_lt
    have hb := b.toNat_lt
    have hc := c.toNat_lt
    obtain ⟨e1, e2, e3⟩ := octets_of_values a b c
    rw [symbols]
    cases hr : symbols s r with
    | nil =>
      have hnil : r = [] := by
        have := ih 0
        rw [hr] at this
        exact (Except.ok.inj this).symm
      rw [groups]
      · rw [finish_four hs start (by omega) (by omega) (by omega) (by omega), e1, e2, e3, hnil]
      · intro _ _ _ _ _ _ h
        simp at h
    | cons d t =>
      have ih' := ih (start + 4)
      rw [hr] at ih'
      rw [groups, valueAt_symbol hs (by omega), valueAt_symbol hs (by omega),
        valueAt_symbol hs (by omega), valueAt_symbol hs (by omega), ih']
      simp only [bind, Except.bind, e1, e2, e3]
  | case2 a b =>
    intro start
    have ha := a.toNat_lt
    have hb := b.toNat_lt
    obtain ⟨e1, e2, -⟩ := octets_of_values a b 0
    rw [symbols, groups]
    · rw [finish_three hs start (by omega) (by omega) (by omega) (by omega), e1]
      have e0 : (b.toNat % 16 * 4 + (0 : UInt8).toNat / 64) = b.toNat % 16 * 4 := rfl
      rw [e0] at e2
      rw [e2]
    · intro _ _ _ _ _ _ h
      have := congrArg List.length h
      simp [Scheme.padding] at this
      split at this <;> simp at this
  | case3 a =>
    intro start
    have ha := a.toNat_lt
    obtain ⟨e1, -, -⟩ := octets_of_values a 0 0
    rw [symbols, groups]
    · rw [finish_two hs start (by omega) (by omega) (by omega)]
      have e0 : a.toNat % 4 * 16 + (0 : UInt8).toNat / 16 = a.toNat % 4 * 16 := rfl
      rw [e0] at e1
      rw [e1]
    · intro _ _ _ _ _ _ h
      have := congrArg List.length h
      simp [Scheme.padding] at this
      split at this <;> simp at this
  | case4 => intro start; rfl

theorem length_symbols_mod (s : Scheme) (bs : Bytes) : (symbols s bs).length % 4 ≠ 1 := by
  induction bs using symbols.induct with
  | case1 a b c r ih => simp only [symbols, List.length_cons]; omega
  | case2 a b => cases h : s.padded <;> simp [symbols, Scheme.padding, h]
  | case3 a => cases h : s.padded <;> simp [symbols, Scheme.padding, h]
  | case4 => simp [symbols]

/-- written octets read back -/
theorem decode_symbols (hs : s.Lawful) (bs : Bytes) : decode s (symbols s bs) = .ok bs := by
  unfold decode
  split
  · rw [if_neg fun h => length_symbols_mod s bs h.1, groups_symbols hs]
  · rename_i h
    have e := groups_symbols hs bs 0
    rw [List.getLast?_eq_none_iff.1 h] at e
    exact e

/-! ## what reads as octets is their written form -/

/-- a scan keeps all symbols in their order, and puts no symbol behind padding -/
theorem eq_of_scan (start : Nat) (bs : Bytes) :
    ∀ index g g', scan s start index g bs = .ok g' →
      (∀ p ∈ g.values, s.value? p.1 = some p.2) →
      g.values.map Prod.fst ++ List.replicate g.pads pad ++ bs
          = g'.values.map Prod.fst ++ List.replicate g'.pads pad ∧
        ∀ p ∈ g'.values, s.value? p.1 = some p.2 := by
  induction bs with
  | nil =>
    intro index g g' h hg
    cases h
    exact ⟨List.append_nil _, hg⟩
  | cons b r ih =>
    intro index g g' h hg
    rw [scan] at h
    split at h
    · rename_i hb
      split at h
      · cases h
      · obtain ⟨e, he⟩ := ih _ _ _ h hg
        refine ⟨?_, he⟩
        rw [← e, hb, List.replicate_succ']
        simp
    · split at h
      · cases h
      · rename_i hp
        cases hv : s.valueAt b (start + index) with
        | error _ => rw [hv] at h; cases h
        | ok v =>
          rw [hv] at h
          have h0 : g.pads = 0 := by omega
          obtain ⟨e, he⟩ := ih _ ⟨g.values ++ [(b, v)], 0⟩ _ h (by
            intro p hm
            rcases List.mem_append.1 hm with hm | hm
            · exact hg p hm
            · obtain rfl := List.mem_singleton.1 hm
              exact value_of_valueAt hv)
          refine ⟨?_, he⟩
          rw [← e, h0]
          simp

/-- the symbols of the values that were read -/
theorem symbols_of_two (hs : s.Lawful) {b c : UInt8} {v w : Nat} (hb : s.value? b = some v)
    (hc : s.value? c = some w) (h0 : w % 16 = 0) :
    symbols s [UInt8.ofNat (v * 4 + w / 16)] = [b, c] ++ s.padding 2 := by
  obtain ⟨hv, rfl⟩ := hs.symbol_of_value b v hb
  obtain ⟨hw, rfl⟩ := hs.symbol_of_value c w hc
  have e : (UInt8.ofNat (v * 4 + w / 16)).toNat = v * 4 + w / 16 := by
    rw [UInt8.toNat_ofNat']; omega
  rw [symbols, e, show (v * 4 + w / 16) / 4 = v by omega,
    show (v * 4 + w / 16) % 4 * 16 = w by omega]

theorem symbols_of_three (hs : s.Lawful) {b c d : UInt8} {v w x : Nat} (hb : s.value? b = some v)
    (hc : s.value? c = some w) (hd : s.value? d = some x) (h0 : x % 4 = 0) :
    symbols s [UInt8.ofNat (v * 4 + w / 16), UInt8.ofNat (w % 16 * 16 + x / 4)]
      = [b, c, d] ++ s.padding 1 := by
  obtain ⟨hv, rfl⟩ := hs.symbol_of_value b v hb
  obtain ⟨hw, rfl⟩ := hs.symbol_of_value c w hc
  obtain ⟨hx, rfl⟩ := hs.symbol_of_value d x hd
  have e1 : (UInt8.ofNat (v * 4 + w / 16)).toNat = v * 4 + w / 16 := by
    rw [UInt8.toNat_ofNat']; omega
  have e2 : (UInt8.ofNat (w % 16 * 16 + x / 4)).toNat = w % 16 * 16 + x / 4 := by
    rw [UInt8.toNat_ofNat']; omega
  rw [symbols, e1, e2, show (v * 4 + w / 16) / 4 = v by omega,
    show (v * 4 + w / 16) % 4 * 16 + (w % 16 * 16 + x / 4) / 16 = w by omega,
    show (w % 16 * 16 + x / 4) % 16 * 4 = x by omega]

theorem symbols_of_four (hs : s.Lawful) {b c d e : UInt8} {v w x y : Nat}
    (hb : s.value? b = some v) (hc : s.value? c = some w) (hd : s.value? d = some x)
    (he : s.value? e = some y) (r : Bytes) :
    symbols s (UInt8.ofNat (v * 4 + w / 16) :: UInt8.ofNat (w % 16 * 16 + x / 4) ::
      UInt8.ofNat (x % 4 * 64 + y) :: r) = b :: c :: d :: e :: symbols s r := by
  obtain ⟨hv, rfl⟩ := hs.symbol_of_value b v hb
  obtain ⟨hw, rfl⟩ := hs.symbol_of_value c w hc
  obtain ⟨hx, rfl⟩ := hs.symbol_of_value d x hd
  obtain ⟨hy, rfl⟩ := hs.symbol_of_value e y he
  have e1 : (UInt8.ofNat (v * 4 + w / 16)).toNat = v * 4 + w / 16 := by
    rw [UInt8.toNat_ofNat']; omega
  have e2 : (UInt8.ofNat (w % 16 * 16 + x / 4)).toNat = w % 16 * 16 + x / 4 := by
    rw [UInt8.toNat_ofNat']; omega
  have e3 : (UInt8.ofNat (x % 4 * 64 + y)).toNat = x % 4 * 64 + y := by
    rw [UInt8.toNat_ofNat']; omega
  rw [symbols, e1, e2, e3, show (v * 4 + w / 16) / 4 = v by omega,
    show (v * 4 + w / 16) % 4 * 16 + (w % 16 * 16 + x / 4) / 16 = w by omega,
    show (w % 16 * 16 + x / 4) % 16 * 4 + (x % 4 * 64 + y) / 64 = x by omega,
    show (x % 4 * 64 + y) % 64 = y by omega]

/-- the padding of a last group of `n` symbols is the scheme's -/
theorem pads_eq_padding {n k : Nat} (h4 : n + k ≤ 4) (h2 : 2 ≤ n)
    (h : ¬ (s.padded && (n + k) % 4 != 0 || !s.padded && k != 0) = true) :
    List.replicate k pad = s.padding (4 - n) := by
  unfold Scheme.padding
  cases hp : s.padded with
  | true =>
    rw [hp] at h
    simp at h
    rw [if_pos rfl, show k = 4 - n by omega]
  | false =>
    rw [hp] at h
    simp at h
    rw [if_neg (by simp), h, List.replicate_zero]

theorem eq_symbols_of_finish (hs : s.Lawful) {start : Nat} {rest bs : Bytes}
    (hl : rest.length ≤ 4) (h : finish s start rest = .ok bs) : rest = symbols s bs := by
  unfold finish at h
  cases hg : scan s start 0 ⟨[], 0⟩ rest with
  | error _ => rw [hg] at h; cases h
  | ok g =>
    rw [hg] at h
    obtain ⟨vs, k⟩ := g
    obtain ⟨e, hv⟩ := eq_of_scan start rest 0 ⟨[], 0⟩ ⟨vs, k⟩ hg (by simp)
    have e : rest = vs.map Prod.fst ++ List.replicate k pad := e
    have hk : vs.length + k ≤ 4 := by
      rw [e] at hl
      simpa using hl
    simp only [bind, Except.bind] at h
    split at h
    · rename_i h0
      cases h
      exact h0
    · split at h
      · cases h
      · rename_i h2
        split at h
        · cases h
        · rename_i hp
          have hp := pads_eq_padding hk (by omega) hp
          rw [e, hp]
          match vs, hk, h2, h, hv with
          | [(b, v), (c, w)], _, _, h, hv =>
            simp only at h
            split at h
            · rename_i h0
              cases h
              rw [symbols_of_two hs (hv (b, v) (by simp)) (hv (c, w) (by simp)) h0]
              rfl
            · cases h
          | [(b, v), (c, w), (d, x)], _, _, h, hv =>
            simp only at h
            split at h
            · rename_i h0
              cases h
              rw [symbols_of_three hs (hv (b, v) (by simp)) (hv (c, w) (by simp))
                (hv (d, x) (by simp)) h0]
              rfl
            · cases h
          | [(b, v), (c, w), (d, x), (f, y)], _, _, h, hv =>
            cases h
            rw [symbols_of_four hs (hv (b, v) (by simp)) (hv (c, w) (by simp)) (hv (d, x) (by simp))
              (hv (f, y) (by simp))]
            cases hs : s.padded <;> simp [Scheme.padding, hs, symbols]
          | [], _, h2, _, _ => exact absurd (by simp) h2
          | [_], _, h2, _, _ => exact absurd (by simp) h2
          | _ :: _ :: _ :: _ :: _ :: _, hk, _, _, _ => simp at hk; omega

theorem eq_symbols_of_groups (hs : s.Lawful) (start : Nat) (text : Bytes) :
    ∀ bs, groups s start text = .ok bs → text = symbols s bs := by
  induction start, text using groups.induct with
  | case1 start a b c d e r ih =>
    intro bs h
    rw [groups] at h
    cases ha : s.valueAt a start with
    | error _ => rw [ha] at h; cases h
    | ok v =>
      cases hb : s.valueAt b (start + 1) with
      | error _ => rw [ha, hb] at h; cases h
      | ok w =>
        cases hc : s.valueAt c (start + 2) with
        | error _ => rw [ha, hb, hc] at h; cases h
        | ok x =>
          cases hd : s.valueAt d (start + 3) with
          | error _ => rw [ha, hb, hc, hd] at h; cases h
          | ok y =>
            cases hr : groups s (start + 4) (e :: r) with
            | error _ => rw [ha, hb, hc, hd, hr] at h; cases h
            | ok rest =>
              rw [ha, hb, hc, hd, hr] at h
              cases h
              rw [symbols_of_four hs (value_of_valueAt ha) (value_of_valueAt hb)
                (value_of_valueAt hc) (value_of_valueAt hd), ← ih _ hr]
  | case2 start rest hne =>
    intro bs h
    rw [groups] at h
    · refine eq_symbols_of_finish hs ?_ h
      match rest, hne with
      | [], _ => simp
      | [_], _ => simp
      | [_, _], _ => simp
      | [_, _, _], _ => simp
      | [_, _, _, _], _ => simp
      | a :: b :: c :: d :: e :: r, hne => exact absurd rfl (hne a b c d e r)
    · exact hne

/-- what reads as octets is their written form -/
theorem eq_symbols_of_decode (hs : s.Lawful) {text bs : Bytes} (h : decode s text = .ok bs) :
    text = symbols s bs := by
  unfold decode at h
  split at h
  · split at h
    · cases h
    · exact eq_symbols_of_groups hs 0 text bs h
  · rename_i h0
    cases h
    exact List.getLast?_eq_none_iff.1 h0

/-- octets have exactly one written form -/
theorem decode_eq_ok_iff (hs : s.Lawful) {text bs : Bytes} :
    decode s text = .ok bs ↔ text = symbols s bs :=
  ⟨eq_symbols_of_decode hs, fun h => h ▸ decode_symbols hs bs⟩

/-! ## written forms as texts -/

/-- a written form has symbols of values below 64 in it, padding if the scheme pads, and nothing else -/
theorem pad_or_symbol_of_mem {bs : Bytes} {b : UInt8} (h : b ∈ symbols s bs) :
    (b = pad ∧ s.padded = true) ∨ ∃ v < 64, b = s.symbol v := by
  have hpad : ∀ n, b ∈ s.padding n → b = pad ∧ s.padded = true := by
    intro n hb
    unfold Scheme.padding at hb
    split at hb
    · rename_i hp
      exact ⟨List.eq_of_mem_replicate hb, hp⟩
    · cases hb
  induction bs using symbols.induct with
  | case1 x y z r ih =>
    have hx := x.toNat_lt
    have hy := y.toNat_lt
    have hz := z.toNat_lt
    simp only [symbols, List.mem_cons] at h
    rcases h with rfl | rfl | rfl | rfl | h
    · exact Or.inr ⟨_, by omega, rfl⟩
    · exact Or.inr ⟨_, by omega, rfl⟩
    · exact Or.inr ⟨_, by omega, rfl⟩
    · exact Or.inr ⟨_, by omega, rfl⟩
    · exact ih h
  | case2 x y =>
    have hx := x.toNat_lt
    have hy := y.toNat_lt
    simp only [symbols, List.cons_append, List.nil_append, List.mem_cons] at h
    rcases h with rfl | rfl | rfl | h
    · exact Or.inr ⟨_, by omega, rfl⟩
    · exact Or.inr ⟨_, by omega, rfl⟩
    · exact Or.inr ⟨_, by omega, rfl⟩
    · exact Or.inl (hpad _ h)
  | case3 x =>
    have hx := x.toNat_lt
    simp only [symbols, List.cons_append, List.nil_append, List.mem_cons] at h
    rcases h with rfl | rfl | h
    · exact Or.inr ⟨_, by omega, rfl⟩
    · exact Or.inr ⟨_, by omega, rfl⟩
    · exact Or.inl (hpad _ h)
  | case4 => cases h

theorem symbols_lt (hs : s.Lawful) {bs : Bytes} {b : UInt8} (h : b ∈ symbols s bs) :
    b.toNat < 128 := by
  rcases pad_or_symbol_of_mem h with ⟨rfl, -⟩ | ⟨v, hv, rfl⟩
  · decide
  · exact hs.symbol_ascii v hv

theorem toNat_ofNat {n : Nat} (h : n < 256) : (Char.ofNat n).toNat = n := by
  rw [Char.ofNat, dif_pos (Or.inl (by omega))]
  rfl

/-- the octets of a written form are its symbols -/
theorem utf8_encode (hs : s.Lawful) (bs : Bytes) : utf8 (encode s bs) = symbols s bs := by
  unfold encode
  rw [utf8_ofList_of_ascii]
  · rw [asciiBytes, List.map_map]
    refine List.map_id'' (fun b => ?_) _
    show UInt8.ofNat (Char.ofNat b.toNat).toNat = b
    rw [toNat_ofNat b.toNat_lt, UInt8.ofNat_toNat]
  · intro c hc
    obtain ⟨b, hb, rfl⟩ := List.mem_map.1 hc
    rw [toNat_ofNat b.toNat_lt]
    exact symbols_lt hs hb

/-- a text reads as octets exactly if it is their written form -/
theorem decode_utf8_eq_ok_iff (hs : s.Lawful) {text : String} {bs : Bytes} :
    decode s (utf8 text) = .ok bs ↔ text = encode s bs := by
  rw [decode_eq_ok_iff hs, ← utf8_encode hs]
  exact ⟨utf8_injective, fun h => h ▸ rfl⟩

/-- the URL-safe form has letters, digits, `-` and `_` in it, and nothing else -/
theorem mem_encode_url {bs : Bytes} {c : Char} (h : c ∈ (encode url bs).toList) :
    c.isAlphanum = true ∨ c = '-' ∨ c = '_' := by
  rw [encode, String.toList_ofList] at h
  obtain ⟨b, hb, rfl⟩ := List.mem_map.1 h
  have hsymbol : ∀ v < 64, (Char.ofNat (url.symbol v).toNat).isAlphanum = true ∨
      Char.ofNat (url.symbol v).toNat = '-' ∨ Char.ofNat (url.symbol v).toNat = '_' := by
    decide +kernel
  rcases pad_or_symbol_of_mem hb with ⟨-, hp⟩ | ⟨v, hv, rfl⟩
  · cases hp
  · exact hsymbol v hv

theorem dot_not_mem_encode_url (bs : Bytes) : '.' ∉ (encode url bs).toList := fun h =>
  absurd (mem_encode_url h) (by decide)

end Credentials.Base64
