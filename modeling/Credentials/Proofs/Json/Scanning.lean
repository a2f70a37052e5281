import Credentials.Proofs.Json.Grammar

/-!
# Scanning what is written

* `Scan.feed`             the tokens that octets complete, and the state behind them;
* `Scan.Ends`             the states in which a text may end;
* `Scan.feed_string`, `Scan.feed_number`, `Scan.feed_token`   what spells a token is scanned as this token;
* `Scan.feed_spelling`    what spells tokens is scanned as these, if no number runs into what follows;
* `Spelling.tokens_eq`    so these are the tokens of the text.

The machine does not look ahead, so a number is only complete with the octet behind it. In a state where a
text may end, a blank or a delimiter completes what is there, as the end of the text does.
-/

namespace Credentials.Json

namespace Scan

/-- the tokens that octets complete, and the state behind them -/
def feed : Scan → Bytes → List Token × Scan
  | s, [] => ([], s)
  | s, b :: r => ((s.next b).1 ++ (feed (s.next b).2 r).1, (feed (s.next b).2 r).2)

theorem feed_append {s t u : Scan} {a b : Bytes} {ts us : List Token} (ha : feed s a = (ts, t))
    (hb : feed t b = (us, u)) : feed s (a ++ b) = (ts ++ us, u) := by
  induction a generalizing s ts with
  | nil =>
    obtain ⟨rfl, rfl⟩ := Prod.mk.inj ha
    exact hb
  | cons x a ih =>
    obtain ⟨rfl, ht⟩ := Prod.mk.inj ha
    have h := ih (Prod.ext rfl ht : feed (s.next x).2 a = (_, t))
    show ((s.next x).1 ++ (feed (s.next x).2 (a ++ b)).1, (feed (s.next x).2 (a ++ b)).2) = _
    rw [h, List.append_assoc]

theorem feed_singleton (s : Scan) (b : UInt8) : feed s [b] = s.next b := by
  show ((s.next b).1 ++ [], (s.next b).2) = _
  rw [List.append_nil]

/-- a run ends with what the last state completes -/
theorem run_eq_feed (s : Scan) (done : List Token) (bs : Bytes) :
    run s done bs = done.reverse ++ ((feed s bs).1 ++ (feed s bs).2.last) := by
  induction bs generalizing s done with
  | nil => rfl
  | cons b r ih =>
    show run (s.next b).2 ((s.next b).1.reverse ++ done) r = _
    rw [ih, List.reverse_append, List.reverse_reverse, List.append_assoc]
    show _ = done.reverse ++ (((s.next b).1 ++ (feed (s.next b).2 r).1) ++ _)
    rw [List.append_assoc (s.next b).1]
    rfl

/-- a state in which a text may end -/
inductive Ends : Scan → Prop
  | between : Ends .between
  | number {stage : Stage} {n : Numeral} (h : stage.mayEnd = true) : Ends (.number stage n)

/-- where a text may end, a delimiter ends what is there -/
theorem Ends.delimited {s : Scan} (h : s.Ends) {b : UInt8} {t : Token} (hb : Delimits b t) :
    s.next b = (s.last ++ [t], .between) := by
  cases h with
  | between => cases hb <;> rfl
  | @number stage n h =>
    cases stage with
    | zero | whole | fraction | power => cases hb <;> rfl
    | minus | point | mark | sign => cases h

theorem eq_of_isBlank {b : UInt8} (h : isBlank b = true) :
    b = 0x20 ∨ b = 0x09 ∨ b = 0x0a ∨ b = 0x0d := by
  simpa [isBlank, or_assoc] using h

/-- and so does a blank -/
theorem Ends.blank {s : Scan} (h : s.Ends) {b : UInt8} (hb : isBlank b = true) :
    s.next b = (s.last, .between) := by
  cases h with
  | between => rcases eq_of_isBlank hb with rfl | rfl | rfl | rfl <;> rfl
  | @number stage n h =>
    cases stage with
    | zero | whole | fraction | power => rcases eq_of_isBlank hb with rfl | rfl | rfl | rfl <;> rfl
    | minus | point | mark | sign => cases h

theorem feed_blank {gap : Bytes} (hg : Blank gap) : feed .between gap = ([], .between) := by
  induction gap with
  | nil => rfl
  | cons b r ih =>
    obtain ⟨hb, hr⟩ := List.forall_mem_cons.1 hg
    have hnext : Scan.next .between b = ([], .between) := Ends.between.blank hb
    rw [feed, hnext, ih hr]
    rfl

/-- blanks end what is there, if there are any -/
theorem Ends.feed_gap {s : Scan} (h : s.Ends) {gap : Bytes} (hg : Blank gap) :
    gap = [] ∨ feed s gap = (s.last, .between) := by
  cases gap with
  | nil => exact .inl rfl
  | cons b r =>
    obtain ⟨hb, hr⟩ := List.forall_mem_cons.1 hg
    refine .inr ?_
    rw [feed, h.blank hb, feed_blank hr, List.append_nil]

/-! ## strings -/

/-- a piece of a string is scanned as this piece -/
theorem feed_piece {p : Piece} {bs : Bytes} (h : p.Spells bs) (ps : List Piece) :
    feed (.text ps) bs = ([], .text (p :: ps)) := by
  cases h with
  | @plain b h =>
    refine (feed_singleton _ b).trans ?_
    rw [next, if_neg h.1, if_neg h.2.1, if_neg h.2.2]
  | @escape b c h =>
    have hb : b ≠ 0x75 := by
      rintro rfl
      cases h
    have hn : (Scan.escape ps).next b = ([], .text (.octet c :: ps)) := by
      rw [next, if_neg hb, h]
    have hstart : feed (.text ps) [0x5c] = ([], .escape ps) := rfl
    exact feed_append hstart ((feed_singleton _ b).trans hn)
  | @unit b₁ b₂ b₃ b₄ d₁ d₂ d₃ d₄ h₁ h₂ h₃ h₄ =>
    have hstart : feed (.text ps) [0x5c, 0x75] = ([], .unit 4 0 ps) := rfl
    have hdigit : ∀ {left value : Nat} {b : UInt8} {d : Nat}, Hex.value? (Char.ofNat b.toNat) = some d →
        1 < left → (Scan.unit left value ps).next b = ([], .unit (left - 1) (value * 16 + d) ps) := by
      intro left value b d hb hl
      rw [next, hb]
      exact if_neg (Nat.not_le.2 hl)
    have hlast : ∀ {value : Nat}, (Scan.unit 1 value ps).next b₄
        = ([], .text (.unit (value * 16 + d₄) :: ps)) := by
      intro value
      rw [next, h₄]
      rfl
    have hdigits : feed (.unit 4 0 ps) [b₁, b₂, b₃, b₄]
        = ([], .text (.unit (((d₁ * 16 + d₂) * 16 + d₃) * 16 + d₄) :: ps)) := by
      simp only [feed, hdigit h₁ (show 1 < 4 by decide), hdigit h₂ (show 1 < 3 by decide),
        hdigit h₃ (show 1 < 2 by decide), hlast, Nat.zero_mul, Nat.zero_add]
      rfl
    exact feed_append hstart hdigits

theorem feed_pieces {qs : List Piece} {bs : Bytes} (h : Piece.SpellsAll qs bs) (ps : List Piece) :
    feed (.text ps) bs = ([], .text (qs.reverse ++ ps)) := by
  induction h generalizing ps with
  | nil => rfl
  | @cons q qs bs cs hq _ ih =>
    rw [feed_append (feed_piece hq ps) (ih _), List.reverse_cons, List.append_assoc]
    rfl

/-- a string is scanned as one token -/
theorem feed_string {ps : List Piece} {bs : Bytes} (h : Piece.SpellsAll ps bs) :
    feed .between (0x22 :: (bs ++ [0x22])) = ([.string ps], .between) := by
  have hopen : feed .between [0x22] = ([], .text []) := rfl
  have hclose : feed (.text (ps.reverse ++ [])) [0x22] = ([.string ps], .between) := by
    show ([Token.string (ps.reverse ++ []).reverse] ++ [], Scan.between) = _
    rw [List.append_nil, List.append_nil, List.reverse_reverse]
  exact feed_append hopen (feed_append (feed_pieces h []) hclose)

/-! ## numbers -/

/-- the octet of a digit is one of ten -/
theorem lt_of_digitValue? {b : UInt8} {d : Nat} (h : digitValue? b = some d) :
    d < 10 ∧ b = UInt8.ofNat (48 + d) := by
  unfold digitValue? at h
  split at h
  · rename_i hb
    obtain rfl := Option.some.inj h
    have h1 : 48 ≤ b.toNat := UInt8.le_iff_toNat_le.1 hb.1
    have h2 : b.toNat ≤ 57 := UInt8.le_iff_toNat_le.1 hb.2
    refine ⟨by omega, ?_⟩
    rw [Nat.add_sub_cancel' h1, UInt8.ofNat_toNat]
  · cases h

/-- further digits, where any may follow -/
theorem feed_digits_of (stage : Stage) (push : Numeral → Nat → Numeral)
    (hn : ∀ n b d, digitValue? b = some d → Numeral.next? stage n b = some (stage, push n d))
    {ds : List Nat} {bs : Bytes} (h : Numeral.AreDigits ds bs) (n : Numeral) :
    feed (.number stage n) bs = ([], .number stage (ds.foldl push n)) := by
  induction ds generalizing bs n with
  | nil =>
    obtain rfl := List.map_eq_nil_iff.1 h
    rfl
  | cons d ds ih =>
    obtain ⟨b, r, rfl, hb, hr⟩ := List.map_eq_cons_iff.1 h
    have hnext : (Scan.number stage n).next b = ([], .number stage (push n d)) := by
      rw [next, hn n b d hb]
    rw [feed, hnext, ih hr]
    rfl

theorem foldl_pushWhole (ds : List Nat) (n : Numeral) :
    ds.foldl Numeral.pushWhole n = { n with whole := ds.reverse ++ n.whole } := by
  induction ds generalizing n with
  | nil => rfl
  | cons d ds ih => rw [List.foldl_cons, ih, List.reverse_cons, List.append_assoc]; rfl

theorem foldl_pushFraction (ds : List Nat) (n : Numeral) :
    ds.foldl Numeral.pushFraction n = { n with fraction := ds.reverse ++ n.fraction } := by
  induction ds generalizing n with
  | nil => rfl
  | cons d ds ih => rw [List.foldl_cons, ih, List.reverse_cons, List.append_assoc]; rfl

theorem foldl_pushPower (ds : List Nat) (n : Numeral) {negative : Bool} {es : List Nat}
    (h : n.exponent = some (negative, es)) :
    ds.foldl Numeral.pushPower n = { n with exponent := some (negative, ds.reverse ++ es) } := by
  induction ds generalizing n es with
  | nil =>
    obtain ⟨_, _, _, _⟩ := n
    obtain rfl := h
    rfl
  | cons d ds ih =>
    have hd : n.pushPower d = { n with exponent := some (negative, d :: es) } := by
      rw [Numeral.pushPower, h]
    rw [List.foldl_cons, hd, ih _ rfl, List.reverse_cons, List.append_assoc]
    rfl

/-- the sign and the whole part of a number -/
theorem feed_whole (negative : Bool) {ds : List Nat} {w : Bytes} (h : Numeral.SpellsWhole ds w) :
    ∃ stage, (stage = .zero ∨ stage = .whole) ∧
      feed .between (Numeral.signOctets negative ++ w)
        = ([], .number stage ⟨negative, ds.reverse, [], none⟩) := by
  cases h with
  | zero =>
    refine ⟨.zero, .inl rfl, ?_⟩
    cases negative <;> rfl
  | @digits d ds w hd h =>
    obtain ⟨b, r, rfl, hb, hr⟩ := List.map_eq_cons_iff.1 h
    obtain ⟨hlt, rfl⟩ := lt_of_digitValue? hb
    have hfirst : feed .between (Numeral.signOctets negative ++ [UInt8.ofNat (48 + d)])
        = ([], .number .whole ⟨negative, [d], [], none⟩) := by
      clear hb hr h
      have hall : ∀ negative, ∀ d < 10, d ≠ 0 →
          feed .between (Numeral.signOctets negative ++ [UInt8.ofNat (48 + d)])
            = ([], .number .whole ⟨negative, [d], [], none⟩) := by decide
      exact hall negative d hlt hd
    have hrest := feed_digits_of .whole Numeral.pushWhole
      (fun n b d hb => by unfold Numeral.next?; rw [hb]) hr ⟨negative, [d], [], none⟩
    refine ⟨.whole, .inr rfl, ?_⟩
    rw [List.append_cons, feed_append hfirst hrest, foldl_pushWhole, List.reverse_cons]
    rfl

/-- the fraction of a number, if it has one -/
theorem feed_fraction {stage : Stage} (hs : stage = .zero ∨ stage = .whole) (n : Numeral)
    (hn : n.fraction = []) {ds : List Nat} {f : Bytes} (h : Numeral.SpellsFraction ds f) :
    ∃ stage', (stage' = .zero ∨ stage' = .whole ∨ stage' = .fraction) ∧
      feed (.number stage n) f = ([], .number stage' { n with fraction := ds.reverse }) := by
  cases h with
  | none =>
    refine ⟨stage, hs.imp_right .inl, ?_⟩
    rw [List.reverse_nil, ← hn]
    rfl
  | @point d ds f h =>
    obtain ⟨b, r, rfl, hb, hr⟩ := List.map_eq_cons_iff.1 h
    have hpoint : feed (.number stage n) [0x2e] = ([], .number .point n) := by
      rcases hs with rfl | rfl <;> rfl
    have hfirst : feed (.number .point n) [b] = ([], .number .fraction (n.pushFraction d)) := by
      refine (feed_singleton _ b).trans ?_
      unfold next Numeral.next?
      rw [hb]
    have hrest := feed_digits_of .fraction Numeral.pushFraction
      (fun n b d hb => by unfold Numeral.next?; rw [hb]) hr (n.pushFraction d)
    refine ⟨.fraction, .inr (.inr rfl), ?_⟩
    have hall := feed_append hpoint (feed_append hfirst hrest)
    rw [foldl_pushFraction] at hall
    refine hall.trans ?_
    rw [Numeral.pushFraction, hn, List.reverse_cons]
    rfl

/-- the digits of an exponent -/
theorem feed_power {stage : Stage} (hs : stage = .mark ∨ stage = .sign) (n : Numeral) {negative : Bool}
    (hn : n.exponent = some (negative, [])) {d : Nat} {ds : List Nat} {bs : Bytes}
    (h : Numeral.AreDigits (d :: ds) bs) : feed (.number stage n) bs
      = ([], .number .power { n with exponent := some (negative, (d :: ds).reverse) }) := by
  obtain ⟨b, r, rfl, hb, hr⟩ := List.map_eq_cons_iff.1 h
  have hpush : n.pushPower d = { n with exponent := some (negative, [d]) } := by
    rw [Numeral.pushPower, hn]
  have hfirst : feed (.number stage n) [b] = ([], .number .power (n.pushPower d)) := by
    refine (feed_singleton _ b).trans ?_
    unfold next Numeral.next?
    rw [hb]
    rcases hs with rfl | rfl <;> rfl
  have hrest := feed_digits_of .power Numeral.pushPower
    (fun n b d hb => by unfold Numeral.next?; rw [hb]) hr (n.pushPower d)
  rw [foldl_pushPower ds _ (by rw [hpush])] at hrest
  refine (feed_append hfirst hrest).trans ?_
  rw [hpush, List.reverse_cons]
  rfl

/-- the exponent of a number, if it has one -/
theorem feed_exponent {stage : Stage} (hs : stage = .zero ∨ stage = .whole ∨ stage = .fraction)
    (n : Numeral) (hn : n.exponent = none) {e : Option (Bool × List Nat)} {p : Bytes}
    (h : Numeral.SpellsPower e p) : ∃ stage', stage'.mayEnd = true ∧ feed (.number stage n) p
      = ([], .number stage' { n with exponent := e.map fun (s, ds) => (s, ds.reverse) }) := by
  have hmark : ∀ {m : UInt8}, Numeral.IsMark m →
      feed (.number stage n) [m] = ([], .number .mark (n.signPower false)) := by
    rintro m (rfl | rfl) <;> rcases hs with rfl | rfl | rfl <;> rfl
  cases h with
  | none =>
    refine ⟨stage, by rcases hs with rfl | rfl | rfl <;> rfl, ?_⟩
    rw [Option.map_none, ← hn]
    rfl
  | plain hm h => exact ⟨.power, rfl, feed_append (hmark hm) (feed_power (.inl rfl) _ rfl h)⟩
  | plus hm h =>
    have hsign : feed (.number .mark (n.signPower false)) [0x2b]
        = ([], .number .sign (n.signPower false)) := rfl
    exact ⟨.power, rfl,
      feed_append (hmark hm) (feed_append hsign (feed_power (.inr rfl) _ rfl h))⟩
  | minus hm h =>
    have hsign : feed (.number .mark (n.signPower false)) [0x2d]
        = ([], .number .sign (n.signPower true)) := rfl
    exact ⟨.power, rfl,
      feed_append (hmark hm) (feed_append hsign (feed_power (.inr rfl) _ rfl h))⟩

/-- a number is scanned as one token, which may still wait for what ends it -/
theorem feed_number {n : Numeral} {bs : Bytes} (h : n.Spells bs) :
    ∃ s, feed .between bs = ([], s) ∧ s.last = [.number n] ∧ s.Ends := by
  obtain ⟨w, f, p, rfl, hw, hf, hp⟩ := h
  obtain ⟨stage, hs, hwhole⟩ := feed_whole n.negative hw
  obtain ⟨stage', hs', hfraction⟩ := feed_fraction hs ⟨n.negative, n.whole.reverse, [], none⟩ rfl hf
  obtain ⟨stage'', hend, hpower⟩ := feed_exponent hs'
    ⟨n.negative, n.whole.reverse, n.fraction.reverse, none⟩ rfl hp
  have hfeed := feed_append hwhole (feed_append hfraction hpower)
  rw [List.append_assoc] at hfeed
  refine ⟨_, hfeed, ?_, .number hend⟩
  rw [last, if_pos hend]
  obtain ⟨negative, whole, fraction, exponent⟩ := n
  simp [Numeral.close, Function.comp_def]

/-! ## tokens -/

/-- a token is scanned as this token; only a number may still wait for what ends it -/
theorem feed_token {t : Token} {bs : Bytes} (h : t.Spells bs) :
    ∃ us s, feed .between bs = (us, s) ∧ us ++ s.last = [t] ∧ s.Ends ∧
      (t.isOpenEnded = false → s = .between) := by
  cases h with
  | openBrace | closeBrace | openBracket | closeBracket | colon | comma | null | yes | no =>
    exact ⟨_, .between, rfl, rfl, .between, fun _ => rfl⟩
  | string h => exact ⟨_, .between, feed_string h, rfl, .between, fun _ => rfl⟩
  | number h =>
    obtain ⟨s, hf, hl, he⟩ := feed_number h
    exact ⟨[], s, hf, hl, he, nofun⟩

/-- a delimiter is written in one way -/
theorem eq_of_delimits {t : Token} {b : UInt8} {bs : Bytes} (hb : Delimits b t) (h : t.Spells bs) :
    bs = [b] := by
  cases hb <;> cases h <;> rfl

/-- what spells tokens is scanned as these tokens, behind anything that may end -/
theorem feed_spelling {bs : Bytes} {ts : List Token} (h : Spelling bs ts) {s : Scan} (hs : s.Ends)
    {pending : Bool} (hp : pending = false → s = .between) (ha : Token.Apart pending ts) :
    (feed s bs).1 ++ (feed s bs).2.last = s.last ++ ts := by
  induction h generalizing s pending with
  | nil hg =>
    rcases hs.feed_gap hg with rfl | hgap
    · show [] ++ s.last = s.last ++ []
      rw [List.nil_append, List.append_nil]
    · rw [hgap]
      rfl
  | @cons gap bs rest t ts hg ht _ ih =>
    obtain ⟨us, u, hfeed, htoken, hends, hbetween⟩ := feed_token ht
    have hrest := ih hends hbetween ha.2
    -- from between tokens, the token and then the rest are scanned
    have hfrom : feed .between (bs ++ rest) = (us ++ (feed u rest).1, (feed u rest).2) :=
      feed_append hfeed rfl
    rcases hs.feed_gap hg with rfl | hgap
    · rw [List.nil_append]
      cases hpending : pending with
      | false =>
        rw [hp hpending, hfrom, List.append_assoc, hrest, ← List.append_assoc, htoken]
        rfl
      | true =>
        -- a number is still waiting, and a delimiter ends it
        obtain ⟨b, hb⟩ := ha.1 hpending
        obtain rfl := eq_of_delimits hb ht
        have hended := ih .between (fun _ => rfl) ha.2
        have hdelimited : feed s [b] = (s.last ++ [t], .between) :=
          (feed_singleton s b).trans (hs.delimited hb)
        rw [feed_append hdelimited rfl, List.append_assoc, hended, List.append_assoc]
        rfl
    · rw [feed_append hgap hfrom, List.append_assoc, List.append_assoc, hrest, ← List.append_assoc us,
        htoken]
      rfl

end Scan

/-- the tokens of what spells them -/
theorem Spelling.tokens_eq {bs : Bytes} {ts : List Token} (h : Spelling bs ts) (ha : Token.Apart false ts) :
    Json.tokens bs = ts := by
  have hfeed := Scan.feed_spelling h .between (fun _ => rfl) ha
  unfold Json.tokens
  rw [Scan.run_eq_feed, hfeed]
  rfl

end Credentials.Json
