import Credentials.Json.Value
import Credentials.Proofs.Json.Building

/-!
# Values read from their written form

* `octetsOf`                   the octets of characters;
* `Piece.ofString`             the pieces of a string as it is written;
* `Piece.spells_quoted`, `Piece.text?_ofString`   it is spelled so, and its text is the string again;
* `Numeral.ofNat`              the digits of a number as they are written;
* `Numeral.spells_ofNat`, `Numeral.value?_ofNat`  it is spelled so, and its value is the number again;
* `Json.unsigned`              all numbers of a value are unsigned integers;
* `Json.tree`                  the tree of a value as it is written;
* `Json.spelling_text`         the written form of a value spells its tree;
* `Json.ofText_text`           so the tree of a written value is that of the value, and it is complete;
* `Tree.text_ofString`, `Tree.word_ofNat`   the readers of its leaves.
-/

namespace Credentials.Json

/-- the octets of characters -/
def octetsOf (cs : List Char) : Bytes := cs.flatMap String.utf8EncodeChar

theorem octetsOf_append (a b : List Char) : octetsOf (a ++ b) = octetsOf a ++ octetsOf b :=
  List.flatMap_append

theorem octetsOf_cons_of_ascii {c : Char} (h : c.toNat < 128) (cs : List Char) :
    octetsOf (c :: cs) = asciiByte c :: octetsOf cs := by
  unfold octetsOf
  rw [List.flatMap_cons, utf8EncodeChar_of_ascii h]
  rfl

/-! ## strings -/

namespace Scan

theorem plain_of_toNat {b : UInt8} (h : 32 ≤ b.toNat) (hq : b.toNat ≠ 34) (hb : b.toNat ≠ 92) :
    Plain b := by
  refine ⟨fun e => hq (e ▸ rfl), fun e => hb (e ▸ rfl), fun e => ?_⟩
  have hl : b.toNat < 32 := UInt8.lt_iff_toNat_lt.1 e
  omega

/-- no octet of a character behind the ASCII ones is an ASCII one -/
theorem le_of_mem_utf8EncodeChar {c : Char} (h : 128 ≤ c.toNat) {b : UInt8}
    (hb : b ∈ String.utf8EncodeChar c) : 128 ≤ b.toNat := by
  have hv : ¬ c.val.toNat ≤ 0x7f := by
    have : 128 ≤ c.val.toNat := h
    omega
  unfold String.utf8EncodeChar at hb
  simp only [if_neg hv] at hb
  have key : ∀ x m k : Nat, 0 < m → m + k ≤ 256 → 128 ≤ k → 128 ≤ (UInt8.ofNat (x % m + k)).toNat := by
    intro x m k hm hmk hk
    have := Nat.mod_lt x hm
    rw [UInt8.toNat_ofNat']
    omega
  split at hb
  · simp only [List.mem_cons, List.not_mem_nil, or_false] at hb
    rcases hb with rfl | rfl
    · exact key _ 32 192 (by decide) (by decide) (by decide)
    · exact key _ 64 128 (by decide) (by decide) (by decide)
  · split at hb
    · simp only [List.mem_cons, List.not_mem_nil, or_false] at hb
      rcases hb with rfl | rfl | rfl
      · exact key _ 16 224 (by decide) (by decide) (by decide)
      · exact key _ 64 128 (by decide) (by decide) (by decide)
      · exact key _ 64 128 (by decide) (by decide) (by decide)
    · simp only [List.mem_cons, List.not_mem_nil, or_false] at hb
      rcases hb with rfl | rfl | rfl | rfl
      · exact key _ 8 240 (by decide) (by decide) (by decide)
      · exact key _ 64 128 (by decide) (by decide) (by decide)
      · exact key _ 64 128 (by decide) (by decide) (by decide)
      · exact key _ 64 128 (by decide) (by decide) (by decide)

end Scan

namespace Piece

/-- the control characters that are written by their numbers -/
def isNumbered (c : Char) : Bool :=
  decide (c.toNat < 32) && !([8, 9, 10, 12, 13].contains c.toNat)

/-- the pieces of a character as it is written -/
def ofChar (c : Char) : List Piece :=
  if isNumbered c then [.unit c.toNat] else (String.utf8EncodeChar c).map .octet

/-- the pieces of a string as it is written -/
def ofString (s : String) : List Piece := s.toList.flatMap ofChar

theorem octets?_map_octet (bs : Bytes) (ps : List Piece) :
    octets? (bs.map .octet ++ ps) = (bs ++ ·) <$> octets? ps := by
  induction bs with
  | nil =>
    show octets? ps = ([] ++ ·) <$> octets? ps
    cases octets? ps <;> rfl
  | cons b r ih =>
    show (b :: ·) <$> octets? (r.map .octet ++ ps) = _
    rw [ih]
    cases octets? ps <;> rfl

theorem octets?_unit {n : Nat} (h : n < 0xd800) (ps : List Piece) :
    octets? (.unit n :: ps) = (codePoint n ++ ·) <$> octets? ps := by
  have hh : isHighSurrogate n = false := by
    unfold isHighSurrogate
    rw [decide_eq_false (by omega), Bool.false_and]
  have hl : isLowSurrogate n = false := by
    unfold isLowSurrogate
    rw [decide_eq_false (by omega), Bool.false_and]
  match ps with
  | [] =>
    show (if isHighSurrogate n || isLowSurrogate n then none else _) = _
    rw [hh, hl]
    rfl
  | .octet b :: r =>
    show (if isHighSurrogate n || isLowSurrogate n then none else _) = _
    rw [hh, hl]
    rfl
  | .unit m :: r =>
    rw [octets?, hh, hl]
    rfl

theorem octets?_ofChar (c : Char) (ps : List Piece) :
    octets? (ofChar c ++ ps) = (String.utf8EncodeChar c ++ ·) <$> octets? ps := by
  unfold ofChar
  split
  · rename_i h
    have hc : c.toNat < 32 := of_decide_eq_true (Bool.and_eq_true_iff.1 h).1
    have he : codePoint c.toNat = String.utf8EncodeChar c := by
      unfold codePoint
      rw [Char.ofNat_toNat, String.singleton_eq_ofList, utf8_ofList, List.flatMap_cons,
        List.flatMap_nil, List.append_nil]
    rw [List.singleton_append, octets?_unit (by omega), he]
  · exact octets?_map_octet _ ps

/-- the text of a written string is the string -/
theorem text?_ofString (s : String) : text? (ofString s) = some s := by
  have h : ∀ cs : List Char, octets? (cs.flatMap ofChar) = some (octetsOf cs) := by
    intro cs
    induction cs with
    | nil => rfl
    | cons c r ih =>
      rw [List.flatMap_cons, octets?_ofChar, ih]
      rfl
  unfold text? ofString
  rw [h]
  show ofUtf8? (octetsOf s.toList) = _
  rw [octetsOf, ← utf8_ofList, String.ofList_toList, ofUtf8?_utf8]

theorem SpellsAll.single {p : Piece} {bs : Bytes} (h : p.Spells bs) : SpellsAll [p] bs := by
  have hs := SpellsAll.cons h .nil
  rwa [List.append_nil] at hs

theorem SpellsAll.append {ps qs : List Piece} {bs cs : Bytes} (h : SpellsAll ps bs)
    (hq : SpellsAll qs cs) : SpellsAll (ps ++ qs) (bs ++ cs) := by
  induction h with
  | nil => exact hq
  | cons hp _ ih =>
    rw [List.cons_append, List.append_assoc]
    exact .cons hp ih

theorem spellsAll_plain {bs : Bytes} (h : ∀ b ∈ bs, Scan.Plain b) : SpellsAll (bs.map .octet) bs := by
  induction bs with
  | nil => exact .nil
  | cons b r ih =>
    exact .cons (.plain (h b List.mem_cons_self)) (ih fun c hc => h c (List.mem_cons_of_mem _ hc))

theorem value?_digit {d : Nat} (h : d < 16) :
    Hex.value? (Char.ofNat (asciiByte (Hex.digit d)).toNat) = some d := by
  revert d
  decide

theorem digit_lt {d : Nat} (h : d < 16) : (Hex.digit d).toNat < 128 := by
  revert d
  decide

/-- a control character that is written by its number -/
theorem spells_numbered {n : Nat} (h : n < 32) : SpellsAll [.unit n]
    (octetsOf ['\\', 'u', '0', '0', Hex.digit (n / 16), Hex.digit (n % 16)]) := by
  have h1 : n / 16 < 16 := by omega
  have h2 : n % 16 < 16 := by omega
  have hu := Spells.unit (value?_digit (show 0 < 16 by decide)) (value?_digit (show 0 < 16 by decide))
    (value?_digit h1) (value?_digit h2)
  have hn : ((0 * 16 + 0) * 16 + n / 16) * 16 + n % 16 = n := by omega
  rw [hn] at hu
  rw [octetsOf_cons_of_ascii (by decide), octetsOf_cons_of_ascii (by decide),
    octetsOf_cons_of_ascii (by decide), octetsOf_cons_of_ascii (by decide),
    octetsOf_cons_of_ascii (digit_lt h1), octetsOf_cons_of_ascii (digit_lt h2)]
  exact .single hu

/-- a character is written as its pieces -/
theorem spells_escape (c : Char) : SpellsAll (ofChar c) (octetsOf (Json.escape c)) := by
  unfold Json.escape
  split
  · rename_i h
    subst h
    exact .single (.escape (b := 0x22) rfl)
  split
  · rename_i h
    subst h
    exact .single (.escape (b := 0x5c) rfl)
  split
  · rename_i h
    subst h
    exact .single (.escape (b := 0x62) rfl)
  split
  · rename_i h
    subst h
    exact .single (.escape (b := 0x74) rfl)
  split
  · rename_i h
    subst h
    exact .single (.escape (b := 0x6e) rfl)
  split
  · rename_i h
    subst h
    exact .single (.escape (b := 0x66) rfl)
  split
  · rename_i h
    subst h
    exact .single (.escape (b := 0x72) rfl)
  rename_i h34 h92 h8 h9 h10 h12 h13
  have hne : ∀ n : Nat, c ≠ Char.ofNat n → n.isValidChar → c.toNat ≠ n := fun n h hv e =>
    h (by rw [← e, Char.ofNat_toNat])
  split
  · rename_i hc
    have hp : ofChar c = [.unit c.toNat] := by
      unfold ofChar isNumbered
      have := hne 8 h8 (by decide)
      have := hne 9 h9 (by decide)
      have := hne 10 h10 (by decide)
      have := hne 12 h12 (by decide)
      have := hne 13 h13 (by decide)
      rw [if_pos]
      simp [*]
    rw [hp]
    exact spells_numbered hc
  · rename_i hc
    have hp : ofChar c = (String.utf8EncodeChar c).map .octet := by
      unfold ofChar isNumbered
      rw [decide_eq_false hc]
      rfl
    rw [hp, octetsOf, List.flatMap_cons, List.flatMap_nil, List.append_nil]
    refine spellsAll_plain fun b hb => ?_
    by_cases ha : c.toNat < 128
    · rw [utf8EncodeChar_of_ascii ha] at hb
      obtain rfl := List.mem_singleton.1 hb
      have ht := toNat_asciiByte ha
      refine Scan.plain_of_toNat ?_ ?_ ?_
      · omega
      · rw [ht]; exact hne 34 h34 (by decide)
      · rw [ht]; exact hne 92 h92 (by decide)
    · have := Scan.le_of_mem_utf8EncodeChar (Nat.not_lt.1 ha) hb
      exact Scan.plain_of_toNat (by omega) (by omega) (by omega)

/-- a string in quotes is spelled so -/
theorem spells_quoted (s : String) :
    (Token.string (ofString s)).Spells (octetsOf (Json.quoted s)) := by
  have h : ∀ cs : List Char, SpellsAll (cs.flatMap ofChar) (octetsOf (cs.flatMap Json.escape)) := by
    intro cs
    induction cs with
    | nil => exact .nil
    | cons c r ih =>
      rw [List.flatMap_cons, List.flatMap_cons, octetsOf_append]
      exact (spells_escape c).append ih
  have hq : octetsOf (Json.quoted s) = 0x22 :: (octetsOf (s.toList.flatMap Json.escape) ++ [0x22]) := by
    show octetsOf ([Char.ofNat 34] ++ s.toList.flatMap Json.escape ++ [Char.ofNat 34]) = _
    rw [octetsOf_append, octetsOf_append]
    rfl
  rw [hq]
  exact .string (h s.toList)

end Piece

/-! ## numbers -/

namespace Numeral

/-- the digits of a number as they are written -/
def digits (n : Nat) : List Nat := (Nat.toDigits 10 n).map fun c => c.toNat - 48

/-- a number as it is written -/
def ofNat (n : Nat) : Numeral := ⟨false, digits n, [], none⟩

theorem digits_of_lt {n : Nat} (h : n < 10) : digits n = [n] := by
  unfold digits
  rw [Nat.toDigits_of_lt_base h, List.map_singleton, Nat.toNat_digitChar_sub_48_of_lt_ten h]

theorem digits_of_le {n : Nat} (h : 10 ≤ n) : digits n = digits (n / 10) ++ [n % 10] := by
  unfold digits
  rw [Nat.toDigits_of_base_le (by decide) h, List.map_append, List.map_singleton,
    Nat.toNat_digitChar_sub_48_of_lt_ten (Nat.mod_lt n (by decide))]

theorem ofDigits_digits (n : Nat) : ofDigits (digits n) = n := by
  induction n using Nat.strongRecOn with
  | ind n ih =>
    by_cases h : n < 10
    · rw [digits_of_lt h]
      exact Nat.zero_add n
    · have h10 : 10 ≤ n := Nat.not_lt.1 h
      have hd := ih (n / 10) (by omega)
      unfold ofDigits at hd ⊢
      rw [digits_of_le h10, List.foldl_append, hd]
      exact Nat.div_add_mod' n 10

/-- the value of a written number is the number -/
theorem value?_ofNat {n : Nat} (h : n ≤ maxWord) : (ofNat n).value? = some (.natural n) := by
  unfold value? ofNat
  dsimp only
  rw [ofDigits_digits, if_pos ⟨rfl, rfl, rfl, h⟩]

theorem AreDigits.append {ds es : List Nat} {bs cs : Bytes} (h : AreDigits ds bs)
    (he : AreDigits es cs) : AreDigits (ds ++ es) (bs ++ cs) := by
  unfold AreDigits at h he ⊢
  rw [List.map_append, List.map_append, h, he]

theorem areDigits_digitChar {d : Nat} (h : d < 10) : AreDigits [d] (octetsOf [Nat.digitChar d]) := by
  revert d
  unfold AreDigits
  decide

theorem areDigits_digits (n : Nat) : AreDigits (digits n) (octetsOf (Nat.toDigits 10 n)) := by
  induction n using Nat.strongRecOn with
  | ind n ih =>
    by_cases h : n < 10
    · rw [digits_of_lt h, Nat.toDigits_of_lt_base h]
      exact areDigits_digitChar h
    · have h10 : 10 ≤ n := Nat.not_lt.1 h
      rw [digits_of_le h10, Nat.toDigits_of_base_le (by decide) h10, octetsOf_append]
      exact (ih (n / 10) (by omega)).append (areDigits_digitChar (Nat.mod_lt n (by decide)))

/-- no zero is written in front -/
theorem digits_eq_cons {n : Nat} (h : 0 < n) : ∃ d ds, digits n = d :: ds ∧ d ≠ 0 := by
  induction n using Nat.strongRecOn with
  | ind n ih =>
    by_cases hn : n < 10
    · exact ⟨n, [], digits_of_lt hn, Nat.pos_iff_ne_zero.1 h⟩
    · have h10 : 10 ≤ n := Nat.not_lt.1 hn
      obtain ⟨d, ds, e, hd⟩ := ih (n / 10) (by omega) (by omega)
      exact ⟨d, ds ++ [n % 10], by rw [digits_of_le h10, e]; rfl, hd⟩

/-- a number is spelled so -/
theorem spells_ofNat (n : Nat) : (ofNat n).Spells (octetsOf (Nat.toDigits 10 n)) := by
  refine ⟨octetsOf (Nat.toDigits 10 n), [], [], ?_, ?_, .none, .none⟩
  · rw [List.append_nil, List.append_nil]
    rfl
  · show SpellsWhole (digits n) _
    rcases Nat.eq_zero_or_pos n with rfl | h
    · exact .zero
    · obtain ⟨d, ds, e, hd⟩ := digits_eq_cons h
      have hdigits := areDigits_digits n
      rw [e] at hdigits ⊢
      exact .digits hd hdigits

end Numeral

/-! ## values -/

mutual

/-- all numbers of a value are unsigned integers -/
def unsigned : Json → Bool
  | .number (.natural _) => true
  | .number _ => false
  | .array items => itemsUnsigned items
  | .object members => membersUnsigned members
  | _ => true

def itemsUnsigned : List Json → Bool
  | [] => true
  | v :: r => v.unsigned && itemsUnsigned r

def membersUnsigned : List (String × Json) → Bool
  | [] => true
  | (_, v) :: r => v.unsigned && membersUnsigned r

end

mutual

/-- the tree of a value as it is written -/
def tree : Json → Tree
  | .null => .null
  | .bool b => .bool b
  | .number (.natural n) => .number (.ofNat n)
  | .number _ => .broken
  | .string s => .string (Piece.ofString s)
  | .array items => .array (itemTrees items) .closed
  | .object members => .object (memberTrees members) .closed

def itemTrees : List Json → List Tree
  | [] => []
  | v :: r => v.tree :: itemTrees r

def memberTrees : List (String × Json) → List Member
  | [] => []
  | (n, v) :: r => (Piece.ofString n, v.tree) :: memberTrees r

end

theorem itemChars_cons_cons (v w : Json) (r : List Json) :
    itemChars (v :: w :: r) = v.chars ++ ',' :: itemChars (w :: r) := by
  rw [itemChars]
  exact fun h => nomatch h

theorem memberChars_cons_cons (n : String) (v : Json) (w : String × Json)
    (r : List (String × Json)) :
    memberChars ((n, v) :: w :: r) = quoted n ++ ':' :: v.chars ++ ',' :: memberChars (w :: r) := by
  rw [memberChars]
  exact fun h => nomatch h

/-- a name and the colon behind it -/
theorem spelling_name (n : String) {rest : Bytes} {ts : List Token} (h : Spelling rest ts) :
    Spelling (octetsOf (quoted n ++ [':']) ++ rest) (.string (Piece.ofString n) :: .colon :: ts) := by
  rw [octetsOf_append, List.append_assoc]
  exact (h.push .colon).push (Piece.spells_quoted n)

mutual

/-- a written value spells its tree, whatever is behind it -/
theorem spelling_chars (v : Json) (h : v.unsigned = true) {rest : Bytes} {ts : List Token}
    (hr : Spelling rest ts) : Spelling (octetsOf v.chars ++ rest) (v.tree.tokens ++ ts) := by
  match v, h with
  | .null, _ => exact hr.push .null
  | .bool true, _ => exact hr.push .yes
  | .bool false, _ => exact hr.push .no
  | .number (.natural n), _ =>
    have e : (Json.number (.natural n)).chars = Nat.toDigits 10 n := Nat.toList_repr
    rw [e]
    exact hr.push (.number (Numeral.spells_ofNat n))
  | .string s, _ => exact hr.push (Piece.spells_quoted s)
  | .array items, h =>
    have hi := spelling_items items h hr
    show Spelling (octetsOf (['['] ++ (itemChars items ++ [']'])) ++ rest) _
    rw [octetsOf_append, List.append_assoc]
    exact hi.push .openBracket
  | .object members, h =>
    have hm := spelling_members members h hr
    show Spelling (octetsOf (['\x7b'] ++ (memberChars members ++ ['\x7d'])) ++ rest) _
    rw [octetsOf_append, List.append_assoc]
    exact hm.push .openBrace

theorem spelling_items (items : List Json) (h : itemsUnsigned items = true) {rest : Bytes}
    {ts : List Token} (hr : Spelling rest ts) :
    Spelling (octetsOf (itemChars items ++ [']']) ++ rest) (Tree.itemTokens (itemTrees items) ++ ts) := by
  match items, h with
  | [], _ => exact hr.push .closeBracket
  | [v], h =>
    have hv := spelling_chars v (Bool.and_eq_true_iff.1 h).1 (hr.push .closeBracket)
    show Spelling (octetsOf (v.chars ++ [']']) ++ rest) ((v.tree.tokens ++ [.closeBracket]) ++ ts)
    rw [octetsOf_append, List.append_assoc, List.append_assoc]
    exact hv
  | v :: w :: r, h =>
    obtain ⟨h1, h2⟩ := Bool.and_eq_true_iff.1 h
    have hv := spelling_chars v h1 ((spelling_items (w :: r) h2 hr).push .comma)
    have e : octetsOf (itemChars (v :: w :: r) ++ [']']) ++ rest
        = octetsOf v.chars ++ ([0x2c] ++ (octetsOf (itemChars (w :: r) ++ [']']) ++ rest)) := by
      rw [itemChars_cons_cons, List.append_assoc, octetsOf_append, List.append_assoc]
      rfl
    rw [e]
    show Spelling _ ((v.tree.tokens ++ .comma :: Tree.itemTokens (itemTrees (w :: r))) ++ ts)
    rw [List.append_assoc]
    exact hv

theorem spelling_members (members : List (String × Json)) (h : membersUnsigned members = true)
    {rest : Bytes} {ts : List Token} (hr : Spelling rest ts) :
    Spelling (octetsOf (memberChars members ++ ['\x7d']) ++ rest)
      (Tree.memberTokens (memberTrees members) ++ ts) := by
  match members, h with
  | [], _ => exact hr.push .closeBrace
  | [(n, v)], h =>
    have hv := spelling_chars v (Bool.and_eq_true_iff.1 h).1 (hr.push .closeBrace)
    have e : memberChars [(n, v)] ++ ['\x7d'] = (quoted n ++ [':']) ++ (v.chars ++ ['\x7d']) := by
      rw [memberChars, List.append_assoc, List.append_assoc]
      rfl
    rw [e, octetsOf_append, octetsOf_append v.chars, List.append_assoc, List.append_assoc]
    show Spelling _ (.string (Piece.ofString n) :: .colon :: ((v.tree.tokens ++ [.closeBrace]) ++ ts))
    rw [List.append_assoc]
    exact spelling_name n hv
  | (n, v) :: w :: r, h =>
    obtain ⟨h1, h2⟩ := Bool.and_eq_true_iff.1 h
    have hv := spelling_chars v h1 ((spelling_members (w :: r) h2 hr).push .comma)
    have e : octetsOf (memberChars ((n, v) :: w :: r) ++ ['\x7d']) ++ rest
        = octetsOf (quoted n ++ [':']) ++ (octetsOf v.chars ++
          ([0x2c] ++ (octetsOf (memberChars (w :: r) ++ ['\x7d']) ++ rest))) := by
      have hc : memberChars ((n, v) :: w :: r) ++ ['\x7d']
          = (quoted n ++ [':']) ++ (v.chars ++ ([','] ++ (memberChars (w :: r) ++ ['\x7d']))) := by
        simp only [memberChars_cons_cons, List.append_assoc, List.cons_append, List.nil_append]
      rw [hc, octetsOf_append, octetsOf_append v.chars, octetsOf_append [',']]
      simp only [List.append_assoc]
      rfl
    rw [e]
    show Spelling _ (.string (Piece.ofString n) :: .colon ::
      ((v.tree.tokens ++ .comma :: Tree.memberTokens (memberTrees (w :: r))) ++ ts))
    rw [List.append_assoc]
    exact spelling_name n hv

end

/-- the written form of a value spells its tree -/
theorem spelling_text (v : Json) (h : v.unsigned = true) : Spelling (utf8 v.text) v.tree.tokens := by
  have hs := spelling_chars v h (.nil blank_nil)
  rw [List.append_nil, List.append_nil] at hs
  unfold Json.text
  rw [utf8_ofList]
  exact hs

mutual

/-- the tree of a value is whole -/
theorem isWhole_tree (v : Json) (h : v.unsigned = true) : v.tree.isWhole = true := by
  match v, h with
  | .null, _ | .bool _, _ | .number (.natural _), _ | .string _, _ => rfl
  | .array items, h => exact Bool.and_eq_true_iff.2 ⟨rfl, allWhole_itemTrees items h⟩
  | .object members, h => exact Bool.and_eq_true_iff.2 ⟨rfl, allMembersWhole_memberTrees members h⟩

theorem allWhole_itemTrees (items : List Json) (h : itemsUnsigned items = true) :
    allWhole (itemTrees items) = true := by
  match items, h with
  | [], _ => rfl
  | v :: r, h =>
    obtain ⟨h1, h2⟩ := Bool.and_eq_true_iff.1 h
    exact Bool.and_eq_true_iff.2 ⟨isWhole_tree v h1, allWhole_itemTrees r h2⟩

theorem allMembersWhole_memberTrees (members : List (String × Json))
    (h : membersUnsigned members = true) : allMembersWhole (memberTrees members) = true := by
  match members, h with
  | [], _ => rfl
  | (_, v) :: r, h =>
    obtain ⟨h1, h2⟩ := Bool.and_eq_true_iff.1 h
    exact Bool.and_eq_true_iff.2 ⟨isWhole_tree v h1, allMembersWhole_memberTrees r h2⟩

end

/-- the tree of a written value is that of the value, and nothing is behind it -/
theorem ofText_text (v : Json) (h : v.unsigned = true) :
    Document.ofText (utf8 v.text) = ⟨v.tree, true⟩ :=
  Document.ofText_of_spelling (isWhole_tree v h) (spelling_text v h)

theorem named_memberTrees (members : List (String × Json)) :
    Named (memberTrees members) (members.map fun m => (m.1, m.2.tree)) := by
  induction members with
  | nil => exact .nil
  | cons m r ih => exact .cons ⟨Piece.text?_ofString m.1, rfl⟩ ih

/-- the written form of an object spells its members -/
theorem spellsMembers_text {members : List (String × Json)} (h : membersUnsigned members = true) :
    SpellsMembers (utf8 (Json.object members).text) (members.map fun m => (m.1, m.2.tree)) :=
  ⟨memberTrees members, named_memberTrees members, allMembersWhole_memberTrees members h,
    spelling_text (.object members) h⟩

/-! ## readers of leaves -/

theorem Tree.text_ofString (s : String) : Tree.text (.string (Piece.ofString s)) = .ok s := by
  show orMalformed (Piece.text? (Piece.ofString s)) = _
  rw [Piece.text?_ofString]
  rfl

theorem Tree.word_ofNat {n : Nat} (h : n ≤ maxWord) : Tree.word (.number (.ofNat n)) = .ok n := by
  show (orMalformed (Numeral.ofNat n).value? >>= _) = _
  rw [Numeral.value?_ofNat h]
  rfl

/-- a reader of a written value -/
theorem readText_text {α : Type} (read : Tree → Except Error α) {v : Json} (h : v.unsigned = true) :
    readText read (utf8 v.text) = read v.tree :=
  readText_of_spelling read (isWhole_tree v h) (spelling_text v h)

end Credentials.Json
