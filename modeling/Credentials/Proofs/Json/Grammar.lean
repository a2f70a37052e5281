import Credentials.Json.Tree

/-!
# The grammar of a JSON text

* `Piece.SpellsAll`, `Numeral.Spells`, `Token.Spells`   how a token may be written;
* `Spelling`             tokens with blanks between them, as many as one likes;
* `Tree.tokens`          the tokens of a tree;
* `Token.Apart`          no number stands directly in front of what might continue it;
* `Tree.apart`           nor does one among the tokens of a tree.

A string may be spelled with any escapes, in either case of their digits, and a number with either mark of
its exponent and with a plus sign that is not needed. The tree keeps none of this.
-/

namespace Credentials.Json

/-! ## how tokens are written -/

/-- the octets that may stand for themselves inside a string -/
def Scan.Plain (b : UInt8) : Prop := b ≠ 0x22 ∧ b ≠ 0x5c ∧ ¬ b < 0x20

namespace Piece

/-- how a piece of a string may be written -/
inductive Spells : Piece → Bytes → Prop
  | plain {b : UInt8} (h : Scan.Plain b) : Spells (.octet b) [b]
  | escape {b c : UInt8} (h : Scan.escaped? b = some c) : Spells (.octet c) [0x5c, b]
  | unit {b₁ b₂ b₃ b₄ : UInt8} {d₁ d₂ d₃ d₄ : Nat} (h₁ : Hex.value? (Char.ofNat b₁.toNat) = some d₁)
    (h₂ : Hex.value? (Char.ofNat b₂.toNat) = some d₂) (h₃ : Hex.value? (Char.ofNat b₃.toNat) = some d₃)
    (h₄ : Hex.value? (Char.ofNat b₄.toNat) = some d₄) :
    Spells (.unit (((d₁ * 16 + d₂) * 16 + d₃) * 16 + d₄)) [0x5c, 0x75, b₁, b₂, b₃, b₄]

/-- how the pieces of a string may be written -/
inductive SpellsAll : List Piece → Bytes → Prop
  | nil : SpellsAll [] []
  | cons {p : Piece} {ps : List Piece} {bs cs : Bytes} (h : p.Spells bs) (hs : SpellsAll ps cs) :
    SpellsAll (p :: ps) (bs ++ cs)

end Piece

namespace Numeral

/-- octets are the digits of these values -/
def AreDigits (ds : List Nat) (bs : Bytes) : Prop := bs.map digitValue? = ds.map some

/-- how the whole part of a number may be written: without zeros in front -/
inductive SpellsWhole : List Nat → Bytes → Prop
  | zero : SpellsWhole [0] [0x30]
  | digits {d : Nat} {ds : List Nat} {bs : Bytes} (hd : d ≠ 0) (h : AreDigits (d :: ds) bs) :
    SpellsWhole (d :: ds) bs

/-- how the fraction of a number may be written, if it has one -/
inductive SpellsFraction : List Nat → Bytes → Prop
  | none : SpellsFraction [] []
  | point {d : Nat} {ds : List Nat} {bs : Bytes} (h : AreDigits (d :: ds) bs) :
    SpellsFraction (d :: ds) (0x2e :: bs)

/-- the mark of an exponent -/
def IsMark (b : UInt8) : Prop := b = 0x65 ∨ b = 0x45

/-- how the exponent of a number may be written, if it has one -/
inductive SpellsPower : Option (Bool × List Nat) → Bytes → Prop
  | none : SpellsPower none []
  | plain {m : UInt8} {d : Nat} {ds : List Nat} {bs : Bytes} (hm : IsMark m)
    (h : AreDigits (d :: ds) bs) : SpellsPower (some (false, d :: ds)) (m :: bs)
  | plus {m : UInt8} {d : Nat} {ds : List Nat} {bs : Bytes} (hm : IsMark m)
    (h : AreDigits (d :: ds) bs) : SpellsPower (some (false, d :: ds)) (m :: 0x2b :: bs)
  | minus {m : UInt8} {d : Nat} {ds : List Nat} {bs : Bytes} (hm : IsMark m)
    (h : AreDigits (d :: ds) bs) : SpellsPower (some (true, d :: ds)) (m :: 0x2d :: bs)

/-- the sign of a number -/
def signOctets (negative : Bool) : Bytes := if negative then [0x2d] else []

/-- how a number may be written -/
structure Spells (n : Numeral) (bs : Bytes) : Prop where
  parts : ∃ w f p, bs = signOctets n.negative ++ (w ++ (f ++ p)) ∧ SpellsWhole n.whole w ∧
    SpellsFraction n.fraction f ∧ SpellsPower n.exponent p

end Numeral

/-- an octet that ends what stands in front of it, and its token -/
inductive Delimits : UInt8 → Token → Prop where
  | comma : Delimits 0x2c .comma
  | closeBrace : Delimits 0x7d .closeBrace
  | closeBracket : Delimits 0x5d .closeBracket

namespace Token

/-- how a token may be written -/
inductive Spells : Token → Bytes → Prop
  | openBrace : Spells .openBrace [0x7b]
  | closeBrace : Spells .closeBrace [0x7d]
  | openBracket : Spells .openBracket [0x5b]
  | closeBracket : Spells .closeBracket [0x5d]
  | colon : Spells .colon [0x3a]
  | comma : Spells .comma [0x2c]
  | null : Spells .null (asciiBytes ['n', 'u', 'l', 'l'])
  | yes : Spells (.bool true) (asciiBytes ['t', 'r', 'u', 'e'])
  | no : Spells (.bool false) (asciiBytes ['f', 'a', 'l', 's', 'e'])
  | number {n : Numeral} {bs : Bytes} (h : n.Spells bs) : Spells (.number n) bs
  | string {ps : List Piece} {bs : Bytes} (h : Piece.SpellsAll ps bs) :
    Spells (.string ps) (0x22 :: (bs ++ [0x22]))

/-- a token that its next octet might continue -/
def isOpenEnded : Token → Bool
  | .number _ => true
  | _ => false

/-- no number stands directly in front of what is no delimiter, nor does one that is still `pending` -/
def Apart (pending : Bool) : List Token → Prop
  | [] => True
  | t :: ts => (pending = true → ∃ b, Delimits b t) ∧ Apart t.isOpenEnded ts

end Token

/-- spaces and ends of lines -/
def Blank (bs : Bytes) : Prop := ∀ b ∈ bs, Scan.isBlank b = true

/-- how tokens may be written, with blanks anywhere between them -/
inductive Spelling : Bytes → List Token → Prop
  | nil {gap : Bytes} (hg : Blank gap) : Spelling gap []
  | cons {gap bs rest : Bytes} {t : Token} {ts : List Token} (hg : Blank gap) (ht : t.Spells bs)
    (hr : Spelling rest ts) : Spelling (gap ++ (bs ++ rest)) (t :: ts)

theorem blank_nil : Blank [] := fun _ h => absurd h List.not_mem_nil

/-- a token directly in front of others -/
theorem Spelling.push {t : Token} {bs rest : Bytes} {ts : List Token} (ht : t.Spells bs)
    (hr : Spelling rest ts) : Spelling (bs ++ rest) (t :: ts) := .cons blank_nil ht hr

/-! ## the tokens of a tree -/

namespace Tree

mutual

/-- the tokens of a tree -/
def tokens : Tree → List Token
  | .null => [.null]
  | .bool b => [.bool b]
  | .number n => [.number n]
  | .string ps => [.string ps]
  | .array items _ => .openBracket :: itemTokens items
  | .object members _ => .openBrace :: memberTokens members
  | .broken => [.broken]

/-- the tokens of the items of an array, and its end -/
def itemTokens : List Tree → List Token
  | [] => [.closeBracket]
  | t :: r => t.tokens ++ laterItemTokens r

/-- the tokens of further items of an array, and its end -/
def laterItemTokens : List Tree → List Token
  | [] => [.closeBracket]
  | t :: r => .comma :: (t.tokens ++ laterItemTokens r)

/-- the tokens of the members of an object, and its end -/
def memberTokens : List Member → List Token
  | [] => [.closeBrace]
  | (k, t) :: r => .string k :: .colon :: (t.tokens ++ laterMemberTokens r)

/-- the tokens of further members of an object, and its end -/
def laterMemberTokens : List Member → List Token
  | [] => [.closeBrace]
  | (k, t) :: r => .comma :: .string k :: .colon :: (t.tokens ++ laterMemberTokens r)

end

end Tree

open Token (Apart)

theorem Token.Apart.weaken {ts : List Token} (h : Apart true ts) (pending : Bool) : Apart pending ts := by
  cases ts with
  | nil => trivial
  | cons t ts => exact ⟨fun _ => h.1 rfl, h.2⟩

/-- behind what is no number anything may stand -/
theorem Token.Apart.cons {t : Token} {ts : List Token} (ht : t.isOpenEnded = false) (h : Apart false ts) :
    Apart false (t :: ts) := ⟨nofun, ht ▸ h⟩

/-- delimiters may stand anywhere -/
theorem Token.Apart.delimit {b : UInt8} {t : Token} {ts : List Token} (hb : Delimits b t)
    (h : Apart false ts) (pending : Bool) : Apart pending (t :: ts) := by
  refine ⟨fun _ => ⟨b, hb⟩, ?_⟩
  cases hb <;> exact h

namespace Tree

mutual

/-- no number in a tree stands in front of what might continue it -/
theorem apart_tokens (t : Tree) {ts : List Token} (h : Apart true ts) : Apart false (t.tokens ++ ts) := by
  match t with
  | .null | .bool _ | .string _ | .broken => exact .cons rfl (h.weaken false)
  | .number _ => exact ⟨nofun, h⟩
  | .array [] _ => exact .cons rfl (.delimit .closeBracket (h.weaken false) false)
  | .array (t :: r) _ =>
    have hr := apart_tokens t (apart_laterItemTokens r h)
    rw [← List.append_assoc] at hr
    exact .cons rfl hr
  | .object [] _ => exact .cons rfl (.delimit .closeBrace (h.weaken false) false)
  | .object ((k, t) :: r) _ =>
    have hr := apart_tokens t (apart_laterMemberTokens r h)
    rw [← List.append_assoc] at hr
    exact .cons rfl (.cons rfl (.cons rfl hr))

theorem apart_laterItemTokens (items : List Tree) {ts : List Token} (h : Apart true ts) :
    Apart true (laterItemTokens items ++ ts) := by
  match items with
  | [] => exact .delimit .closeBracket (h.weaken false) true
  | t :: r =>
    have hr := apart_tokens t (apart_laterItemTokens r h)
    rw [← List.append_assoc] at hr
    exact .delimit .comma hr true

theorem apart_laterMemberTokens (members : List Member) {ts : List Token} (h : Apart true ts) :
    Apart true (laterMemberTokens members ++ ts) := by
  match members with
  | [] => exact .delimit .closeBrace (h.weaken false) true
  | (k, t) :: r =>
    have hr := apart_tokens t (apart_laterMemberTokens r h)
    rw [← List.append_assoc] at hr
    exact .delimit .comma (.cons rfl (.cons rfl hr)) true

end

theorem apart (t : Tree) : Apart false t.tokens := by
  have h := t.apart_tokens (show Apart true [] from trivial)
  rwa [List.append_nil] at h

end Tree

end Credentials.Json
