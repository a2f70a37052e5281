import Credentials.Bytes.Utf8

/-!
# Base64

Three octets are written as four symbols of an alphabet of 64.

* `Base64.Scheme`     an alphabet and whether a last group is padded: `Base64.standard` (padded) and
                      `Base64.url` (the URL-safe alphabet, never padded);
* `Base64.encode`     the written form;
* `Base64.decode`     the octets of a written form. Only what `encode` writes is read: the padding
                      has to be the scheme's, and unused bits of the last symbol have to be zero;
* `Base64.Error`      what is wrong with a written form, and where.
-/

namespace Credentials.Base64

/-- how octets are written -/
structure Scheme where
  /-- the symbols of 62 and 63 -/
  symbol62 : UInt8
  symbol63 : UInt8
  /-- whether the last group is filled up to four symbols -/
  padded : Bool

/-- the standard alphabet with padding -/
def standard : Scheme := ⟨0x2b, 0x2f, true⟩

/-- the URL-safe alphabet without padding -/
def url : Scheme := ⟨0x2d, 0x5f, false⟩

/-- the padding symbol, an equals sign -/
def pad : UInt8 := 0x3d

/-- the symbol of a value below 64 -/
def Scheme.symbol (s : Scheme) (v : Nat) : UInt8 :=
  if v < 26 then UInt8.ofNat (65 + v)
  else if v < 52 then UInt8.ofNat (71 + v)
  else if v < 62 then UInt8.ofNat (v - 4)
  else if v = 62 then s.symbol62
  else s.symbol63

/-- the value of a symbol -/
def Scheme.value? (s : Scheme) (b : UInt8) : Option Nat :=
  if 65 ≤ b ∧ b ≤ 90 then some (b.toNat - 65)
  else if 97 ≤ b ∧ b ≤ 122 then some (b.toNat - 71)
  else if 48 ≤ b ∧ b ≤ 57 then some (b.toNat + 4)
  else if b = s.symbol62 then some 62
  else if b = s.symbol63 then some 63
  else none

/-! ## Writing -/

/-- the padding behind a short last group -/
def Scheme.padding (s : Scheme) (n : Nat) : Bytes := if s.padded then List.replicate n pad else []

/-- the symbols of octets -/
def symbols (s : Scheme) : Bytes → Bytes
  | a :: b :: c :: r =>
    s.symbol (a.toNat / 4) :: s.symbol (a.toNat % 4 * 16 + b.toNat / 16) ::
      s.symbol (b.toNat % 16 * 4 + c.toNat / 64) :: s.symbol (c.toNat % 64) :: symbols s r
  | [a, b] =>
    [s.symbol (a.toNat / 4), s.symbol (a.toNat % 4 * 16 + b.toNat / 16),
      s.symbol (b.toNat % 16 * 4)] ++ s.padding 1
  | [a] => [s.symbol (a.toNat / 4), s.symbol (a.toNat % 4 * 16)] ++ s.padding 2
  | [] => []

/-- the written form of octets -/
def encode (s : Scheme) (bs : Bytes) : String :=
  String.ofList ((symbols s bs).map fun b => Char.ofNat b.toNat)

/-! ## Reading -/

/-- what is wrong with a written form; offsets count octets from its start -/
inductive Error where
  | symbol (symbol : UInt8) (offset : Nat)
  | length (length : Nat)
  | lastSymbol (symbol : UInt8) (offset : Nat)
  | padding
  deriving DecidableEq, Repr

/-- the wording of an error -/
def Error.message : Error → String
  | .symbol b i => "Invalid symbol " ++ toString b.toNat ++ ", offset " ++ toString i ++ "."
  | .length n => "Invalid input length: " ++ toString n
  | .lastSymbol b i => "Invalid last symbol " ++ toString b.toNat ++ ", offset " ++ toString i ++ "."
  | .padding => "Invalid padding"

/-- the value of the symbol at an offset -/
def Scheme.valueAt (s : Scheme) (b : UInt8) (offset : Nat) : Except Error Nat :=
  match s.value? b with
  | some v => .ok v
  | none => .error (.symbol b offset)

/-- a group of one to four symbols, looked through from the left -/
structure Group where
  /-- the symbols before the padding, with their values -/
  values : List (UInt8 × Nat)
  /-- how many padding symbols follow -/
  pads : Nat

/-- looks through the last group, whose first symbol is at `start`: padding may only stand behind
two symbols, and nothing behind padding -/
def scan (s : Scheme) (start : Nat) : (index : Nat) → Group → Bytes → Except Error Group
  | _, g, [] => .ok g
  | index, g, b :: r =>
    if b = pad then
      if index < 2 then .error (.symbol pad (start + index))
      else scan s start (index + 1) ⟨g.values, g.pads + 1⟩ r
    else if 0 < g.pads then .error (.symbol pad (start + g.values.length))
    else do
      let v ← s.valueAt b (start + index)
      scan s start (index + 1) ⟨g.values ++ [(b, v)], 0⟩ r

/-- the octets of the last group -/
def finish (s : Scheme) (start : Nat) (rest : Bytes) : Except Error Bytes := do
  let g ← scan s start 0 ⟨[], 0⟩ rest
  let n := g.values.length
  if rest = [] then .ok []
  else if n < 2 then .error (.length (start + n))
  else if s.padded && (n + g.pads) % 4 != 0 || !s.padded && g.pads != 0 then .error .padding
  else
    match g.values with
    | [(_, v), (b, w)] =>
      if w % 16 = 0 then .ok [UInt8.ofNat (v * 4 + w / 16)]
      else .error (.lastSymbol b (start + 1))
    | [(_, v), (_, w), (b, x)] =>
      if x % 4 = 0 then .ok [UInt8.ofNat (v * 4 + w / 16), UInt8.ofNat (w % 16 * 16 + x / 4)]
      else .error (.lastSymbol b (start + 2))
    | [(_, v), (_, w), (_, x), (_, y)] =>
      .ok [UInt8.ofNat (v * 4 + w / 16), UInt8.ofNat (w % 16 * 16 + x / 4),
        UInt8.ofNat (x % 4 * 64 + y)]
    | _ => .ok []

/-- reads whole groups while more symbols follow, then the last group -/
def groups (s : Scheme) (start : Nat) : Bytes → Except Error Bytes
  | a :: b :: c :: d :: e :: r => do
    let v ← s.valueAt a start
    let w ← s.valueAt b (start + 1)
    let x ← s.valueAt c (start + 2)
    let y ← s.valueAt d (start + 3)
    let rest ← groups s (start + 4) (e :: r)
    .ok (UInt8.ofNat (v * 4 + w / 16) :: UInt8.ofNat (w % 16 * 16 + x / 4) ::
      UInt8.ofNat (x % 4 * 64 + y) :: rest)
  | rest => finish s start rest

/-- the octets of a written form. A single symbol behind whole groups is named first if it is in no
alphabet; then the first problem from the left counts. -/
def decode (s : Scheme) (text : Bytes) : Except Error Bytes :=
  match text.getLast? with
  | some b =>
    if text.length % 4 = 1 ∧ b ≠ pad ∧ s.value? b = none then .error (.symbol b (text.length - 1))
    else groups s 0 text
  | none => .ok []

end Credentials.Base64
