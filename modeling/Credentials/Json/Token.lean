import Credentials.Bytes.Hex

/-!
# The tokens of a JSON text

Octets are scanned one at a time by a machine whose step does not look ahead, so that the tokens of
a joined text are those of its parts, one after another.

* `Token`        a token; a text that breaks the rules ends in `Token.broken`, and nothing follows;
* `Piece`        a string is kept as it is written: octets, and code units of `\uXXXX` escapes.
                 Whether this is a text (well-formed, surrogates paired) is not asked here;
* `Numeral`      the digits of a number as they are written;
* `Scan.next`    one step of the machine;
* `tokens`       the tokens of a text.
-/

namespace Credentials.Json

/-- a piece of a written string -/
inductive Piece where
  /-- an octet that stands for itself, or a letter behind a backslash -/
  | octet (b : UInt8)
  /-- the code unit of a `\uXXXX` escape -/
  | unit (n : Nat)
  deriving DecidableEq, Repr

/-- a written number; digits are values below ten -/
structure Numeral where
  negative : Bool
  whole : List Nat
  /-- digits behind the point; none if there is no point -/
  fraction : List Nat
  /-- whether the exponent is negative, and its digits -/
  exponent : Option (Bool × List Nat)
  deriving DecidableEq, Repr

inductive Token where
  | openBrace
  | closeBrace
  | openBracket
  | closeBracket
  | colon
  | comma
  | null
  | bool (b : Bool)
  | number (n : Numeral)
  | string (ps : List Piece)
  /-- from here on the text is no JSON -/
  | broken
  deriving DecidableEq, Repr

/-! ## Numbers -/

/-- where in a number the machine is -/
inductive Stage where
  /-- behind a minus sign -/
  | minus
  /-- behind a leading zero -/
  | zero
  /-- behind another digit of the whole part -/
  | whole
  /-- behind the point -/
  | point
  /-- behind a digit of the fraction -/
  | fraction
  /-- behind the exponent mark -/
  | mark
  /-- behind the sign of the exponent -/
  | sign
  /-- behind a digit of the exponent -/
  | power
  deriving DecidableEq, Repr

/-- a number may end here -/
def Stage.mayEnd : Stage → Bool
  | .zero | .whole | .fraction | .power => true
  | _ => false

/-- the value of a decimal digit -/
def digitValue? (b : UInt8) : Option Nat := if 48 ≤ b ∧ b ≤ 57 then some (b.toNat - 48) else none

namespace Numeral

/-- a number with no digits yet -/
def start (negative : Bool) : Numeral := ⟨negative, [], [], none⟩

/-- while a number is scanned, its digits are kept with the newest in front -/
def close (n : Numeral) : Numeral :=
  ⟨n.negative, n.whole.reverse, n.fraction.reverse, n.exponent.map fun (s, ds) => (s, ds.reverse)⟩

def pushWhole (n : Numeral) (d : Nat) : Numeral := { n with whole := d :: n.whole }
def pushFraction (n : Numeral) (d : Nat) : Numeral := { n with fraction := d :: n.fraction }

def pushPower (n : Numeral) (d : Nat) : Numeral :=
  match n.exponent with
  | some (s, ds) => { n with exponent := some (s, d :: ds) }
  | none => { n with exponent := some (false, [d]) }

def signPower (n : Numeral) (negative : Bool) : Numeral :=
  { n with exponent := some (negative, []) }

/-- the next stage of a number, if the octet continues it -/
def next? (stage : Stage) (n : Numeral) (b : UInt8) : Option (Stage × Numeral) :=
  let isMark := b = 0x65 ∨ b = 0x45
  match stage, digitValue? b with
  | .minus, some 0 => some (.zero, n.pushWhole 0)
  | .minus, some d => some (.whole, n.pushWhole d)
  | .whole, some d => some (.whole, n.pushWhole d)
  | .point, some d => some (.fraction, n.pushFraction d)
  | .fraction, some d => some (.fraction, n.pushFraction d)
  | .mark, some d => some (.power, n.pushPower d)
  | .sign, some d => some (.power, n.pushPower d)
  | .power, some d => some (.power, n.pushPower d)
  | .zero, none | .whole, none =>
    if b = 0x2e then some (.point, n) else if isMark then some (.mark, n.signPower false) else none
  | .fraction, none => if isMark then some (.mark, n.signPower false) else none
  | .mark, none =>
    if b = 0x2b then some (.sign, n.signPower false)
    else if b = 0x2d then some (.sign, n.signPower true)
    else none
  | _, _ => none

end Numeral

/-! ## The machine -/

inductive Scan where
  /-- between tokens -/
  | between
  /-- inside a word, with the octets that have to follow and the token they complete -/
  | word (rest : Bytes) (token : Token)
  /-- inside a string, with its pieces, the newest in front -/
  | text (ps : List Piece)
  /-- behind a backslash -/
  | escape (ps : List Piece)
  /-- inside an escape with `left` hexadecimal digits to come -/
  | unit (left value : Nat) (ps : List Piece)
  | number (stage : Stage) (n : Numeral)
  /-- behind a broken token -/
  | stopped
  deriving DecidableEq, Repr

namespace Scan

/-- tokens that a step completes, and the state behind it -/
abbrev Step := List Token × Scan

def stop : Step := ([.broken], .stopped)

/-- space, tab, line feed and carriage return -/
def isBlank (b : UInt8) : Bool := b == 0x20 || b == 0x09 || b == 0x0a || b == 0x0d

/-- a step between tokens -/
def begin (b : UInt8) : Step :=
  if isBlank b then ([], .between)
  else if b = 0x7b then ([.openBrace], .between)
  else if b = 0x7d then ([.closeBrace], .between)
  else if b = 0x5b then ([.openBracket], .between)
  else if b = 0x5d then ([.closeBracket], .between)
  else if b = 0x3a then ([.colon], .between)
  else if b = 0x2c then ([.comma], .between)
  else if b = 0x22 then ([], .text [])
  else if b = 0x2d then ([], .number .minus (.start true))
  else if b = 0x30 then ([], .number .zero ((Numeral.start false).pushWhole 0))
  else if b = 0x6e then ([], .word (asciiBytes ['u', 'l', 'l']) .null)
  else if b = 0x74 then ([], .word (asciiBytes ['r', 'u', 'e']) (.bool true))
  else if b = 0x66 then ([], .word (asciiBytes ['a', 'l', 's', 'e']) (.bool false))
  else
    match digitValue? b with
    | some d => ([], .number .whole ((Numeral.start false).pushWhole d))
    | none => stop

/-- the octet meant by a letter behind a backslash -/
def escaped? (b : UInt8) : Option UInt8 :=
  if b = 0x22 ∨ b = 0x5c ∨ b = 0x2f then some b
  else if b = 0x62 then some 0x08
  else if b = 0x66 then some 0x0c
  else if b = 0x6e then some 0x0a
  else if b = 0x72 then some 0x0d
  else if b = 0x74 then some 0x09
  else none

/-- one step of the machine -/
def next (s : Scan) (b : UInt8) : Step :=
  match s with
  | .between => begin b
  | .word [c] token => if b = c then ([token], .between) else stop
  | .word (c :: rest) token => if b = c then ([], .word rest token) else stop
  | .word [] _ => stop
  | .text ps =>
    if b = 0x22 then ([.string ps.reverse], .between)
    else if b = 0x5c then ([], .escape ps)
    else if b < 0x20 then stop
    else ([], .text (.octet b :: ps))
  | .escape ps =>
    if b = 0x75 then ([], .unit 4 0 ps)
    else
      match escaped? b with
      | some c => ([], .text (.octet c :: ps))
      | none => stop
  | .unit left value ps =>
    match Hex.value? (Char.ofNat b.toNat) with
    | some d =>
      if left ≤ 1 then ([], .text (.unit (value * 16 + d) :: ps))
      else ([], .unit (left - 1) (value * 16 + d) ps)
    | none => stop
  | .number stage n =>
    match n.next? stage b with
    | some (stage, n) => ([], .number stage n)
    | none =>
      -- a zero in front of a digit is no number
      if stage.mayEnd && (digitValue? b).isNone then
        let (ts, s) := begin b
        (.number n.close :: ts, s)
      else stop
  | .stopped => ([], .stopped)

/-- what the end of the text completes -/
def last : Scan → List Token
  | .between | .stopped => []
  | .number stage n => if stage.mayEnd then [.number n.close] else [.broken]
  | _ => [.broken]

/-- runs the machine to the end of a text; tokens so far are kept with the newest in front -/
def run (s : Scan) (done : List Token) : Bytes → List Token
  | [] => done.reverse ++ s.last
  | b :: r =>
    let (ts, s) := s.next b
    run s (ts.reverse ++ done) r

end Scan

/-- the tokens of a text -/
def tokens (text : Bytes) : List Token := Scan.run .between [] text

end Credentials.Json
