import Credentials.Text.Blank
import Credentials.Decimal.Shortest
import Credentials.Time.Instant

/-!
# Lengths of time and how they are written

A length of time has 64 bits of seconds and a fraction in nanoseconds.

* `Span`               a length of time, in range by construction;
* `TimeUnit`           the units it is written in; a month has 30.44 days, a year 365.25;
* `Span.text`          the written form: items such as `1h 30m 5ms`, the larger units first;
* `Span.read?`         the length of a text of such items, in any order, with decimal parts and with
                       blanks nearly everywhere;
* `Span.decimalText`   the length as one decimal number of seconds or of a smaller unit.
-/

namespace Credentials

-- powers are those of natural numbers, whatever else has some
attribute [local instance (high)] instPowNat

/-- what fits in 64 bits -/
def wordLimit : Nat := 2 ^ (64 : Nat)

/-- a length of time -/
@[ext]
structure Span where
  seconds : Nat
  nanos : Nat
  seconds_lt : seconds < wordLimit
  nanos_lt : nanos < nanosPerSecond

namespace Span

instance : DecidableEq Span := fun _ _ => decidable_of_iff _ Span.ext_iff.symm

/-- the length of these parts; whole seconds among the nanoseconds are carried over -/
def of? (seconds nanos : Nat) : Option Span :=
  if h : seconds + nanos / nanosPerSecond < wordLimit then
    some ⟨seconds + nanos / nanosPerSecond, nanos % nanosPerSecond, h,
      Nat.mod_lt _ nanosPerSecond_pos⟩
  else none

/-- no time at all -/
def zero : Span := ⟨0, 0, by decide, nanosPerSecond_pos⟩

def isZero (s : Span) : Bool := s.seconds == 0 && s.nanos == 0

end Span

/-- a unit of time -/
inductive TimeUnit where
  | nanosecond
  | microsecond
  | millisecond
  | second
  | minute
  | hour
  | day
  | week
  | month
  | year
  deriving DecidableEq, Repr

namespace TimeUnit

/-- whole seconds in a unit, zero for the small ones -/
def seconds : TimeUnit → Nat
  | .nanosecond | .microsecond | .millisecond => 0
  | .second => 1
  | .minute => 60
  | .hour => 3600
  | .day => 86400
  | .week => 604800
  | .month => 2630016
  | .year => 31557600

/-- nanoseconds in a unit below a second, zero for the others -/
def nanos : TimeUnit → Nat
  | .nanosecond => 1
  | .microsecond => 1000
  | .millisecond => 1000000
  | _ => 0

/-- the unit that decimal parts of this one are counted in: nanoseconds for units up to a minute
(`false`), whole seconds for the larger ones (`true`) -/
def countsSeconds : TimeUnit → Bool
  | .hour | .day | .week | .month | .year => true
  | _ => false

/-- the unit of a name -/
def ofName? (name : List Char) : Option TimeUnit :=
  let s := String.ofList name
  if s ∈ ["nanos", "nsec", "ns"] then some .nanosecond
  else if s ∈ ["usec", "us", "µs"] then some .microsecond
  else if s ∈ ["millis", "msec", "ms"] then some .millisecond
  else if s ∈ ["seconds", "second", "secs", "sec", "s"] then some .second
  else if s ∈ ["minutes", "minute", "min", "mins", "m"] then some .minute
  else if s ∈ ["hours", "hour", "hr", "hrs", "h"] then some .hour
  else if s ∈ ["days", "day", "d"] then some .day
  else if s ∈ ["weeks", "week", "wk", "wks", "w"] then some .week
  else if s ∈ ["months", "month", "M"] then some .month
  else if s ∈ ["years", "year", "yr", "yrs", "y"] then some .year
  else none

end TimeUnit

namespace Span

/-! ## Writing -/

/-- one item, nothing for zero; `many` stands behind a number above one -/
def item (n : Nat) (name many : String) : List String :=
  if n = 0 then [] else [toString n ++ name ++ (if 1 < n then many else "")]

/-- the items of a length -/
def items (s : Span) : List String :=
  let inYear := s.seconds % 31557600
  let inMonth := inYear % 2630016
  let inDay := inMonth % 86400
  item (s.seconds / 31557600) "year" "s" ++ item (inYear / 2630016) "month" "s" ++
    item (inMonth / 86400) "day" "s" ++ item (inDay / 3600) "h" "" ++
    item (inDay % 3600 / 60) "m" "" ++ item (inDay % 60) "s" "" ++
    item (s.nanos / 1000000) "ms" "" ++ item (s.nanos / 1000 % 1000) "us" "" ++
    item (s.nanos % 1000) "ns" ""

/-- the written form -/
def text (s : Span) : String := if s.isZero then "0s" else " ".intercalate s.items

/-! ## Reading -/

/-- a product or a sum that still fits in 64 bits -/
def fits? (n : Nat) : Option Nat := if n < wordLimit then some n else none

/-- a decimal part, `numerator / denominator` -/
structure Part where
  numerator : Nat
  denominator : Nat

/-- a length with seconds and nanoseconds added -/
def extend? (s : Span) (seconds nanos : Nat) : Option Span := do
  let n ← fits? (s.nanos + nanos)
  of? (s.seconds + seconds) n

/-- a length with so many units added -/
def addUnits? (s : Span) (n : Nat) (unit : TimeUnit) : Option Span := do
  let seconds ← fits? (n * unit.seconds)
  let nanos ← fits? (n * unit.nanos)
  s.extend? seconds nanos

/-- a length with a part of a unit added; the part has to be a whole number of what it is counted
in, and nanoseconds have no parts -/
def addPart? (s : Span) (part : Part) (unit : TimeUnit) : Option Span :=
  let one := if unit.countsSeconds then unit.seconds
    else unit.seconds * nanosPerSecond + unit.nanos
  if unit = .nanosecond then none
  else do
    let n ← fits? (part.numerator * one)
    if n % part.denominator = 0 then
      let n := n / part.denominator
      if unit.countsSeconds then s.extend? n 0 else s.extend? 0 n
    else none

/-- where in a text the reader is -/
inductive Reading where
  /-- before a number; `first` if there was none yet -/
  | gap (first : Bool)
  /-- in a number -/
  | number (n : Nat)
  /-- behind its point -/
  | part (n : Nat) (part : Part)
  /-- in the name of its unit, which is kept with the newest letter in front -/
  | unit (n : Nat) (part : Option Part) (name : List Char)

/-- a letter of a unit -/
def isUnitLetter (c : Char) : Bool := c.isAlpha || c == 'µ'

/-- the value of a digit -/
def digit? (c : Char) : Option Nat := if c.isDigit then some (c.toNat - 48) else none

/-- a length with a finished item added -/
def addItem? (s : Span) (n : Nat) (part : Option Part) (name : List Char) : Option Span := do
  let unit ← TimeUnit.ofName? name.reverse
  let s ← s.addUnits? n unit
  match part with
  | some p => s.addPart? p unit
  | none => some s

/-- one step of the reader -/
def step? (s : Span) (r : Reading) (c : Char) : Option (Span × Reading) :=
  match r, digit? c with
  | .gap _, some d => some (s, .number d)
  | .gap first, none => if Text.isBlank c then some (s, .gap first) else none
  | .number n, some d => do
    let n ← fits? (n * 10 + d)
    some (s, .number n)
  | .number n, none =>
    if Text.isBlank c then some (s, .number n)
    else if isUnitLetter c then some (s, .unit n none [c])
    else if c = '.' then some (s, .part n ⟨0, 1⟩)
    else none
  | .part n p, some d => do
    let denominator ← fits? (p.denominator * 10)
    let numerator ← fits? (p.numerator * 10 + d)
    some (s, .part n ⟨numerator, denominator⟩)
  | .part n p, none =>
    if Text.isBlank c then some (s, .part n p)
    else if isUnitLetter c ∧ p.denominator ≠ 1 then some (s, .unit n (some p) [c])
    else none
  | .unit n p name, some d => do
    let s ← s.addItem? n p name
    some (s, .number d)
  | .unit n p name, none =>
    if Text.isBlank c then do
      let s ← s.addItem? n p name
      some (s, .gap false)
    else if isUnitLetter c then some (s, .unit n p (c :: name))
    else none

/-- reads to the end of a text -/
def readFrom? (s : Span) (r : Reading) : List Char → Option Span
  | [] =>
    match r with
    | .gap false => some s
    | .unit n p name => s.addItem? n p name
    | _ => none
  | c :: cs => do
    let (s, r) ← s.step? r c
    readFrom? s r cs

/-- the length of a text; a lone zero needs no unit -/
def read? (text : String) : Option Span :=
  if text = "0" then some zero else readFrom? zero (.gap true) text.toList

/-! ## As one decimal number -/

/-- a number and a fraction of `10^width`, without zeros behind -/
def decimal (whole part width : Nat) : String :=
  let ds := withoutFinalZeros (filled width part)
  toString whole ++ (if part = 0 then "" else String.ofList ('.' :: ds))

/-- the length in the largest of seconds, milli-, micro- and nanoseconds that is not above it -/
def decimalText (s : Span) : String :=
  if 0 < s.seconds then decimal s.seconds s.nanos 9 ++ "s"
  else if 1000000 ≤ s.nanos then decimal (s.nanos / 1000000) (s.nanos % 1000000) 6 ++ "ms"
  else if 1000 ≤ s.nanos then decimal (s.nanos / 1000) (s.nanos % 1000) 3 ++ "µs"
  else toString s.nanos ++ "ns"

end Span

end Credentials
