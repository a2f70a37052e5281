/-!
# Instants

An instant is a second since the Unix epoch, in UTC, and nanoseconds in it. During a leap second the
nanoseconds run on from one to two billion. Only the years from -262143 to 262142 have instants.

* `Instant`             an instant; its fields are in range by construction;
* `Instant.ofParts?`    an instant from its parts, if they are in range;
* `Instant.of?`         an instant from parts that are read: there a leap second has to stand at the
                        end of a minute;
* `Delta`               a signed span of time, `seconds + nanos / 10^9`;
* `Instant.add?`        the instant a span later, if the calendar has it.
-/

namespace Credentials

/-- nanoseconds in a second -/
def nanosPerSecond : Nat := 1000000000

theorem nanosPerSecond_pos : 0 < nanosPerSecond := by decide

/-- the first second of the calendar: January 1 of the year -262143 -/
def firstSecond : Int := -8334601228800

/-- the last second of the calendar: the end of December 31 of the year 262142 -/
def lastSecond : Int := 8210266876799

/-- an instant of the calendar -/
structure Instant where
  seconds : Int
  nanos : Nat
  /-- two billion is not reached even in a leap second -/
  nanos_lt : nanos < 2 * nanosPerSecond
  in_calendar : firstSecond ≤ seconds ∧ seconds ≤ lastSecond
  deriving DecidableEq

/-- a signed span of time; `nanos` is counted forward from `seconds` -/
structure Delta where
  seconds : Int
  nanos : Nat
  nanos_lt : nanos < nanosPerSecond
  deriving DecidableEq

namespace Instant

/-- the instant of these parts, if they are in range -/
def ofParts? (seconds : Int) (nanos : Nat) : Option Instant :=
  if h : nanos < 2 * nanosPerSecond ∧ firstSecond ≤ seconds ∧ seconds ≤ lastSecond then
    some ⟨seconds, nanos, h.1, h.2⟩
  else none

/-- the instant that is read from these parts. Arithmetic can put a leap second anywhere, but none is
read unless it stands at the end of a minute. -/
def of? (seconds : Int) (nanos : Nat) : Option Instant :=
  if nanosPerSecond ≤ nanos ∧ seconds % 60 ≠ 59 then none else ofParts? seconds nanos

/-- the order of instants: by seconds, then by nanoseconds -/
instance : LT Instant where
  lt a b := a.seconds < b.seconds ∨ (a.seconds = b.seconds ∧ a.nanos < b.nanos)

instance : LE Instant where
  le a b := a.seconds < b.seconds ∨ (a.seconds = b.seconds ∧ a.nanos ≤ b.nanos)

instance (a b : Instant) : Decidable (a < b) :=
  inferInstanceAs (Decidable (a.seconds < b.seconds ∨ (a.seconds = b.seconds ∧ a.nanos < b.nanos)))

instance (a b : Instant) : Decidable (a ≤ b) :=
  inferInstanceAs (Decidable (a.seconds < b.seconds ∨ (a.seconds = b.seconds ∧ a.nanos ≤ b.nanos)))

theorem lt_iff {a b : Instant} :
    a < b ↔ a.seconds < b.seconds ∨ (a.seconds = b.seconds ∧ a.nanos < b.nanos) := Iff.rfl

theorem le_iff {a b : Instant} :
    a ≤ b ↔ a.seconds < b.seconds ∨ (a.seconds = b.seconds ∧ a.nanos ≤ b.nanos) := Iff.rfl

theorem le_refl (a : Instant) : a ≤ a := Or.inr ⟨rfl, Nat.le_refl _⟩

theorem le_trans {a b c : Instant} (h : a ≤ b) (k : b ≤ c) : a ≤ c := by
  rw [le_iff] at h k ⊢
  omega

theorem not_le {a b : Instant} : ¬ a ≤ b ↔ b < a := by
  rw [le_iff, lt_iff]
  omega

end Instant

namespace Delta

/-- the span of these parts, if the nanoseconds are in range -/
def of? (seconds : Int) (nanos : Nat) : Option Delta :=
  if h : nanos < nanosPerSecond then some ⟨seconds, nanos, h⟩ else none

/-- longer than nothing -/
def isPositive (d : Delta) : Bool := 0 < d.seconds || (d.seconds == 0 && 0 < d.nanos)

/-- the whole seconds of a span, without its fraction -/
def wholeSeconds (d : Delta) : Int :=
  if d.seconds < 0 ∧ 0 < d.nanos then d.seconds + 1 else d.seconds

/-- the nanoseconds beside the whole seconds, of the sign of the span -/
def restNanos (d : Delta) : Int :=
  if d.seconds < 0 ∧ 0 < d.nanos then (d.nanos : Int) - nanosPerSecond else d.nanos

end Delta

/-- seconds and nanoseconds of a span later. A span that stays inside a leap second moves only the
nanoseconds; one that leaves it counts the leap second as the one before it when it goes forward,
and as the one behind it when it goes back. -/
def Instant.shift (a : Instant) (d : Delta) : Int × Int :=
  let s := d.wholeSeconds
  let n := d.restNanos
  let full : Int := nanosPerSecond
  if full ≤ a.nanos ∧ ¬ (0 < s ∨ (0 < n ∧ 2 * full ≤ a.nanos + n)) ∧ ¬ s < 0 then
    (a.seconds, a.nanos + n)
  else
    let leap := full ≤ a.nanos
    let nanos := (if leap then a.nanos - full else a.nanos) + n
    let seconds :=
      a.seconds + (if leap ∧ ¬ (0 < s ∨ (0 < n ∧ 2 * full ≤ a.nanos + n)) then 1 else 0) + s
    if nanos < 0 then (seconds - 1, nanos + full)
    else if full ≤ nanos then (seconds + 1, nanos - full)
    else (seconds, nanos)

/-- the instant a span later, if the calendar has it -/
def Instant.add? (a : Instant) (d : Delta) : Option Instant :=
  let (s, n) := a.shift d
  Instant.ofParts? s n.toNat

end Credentials
