/-!
# Floating-point numbers of 64 bits

A finite number of the binary64 format is a sign and a magnitude `m · 2^q`. All arithmetic is exact
arithmetic on natural numbers followed by one rounding.

* `Magnitude`            `m · 2^q` with `m < 2^53` and `-1074 ≤ q ≤ 971`, as `Magnitude.round`
                         gives it;
* `Magnitude.round?`     a quotient rounded to the nearest magnitude, a tie to the even one; nothing
                         if it is too large;
* `Magnitude.mul?`, `Magnitude.div?`, `Magnitude.ofNat?`, `Magnitude.pow10?`   by this rounding;
* `Magnitude.scale?`     a magnitude times a power of ten, with one rounding a step;
* `Binary64`             a magnitude with its sign.
-/

namespace Credentials

-- powers are those of natural numbers, whatever else has some
attribute [local instance (high)] instPowNat

/-- the magnitude `mantissa · 2^exponent` -/
structure Magnitude where
  mantissa : Nat
  exponent : Int
  deriving DecidableEq, Repr

namespace Magnitude

/-- nothing -/
def zero : Magnitude := ⟨0, -1074⟩

def isZero (a : Magnitude) : Bool := a.mantissa == 0

/-- `n · 2^k` as a quotient of natural numbers, for a power of either sign -/
def shifted (n : Nat) (k : Int) : Nat × Nat := (n * 2 ^ k.toNat, 2 ^ (-k).toNat)

/-- the exponent of the highest bit of `num / den` -/
def highestBit (num den : Nat) : Int :=
  let k : Int := (num.log2 : Int) - (den.log2 : Int)
  -- `2^(k-1) < num/den < 2^(k+1)`
  if num * 2 ^ (-k).toNat < den * 2 ^ k.toNat then k - 1 else k

/-- the quotient `num / den` rounded to the nearest magnitude, a tie to the even mantissa -/
def round? (num den : Nat) : Option Magnitude :=
  if num = 0 then some zero
  else
    let q := max (highestBit num den - 52) (-1074)
    let n := num * 2 ^ (-q).toNat
    let d := den * 2 ^ q.toNat
    let m := n / d
    let r := n % d
    let up := d < 2 * r || (2 * r == d && m % 2 == 1)
    let m := if up then m + 1 else m
    let (m, q) := if m = 2 ^ (53 : Nat) then (2 ^ (52 : Nat), q + 1) else (m, q)
    if 971 < q then none else some ⟨m, q⟩

def ofNat? (n : Nat) : Option Magnitude := round? n 1

/-- the product, rounded -/
def mul? (a b : Magnitude) : Option Magnitude :=
  let (n, d) := shifted (a.mantissa * b.mantissa) (a.exponent + b.exponent)
  round? n d

/-- the quotient, rounded; the divisor is not zero -/
def div? (a b : Magnitude) : Option Magnitude :=
  let (n, d) := shifted a.mantissa (a.exponent - b.exponent)
  round? n (d * b.mantissa)

/-- a power of ten, rounded -/
def pow10? (k : Nat) : Option Magnitude := ofNat? (10 ^ k)

/-- divides by `10^308` up to `steps` times, and stops early at zero -/
def lower? : (steps : Nat) → Magnitude → Option Magnitude
  | 0, a => some a
  | steps + 1, a =>
    if a.isZero then some a
    else do
      let p ← pow10? 308
      let a ← a.div? p
      lower? steps a

/-- a magnitude times `10^k`: one product for `k` up to 308, one quotient for `-k` up to 308, and
further quotients below; nothing if the result is too large -/
def scale? (a : Magnitude) (k : Int) : Option Magnitude :=
  if a.isZero then some a
  else if 0 ≤ k then
    if k ≤ 308 then do
      let p ← pow10? k.toNat
      a.mul? p
    else none
  else do
    let n := (-k).toNat
    let steps := (n - 1) / 308
    let a ← lower? steps a
    if a.isZero then some a
    else do
      let p ← pow10? (n - 308 * steps)
      a.div? p

end Magnitude

/-- a finite floating-point number of 64 bits -/
structure Binary64 where
  negative : Bool
  magnitude : Magnitude
  deriving DecidableEq, Repr

end Credentials
