import Credentials.Decimal.Binary64

/-!
# The shortest decimal that reads back

* `Magnitude.shortest`   the decimal `digits · 10^power` with the fewest digits that lies in the
                         interval of numbers which round to a magnitude, and of those the nearest;
* `DecimalStyle`         where positional writing ends;
* `Binary64.text`        the written form of a number.
-/

namespace Credentials

-- powers are those of natural numbers, whatever else has some
attribute [local instance (high)] instPowNat

/-- the decimal `digits · 10^power` -/
structure Decimal where
  digits : Nat
  power : Int
  deriving DecidableEq, Repr

namespace Magnitude

/-- the best multiple of `10^k` among the numbers that round to a magnitude: its two neighbours on
this grid are looked at, the nearer one is taken, and of a tie the even one. Everything is counted
in quarters of the magnitude's last place. -/
def onGrid? (a : Magnitude) (k : Int) : Option Nat :=
  let e := a.exponent - 2
  let u := 2 ^ e.toNat * 10 ^ (-k).toNat
  let w := 2 ^ (-e).toNat * 10 ^ k.toNat
  let v := 4 * a.mantissa * u
  let low := (4 * a.mantissa - if a.mantissa = 2 ^ (52 : Nat) ∧ -1074 < a.exponent then 1 else 2) * u
  let high := (4 * a.mantissa + 2) * u
  let inside := fun c : Nat =>
    if a.mantissa % 2 = 0 then low ≤ c * w && c * w ≤ high else low < c * w && c * w < high
  let below := v / w
  let above := below + 1
  let preferBelow := 2 * v < (below + above) * w ∨ (2 * v = (below + above) * w ∧ below % 2 = 0)
  match inside below && below != 0, inside above with
  | true, true => some (if preferBelow then below else above)
  | true, false => some below
  | false, true => some above
  | false, false => none

/-- looks at finer and finer grids from `10^k` on -/
def search (a : Magnitude) : (steps : Nat) → Int → Decimal
  | 0, k => ⟨a.mantissa, k⟩
  | steps + 1, k =>
    match a.onGrid? k with
    | some c => ⟨c, k⟩
    | none => search a steps (k - 1)

/-- the shortest decimal that rounds to a magnitude -/
def shortest (a : Magnitude) : Decimal :=
  -- `10^(k-2)` is at most the magnitude, so `10^k` is above the interval
  let k := (a.mantissa.log2 + a.exponent) * 30103 / 100000 + 2
  a.search 40 k

end Magnitude

/-- where positional writing ends: the least and the largest exponent of a leading digit that is
written positionally -/
structure DecimalStyle where
  lowest : Int
  highest : Int

/-- decimal digits, filled with zeros in front -/
def filled (width n : Nat) : List Char :=
  let ds := Nat.toDigits 10 n
  List.replicate (width - ds.length) '0' ++ ds

/-- the digits and the power of ten of the leading one -/
def Decimal.leading (x : Decimal) : List Char × Int :=
  let ds := Nat.toDigits 10 x.digits
  (ds, x.power + (ds.length : Int) - 1)

/-- digits without zeros behind -/
def withoutFinalZeros (ds : List Char) : List Char :=
  (ds.reverse.dropWhile (· == '0')).reverse

/-- the written form of a positive decimal: positional with a point, or with an exponent that has a
sign and no zeros in front -/
def DecimalStyle.decimal (style : DecimalStyle) (x : Decimal) : List Char :=
  let (all, e) := x.leading
  let ds := withoutFinalZeros all
  if style.lowest ≤ e ∧ e ≤ style.highest then
    if e < 0 then
      ['0', '.'] ++ List.replicate ((-e).toNat - 1) '0' ++ ds
    else
      let n := e.toNat + 1
      let whole := ds.take n ++ List.replicate (n - ds.length) '0'
      let part := ds.drop n
      whole ++ ['.'] ++ (if part = [] then ['0'] else part)
  else
    let tail := ds.drop 1
    ds.take 1 ++ (if tail = [] then [] else '.' :: tail) ++
      ['e', if e < 0 then '-' else '+'] ++ Nat.toDigits 10 e.natAbs

/-- the written form of a number; zero is `0.0` -/
def Binary64.text (style : DecimalStyle) (x : Binary64) : String :=
  let body := if x.magnitude.isZero then ['0', '.', '0'] else style.decimal x.magnitude.shortest
  String.ofList (if x.negative then '-' :: body else body)

end Credentials
