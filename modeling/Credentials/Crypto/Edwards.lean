import Credentials.Bytes.Endian

/-!
# The twisted Edwards curve of Curve25519

Arithmetic modulo `2^255 - 19` on natural numbers, and the points of
`-x² + y² = 1 + d x² y²` in extended coordinates `(X : Y : Z : T)`, `T = XY/Z`.

* `Point.add`, `Point.double`, `Point.mul`   the group;
* `Point.encode`                             the 32 octets of a point;
* `Point.decode?`                            the point of 32 octets: a `y` that is not reduced is
                                             taken modulo the prime, and `x = 0` with either sign;
* `order`                                    the order of the base point.
-/

namespace Credentials.Edwards

-- powers are those of natural numbers, whatever else has some
attribute [local instance (high)] instPowNat

/-- the prime of the field -/
def prime : Nat := 2 ^ (255 : Nat) - 19

/-- the order of the base point -/
def order : Nat := 2 ^ (252 : Nat) + 27742317777372353535851937790883648493

/-- sum in the field -/
def add (a b : Nat) : Nat := (a + b) % prime
/-- difference in the field -/
def sub (a b : Nat) : Nat := (a + (prime - b % prime)) % prime
/-- product in the field -/
def mul (a b : Nat) : Nat := a * b % prime

/-- the lowest `len` bits of a number, the highest of them first -/
def bits (len n : Nat) : List Bool := ((List.range len).map n.testBit).reverse

/-- power in the field, by squaring -/
def pow (b e : Nat) : Nat :=
  (bits 256 e).foldl (fun acc bit => let sq := mul acc acc; if bit then mul sq b else sq) 1

/-- inverse in the field (zero for zero) -/
def inv (a : Nat) : Nat := pow a (prime - 2)

/-- the constant of the curve, `-121665/121666` -/
def d : Nat := 37095705934669439343138083508754565189542113879843219016388785533085940283555

/-- a square root of minus one -/
def sqrtMinusOne : Nat :=
  19681161376707505956807079304988542015446066515923890162744021073123829784752

/-- a point in extended coordinates -/
structure Point where
  x : Nat
  y : Nat
  z : Nat
  t : Nat

namespace Point

/-- the neutral point -/
def zero : Point := ⟨0, 1, 1, 0⟩

/-- the base point -/
def base : Point :=
  let x := 15112221349535400772501151409588531511454012693041857206046113283949847762202
  let y := 46316835694926478169428394003475163141307993866256225615783033603165251855960
  ⟨x, y, 1, mul x y⟩

/-- the sum of two points -/
def add (p q : Point) : Point :=
  let a := mul (sub p.y p.x) (sub q.y q.x)
  let b := mul (Edwards.add p.y p.x) (Edwards.add q.y q.x)
  let c := mul (mul p.t (2 * d)) q.t
  let e := mul (2 * p.z) q.z
  let f := sub b a
  let g := sub e c
  let h := Edwards.add e c
  let k := Edwards.add b a
  ⟨mul f g, mul h k, mul g h, mul f k⟩

/-- the sum of a point with itself -/
def double (p : Point) : Point :=
  let a := mul p.x p.x
  let b := mul p.y p.y
  let c := 2 * mul p.z p.z
  let h := Edwards.add a b
  let s := Edwards.add p.x p.y
  let e := sub h (mul s s)
  let g := sub a b
  let f := Edwards.add c g
  ⟨mul e f, mul g h, mul f g, mul e h⟩

/-- the opposite point -/
def neg (p : Point) : Point := ⟨sub 0 p.x, p.y, p.z, sub 0 p.t⟩

/-- a multiple of a point; the factor has at most 256 bits -/
def mul (n : Nat) (p : Point) : Point :=
  (bits 256 n).foldl (fun acc bit => let dbl := acc.double; if bit then dbl.add p else dbl) zero

/-- the 32 octets of a point: `y`, and the sign of `x` in the highest bit -/
def encode (p : Point) : Bytes :=
  let zi := inv p.z
  let x := Edwards.mul p.x zi
  let y := Edwards.mul p.y zi
  little 32 (y + (x % 2) * 2 ^ (255 : Nat))

/-- the point with this `y` and that one of `x`, `-x` which has the asked parity -/
def ofRoot (x y sign : Nat) : Point :=
  let x := if x % 2 = sign then x else sub 0 x
  ⟨x, y, 1, Edwards.mul x y⟩

/-- the point written as 32 octets, if `y` belongs to a point: `x² = (y² - 1)/(d y² + 1)` -/
def decode? (bs : Bytes) : Option Point :=
  let n := ofLittle bs
  let sign := n / 2 ^ (255 : Nat) % 2
  let y := n % 2 ^ (255 : Nat) % prime
  let yy := Edwards.mul y y
  let u := sub yy 1
  let v := Edwards.add (Edwards.mul d yy) 1
  -- `x² v = u w` for a fourth root of one `w`
  let x := Edwards.mul u (pow (Edwards.mul u v) ((prime - 5) / 8))
  let vxx := Edwards.mul v (Edwards.mul x x)
  if vxx = u then some (ofRoot x y sign)
  else if Edwards.add vxx u = 0 then some (ofRoot (Edwards.mul x sqrtMinusOne) y sign)
  else none

end Point

end Credentials.Edwards
