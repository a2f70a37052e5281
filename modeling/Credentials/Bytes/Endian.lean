import Credentials.Bytes.Utf8

/-!
# Numbers as octets

* `ofLittle`, `little`   little-endian reading and writing;
* `big`                  big-endian writing;
* `xorWith`              octets combined one by one.
-/

namespace Credentials

-- powers are those of natural numbers, whatever else has some
attribute [local instance (high)] instPowNat

/-- the number written with its least octet first -/
def ofLittle : Bytes → Nat
  | [] => 0
  | b :: r => b.toNat + 256 * ofLittle r

/-- the lowest `len` octets of a number, the least one first -/
def little : (len : Nat) → Nat → Bytes
  | 0, _ => []
  | len + 1, n => UInt8.ofNat (n % 256) :: little len (n / 256)

/-- the lowest `len` octets of a number, the least one last -/
def big (len n : Nat) : Bytes := (little len n).reverse

/-- octets combined one by one, as far as both reach -/
def xorWith (a b : Bytes) : Bytes := List.zipWith (· ^^^ ·) a b

/-- writing a number down and reading it back keeps what fits -/
theorem ofLittle_little (len n : Nat) : ofLittle (little len n) = n % 256 ^ len := by
  induction len generalizing n with
  | zero => simp [little, ofLittle, Nat.mod_one]
  | succ len ih =>
    simp only [little, ofLittle, ih, UInt8.toNat_ofNat']
    rw [show (2 : Nat) ^ 8 = 256 from rfl, Nat.mod_mod, Nat.pow_succ', Nat.mod_mul]

/-- the written form has the asked length -/
theorem length_little (len n : Nat) : (little len n).length = len := by
  induction len generalizing n with
  | zero => rfl
  | succ len ih => simp [little, ih]

end Credentials
