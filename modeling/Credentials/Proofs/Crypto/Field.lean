import Credentials.Crypto.Edwards
import Credentials.Proofs.Crypto.Prime
import Mathlib.NumberTheory.LegendreSymbol.Basic

/-!
# The field of Curve25519

* `Edwards.prime_prime`          `2^255 - 19` is a prime;
* `Edwards.Fp`                   the field of that many elements;
* `cast_add`, `cast_sub`, `cast_mul`, `cast_pow`, `cast_inv`   arithmetic on natural numbers is that
                                 of the field;
* `foldl_bits`                   a number out of its bits, the highest first;
* `not_isSquare_d`               the constant of the curve has no square root;
* `sqrtMinusOne_sq`              and minus one has.
-/

namespace Credentials.Edwards

/-- the prime of the field is one -/
theorem prime_prime : Nat.Prime prime := prime_two_pow_255_sub_19

instance : Fact (Nat.Prime prime) := ⟨prime_prime⟩

/-- the field of Curve25519 -/
abbrev Fp : Type := ZMod prime

theorem cast_add (a b : Nat) : (add a b : Fp) = a + b := by
  rw [add, ZMod.natCast_mod, Nat.cast_add]

theorem cast_sub (a b : Nat) : (sub a b : Fp) = a - b := by
  have hle : b % prime ≤ prime := Nat.le_of_lt (Nat.mod_lt b prime_prime.pos)
  rw [sub, ZMod.natCast_mod, Nat.cast_add, Nat.cast_sub hle, ZMod.natCast_self, ZMod.natCast_mod,
    zero_sub, sub_eq_add_neg]

theorem cast_mul (a b : Nat) : (mul a b : Fp) = a * b := by
  rw [mul, ZMod.natCast_mod, Nat.cast_mul]

theorem toNat_testBit (n i : Nat) : (n.testBit i).toNat = n / 2 ^ i % 2 := by
  rw [Nat.testBit_eq_decide_div_mod_eq]
  rcases Nat.mod_two_eq_zero_or_one (n / 2 ^ i) with h | h <;> rw [h] <;> rfl

/-- a number out of its bits, the highest first -/
theorem foldl_bits (len n k : Nat) :
    (bits len n).foldl (fun v b => 2 * v + b.toNat) k = k * 2 ^ len + n % 2 ^ len := by
  induction len generalizing k with
  | zero => simp [bits, Nat.mod_one]
  | succ len ih =>
    have e : bits (len + 1) n = n.testBit len :: bits len n := by
      unfold bits
      rw [List.range_succ, List.map_append, List.reverse_append]
      rfl
    rw [e, List.foldl_cons, ih, toNat_testBit, pow_succ, Nat.mod_mul]
    ring

theorem foldl_bits_zero {len n : Nat} (h : n < 2 ^ len) :
    (bits len n).foldl (fun v b => 2 * v + b.toNat) 0 = n := by
  rw [foldl_bits, Nat.zero_mul, Nat.zero_add, Nat.mod_eq_of_lt h]

theorem cast_pow (b : Nat) {e : Nat} (he : e < 2 ^ 256) : (pow b e : Fp) = (b : Fp) ^ e := by
  have key : ∀ (l : List Bool) (acc k : Nat), (acc : Fp) = (b : Fp) ^ k →
      ((l.foldl (fun acc bit => let sq := mul acc acc; if bit then mul sq b else sq) acc : Nat) : Fp)
        = (b : Fp) ^ (l.foldl (fun v b => 2 * v + b.toNat) k) := by
    intro l
    induction l with
    | nil => exact fun acc k h => h
    | cons bit l ih =>
      intro acc k h
      refine ih _ _ ?_
      cases bit with
      | false =>
        show ((mul acc acc : Nat) : Fp) = _
        rw [cast_mul, h, ← pow_add]
        congr 1
        simp only [Bool.toNat_false]
        omega
      | true =>
        show ((mul (mul acc acc) b : Nat) : Fp) = _
        rw [cast_mul, cast_mul, h, ← pow_add, ← pow_succ]
        congr 1
        simp only [Bool.toNat_true]
        omega
  have h := key (bits 256 e) 1 0 (by rw [Nat.cast_one, pow_zero])
  rw [foldl_bits_zero he] at h
  exact h

theorem prime_lt : prime < 2 ^ 256 := by norm_num [prime]

theorem cast_inv (a : Nat) : (inv a : Fp) = (a : Fp)⁻¹ := by
  have hlt := prime_lt
  rw [inv, cast_pow a (by omega)]
  by_cases h : (a : Fp) = 0
  · rw [h, inv_zero]
    exact zero_pow (by norm_num [prime])
  · have hf := ZMod.pow_card_sub_one_eq_one h
    refine eq_inv_of_mul_eq_one_left ?_
    rw [← pow_succ]
    exact hf

/-- minus one is a square -/
theorem sqrtMinusOne_sq : (sqrtMinusOne : Fp) ^ 2 = -1 := by
  have h : (mul sqrtMinusOne sqrtMinusOne + 1) % prime = 0 := by decide +kernel
  have hc : ((mul sqrtMinusOne sqrtMinusOne + 1 : Nat) : Fp) = 0 := by
    rw [← ZMod.natCast_mod, h, Nat.cast_zero]
  rw [Nat.cast_add, cast_mul, Nat.cast_one, ← sq] at hc
  exact eq_neg_of_add_eq_zero_left hc

/-- the constant of the curve is no square -/
theorem not_isSquare_d : ¬ IsSquare (d : Fp) := by
  have hlt := prime_lt
  have hpow : (d : Fp) ^ (prime / 2) = ((prime - 1 : Nat) : Fp) := by
    have h : pow d (prime / 2) = prime - 1 := by decide +kernel
    rw [← cast_pow d (by omega), h]
  have hne : ((prime - 1 : Nat) : Fp) ≠ 1 := by
    rw [show (1 : Fp) = ((1 : Nat) : Fp) from Nat.cast_one.symm, Ne,
      ZMod.natCast_eq_natCast_iff']
    decide +kernel
  have hd : (d : Fp) ≠ 0 := by
    rw [Ne, ZMod.natCast_eq_zero_iff]
    decide +kernel
  rw [ZMod.euler_criterion prime hd, hpow]
  exact hne

end Credentials.Edwards
