import Mathlib.NumberTheory.LucasPrimality
import Mathlib.Tactic.NormNum.Prime

/-!
# Certificates of primes

A number `p` is a prime if some number has the order `p - 1` modulo `p`, which only the prime factors
of `p - 1` can tell.

* `powMod`                        powers by squaring;
* `Certificate`                   a number, one of that order, and the factors of `p - 1`;
* `Certificate.allHold`           checks certificates, each by the primes in front of it;
* `Certificate.prime_of_allHold`  what is certified is a prime;
* `prime_two_pow_255_sub_19`      the prime of Curve25519.
-/

namespace Credentials

/-- `acc * b ^ e` modulo `m` by squaring, for an exponent of at most `len` bits -/
def powMod (m : Nat) : (len : Nat) → (b e acc : Nat) → Nat
  | 0, _, _, acc => acc
  | len + 1, b, e, acc =>
    powMod m len (b * b % m) (e / 2) (if e % 2 = 1 then acc * b % m else acc)

theorem cast_powMod (m len b e acc : Nat) (he : e < 2 ^ len) :
    (powMod m len b e acc : ZMod m) = acc * (b : ZMod m) ^ e := by
  induction len generalizing b e acc with
  | zero =>
    obtain rfl : e = 0 := by omega
    rw [powMod, pow_zero, mul_one]
  | succ len ih =>
    have hhalf : e / 2 < 2 ^ len := by
      rw [pow_succ] at he
      omega
    have hsq : ((b * b % m : Nat) : ZMod m) = (b : ZMod m) ^ 2 := by
      rw [ZMod.natCast_mod, Nat.cast_mul, sq]
    have hdiv := Nat.div_add_mod e 2
    rw [powMod, ih _ _ _ hhalf, hsq, ← pow_mul]
    split
    · rw [ZMod.natCast_mod, Nat.cast_mul, mul_assoc, ← pow_succ']
      congr 2
      omega
    · congr 2
      omega

/-- a number, another one whose order is `number - 1`, and the prime factors of that order -/
structure Certificate where
  number : Nat
  base : Nat
  factors : List Nat

namespace Certificate

/-- whether the power of the base is one -/
def isOne (c : Certificate) (e : Nat) : Bool := powMod c.number 256 c.base e 1 % c.number == 1

/-- a certificate holds if its factors are known as primes -/
def holds (known : List Nat) (c : Certificate) : Bool :=
  decide (1 < c.number ∧ c.number ≤ 2 ^ 256 ∧ c.factors.prod = c.number - 1) &&
    c.isOne (c.number - 1) &&
    c.factors.all fun q => known.contains q && !c.isOne ((c.number - 1) / q)

/-- checks certificates, each by the primes in front of it -/
def allHold : List Nat → List Certificate → Bool
  | _, [] => true
  | known, c :: cs => c.holds known && allHold (c.number :: known) cs

theorem isOne_iff {c : Certificate} (h1 : 1 < c.number) {e : Nat} (he : e < 2 ^ 256) :
    c.isOne e = true ↔ (c.base : ZMod c.number) ^ e = 1 := by
  have h := cast_powMod c.number 256 c.base e 1 he
  rw [Nat.cast_one, one_mul] at h
  rw [isOne, beq_iff_eq, ← h, show (1 : ZMod c.number) = ((1 : Nat) : ZMod c.number) from
    Nat.cast_one.symm, ZMod.natCast_eq_natCast_iff', Nat.mod_eq_of_lt h1]

theorem prime_of_holds {c : Certificate} {known : List Nat} (hk : ∀ q ∈ known, q.Prime)
    (h : c.holds known = true) : c.number.Prime := by
  simp only [holds, Bool.and_eq_true, decide_eq_true_eq, List.all_eq_true, Bool.not_eq_true',
    List.contains_iff_mem] at h
  obtain ⟨⟨⟨h1, hle, hprod⟩, hone⟩, hfactors⟩ := h
  refine lucas_primality c.number c.base ((isOne_iff h1 (by omega)).1 hone) ?_
  intro q hq hd
  rw [← hprod] at hd
  obtain ⟨f, hf, hqf⟩ := (Prime.dvd_prod_iff hq.prime).1 hd
  obtain ⟨hmem, hne⟩ := hfactors f hf
  obtain rfl := (Nat.prime_dvd_prime_iff_eq hq (hk f hmem)).1 hqf
  have hdiv := Nat.div_le_self (c.number - 1) q
  intro hpow
  rw [(isOne_iff h1 (by omega)).2 hpow] at hne
  cases hne

/-- what is certified is a prime -/
theorem prime_of_allHold {cs : List Certificate} {known : List Nat} (hk : ∀ q ∈ known, q.Prime)
    (h : allHold known cs = true) : ∀ c ∈ cs, c.number.Prime := by
  induction cs generalizing known with
  | nil => exact fun c hc => absurd hc List.not_mem_nil
  | cons c cs ih =>
    obtain ⟨hc, hcs⟩ := Bool.and_eq_true_iff.1 h
    have hp := prime_of_holds hk hc
    exact List.forall_mem_cons.2 ⟨hp, ih (List.forall_mem_cons.2 ⟨hp, hk⟩) hcs⟩

end Certificate

/-- the small primes in the certificates below -/
def smallPrimes : List Nat :=
  [2, 3, 5, 7, 13, 19, 31, 47, 107, 127, 223, 353, 2437, 4153, 57467, 65147, 75707, 132049, 430751,
    569003, 1923133, 8574133]

/-- certificates that lead up to the prime of Curve25519 -/
def certificates : List Certificate :=
  [⟨2773320623, 5, [2, 2437, 569003]⟩,
   ⟨72106336199, 7, [2, 13, 2773320623]⟩,
   ⟨1919519569386763, 2, [2, 3, 7, 19, 47, 47, 127, 8574133]⟩,
   ⟨31757755568855353, 10, [2, 2, 2, 3, 31, 107, 223, 4153, 430751]⟩,
   ⟨75445702479781427272750846543864801, 7,
    [2, 2, 2, 2, 2, 3, 3, 5, 5, 75707, 72106336199, 1919519569386763]⟩,
   ⟨74058212732561358302231226437062788676166966415465897661863160754340907, 2,
    [2, 3, 353, 57467, 132049, 1923133, 31757755568855353, 75445702479781427272750846543864801]⟩,
   ⟨2 ^ 255 - 19, 2,
    [2, 2, 3, 65147, 74058212732561358302231226437062788676166966415465897661863160754340907]⟩]

theorem prime_of_mem_smallPrimes : ∀ q ∈ smallPrimes, q.Prime := by
  unfold smallPrimes
  norm_num

theorem prime_two_pow_255_sub_19 : Nat.Prime (2 ^ 255 - 19) := by
  have h : Certificate.allHold smallPrimes certificates = true := by decide +kernel
  exact Certificate.prime_of_allHold prime_of_mem_smallPrimes h _
    (List.getLast_mem (List.cons_ne_nil _ _))

end Credentials
