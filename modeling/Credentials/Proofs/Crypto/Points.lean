import Credentials.Proofs.Crypto.Curve

/-!
# Points in extended coordinates

* `Point.Is`              extended coordinates of a point;
* `Point.is_add`, `is_double`, `is_neg`, `is_mul`   arithmetic on them is that of the group;
* `Affine.octets`         the 32 octets of a point;
* `Point.encode_eq`       extended coordinates of a point are encoded as the point;
* `Point.decode?_octets`  and these octets are decoded to extended coordinates of it;
* `order_nsmul_base`      the order of the base point.

A square root is taken by a power. It gives a root of `x²` or of `-x²`, depending on whether a
certain product is a square; in the second case a root of minus one turns it into the other.
-/

namespace Credentials.Edwards

namespace Point

/-- extended coordinates of a point -/
structure Is (p : Point) (q : Affine) : Prop where
  z_ne : (p.z : Fp) ≠ 0
  x_eq : (p.x : Fp) = q.x * p.z
  y_eq : (p.y : Fp) = q.y * p.z
  t_eq : (p.t : Fp) = q.x * q.y * p.z

variable {p p' : Point} {q q' : Affine}

theorem is_zero : zero.Is 0 where
  z_ne := by simp [zero]
  x_eq := by simp [zero]
  y_eq := by simp [zero]
  t_eq := by simp [zero]

/-- coordinates are those of a point if they are its ones up to a common factor -/
theorem is_of_fractions {u v a b : Fp} (hu : u ≠ 0) (hv : v ≠ 0) (hx : q.x = a / u)
    (hy : q.y = b / v) {k : Fp} (hk : k ≠ 0) (hpx : (p.x : Fp) = k * (a * v))
    (hpy : (p.y : Fp) = k * (b * u)) (hpz : (p.z : Fp) = k * (u * v))
    (hpt : (p.t : Fp) = k * (a * b)) : p.Is q where
  z_ne := by
    rw [hpz]
    exact mul_ne_zero hk (mul_ne_zero hu hv)
  x_eq := by
    rw [hpx, hpz, hx]
    field_simp
  y_eq := by
    rw [hpy, hpz, hy]
    field_simp
  t_eq := by
    rw [hpt, hpz, hx, hy]
    field_simp

theorem is_add (h : p.Is q) (h' : p'.Is q') : (p.add p').Is (q + q') := by
  obtain ⟨hz, hx, hy, ht⟩ := h
  obtain ⟨hz', hx', hy', ht'⟩ := h'
  have hk : (4 : Fp) * (p.z * p'.z) ^ 2 ≠ 0 := by
    have h4 : (4 : Fp) = 2 * 2 := by ring
    rw [h4]
    exact mul_ne_zero (mul_ne_zero Affine.two_ne_zero Affine.two_ne_zero)
      (pow_ne_zero 2 (mul_ne_zero hz hz'))
  refine is_of_fractions (Affine.one_add_product q q') (Affine.one_sub_product q q') rfl rfl hk
    ?_ ?_ ?_ ?_
  · simp only [add, cast_mul, cast_sub, cast_add, hx, hy, hx', hy', ht, ht', Nat.cast_mul,
      Nat.cast_ofNat]
    ring
  · simp only [add, cast_mul, cast_sub, cast_add, hx, hy, hx', hy', ht, ht', Nat.cast_mul,
      Nat.cast_ofNat]
    ring
  · simp only [add, cast_mul, cast_sub, cast_add, ht, ht', Nat.cast_mul, Nat.cast_ofNat]
    ring
  · simp only [add, cast_mul, cast_sub, cast_add, hx, hy, hx', hy']
    ring

theorem is_double (h : p.Is q) : p.double.Is (q + q) := by
  obtain ⟨hz, hx, hy, -⟩ := h
  have hc := q.onCurve
  unfold OnCurve at hc
  -- the equation of the curve turns the differences of squares into the denominators
  have hg : ((p.x : Fp) * p.x - p.y * p.y) = -(1 + d * q.x * q.x * q.y * q.y) * (p.z : Fp) ^ 2 := by
    rw [hx, hy]
    linear_combination -(p.z : Fp) ^ 2 * hc
  have hf : (2 * ((p.z : Fp) * p.z) + (p.x * p.x - p.y * p.y))
      = (1 - d * q.x * q.x * q.y * q.y) * (p.z : Fp) ^ 2 := by
    rw [hg]
    ring
  have hk : -((p.z : Fp) ^ 4) ≠ 0 := neg_ne_zero.2 (pow_ne_zero 4 hz)
  refine is_of_fractions (Affine.one_add_product q q) (Affine.one_sub_product q q) rfl rfl hk
    ?_ ?_ ?_ ?_
  · simp only [double, cast_mul, cast_sub, cast_add, Nat.cast_mul, Nat.cast_ofNat, hf]
    rw [hx, hy]
    ring
  · simp only [double, cast_mul, cast_sub, cast_add, hg]
    rw [hx, hy]
    ring
  · simp only [double, cast_mul, cast_sub, cast_add, Nat.cast_mul, Nat.cast_ofNat, hf]
    rw [hg]
    ring
  · simp only [double, cast_mul, cast_sub, cast_add]
    rw [hx, hy]
    ring

theorem is_neg (h : p.Is q) : p.neg.Is (-q) where
  z_ne := h.z_ne
  x_eq := by
    show ((sub 0 p.x : Nat) : Fp) = -q.x * p.z
    rw [cast_sub, h.x_eq, Nat.cast_zero]
    ring
  y_eq := h.y_eq
  t_eq := by
    show ((sub 0 p.t : Nat) : Fp) = -q.x * q.y * p.z
    rw [cast_sub, h.t_eq, Nat.cast_zero]
    ring

/-- a multiple, bit by bit -/
theorem is_mul (h : p.Is q) {n : Nat} (hn : n < 2 ^ 256) : (p.mul n).Is (n • q) := by
  have key : ∀ (l : List Bool) (acc : Point) (k : Nat), acc.Is (k • q) →
      (l.foldl (fun acc bit => let dbl := acc.double; if bit then dbl.add p else dbl) acc).Is
        (l.foldl (fun v b => 2 * v + b.toNat) k • q) := by
    intro l
    induction l with
    | nil => exact fun acc k h => h
    | cons bit l ih =>
      intro acc k hacc
      refine ih _ _ ?_
      have hdouble := is_double hacc
      rw [← two_nsmul, ← mul_nsmul'] at hdouble
      cases bit with
      | false => exact hdouble
      | true =>
        have hadd := is_add hdouble h
        rw [← succ_nsmul] at hadd
        exact hadd
  have hm := key (bits 256 n) zero 0 (by rw [zero_nsmul]; exact is_zero)
  rw [foldl_bits_zero hn] at hm
  exact hm

end Point

/-! ## octets -/

/-- a number below the prime is that of its element -/
theorem eq_val {n : Nat} {x : Fp} (hn : n < prime) (h : (n : Fp) = x) : n = x.val := by
  rw [← h, ZMod.val_cast_of_lt hn]

theorem mul_lt (a b : Nat) : mul a b < prime := Nat.mod_lt _ prime_prime.pos

theorem sub_lt (a b : Nat) : sub a b < prime := Nat.mod_lt _ prime_prime.pos

theorem add_lt (a b : Nat) : add a b < prime := Nat.mod_lt _ prime_prime.pos

theorem prime_lt_half : prime < 2 ^ 255 := by norm_num [prime]

/-- the number that a point is written as: `y`, and the parity of `x` in the highest bit -/
def Affine.number (q : Affine) : Nat := q.y.val + q.x.val % 2 * 2 ^ 255

/-- the octets of a point -/
def Affine.octets (q : Affine) : Bytes := little 32 q.number

namespace Point

variable {p : Point} {q : Affine}

/-- coordinates of a point are encoded as the point -/
theorem encode_eq (h : p.Is q) : p.encode = q.octets := by
  have hx : Edwards.mul p.x (inv p.z) = q.x.val := by
    refine eq_val (mul_lt _ _) ?_
    rw [cast_mul, cast_inv, h.x_eq, mul_assoc, mul_inv_cancel₀ h.z_ne, mul_one]
  have hy : Edwards.mul p.y (inv p.z) = q.y.val := by
    refine eq_val (mul_lt _ _) ?_
    rw [cast_mul, cast_inv, h.y_eq, mul_assoc, mul_inv_cancel₀ h.z_ne, mul_one]
  unfold encode
  dsimp only
  rw [hx, hy]
  rfl

/-- of a number and its opposite, the one whose parity is that of an element is the element -/
theorem cast_of_parity {r : Nat} {x : Fp} (hr : r < prime) (h : (r : Fp) = x ∨ (r : Fp) = -x) :
    ((if r % 2 = x.val % 2 then r else sub 0 r : Nat) : Fp) = x := by
  rcases h with h | h
  · rw [eq_val hr h, if_pos rfl, ZMod.natCast_zmod_val]
  · by_cases hx : x = 0
    · have hr0 : r = 0 := by
        rw [eq_val hr h, hx, neg_zero, ZMod.val_zero]
      rw [hr0, hx, ZMod.val_zero, if_pos rfl, Nat.cast_zero]
    · have hv : r = prime - x.val := by
        rw [eq_val hr h, ZMod.neg_val, if_neg hx]
      have hlt := ZMod.val_lt x
      have hodd : prime % 2 = 1 := by norm_num [prime]
      -- the prime is odd, so the two have different parities
      rw [if_neg (by omega), cast_sub, h, Nat.cast_zero, zero_sub, neg_neg]

/-- coordinates of a point out of its second one and a root of the square of its first one -/
theorem is_ofRoot {r : Nat} (hr : r < prime) (h : (r : Fp) ^ 2 = q.x ^ 2) :
    (ofRoot r q.y.val (q.x.val % 2)).Is q := by
  have hx := cast_of_parity hr (sq_eq_sq_iff_eq_or_eq_neg.1 h)
  refine ⟨?_, ?_, ?_, ?_⟩
  · show ((1 : Nat) : Fp) ≠ 0
    rw [Nat.cast_one]
    exact one_ne_zero
  · show ((if r % 2 = q.x.val % 2 then r else sub 0 r : Nat) : Fp) = q.x * ((1 : Nat) : Fp)
    rw [hx, Nat.cast_one, mul_one]
  · show ((q.y.val : Nat) : Fp) = q.y * ((1 : Nat) : Fp)
    rw [ZMod.natCast_zmod_val, Nat.cast_one, mul_one]
  · show ((Edwards.mul (if r % 2 = q.x.val % 2 then r else sub 0 r) q.y.val : Nat) : Fp)
      = q.x * q.y * ((1 : Nat) : Fp)
    rw [cast_mul, hx, ZMod.natCast_zmod_val, Nat.cast_one, mul_one]

/-- the power that is taken for a root: its square is right up to the sign -/
theorem root_sq {x v w : Fp} (hw : w = x ^ 2 * v * (x ^ 2 * v * v) ^ ((prime - 5) / 8)) :
    v * w ^ 2 = x ^ 2 * v ∨ v * w ^ 2 = -(x ^ 2 * v) := by
  have hexp : 2 * (2 * ((prime - 5) / 8)) + 2 = prime / 2 := by norm_num [prime]
  have hpow : v * w ^ 2 = x ^ 2 * v * (x * v) ^ (prime / 2) := by
    rw [hw, ← hexp]
    ring
  by_cases h0 : x * v = 0
  · refine Or.inl ?_
    have hx : x ^ 2 * v = 0 := by rw [sq, mul_assoc, h0, mul_zero]
    rw [hpow, hx, zero_mul]
  · rcases ZMod.pow_div_two_eq_neg_one_or_one prime h0 with h | h
    · rw [hpow, h, mul_one]
      exact Or.inl rfl
    · rw [hpow, h, mul_neg_one]
      exact Or.inr rfl

theorem eq_of_cast {a b : Nat} (ha : a < prime) (hb : b < prime) (h : (a : Fp) = b) : a = b := by
  rw [eq_val ha h, ZMod.val_cast_of_lt hb]

/-- `d y² + 1` is never zero -/
theorem d_mul_sq_add_one_ne_zero (y : Fp) : (d : Fp) * y ^ 2 + 1 ≠ 0 := by
  intro h
  have hy : y ≠ 0 := by
    rintro rfl
    simp at h
  refine not_isSquare_d ⟨sqrtMinusOne / y, ?_⟩
  rw [← sq, div_pow, sqrtMinusOne_sq, eq_div_iff (pow_ne_zero 2 hy)]
  linear_combination h

/-- the octets of a point are decoded to coordinates of it -/
theorem decode?_octets (q : Affine) : ∃ p, decode? q.octets = some p ∧ p.Is q := by
  have hylt := ZMod.val_lt q.y
  have hhalf := prime_lt_half
  have hnum : ofLittle q.octets = q.number := by
    unfold Affine.octets
    rw [ofLittle_little, Nat.mod_eq_of_lt]
    unfold Affine.number
    have := Nat.mod_lt q.x.val (show 0 < 2 by decide)
    have h256 : (256 : Nat) ^ 32 = 2 * 2 ^ 255 := by norm_num
    rw [h256]
    omega
  have hsign : q.number / 2 ^ 255 % 2 = q.x.val % 2 := by
    unfold Affine.number
    rw [Nat.add_mul_div_right _ _ (by norm_num), Nat.div_eq_of_lt (by omega), Nat.zero_add,
      Nat.mod_mod]
  have hy : q.number % 2 ^ 255 % prime = q.y.val := by
    unfold Affine.number
    rw [Nat.add_mul_mod_self_right, Nat.mod_eq_of_lt (show q.y.val < 2 ^ 255 by omega),
      Nat.mod_eq_of_lt hylt]
  have hv : (Edwards.add (Edwards.mul d (Edwards.mul q.y.val q.y.val)) 1 : Fp) = d * q.y ^ 2 + 1 := by
    rw [cast_add, cast_mul, cast_mul, ZMod.natCast_zmod_val, Nat.cast_one, sq]
  have hu : (sub (Edwards.mul q.y.val q.y.val) 1 : Fp) = q.x ^ 2 * (d * q.y ^ 2 + 1) := by
    have hc := q.onCurve
    unfold OnCurve at hc
    rw [cast_sub, cast_mul, ZMod.natCast_zmod_val, Nat.cast_one]
    linear_combination hc
  have hne := d_mul_sq_add_one_ne_zero q.y
  have hul := sub_lt (Edwards.mul q.y.val q.y.val) 1
  unfold decode?
  dsimp only
  rw [hnum, hsign, hy]
  generalize Edwards.add (Edwards.mul d (Edwards.mul q.y.val q.y.val)) 1 = v at hv ⊢
  generalize sub (Edwards.mul q.y.val q.y.val) 1 = u at hu hul ⊢
  have hw : (Edwards.mul u (pow (Edwards.mul u v) ((prime - 5) / 8)) : Fp)
      = q.x ^ 2 * (d * q.y ^ 2 + 1) *
        (q.x ^ 2 * (d * q.y ^ 2 + 1) * (d * q.y ^ 2 + 1)) ^ ((prime - 5) / 8) := by
    have hlt := prime_lt
    rw [cast_mul, cast_pow _ (by omega), cast_mul, hu, hv]
  have hwlt := mul_lt u (pow (Edwards.mul u v) ((prime - 5) / 8))
  have hroot := root_sq hw
  generalize Edwards.mul u (pow (Edwards.mul u v) ((prime - 5) / 8)) = w at hwlt hroot ⊢
  have hvww : (Edwards.mul v (Edwards.mul w w) : Fp) = (d * q.y ^ 2 + 1) * (w : Fp) ^ 2 := by
    rw [cast_mul, cast_mul, hv, sq (w : Fp)]
  by_cases hsq : Edwards.mul v (Edwards.mul w w) = u
  · rw [if_pos hsq]
    refine ⟨_, rfl, is_ofRoot hwlt ?_⟩
    have e : (d * q.y ^ 2 + 1) * (w : Fp) ^ 2 = (d * q.y ^ 2 + 1) * q.x ^ 2 := by
      rw [← hvww, hsq, hu, mul_comm]
    exact mul_left_cancel₀ hne e
  · have hneg : (d * q.y ^ 2 + 1) * (w : Fp) ^ 2 = -(q.x ^ 2 * (d * q.y ^ 2 + 1)) :=
      hroot.resolve_left fun h => hsq (eq_of_cast (mul_lt _ _) hul (by rw [hvww, h, hu]))
    have hzero : Edwards.add (Edwards.mul v (Edwards.mul w w)) u = 0 := by
      have e := eq_val (add_lt (Edwards.mul v (Edwards.mul w w)) u)
        (show _ = (0 : Fp) by rw [cast_add, hvww, hneg, hu, neg_add_cancel])
      rw [e, ZMod.val_zero]
    rw [if_neg hsq, if_pos hzero]
    refine ⟨_, rfl, is_ofRoot (mul_lt _ _) ?_⟩
    have e : (d * q.y ^ 2 + 1) * ((w : Fp) * sqrtMinusOne) ^ 2 = (d * q.y ^ 2 + 1) * q.x ^ 2 := by
      rw [mul_pow, sqrtMinusOne_sq]
      linear_combination -hneg
    rw [cast_mul]
    exact mul_left_cancel₀ hne e

end Point

/-! ## the base point -/

/-- the base point by its two coordinates -/
def Affine.base : Affine where
  x := Point.base.x
  y := Point.base.y
  onCurve := by
    have h : add (mul Point.base.x Point.base.x) (add 1 (mul d (mul (mul Point.base.x Point.base.x)
        (mul Point.base.y Point.base.y)))) = mul Point.base.y Point.base.y := by decide +kernel
    have hc := congrArg (Nat.cast (R := Fp)) h
    simp only [cast_add, cast_mul, Nat.cast_one] at hc
    unfold OnCurve
    linear_combination -hc

theorem Point.is_base : Point.base.Is Affine.base where
  z_ne := by
    show ((1 : Nat) : Fp) ≠ 0
    rw [Nat.cast_one]
    exact one_ne_zero
  x_eq := by
    show (Point.base.x : Fp) = Point.base.x * ((1 : Nat) : Fp)
    rw [Nat.cast_one, mul_one]
  y_eq := by
    show (Point.base.y : Fp) = Point.base.y * ((1 : Nat) : Fp)
    rw [Nat.cast_one, mul_one]
  t_eq := by
    show (Edwards.mul Point.base.x Point.base.y : Fp) = Point.base.x * Point.base.y * ((1 : Nat) : Fp)
    rw [cast_mul, Nat.cast_one, mul_one]

/-- the order of the base point -/
theorem order_nsmul_base : order • Affine.base = 0 := by
  have h : (Point.base.mul order).x = 0 ∧ (Point.base.mul order).y = (Point.base.mul order).z := by
    decide +kernel
  have hm := Point.is_mul Point.is_base (n := order) (by norm_num [order])
  have hx := hm.x_eq
  have hy := hm.y_eq
  rw [h.1, Nat.cast_zero] at hx
  rw [h.2] at hy
  refine Affine.ext ?_ ?_
  · exact (mul_eq_zero.1 hx.symm).resolve_right hm.z_ne
  · exact (mul_eq_right₀ hm.z_ne).1 hy.symm

/-- factors of the base point count up to its order -/
theorem mod_order_nsmul_base (n : Nat) : (n % order) • Affine.base = n • Affine.base := by
  conv_rhs => rw [← Nat.mod_add_div n order, add_nsmul, mul_nsmul, order_nsmul_base, nsmul_zero,
    add_zero]

end Credentials.Edwards
