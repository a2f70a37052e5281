import Credentials.Proofs.Crypto.Field
import Mathlib.Tactic.FieldSimp
import Mathlib.Tactic.LinearCombination

/-!
# The group of the curve

The law of addition on `-x² + y² = 1 + d x² y²`, over a field in which minus one is a square and `d`
is not: no denominator of it is ever zero.

* `Edwards.denominator_ne_zero`   the law is complete;
* `Edwards.assoc_x`, `assoc_y`    both ways of adding three points have the same coordinates;
* `Edwards.Affine`                the points of Curve25519 by their two coordinates;
* `Affine.instAddCommGroup`       they are a commutative group.
-/

namespace Credentials.Edwards

section
variable {F : Type} [Field F] {d i x₁ y₁ x₂ y₂ x₃ y₃ : F}

/-- the equation of a curve -/
def OnCurve (d x y : F) : Prop := -x ^ 2 + y ^ 2 = 1 + d * x ^ 2 * y ^ 2

/-! ## completeness -/

/-- if the product in a denominator is plus or minus one, then `d` is a square -/
theorem isSquare_of_product {e : F} (he : e ^ 2 = 1) (hi : i ^ 2 = -1) (h₁ : OnCurve d x₁ y₁)
    (h₂ : OnCurve d x₂ y₂) (hp : d * x₁ * x₂ * y₁ * y₂ = e) (hne : y₂ + i * x₂ ≠ 0) :
    IsSquare d := by
  unfold OnCurve at h₁ h₂
  have he0 : e ≠ 0 := by
    rintro rfl
    simp at he
  have hx : x₁ ≠ 0 := by
    rintro rfl
    exact he0 (by rw [← hp]; ring)
  have hy : y₁ ≠ 0 := by
    rintro rfl
    exact he0 (by rw [← hp]; ring)
  have hsq : d * (x₁ * y₁ * (y₂ + i * x₂)) ^ 2 = (y₁ + e * i * x₁) ^ 2 := by
    have h₂' : d * x₁ ^ 2 * y₁ ^ 2 * (y₂ ^ 2 - x₂ ^ 2) = d * x₁ ^ 2 * y₁ ^ 2 + e ^ 2 := by
      rw [← hp]
      linear_combination d * x₁ ^ 2 * y₁ ^ 2 * h₂
    linear_combination h₂' + 2 * i * x₁ * y₁ * hp - h₁ +
      (d * x₁ ^ 2 * y₁ ^ 2 * x₂ ^ 2 - e ^ 2 * x₁ ^ 2) * hi + (1 + x₁ ^ 2) * he
  refine ⟨(y₁ + e * i * x₁) / (x₁ * y₁ * (y₂ + i * x₂)), ?_⟩
  have hden : x₁ * y₁ * (y₂ + i * x₂) ≠ 0 := mul_ne_zero (mul_ne_zero hx hy) hne
  rw [← sq, div_pow, ← hsq, mul_div_cancel_right₀ _ (pow_ne_zero 2 hden)]

/-- no denominator of the law of addition is zero -/
theorem denominator_ne_zero (h2 : (2 : F) ≠ 0) (hi : i ^ 2 = -1) (hd : ¬ IsSquare d)
    (h₁ : OnCurve d x₁ y₁) (h₂ : OnCurve d x₂ y₂) {e : F} (he : e ^ 2 = 1) :
    1 + e * (d * x₁ * x₂ * y₁ * y₂) ≠ 0 := by
  intro h
  have hp : d * x₁ * x₂ * y₁ * y₂ = -e := by linear_combination e * h - d * x₁ * x₂ * y₁ * y₂ * he
  have he' : (-e) ^ 2 = 1 := by rw [neg_sq, he]
  by_cases hne : y₂ + i * x₂ = 0
  · by_cases hne' : y₂ + -i * x₂ = 0
    · -- then `y₂` is zero, and so is the product
      have hy : 2 * y₂ = 0 := by linear_combination hne + hne'
      have hy0 : y₂ = 0 := (mul_eq_zero.1 hy).resolve_left h2
      rw [hy0, mul_zero, mul_zero, add_zero] at h
      exact one_ne_zero h
    · exact hd (isSquare_of_product he' (by rw [neg_sq, hi]) h₁ h₂ hp hne')
  · exact hd (isSquare_of_product he' hi h₁ h₂ hp hne)

/-! ## the law -/

/-- the first coordinate of a sum -/
def sumX (d x₁ y₁ x₂ y₂ : F) : F := (x₁ * y₂ + y₁ * x₂) / (1 + d * x₁ * x₂ * y₁ * y₂)

/-- the second one -/
def sumY (d x₁ y₁ x₂ y₂ : F) : F := (y₁ * y₂ + x₁ * x₂) / (1 - d * x₁ * x₂ * y₁ * y₂)

theorem sumX_comm : sumX d x₁ y₁ x₂ y₂ = sumX d x₂ y₂ x₁ y₁ := by
  unfold sumX
  congr 1 <;> ring

theorem sumY_comm : sumY d x₁ y₁ x₂ y₂ = sumY d x₂ y₂ x₁ y₁ := by
  unfold sumY
  congr 1 <;> ring

section
variable {a b u v x y : F} (hu : u ≠ 0) (hv : v ≠ 0)
include hu hv

theorem onCurve_div (h : -(a * v) ^ 2 + (b * u) ^ 2 = (u * v) ^ 2 + d * a ^ 2 * b ^ 2) :
    OnCurve d (a / u) (b / v) := by
  unfold OnCurve
  field_simp
  linear_combination h

theorem one_add_div : 1 + d * (a / u) * x * (b / v) * y = (u * v + d * a * b * x * y) / (u * v) := by
  field_simp

theorem one_sub_div : 1 - d * (a / u) * x * (b / v) * y = (u * v - d * a * b * x * y) / (u * v) := by
  field_simp

/-- the sum of a point that is given by fractions and another point -/
theorem sumX_div :
    sumX d (a / u) (b / v) x y = (a * v * y + b * u * x) / (u * v + d * a * b * x * y) := by
  have hn : a / u * y + b / v * x = (a * v * y + b * u * x) / (u * v) := by field_simp
  unfold sumX
  rw [hn, one_add_div hu hv, div_div_div_cancel_right₀ (mul_ne_zero hu hv)]

theorem sumY_div :
    sumY d (a / u) (b / v) x y = (b * u * y + a * v * x) / (u * v - d * a * b * x * y) := by
  have hn : b / v * y + a / u * x = (b * u * y + a * v * x) / (u * v) := by field_simp
  unfold sumY
  rw [hn, one_sub_div hu hv, div_div_div_cancel_right₀ (mul_ne_zero hu hv)]

end

/-- a sum is on the curve -/
theorem onCurve_sum (h₁ : OnCurve d x₁ y₁) (h₂ : OnCurve d x₂ y₂)
    (hp : 1 + d * x₁ * x₂ * y₁ * y₂ ≠ 0) (hm : 1 - d * x₁ * x₂ * y₁ * y₂ ≠ 0) :
    OnCurve d (sumX d x₁ y₁ x₂ y₂) (sumY d x₁ y₁ x₂ y₂) := by
  refine onCurve_div hp hm ?_
  unfold OnCurve at h₁ h₂
  grind

/-- both ways of adding three points, without denominators: the first coordinate -/
theorem assoc_x (h₁ : OnCurve d x₁ y₁) (h₂ : OnCurve d x₂ y₂) (h₃ : OnCurve d x₃ y₃) :
    ((x₁ * y₂ + y₁ * x₂) * (1 - d * x₁ * x₂ * y₁ * y₂) * y₃ +
        (y₁ * y₂ + x₁ * x₂) * (1 + d * x₁ * x₂ * y₁ * y₂) * x₃) *
      ((1 + d * x₂ * x₃ * y₂ * y₃) * (1 - d * x₂ * x₃ * y₂ * y₃) +
        d * (x₂ * y₃ + y₂ * x₃) * (y₂ * y₃ + x₂ * x₃) * x₁ * y₁) =
    ((x₂ * y₃ + y₂ * x₃) * (1 - d * x₂ * x₃ * y₂ * y₃) * y₁ +
        (y₂ * y₃ + x₂ * x₃) * (1 + d * x₂ * x₃ * y₂ * y₃) * x₁) *
      ((1 + d * x₁ * x₂ * y₁ * y₂) * (1 - d * x₁ * x₂ * y₁ * y₂) +
        d * (x₁ * y₂ + y₁ * x₂) * (y₁ * y₂ + x₁ * x₂) * x₃ * y₃) := by
  unfold OnCurve at h₁ h₂ h₃
  grind

/-- the second coordinate -/
theorem assoc_y (h₁ : OnCurve d x₁ y₁) (h₂ : OnCurve d x₂ y₂) (h₃ : OnCurve d x₃ y₃) :
    ((y₁ * y₂ + x₁ * x₂) * (1 + d * x₁ * x₂ * y₁ * y₂) * y₃ +
        (x₁ * y₂ + y₁ * x₂) * (1 - d * x₁ * x₂ * y₁ * y₂) * x₃) *
      ((1 + d * x₂ * x₃ * y₂ * y₃) * (1 - d * x₂ * x₃ * y₂ * y₃) -
        d * (x₂ * y₃ + y₂ * x₃) * (y₂ * y₃ + x₂ * x₃) * x₁ * y₁) =
    ((y₂ * y₃ + x₂ * x₃) * (1 + d * x₂ * x₃ * y₂ * y₃) * y₁ +
        (x₂ * y₃ + y₂ * x₃) * (1 - d * x₂ * x₃ * y₂ * y₃) * x₁) *
      ((1 + d * x₁ * x₂ * y₁ * y₂) * (1 - d * x₁ * x₂ * y₁ * y₂) -
        d * (x₁ * y₂ + y₁ * x₂) * (y₁ * y₂ + x₁ * x₂) * x₃ * y₃) := by
  unfold OnCurve at h₁ h₂ h₃
  grind

end

/-! ## the group -/

/-- a point of Curve25519 by its two coordinates -/
@[ext]
structure Affine where
  x : Fp
  y : Fp
  onCurve : OnCurve (d : Fp) x y

namespace Affine

theorem two_ne_zero : (2 : Fp) ≠ 0 := by
  rw [show (2 : Fp) = ((2 : Nat) : Fp) from Nat.cast_ofNat.symm, Ne, ZMod.natCast_eq_zero_iff]
  decide +kernel

theorem one_add_product (p q : Affine) : 1 + (d : Fp) * p.x * q.x * p.y * q.y ≠ 0 := by
  have h := denominator_ne_zero two_ne_zero sqrtMinusOne_sq not_isSquare_d p.onCurve q.onCurve
    (one_pow 2)
  rwa [one_mul] at h

theorem one_sub_product (p q : Affine) : 1 - (d : Fp) * p.x * q.x * p.y * q.y ≠ 0 := by
  have h := denominator_ne_zero two_ne_zero sqrtMinusOne_sq not_isSquare_d p.onCurve q.onCurve
    (show (-1 : Fp) ^ 2 = 1 by ring)
  rwa [neg_one_mul, ← sub_eq_add_neg] at h

instance : Zero Affine := ⟨⟨0, 1, by unfold OnCurve; ring⟩⟩

instance : Add Affine := ⟨fun p q => ⟨sumX d p.x p.y q.x q.y, sumY d p.x p.y q.x q.y,
  onCurve_sum p.onCurve q.onCurve (one_add_product p q) (one_sub_product p q)⟩⟩

instance : Neg Affine := ⟨fun p => ⟨-p.x, p.y, by
  have h := p.onCurve
  unfold OnCurve at h ⊢
  rw [neg_sq, h]⟩⟩

@[simp] theorem zero_x : (0 : Affine).x = 0 := rfl
@[simp] theorem zero_y : (0 : Affine).y = 1 := rfl
@[simp] theorem add_x (p q : Affine) : (p + q).x = sumX (d : Fp) p.x p.y q.x q.y := rfl
@[simp] theorem add_y (p q : Affine) : (p + q).y = sumY (d : Fp) p.x p.y q.x q.y := rfl
@[simp] theorem neg_x (p : Affine) : (-p).x = -p.x := rfl
@[simp] theorem neg_y (p : Affine) : (-p).y = p.y := rfl

theorem add_comm (p q : Affine) : p + q = q + p := Affine.ext sumX_comm sumY_comm

theorem zero_add (p : Affine) : 0 + p = p := by
  refine Affine.ext ?_ ?_
  · simp [sumX]
  · simp [sumY]

theorem neg_add_cancel (p : Affine) : -p + p = 0 := by
  have hm := one_sub_product (-p) p
  rw [neg_x, neg_y] at hm
  refine Affine.ext ?_ ?_
  · rw [add_x, neg_x, neg_y, sumX, zero_x, div_eq_zero_iff]
    exact Or.inl (by ring)
  · rw [add_y, neg_x, neg_y, sumY, zero_y, div_eq_one_iff_eq hm]
    have h := p.onCurve
    unfold OnCurve at h
    linear_combination h

/-- no denominator of a second sum is zero -/
theorem second_denominators (p q r : Affine) :
    (1 + (d : Fp) * p.x * q.x * p.y * q.y) * (1 - d * p.x * q.x * p.y * q.y) +
        d * (p.x * q.y + p.y * q.x) * (p.y * q.y + p.x * q.x) * r.x * r.y ≠ 0 ∧
      (1 + (d : Fp) * p.x * q.x * p.y * q.y) * (1 - d * p.x * q.x * p.y * q.y) -
        d * (p.x * q.y + p.y * q.x) * (p.y * q.y + p.x * q.x) * r.x * r.y ≠ 0 := by
  have hp := one_add_product p q
  have hm := one_sub_product p q
  have ha := one_add_product (p + q) r
  have hs := one_sub_product (p + q) r
  rw [add_x, add_y, sumX, sumY] at ha hs
  rw [one_add_div hp hm] at ha
  rw [one_sub_div hp hm] at hs
  exact ⟨(div_ne_zero_iff.1 ha).1, (div_ne_zero_iff.1 hs).1⟩

theorem add_assoc (p q r : Affine) : p + q + r = p + (q + r) := by
  rw [add_comm p (q + r)]
  have h := second_denominators p q r
  have h' := second_denominators q r p
  refine Affine.ext ?_ ?_
  · have e := (div_eq_div_iff h.1 h'.1).2 (assoc_x p.onCurve q.onCurve r.onCurve)
    exact (sumX_div (one_add_product p q) (one_sub_product p q)).trans
      (e.trans (sumX_div (one_add_product q r) (one_sub_product q r)).symm)
  · have e := (div_eq_div_iff h.2 h'.2).2 (assoc_y p.onCurve q.onCurve r.onCurve)
    exact (sumY_div (one_add_product p q) (one_sub_product p q)).trans
      (e.trans (sumY_div (one_add_product q r) (one_sub_product q r)).symm)

instance instAddCommGroup : AddCommGroup Affine where
  add_assoc := add_assoc
  zero_add := zero_add
  add_zero p := (add_comm p 0).trans (zero_add p)
  neg_add_cancel := neg_add_cancel
  add_comm := add_comm
  nsmul := nsmulRec
  zsmul := zsmulRec

end Affine

end Credentials.Edwards
