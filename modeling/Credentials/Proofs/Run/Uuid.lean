import Credentials.Proofs.Bytes.Base64
import Credentials.Run.Uuid

/-!
# The written form of random identifiers

* `Uuid.fits`             which characters may stand at a place: four dashes, the version, the variant,
                          and lower-case digits everywhere else;
* `Uuid.isVersion4`       36 characters that fit their places;
* `Uuid.isVersion4_text`  so is every identifier that was drawn, whatever the octets.
-/

namespace Credentials.Uuid

/-- a lower-case hexadecimal digit -/
def isDigit (c : Char) : Bool := ('0' ≤ c && c ≤ '9') || ('a' ≤ c && c ≤ 'f')

/-- which characters may stand at a place -/
def fits (place : Nat) (c : Char) : Bool :=
  if place ∈ [8, 13, 18, 23] then c == '-'
  else if place = 14 then c == '4'
  else if place = 19 then c ∈ ['8', '9', 'a', 'b']
  else isDigit c

def isVersion4 (s : String) : Bool :=
  s.toList.length == 36 && s.toList.zipIdx.all fun (c, place) => fits place c

@[simp] theorem isDigit_high (b : UInt8) : isDigit (Hex.digit (b.toNat / 16)) = true :=
  Base64.forall_octet (p := fun b => isDigit (Hex.digit (b.toNat / 16)) = true) (by decide +kernel) b

@[simp] theorem isDigit_low (b : UInt8) : isDigit (Hex.digit (b.toNat % 16)) = true :=
  Base64.forall_octet (p := fun b => isDigit (Hex.digit (b.toNat % 16)) = true) (by decide +kernel) b

theorem digit_version (b : UInt8) : Hex.digit ((b &&& 0x0f ||| 0x40).toNat / 16) = '4' :=
  Base64.forall_octet (p := fun b => Hex.digit ((b &&& 0x0f ||| 0x40).toNat / 16) = '4')
    (by decide +kernel) b

theorem digit_variant (b : UInt8) :
    Hex.digit ((b &&& 0x3f ||| 0x80).toNat / 16) ∈ ['8', '9', 'a', 'b'] :=
  Base64.forall_octet
    (p := fun b => Hex.digit ((b &&& 0x3f ||| 0x80).toNat / 16) ∈ ['8', '9', 'a', 'b'])
    (by decide +kernel) b

/-- an identifier that was drawn has the version and the variant at their places -/
theorem isVersion4_text {bs : Bytes} (h : bs.length = 16) :
    isVersion4 (text (ofRandom bs)) = true := by
  match bs, h with
  | [b15, b14, b13, b12, b11, b10, b9, b8, b7, b6, b5, b4, b3, b2, b1, b0], _ =>
    have hversion := digit_version b6
    have hvariant := digit_variant b8
    show isVersion4 (text [b0, b1, b2, b3, b4, b5, b6 &&& 0x0f ||| 0x40, b7, b8 &&& 0x3f ||| 0x80, b9,
      b10, b11, b12, b13, b14, b15]) = true
    generalize b6 &&& 0x0f ||| 0x40 = v at hversion ⊢
    generalize b8 &&& 0x3f ||| 0x80 = w at hvariant ⊢
    simpa [isVersion4, text, digits, Hex.pair, fits, hversion] using hvariant

theorem ne_empty_of_isVersion4 {s : String} (h : isVersion4 s = true) : s ≠ "" := by
  rintro rfl
  exact absurd h (by decide)

end Credentials.Uuid
