import Credentials.Crypto.Ed25519
import Credentials.Proofs.Crypto.Points

/-!
# Signatures are accepted

* `scalar_lt`      the factor of a secret has at most 255 bits;
* `response_eq`    the point that the check computes is the commitment of the signature;
* `verify_sign`    what is signed under a secret is accepted under its public key.
-/

namespace Credentials.Ed25519

open Edwards

theorem scalar_lt (secret : Bytes) : (expand secret).scalar < 2 ^ 256 := by
  have h := Nat.mod_lt (ofLittle ((Sha512.hash secret).take 32)) (show 0 < 2 ^ 254 by norm_num)
  have hd := Nat.div_mul_le_self (ofLittle ((Sha512.hash secret).take 32) % 2 ^ 254) 8
  have he : (2 : Nat) ^ 256 = 4 * 2 ^ 254 := by norm_num
  show ofLittle ((Sha512.hash secret).take 32) % 2 ^ 254 / 8 * 8 + 2 ^ 254 < 2 ^ 256
  omega

theorem order_lt : order < 2 ^ 256 := by norm_num [order]

theorem order_pos : 0 < order := by norm_num [order]

theorem challenge_lt (commitment key message : Bytes) : challenge commitment key message < 2 ^ 256 := by
  unfold challenge
  exact lt_trans (Nat.mod_lt _ order_pos) order_lt

/-- the factor of the commitment of a signature -/
def nonce (secret message : Bytes) : Nat :=
  ofLittle (Sha512.hash ((expand secret).nonceKey ++ message)) % order

theorem nonce_lt (secret message : Bytes) : nonce secret message < 2 ^ 256 := by
  unfold nonce
  exact lt_trans (Nat.mod_lt _ order_pos) order_lt

/-- what a response is computed from -/
def response (secret message : Bytes) : Nat :=
  nonce secret message + challenge (nonce secret message • Affine.base).octets (publicKey secret)
    message * (expand secret).scalar

/-- a public key is that multiple of the base point which its secret says -/
theorem publicKey_eq (secret : Bytes) :
    publicKey secret = ((expand secret).scalar • Affine.base).octets := by
  unfold publicKey
  exact Point.encode_eq (Point.is_mul Point.is_base (scalar_lt secret))

/-- a signature is a commitment and a response to its challenge -/
theorem sign_eq (secret message : Bytes) : sign secret message =
    (nonce secret message • Affine.base).octets ++ little 32 (response secret message % order) := by
  have h := Point.encode_eq (Point.is_mul Point.is_base (nonce_lt secret message))
  unfold response
  rw [← h]
  unfold sign publicKey nonce
  dsimp only

/-- the response to a challenge, less its multiple of the key, is the commitment -/
theorem response_eq (r c x : Nat) : ((r + c * x) % order) • Affine.base + c • -(x • Affine.base)
    = r • Affine.base := by
  rw [mod_order_nsmul_base, add_nsmul, mul_comm c x, mul_nsmul, neg_nsmul, add_neg_cancel_right]

theorem take_sign (secret message : Bytes) :
    (sign secret message).take 32 = (nonce secret message • Affine.base).octets := by
  have h : (nonce secret message • Affine.base).octets.length = 32 := length_little 32 _
  rw [sign_eq, ← h, List.take_left]

theorem ofLittle_drop_sign (secret message : Bytes) :
    ofLittle ((sign secret message).drop 32) = response secret message % order := by
  have h : (nonce secret message • Affine.base).octets.length = 32 := length_little 32 _
  have hd : (sign secret message).drop 32 = little 32 (response secret message % order) := by
    rw [sign_eq, ← h, List.drop_left]
  have hfit : response secret message % order < 256 ^ 32 := by
    have h256 : (256 : Nat) ^ 32 = 2 ^ 256 := by norm_num
    rw [h256]
    exact lt_trans (Nat.mod_lt _ order_pos) order_lt
  rw [hd, ofLittle_little, Nat.mod_eq_of_lt hfit]

theorem length_sign (secret message : Bytes) : (sign secret message).length = 64 := by
  rw [sign_eq, List.length_append, length_little]
  show (little 32 _).length + 32 = 64
  rw [length_little]

theorem length_publicKey (secret : Bytes) : (publicKey secret).length = 32 := by
  rw [publicKey_eq]
  exact length_little 32 _

/-- what the check asks for -/
theorem verify_of {key message signature : Bytes} {a : Point} (hkey : key.length = 32)
    (hsize : signature.length = 64) (hlt : ofLittle (signature.drop 32) < order)
    (hdecode : Point.decode? key = some a)
    (hpoint : ((Point.base.mul (ofLittle (signature.drop 32))).add
      (a.neg.mul (challenge (signature.take 32) key message))).encode = signature.take 32) :
    verify key message signature = true := by
  unfold verify
  refine (if_pos ⟨hkey, hsize, hlt⟩).trans ?_
  rw [hdecode]
  exact beq_iff_eq.2 hpoint

/-- what is signed under a secret is accepted under its public key -/
theorem verify_sign (secret message : Bytes) :
    verify (publicKey secret) message (sign secret message) = true := by
  obtain ⟨a, hdecode, ha⟩ := Point.decode?_octets ((expand secret).scalar • Affine.base)
  rw [← publicKey_eq] at hdecode
  have hs := Nat.mod_lt (response secret message) order_pos
  have hsum := Point.is_add (Point.is_mul Point.is_base (lt_trans hs order_lt))
    (Point.is_mul (Point.is_neg ha) (challenge_lt (nonce secret message • Affine.base).octets
      (publicKey secret) message))
  have hpoint := Point.encode_eq hsum
  rw [response, response_eq] at hpoint
  refine verify_of (length_publicKey secret) (length_sign secret message) ?_ hdecode ?_
  · rw [ofLittle_drop_sign]
    exact hs
  · rw [take_sign, ofLittle_drop_sign]
    exact hpoint

end Credentials.Ed25519
