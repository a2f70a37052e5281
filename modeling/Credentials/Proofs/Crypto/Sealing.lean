import Credentials.Crypto.Sealing

/-!
# What is sealed can be opened

* `ChaCha20.length_stream`  the keystream of `n` blocks has `64 n` octets, whatever the key;
* `xorWith_xorWith`         octets combined twice with the same ones are back;
* `open?_of_seal?`          a sealed message opens under the same key and nonce;
* `seal?_of_open?`          what opens was sealed: no other octets open;
* `isSome_seal?`            every message within the limit is sealed.

The keystream is that of a derived key, which always has 32 octets, so that only the length of the
nonce matters.
-/

namespace Credentials

/-- octets combined twice with the same ones, which reach as far, are back -/
theorem xorWith_xorWith (a : Bytes) :
    ∀ b : Bytes, a.length ≤ b.length → xorWith (xorWith a b) b = a := by
  induction a with
  | nil => intro b _; simp [xorWith]
  | cons x a ih =>
    intro b h
    cases b with
    | nil => simp at h
    | cons y b =>
      have ih' := ih b (Nat.le_of_succ_le_succ h)
      unfold xorWith at ih' ⊢
      rw [List.zipWith_cons_cons, List.zipWith_cons_cons, ih', UInt8.xor_assoc, UInt8.xor_self,
        UInt8.xor_zero]

theorem length_xorWith (a b : Bytes) (h : a.length ≤ b.length) : (xorWith a b).length = a.length := by
  rw [xorWith, List.length_zipWith, Nat.min_eq_left h]

namespace ChaCha20

theorem length_octets (ws : List UInt32) : (octets ws).length = 4 * ws.length := by
  induction ws with
  | nil => rfl
  | cons w ws ih =>
    rw [octets] at ih
    rw [octets, List.flatMap_cons, List.length_append, length_little, ih, List.length_cons]
    omega

theorem length_words (bs : Bytes) : (words bs).length = bs.length / 4 := by
  induction bs using words.induct with
  | case1 a b c d r ih => rw [words, List.length_cons, ih]; simp only [List.length_cons]; omega
  | case2 bs h =>
    rw [words]
    · match bs, h with
      | [], _ => rfl
      | [_], _ => simp
      | [_, _], _ => simp
      | [_, _, _], _ => simp
      | a :: b :: c :: d :: r, h => exact absurd rfl (h a b c d r)
    · exact h

theorem Block.length_toList (s : Block) : s.toList.length = 16 := rfl

/-- a derived key has 32 octets -/
theorem length_subkey (key input : Bytes) : (subkey key input).length = 32 := by
  unfold subkey
  rw [length_octets, List.length_append, List.length_take, List.length_drop, Block.length_toList]
  rfl

theorem length_block {key nonce : Bytes} (hk : key.length = 32) (hn : nonce.length = 12)
    (counter : UInt32) : (block key counter nonce).length = 64 := by
  unfold block
  rw [length_octets, List.length_zipWith, Block.length_toList]
  simp only [List.length_append, length_words, hk, hn]
  rfl

theorem length_stream {key nonce : Bytes} (hk : key.length = 32) (hn : nonce.length = 12) (n : Nat) :
    ∀ counter, (stream key nonce n counter).length = 64 * n := by
  induction n with
  | zero => intro _; rfl
  | succ n ih => intro c; rw [stream, List.length_append, length_block hk hn, ih]; omega

theorem le_length_stream {key nonce : Bytes} (hk : key.length = 32) (hn : nonce.length = 12)
    (m : Bytes) (counter : UInt32) :
    m.length ≤ (stream key nonce ((m.length + 63) / 64) counter).length := by
  rw [length_stream hk hn]
  omega

theorem length_apply {key nonce : Bytes} (hk : key.length = 32) (hn : nonce.length = 12)
    (counter : UInt32) (m : Bytes) : (apply key nonce counter m).length = m.length :=
  length_xorWith _ _ (le_length_stream hk hn m counter)

/-- the keystream applied twice changes nothing -/
theorem apply_apply {key nonce : Bytes} (hk : key.length = 32) (hn : nonce.length = 12)
    (counter : UInt32) (m : Bytes) : apply key nonce counter (apply key nonce counter m) = m := by
  have e := length_apply hk hn counter m
  rw [apply, e]
  exact xorWith_xorWith m _ (le_length_stream hk hn m counter)

end ChaCha20

namespace Sealing

variable {key nonce m : Bytes}

theorem length_streamKey (key nonce : Bytes) : (streamKey key nonce).length = 32 :=
  ChaCha20.length_subkey _ _

theorem length_streamNonce (hn : nonce.length = 24) : (streamNonce nonce).length = 12 := by
  simp [streamNonce, hn]

theorem length_mask (hn : nonce.length = 24) : (mask key nonce m).length = m.length :=
  ChaCha20.length_apply (length_streamKey key nonce) (length_streamNonce hn) 1 m

theorem mask_mask (hn : nonce.length = 24) : mask key nonce (mask key nonce m) = m :=
  ChaCha20.apply_apply (length_streamKey key nonce) (length_streamNonce hn) 1 m

theorem length_tagOf (key nonce m : Bytes) : (tagOf key nonce m).length = tagSize := by
  rw [tagOf, Poly1305.tag, length_little]
  rfl

/-- every message within the limit is sealed, and no other -/
theorem isSome_seal? (key nonce m : Bytes) : (seal? key nonce m).isSome = withinLimit m := by
  unfold seal?
  split
  · rename_i h
    rw [h]
    rfl
  · rename_i h
    rw [Bool.eq_false_iff.2 h]
    rfl

/-- what is sealed under a key and a nonce opens under them -/
theorem open?_of_seal? (hn : nonce.length = 24) {sealed : Bytes}
    (h : seal? key nonce m = some sealed) : open? key nonce sealed = some m := by
  unfold seal? at h
  split at h
  · rename_i hl
    cases h
    have ht : (mask key nonce m ++ tagOf key nonce (mask key nonce m)).length - tagSize
        = (mask key nonce m).length := by
      rw [List.length_append, length_tagOf, Nat.add_sub_cancel]
    have hlim : withinLimit (mask key nonce m) = true := by
      unfold withinLimit at hl ⊢
      rwa [length_mask hn]
    unfold open?
    rw [if_neg (by rw [List.length_append, length_tagOf]; omega)]
    simp only [ht, List.take_left, List.drop_left, hlim, beq_self_eq_true, Bool.and_true, if_true,
      mask_mask hn]
  · cases h

/-- what opens under a key and a nonce was sealed under them -/
theorem seal?_of_open? (hn : nonce.length = 24) {sealed : Bytes}
    (h : open? key nonce sealed = some m) : seal? key nonce m = some sealed := by
  unfold open? at h
  split at h
  · cases h
  · dsimp only at h
    split at h
    · rename_i ht
      obtain rfl := Option.some.inj h
      obtain ⟨hlim, htag⟩ := Bool.and_eq_true_iff.1 ht
      have hcut := List.take_append_drop (sealed.length - tagSize) sealed
      generalize sealed.take (sealed.length - tagSize) = encrypted at hlim htag hcut
      have hlim' : withinLimit (mask key nonce encrypted) = true := by
        unfold withinLimit at hlim ⊢
        rwa [length_mask hn]
      unfold seal?
      rw [if_pos hlim']
      simp only [mask_mask hn, ← beq_iff_eq.1 htag, hcut]
    · cases h

end Sealing

end Credentials
