import Credentials.Bytes.Base64
import Credentials.Crypto.Sealing
import Credentials.Secret.Envelope

/-!
# Secrets in memory

* `Store`                  transit keys by their paths, and responses by their namespaces and keys;
* `Store.put`, `Store.get?`, `Store.openSpace`   the key-value side;
* `Store.transitKey?`, `Store.addTransitKey`     the transit side;
* `Store.get?_put`         a response is seen at its own place only;
* `Ciphertext.text?`       a plaintext sealed and written;
* `Ciphertext.plaintext`   the plaintext of a written ciphertext.
-/

namespace Credentials

/-- what is kept in memory -/
structure Store where
  transitKeys : List (String × Bytes)
  spaces : List (String × List (String × Response))
  /-- how many handles were constructed; a call makes one at most, so 64 bits are enough -/
  handlesCreated : Nat

/-- a value put at a key, in place of the one that is there -/
def putAt (k : String) (v : α) : List (String × α) → List (String × α)
  | [] => [(k, v)]
  | (n, w) :: r => if n = k then (k, v) :: r else (n, w) :: putAt k v r

theorem lookup_putAt (k n : String) (v : α) (l : List (String × α)) :
    (putAt k v l).lookup n = if n = k then some v else l.lookup n := by
  induction l with
  | nil =>
    rw [putAt, List.lookup_cons]
    by_cases hn : n = k
    · rw [if_pos hn, beq_iff_eq.2 hn]
    · rw [if_neg hn, beq_eq_false_iff_ne.2 hn]
  | cons p r ih =>
    obtain ⟨m, w⟩ := p
    by_cases hm : m = k
    · rw [putAt, if_pos hm, List.lookup_cons, List.lookup_cons, hm]
      by_cases hn : n = k
      · rw [if_pos hn, beq_iff_eq.2 hn]
      · rw [if_neg hn, beq_eq_false_iff_ne.2 hn]
    · rw [putAt, if_neg hm, List.lookup_cons, List.lookup_cons, ih]
      by_cases hn : n = m
      · have hnk : ¬ n = k := fun e => hm (hn.symm.trans e)
        simp only [if_neg hnk, beq_iff_eq.2 hn]
      · rw [beq_eq_false_iff_ne.2 hn]

theorem putAt_of_lookup_none {k : String} {v : α} {l : List (String × α)} (h : l.lookup k = none) :
    putAt k v l = l ++ [(k, v)] := by
  induction l with
  | nil => rfl
  | cons p r ih =>
    obtain ⟨n, w⟩ := p
    rw [List.lookup_cons] at h
    split at h
    · cases h
    · rename_i hn
      have hn : n ≠ k := fun e => beq_eq_false_iff_ne.1 hn e.symm
      rw [putAt, if_neg hn, ih h, List.cons_append]

namespace Store

/-- nothing -/
def empty : Store := ⟨[], [], 0⟩

/-- the responses of a namespace -/
def space (s : Store) (name : String) : List (String × Response) :=
  (s.spaces.lookup name).getD []

/-- a namespace that is there from now on -/
def openSpace (s : Store) (name : String) : Store :=
  { s with spaces := putAt name (s.space name) s.spaces }

/-- a response put at a key of a namespace -/
def put (s : Store) (name key : String) (r : Response) : Store :=
  { s with spaces := putAt name (putAt key r (s.space name)) s.spaces }

/-- the response at a key of a namespace -/
def get? (s : Store) (name key : String) : Option Response := (s.space name).lookup key

def transitKey? (s : Store) (path : String) : Option Bytes := s.transitKeys.lookup path

def addTransitKey (s : Store) (path : String) (key : Bytes) : Store :=
  { s with transitKeys := putAt path key s.transitKeys }

/-! ### What look-ups see -/

theorem space_put (s : Store) (name key n : String) (r : Response) :
    (s.put name key r).space n = if n = name then putAt key r (s.space name) else s.space n := by
  simp only [put, space, lookup_putAt]
  split <;> rfl

theorem space_openSpace (s : Store) (name n : String) : (s.openSpace name).space n = s.space n := by
  simp only [openSpace, space, lookup_putAt]
  split
  · rename_i h; rw [h, Option.getD_some]
  · rfl

/-- a response is seen at its own namespace and key, and nowhere else -/
theorem get?_put (s : Store) (name key n k : String) (r : Response) :
    (s.put name key r).get? n k = if n = name ∧ k = key then some r else s.get? n k := by
  rw [get?, space_put]
  by_cases hn : n = name
  · rw [if_pos hn, lookup_putAt]
    by_cases hk : k = key
    · rw [if_pos hk, if_pos ⟨hn, hk⟩]
    · rw [if_neg hk, if_neg fun h => hk h.2, get?, hn]
  · rw [if_neg hn, if_neg fun h => hn h.1, get?]

theorem get?_openSpace (s : Store) (name n k : String) :
    (s.openSpace name).get? n k = s.get? n k := by
  rw [get?, space_openSpace, get?]

theorem transitKey?_addTransitKey (s : Store) (path p : String) (key : Bytes) :
    (s.addTransitKey path key).transitKey? p = if p = path then some key else s.transitKey? p :=
  lookup_putAt path p key s.transitKeys

end Store

namespace Ciphertext

/-- what every ciphertext starts with -/
def mark : String := "vault:v1:"

/-- octets of a nonce -/
def nonceSize : Nat := 24

/-- octets of a key -/
def keySize : Nat := 32

/-- the octets of a ciphertext in written form -/
def write (bs : Bytes) : String := mark ++ Base64.encode Base64.standard bs

/-- a plaintext sealed under a key and a nonce, in written form -/
def text? (key nonce plaintext : Bytes) : Option String :=
  (Sealing.seal? key nonce plaintext).map fun sealed => write (nonce ++ sealed)

/-- a refusal to decrypt -/
def refuse (message : String) : SecretError := .rejected "decrypt" message

/-- the octets behind the mark -/
def octets (ciphertext : String) : Except SecretError Bytes :=
  if mark.toList.isPrefixOf ciphertext.toList then
    let encoded := String.ofList (ciphertext.toList.drop mark.toList.length)
    (Base64.decode Base64.standard (utf8 encoded)).mapError fun e =>
      refuse ("invalid base64: " ++ e.message)
  else .error (refuse ("ciphertext must start with '" ++ mark ++ "'"))

/-- the plaintext of a ciphertext under the key of a path, if the path has one -/
def plaintext (path : String) (key : Option Bytes) (ciphertext : String) :
    Except SecretError Bytes := do
  let bs ← octets ciphertext
  if bs.length < nonceSize then .error (refuse "ciphertext too short")
  else
    match key with
    | none => .error (refuse ("no transit key at '" ++ path ++ "'"))
    | some key =>
      match Sealing.open? key (bs.take nonceSize) (bs.drop nonceSize) with
      | some m => .ok m
      | none => .error (refuse "ciphertext failed authentication")

end Ciphertext

end Credentials
