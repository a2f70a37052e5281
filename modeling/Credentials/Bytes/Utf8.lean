/-!
# Byte strings and the text they spell

Octets are kept as plain lists, so that every format below is a function on lists.

* `Bytes`        a byte string;
* `utf8`         the octets of a text;
* `ofUtf8?`      the text that octets spell, if they are well-formed UTF-8;
* `asciiBytes`   the octets of a text of ASCII characters, one each;
* `utf8_ofList`  the octets of a text are those of its characters, one after another.
-/

namespace Credentials

/-- a byte string -/
abbrev Bytes := List UInt8

/-- the UTF-8 octets of a text -/
def utf8 (s : String) : Bytes := s.toByteArray.data.toList

/-- the text spelled by octets, when they are well-formed UTF-8 (no overlong form, no surrogate) -/
def ofUtf8? (bs : Bytes) : Option String := String.fromUTF8? ⟨bs.toArray⟩

/-- the octet of an ASCII character -/
def asciiByte (c : Char) : UInt8 := UInt8.ofNat c.toNat

/-- the octets of ASCII characters -/
def asciiBytes (cs : List Char) : Bytes := cs.map asciiByte

/-- the octets of a text spell this text -/
theorem ofUtf8?_utf8 (s : String) : ofUtf8? (utf8 s) = some s := by
  have e : (⟨(utf8 s).toArray⟩ : ByteArray) = s.toByteArray := by simp [utf8]
  unfold ofUtf8? String.fromUTF8?
  rw [e, dif_pos s.isValidUTF8]
  rfl

/-- octets of a joined text -/
theorem utf8_append (s t : String) : utf8 (s ++ t) = utf8 s ++ utf8 t := by
  simp [utf8]

/-- different texts have different octets -/
theorem utf8_injective {s t : String} (h : utf8 s = utf8 t) : s = t := by
  have e := ofUtf8?_utf8 s
  rw [h, ofUtf8?_utf8] at e
  exact (Option.some.inj e).symm

/-- octets of a text, character by character -/
theorem utf8_ofList (cs : List Char) : utf8 (String.ofList cs) = cs.flatMap String.utf8EncodeChar := by
  simp [utf8, List.utf8Encode]

theorem utf8EncodeChar_of_ascii {c : Char} (h : c.toNat < 128) :
    String.utf8EncodeChar c = [asciiByte c] := by
  unfold String.utf8EncodeChar
  exact if_pos (Nat.le_of_lt_succ h)

theorem toNat_asciiByte {c : Char} (h : c.toNat < 128) : (asciiByte c).toNat = c.toNat := by
  unfold asciiByte
  rw [UInt8.toNat_ofNat']
  omega

/-- a text of ASCII characters has an octet for each of them -/
theorem utf8_ofList_of_ascii {cs : List Char} (h : ∀ c ∈ cs, c.toNat < 128) :
    utf8 (String.ofList cs) = asciiBytes cs := by
  rw [utf8_ofList]
  induction cs with
  | nil => rfl
  | cons c r ih =>
    rw [List.flatMap_cons, utf8EncodeChar_of_ascii (h c List.mem_cons_self),
      ih fun d hd => h d (List.mem_cons_of_mem _ hd)]
    rfl

end Credentials
