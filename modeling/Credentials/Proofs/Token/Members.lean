import Credentials.Proofs.Token.Signed

/-!
# Claims by the names of members

* `Claims.Datum`               what a claim is, a text or an unsigned number of 64 bits;
* `Claims.data`                claims by their names;
* `Claims.ToldBy`              members tell claims: each of the eight names once, with its datum as value;
* `Claims.Slots.datum?`        the fields that were met, by their names;
* `Claims.Slots.take_eq_ok_iff`   what taking one member comes to;
* `Claims.Fills`               what the values under one name make of a field;
* `Claims.foldMembers_eq_ok_iff`  so do all members, in whatever order, of every field;
* `Claims.ofMembers_eq_ok_iff` members are read as claims iff they tell them;
* `Claims.ofToken_iff_toldBy`  claims are read by name, once each, in any order.
-/

namespace Credentials.Claims

open Json (Tree Member Piece Slot Named SpellsMembers)

/-- what a claim is -/
inductive Datum where
  | text (s : String)
  | word (n : Nat)
  deriving DecidableEq

/-- how a claim is written: as a string, or as a number without sign, fraction and exponent -/
inductive Datum.IsWritten : Datum → Tree → Prop
  | text {ps : List Piece} {s : String} (h : Piece.text? ps = some s) : IsWritten (.text s) (.string ps)
  | word {ds : List Nat} (h : Json.ofDigits ds ≤ Json.maxWord) :
    IsWritten (.word (Json.ofDigits ds)) (.number ⟨false, ds, [], none⟩)

/-- the names of claims that are texts -/
def texts : List String := ["jti", "sub", "iss", "aud", "preferred_username"]

/-- the names of claims that are instants -/
def times : List String := ["nbf", "iat", "exp"]

/-- the names of claims -/
def names : List String := texts ++ times

/-- claims by their names -/
def data (c : Claims) : List (String × Datum) :=
  [("jti", .text c.jti), ("sub", .text c.sub), ("iss", .text c.iss), ("aud", .text c.aud),
    ("nbf", .word c.nbf), ("iat", .word c.iat), ("exp", .word c.exp),
    ("preferred_username", .text c.preferredUsername)]

/-- the values of the members of one name -/
def valuesOf (name : String) (members : List (String × Tree)) : List Tree :=
  (members.filter fun m => m.1 = name).map Prod.snd

/-- members tell claims: under each of their names there is one value, and it is the claim -/
def ToldBy (c : Claims) (members : List (String × Tree)) : Prop :=
  ∀ p ∈ c.data, ∃ t, valuesOf p.1 members = [t] ∧ p.2.IsWritten t

/-! ## one member -/

theorem text_eq_ok_iff {t : Tree} {s : String} : t.text = .ok s ↔ (Datum.text s).IsWritten t := by
  constructor
  · intro h
    cases t with
    | string ps => exact .text (Json.orMalformed_eq_ok_iff.1 h)
    | _ => exact absurd h (Json.Tree.mismatch_ne_ok _ _ _)
  · rintro ⟨h⟩
    exact Json.orMalformed_eq_ok_iff.2 h

theorem value?_eq_natural_iff {m : Json.Numeral} {n : Nat} : m.value? = some (.natural n) ↔
    ∃ ds, m = ⟨false, ds, [], none⟩ ∧ Json.ofDigits ds = n ∧ n ≤ Json.maxWord := by
  obtain ⟨negative, whole, fraction, exponent⟩ := m
  unfold Json.Numeral.value?
  constructor
  · intro h
    split at h
    · rename_i hp
      obtain ⟨rfl, rfl, hneg, hle⟩ := hp
      obtain rfl : negative = false := by simpa using hneg
      simp only [Option.some.injEq, Number.natural.injEq] at h
      exact ⟨whole, rfl, h, h ▸ hle⟩
    · split at h
      · cases h
      · cases hf : Json.Numeral.float? ⟨negative, whole, fraction, exponent⟩ with
        | none => rw [hf] at h; cases h
        | some x => rw [hf] at h; cases h
  · rintro ⟨ds, hm, rfl, hle⟩
    cases hm
    exact if_pos ⟨rfl, rfl, rfl, hle⟩

theorem word_eq_ok_iff {t : Tree} {n : Nat} : t.word = .ok n ↔ (Datum.word n).IsWritten t := by
  constructor
  · intro h
    cases t with
    | number m =>
      obtain ⟨k, hk, h⟩ := bind_eq_ok_iff.1 h
      have hv := Json.orMalformed_eq_ok_iff.1 hk
      cases k with
      | natural k =>
        obtain rfl : k = n := Except.ok.inj h
        obtain ⟨ds, rfl, rfl, hle⟩ := value?_eq_natural_iff.1 hv
        exact .word hle
      | negative k => cases h
      | float x => cases h
    | _ => exact absurd h (Json.Tree.mismatch_ne_ok _ _ _)
  · rintro h
    cases h with
    | word h =>
      have hv := value?_eq_natural_iff.2 ⟨_, rfl, rfl, h⟩
      exact bind_eq_ok_iff.2 ⟨_, Json.orMalformed_eq_ok_iff.2 hv, rfl⟩

/-! ## fields by their names -/

namespace Slots

/-- the field of a name, if it was met -/
def datum? (s : Slots) : String → Option Datum
  | "jti" => s.jti.map .text
  | "sub" => s.sub.map .text
  | "iss" => s.iss.map .text
  | "aud" => s.aud.map .text
  | "nbf" => s.nbf.map .word
  | "iat" => s.iat.map .word
  | "exp" => s.exp.map .word
  | "preferred_username" => s.preferredUsername.map .text
  | _ => none

/-- gives the field of a name a value -/
def put (s : Slots) : String → Datum → Slots
  | "jti", .text x => { s with jti := some x }
  | "sub", .text x => { s with sub := some x }
  | "iss", .text x => { s with iss := some x }
  | "aud", .text x => { s with aud := some x }
  | "nbf", .word n => { s with nbf := some n }
  | "iat", .word n => { s with iat := some n }
  | "exp", .word n => { s with exp := some n }
  | "preferred_username", .text x => { s with preferredUsername := some x }
  | _, _ => s

/-- all fields of claims -/
def ofClaims (c : Claims) : Slots :=
  ⟨some c.jti, some c.sub, some c.iss, some c.aud, some c.nbf, some c.iat, some c.exp,
    some c.preferredUsername⟩

theorem datum?_put_text {s : Slots} {name n : String} (x : String) (h : name ∈ texts) (hn : n ∈ names) :
    (s.put name (.text x)).datum? n = if n = name then some (.text x) else s.datum? n := by
  simp only [names, texts, times, List.cons_append, List.nil_append, List.mem_cons, List.not_mem_nil,
    or_false] at h hn
  rcases h with rfl | rfl | rfl | rfl | rfl <;>
    rcases hn with rfl | rfl | rfl | rfl | rfl | rfl | rfl | rfl <;> rfl

theorem datum?_put_word {s : Slots} {name n : String} (k : Nat) (h : name ∈ times) (hn : n ∈ names) :
    (s.put name (.word k)).datum? n = if n = name then some (.word k) else s.datum? n := by
  simp only [names, texts, times, List.cons_append, List.nil_append, List.mem_cons, List.not_mem_nil,
    or_false] at h hn
  rcases h with rfl | rfl | rfl <;>
    rcases hn with rfl | rfl | rfl | rfl | rfl | rfl | rfl | rfl <;> rfl

/-- nothing else than these fields is met -/
theorem ext_datum? {s s' : Slots} (h : ∀ name ∈ names, s'.datum? name = s.datum? name) : s' = s := by
  have htext : Function.Injective (Option.map Datum.text) :=
    Option.map_injective fun _ _ e => Datum.text.inj e
  have hword : Function.Injective (Option.map Datum.word) :=
    Option.map_injective fun _ _ e => Datum.word.inj e
  obtain ⟨jti, sub, iss, aud, nbf, iat, exp, user⟩ := s
  obtain ⟨jti', sub', iss', aud', nbf', iat', exp', user'⟩ := s'
  obtain rfl : jti' = jti := htext (h "jti" (by decide))
  obtain rfl : sub' = sub := htext (h "sub" (by decide))
  obtain rfl : iss' = iss := htext (h "iss" (by decide))
  obtain rfl : aud' = aud := htext (h "aud" (by decide))
  obtain rfl : nbf' = nbf := hword (h "nbf" (by decide))
  obtain rfl : iat' = iat := hword (h "iat" (by decide))
  obtain rfl : exp' = exp := hword (h "exp" (by decide))
  obtain rfl : user' = user := htext (h "preferred_username" (by decide))
  rfl

theorem fill_text_iff {name : String} {slot : Slot String} {t : Tree} {f : Slot String → Slots}
    {s' : Slots} : (Slot.fill name slot t.text >>= fun v => .ok (f v)) = .ok s' ↔
      slot.map Datum.text = none ∧ ∃ x, (Datum.text x).IsWritten t ∧ s' = f (some x) := by
  simp only [Slot.fill_eq_ok_iff, text_eq_ok_iff, Option.map_eq_none_iff]

theorem fill_word_iff {name : String} {slot : Slot Nat} {t : Tree} {f : Slot Nat → Slots}
    {s' : Slots} : (Slot.fill name slot t.word >>= fun v => .ok (f v)) = .ok s' ↔
      slot.map Datum.word = none ∧ ∃ k, (Datum.word k).IsWritten t ∧ s' = f (some k) := by
  simp only [Slot.fill_eq_ok_iff, word_eq_ok_iff, Option.map_eq_none_iff]

/-- what may be taken for a claim of a name -/
inductive Takes (name : String) (t : Tree) : Datum → Prop
  | text {x : String} (h : name ∈ texts) (ht : (Datum.text x).IsWritten t) : Takes name t (.text x)
  | word {k : Nat} (h : name ∈ times) (ht : (Datum.word k).IsWritten t) : Takes name t (.word k)

theorem datum?_put {s : Slots} {name n : String} {t : Tree} {d : Datum} (h : Takes name t d)
    (hn : n ∈ names) : (s.put name d).datum? n = if n = name then some d else s.datum? n := by
  cases h with
  | text h _ => exact datum?_put_text _ h hn
  | word h _ => exact datum?_put_word _ h hn

theorem not_mem_times_of_mem_texts : ∀ name ∈ texts, name ∉ times := by decide

/-- a member of the name of a claim is taken once, if its value is such a claim -/
theorem take_of_mem {s s' : Slots} {name : String} {t : Tree} (h : name ∈ names) :
    s.take name t = .ok s' ↔ s.datum? name = none ∧ ∃ d, Takes name t d ∧ s' = s.put name d := by
  rcases List.mem_append.1 h with h | h
  · have htake : s.take name t = .ok s' ↔
        s.datum? name = none ∧ ∃ x, (Datum.text x).IsWritten t ∧ s' = s.put name (.text x) := by
      simp only [texts, List.mem_cons, List.not_mem_nil, or_false] at h
      rcases h with rfl | rfl | rfl | rfl | rfl <;> exact fill_text_iff
    rw [htake]
    refine and_congr_right fun _ => ⟨?_, ?_⟩
    · rintro ⟨x, hx, rfl⟩
      exact ⟨_, .text h hx, rfl⟩
    · rintro ⟨_, ⟨-, hx⟩ | ⟨hw, -⟩, rfl⟩
      · exact ⟨_, hx, rfl⟩
      · exact absurd hw (not_mem_times_of_mem_texts name h)
  · have htake : s.take name t = .ok s' ↔
        s.datum? name = none ∧ ∃ k, (Datum.word k).IsWritten t ∧ s' = s.put name (.word k) := by
      simp only [times, List.mem_cons, List.not_mem_nil, or_false] at h
      rcases h with rfl | rfl | rfl <;> exact fill_word_iff
    rw [htake]
    refine and_congr_right fun _ => ⟨?_, ?_⟩
    · rintro ⟨x, hx, rfl⟩
      exact ⟨_, .word h hx, rfl⟩
    · rintro ⟨_, ⟨ht, -⟩ | ⟨-, hx⟩, rfl⟩
      · exact absurd h (not_mem_times_of_mem_texts name ht)
      · exact ⟨_, hx, rfl⟩

/-- any other member is passed over -/
theorem take_of_not_mem {s s' : Slots} {name : String} {t : Tree} (h : name ∉ names)
    (ht : t.isWhole = true) : s.take name t = .ok s' ↔ s' = s := by
  have htake : s.take name t = t.skip >>= fun _ => .ok s := by
    simp only [names, texts, times, List.cons_append, List.nil_append, List.mem_cons, List.not_mem_nil,
      or_false, not_or] at h
    obtain ⟨h1, h2, h3, h4, h5, h6, h7, h8⟩ := h
    unfold take
    split <;> first | contradiction | rfl
  have hskip : t.skip = .ok () := if_pos ht
  rw [htake, hskip]
  exact ⟨fun e => (Except.ok.inj e).symm, fun e => congrArg Except.ok e.symm⟩

end Slots

/-! ## all members -/

open Slots (Takes)

/-- what the values under one name make of its field: a field that was met allows for none, and an empty
one for one at most -/
inductive Fills (name : String) : Option Datum → List Tree → Option Datum → Prop
  | kept (old : Option Datum) : Fills name old [] old
  | met {t : Tree} {d : Datum} (h : Takes name t d) : Fills name none [t] (some d)

variable {name : String} {old new : Option Datum} {t : Tree} {ts : List Tree}

theorem fills_nil_iff : Fills name old [] new ↔ new = old := by
  constructor
  · rintro ⟨⟩
    rfl
  · rintro rfl
    exact .kept new

theorem fills_cons_iff : Fills name old (t :: ts) new ↔
    old = none ∧ ∃ d, Takes name t d ∧ Fills name (some d) ts new := by
  constructor
  · intro h
    cases h with
    | met h => exact ⟨rfl, _, h, .kept _⟩
  · rintro ⟨rfl, d, h, hf⟩
    cases hf with
    | kept => exact .met h

theorem valuesOf_cons (n : String) (m : String × Tree) (r : List (String × Tree)) :
    valuesOf n (m :: r) = if m.1 = n then m.2 :: valuesOf n r else valuesOf n r := by
  unfold valuesOf
  by_cases h : m.1 = n
  · rw [List.filter_cons_of_pos (by simpa using h), if_pos h]
    rfl
  · rw [List.filter_cons_of_neg (by simpa using h), if_neg h]

/-- walking the members fills each field with the values under its name -/
theorem foldMembers_eq_ok_iff {ms : List Member} {members : List (String × Tree)} (hn : Named ms members)
    (hw : Json.allMembersWhole ms = true) (s s' : Slots) :
    Tree.foldMembers Slots.take .closed s ms = .ok s' ↔
      ∀ n ∈ names, Fills n (s.datum? n) (valuesOf n members) (s'.datum? n) := by
  induction hn generalizing s with
  | nil =>
    show Except.ok s = .ok s' ↔ _
    constructor
    · intro h n _
      obtain rfl := Except.ok.inj h
      exact .kept _
    · intro h
      rw [Slots.ext_datum? fun n hn => fills_nil_iff.1 (h n hn)]
  | @cons m p ms members hm _ ih =>
    obtain ⟨k, t⟩ := m
    obtain ⟨name, u⟩ := p
    obtain ⟨hk, rfl⟩ : Piece.text? k = some name ∧ t = u := hm
    obtain ⟨ht, hr⟩ := Bool.and_eq_true_iff.1 hw
    have hstep : Tree.foldMembers Slots.take .closed s ((k, t) :: ms)
        = s.take name t >>= fun s => Tree.foldMembers Slots.take .closed s ms := by
      rw [Tree.foldMembers, hk]
      rfl
    rw [hstep, bind_eq_ok_iff]
    by_cases hname : name ∈ names
    · simp only [Slots.take_of_mem hname]
      constructor
      · rintro ⟨_, ⟨hnone, d, htakes, rfl⟩, hfold⟩ n hn
        have hrest := (ih hr _).1 hfold n hn
        rw [Slots.datum?_put htakes hn] at hrest
        rw [valuesOf_cons]
        by_cases he : name = n
        · subst he
          rw [if_pos rfl] at hrest
          rw [if_pos rfl]
          exact fills_cons_iff.2 ⟨hnone, d, htakes, hrest⟩
        · rw [if_neg (Ne.symm he)] at hrest
          rw [if_neg he]
          exact hrest
      · intro h
        have hown := h name hname
        rw [valuesOf_cons, if_pos rfl, fills_cons_iff] at hown
        obtain ⟨hnone, d, htakes, hrest⟩ := hown
        refine ⟨_, ⟨hnone, d, htakes, rfl⟩, (ih hr _).2 fun n hn => ?_⟩
        rw [Slots.datum?_put htakes hn]
        by_cases he : n = name
        · subst he
          rw [if_pos rfl]
          exact hrest
        · have hother := h n hn
          rw [valuesOf_cons, if_neg (Ne.symm he)] at hother
          rw [if_neg he]
          exact hother
    · simp only [Slots.take_of_not_mem hname ht, exists_eq_left, ih hr]
      refine forall₂_congr fun n hn => ?_
      have he : name ≠ n := fun e => hname (e ▸ hn)
      rw [valuesOf_cons, if_neg he]

/-! ## claims -/

/-- nothing is missing in the end -/
theorem finish_eq_ok_iff {s : Slots} {c : Claims} : s.finish = .ok c ↔ s = Slots.ofClaims c := by
  obtain ⟨jti, sub, iss, aud, nbf, iat, exp, user⟩ := s
  simp only [Slots.finish, bind_eq_ok_iff, Slot.require_eq_ok_iff]
  constructor
  · rintro ⟨_, rfl, _, rfl, _, rfl, _, rfl, _, rfl, _, rfl, _, rfl, _, rfl, h⟩
    obtain rfl := Except.ok.inj h
    rfl
  · intro h
    cases h
    exact ⟨_, rfl, _, rfl, _, rfl, _, rfl, _, rfl, _, rfl, _, rfl, _, rfl, rfl⟩

theorem takes_text_iff {x : String} (h : name ∈ texts) :
    Takes name t (.text x) ↔ (Datum.text x).IsWritten t := by
  constructor
  · rintro ⟨-, ht⟩
    exact ht
  · exact .text h

theorem takes_word_iff {k : Nat} (h : name ∈ times) :
    Takes name t (.word k) ↔ (Datum.word k).IsWritten t := by
  constructor
  · intro hw
    cases hw with
    | word _ ht => exact ht
  · exact .word h

/-- the data of claims are in their fields, and are taken there as they are written -/
theorem datum?_of_mem_data (c : Claims) : ∀ p ∈ c.data,
    p.1 ∈ names ∧ (Slots.ofClaims c).datum? p.1 = some p.2 ∧ ∀ t, Takes p.1 t p.2 ↔ p.2.IsWritten t := by
  simp only [data, List.forall_mem_cons, List.not_mem_nil, false_imp_iff, implies_true, and_true]
  refine ⟨⟨by decide, rfl, fun t => ?_⟩, ⟨by decide, rfl, fun t => ?_⟩, ⟨by decide, rfl, fun t => ?_⟩,
    ⟨by decide, rfl, fun t => ?_⟩, ⟨by decide, rfl, fun t => ?_⟩, ⟨by decide, rfl, fun t => ?_⟩,
    ⟨by decide, rfl, fun t => ?_⟩, ⟨by decide, rfl, fun t => ?_⟩⟩
  all_goals first
    | exact takes_text_iff (by decide)
    | exact takes_word_iff (by decide)

theorem exists_mem_data (c : Claims) : ∀ n ∈ names, ∃ d, (n, d) ∈ c.data := by
  simp [names, texts, times, data]

theorem datum?_empty : ∀ n ∈ names, ({} : Slots).datum? n = none := by decide

/-- members are read as claims iff they tell them -/
theorem ofMembers_eq_ok_iff {ms : List Member} {members : List (String × Tree)} (hn : Named ms members)
    (hw : Json.allMembersWhole ms = true) {c : Claims} :
    ofMembers ms .closed = .ok c ↔ c.ToldBy members := by
  unfold ofMembers
  simp only [bind_eq_ok_iff, finish_eq_ok_iff, exists_eq_right, foldMembers_eq_ok_iff hn hw]
  constructor
  · intro h p hp
    obtain ⟨hname, hdatum, htakes⟩ := datum?_of_mem_data c p hp
    have hf := h p.1 hname
    rw [datum?_empty p.1 hname, hdatum] at hf
    generalize valuesOf p.1 members = ts at hf ⊢
    cases hf with
    | met hm => exact ⟨_, rfl, (htakes _).1 hm⟩
  · intro h n hname
    obtain ⟨d, hd⟩ := exists_mem_data c n hname
    obtain ⟨-, hdatum, htakes⟩ := datum?_of_mem_data c _ hd
    obtain ⟨t, ht, hwritten⟩ := h _ hd
    rw [datum?_empty n hname, hdatum, ht]
    exact .met ((htakes t).2 hwritten)

/-- other members, and the order of all, do not matter -/
theorem ToldBy.of_perm {c : Claims} {members others : List (String × Tree)} (h : c.ToldBy members)
    (hp : (others.filter fun m => m.1 ∈ names).Perm (members.filter fun m => m.1 ∈ names)) :
    c.ToldBy others := by
  intro p hm
  obtain ⟨hname, -⟩ := datum?_of_mem_data c p hm
  obtain ⟨t, ht, hwritten⟩ := h p hm
  have hsame : ∀ l : List (String × Tree),
      valuesOf p.1 l = valuesOf p.1 (l.filter fun m => m.1 ∈ names) := fun l => by
    unfold valuesOf
    rw [List.filter_filter]
    refine congrArg _ (List.filter_congr fun m _ => ?_)
    by_cases he : m.1 = p.1
    · simp [he, hname]
    · simp [he]
  have hvalues : (valuesOf p.1 others).Perm (valuesOf p.1 members) := by
    rw [hsame others, hsame members]
    exact (hp.filter _).map _
  rw [ht] at hvalues
  exact ⟨t, List.perm_singleton.1 hvalues, hwritten⟩

/-- a token of any other two segments, whose payload is a written object -/
def tokenOf (header : String) (payload : Bytes) (signature : String) : String :=
  Compact.text ⟨header, Compact.encode payload, signature⟩

variable {header signature : String} {bs : Bytes} {members : List (String × Tree)}

theorem segments_tokenOf (hh : '.' ∉ header.toList) (hs : '.' ∉ signature.toList) (bs : Bytes) :
    Compact.segments (tokenOf header bs signature) = [header, Compact.encode bs, signature] :=
  Compact.segments_text hh (Compact.dot_not_mem_encode bs) hs

theorem readText_eq_ok_iff (hm : SpellsMembers bs members) {c : Claims} :
    Json.readText ofTree bs = .ok c ↔ c.ToldBy members := by
  obtain ⟨ms, hn, hw, hr⟩ := Json.readText_of_spellsMembers ofTree hm
  rw [hr]
  exact ofMembers_eq_ok_iff hn hw

/-- claims are read out of the payload, and then looked through for what is empty -/
theorem ofToken_tokenOf_eq_ok_iff (hh : '.' ∉ header.toList) (hs : '.' ∉ signature.toList) {c : Claims} :
    ofToken (tokenOf header bs signature) = .ok c ↔
      Json.readText ofTree bs = .ok c ∧ c.firstEmpty? = none := by
  have hseg := segments_tokenOf hh hs bs
  constructor
  · intro h
    have hread : Json.readText ofTree bs = .ok c := by
      unfold ofToken at h
      rw [hseg] at h
      obtain ⟨octets, ho, h⟩ := bind_eq_ok_iff.1 h
      have hd := mapError_eq_ok_iff.1 ho
      rw [Compact.decode_eq_ok_iff.2 rfl] at hd
      obtain rfl := Except.ok.inj hd
      obtain ⟨c', hc, h⟩ := bind_eq_ok_iff.1 h
      cases hf : c'.firstEmpty? with
      | some name =>
        rw [hf] at h
        cases h
      | none =>
        rw [hf] at h
        obtain rfl := Except.ok.inj h
        exact mapError_eq_ok_iff.1 hc
    refine ⟨hread, ?_⟩
    rw [ofToken_of_payload hseg hread] at h
    cases hf : c.firstEmpty? with
    | some name =>
      rw [hf] at h
      cases h
    | none => rfl
  · rintro ⟨hread, hf⟩
    rw [ofToken_of_payload hseg hread, hf]

theorem firstEmpty?_eq_none_iff {c : Claims} : c.firstEmpty? = none ↔ ∀ p ∈ c.named, p.2 ≠ "" := by
  rw [firstEmpty?_eq_find?, Option.map_eq_none_iff, List.find?_eq_none]
  simp only [decide_eq_true_eq]

theorem toldBy_iff_of_ofToken (hh : '.' ∉ header.toList) (hs : '.' ∉ signature.toList)
    (hm : SpellsMembers bs members) {c : Claims} : ofToken (tokenOf header bs signature) = .ok c ↔
      c.ToldBy members ∧ ∀ p ∈ c.named, p.2 ≠ "" := by
  rw [ofToken_tokenOf_eq_ok_iff hh hs, readText_eq_ok_iff hm, firstEmpty?_eq_none_iff]

/-- Claims are read out of a token whose payload is a written object iff each of their names is there
once, with a string for a text, and with the bare digits of a number below `2^64` for an instant, and
none of the texts is empty that must not be. Then they are these values, whatever the order of the
members, whatever else is among them, and whatever stands in the other two segments. If a text is empty
that must not be, the first such one is complained about. -/
theorem ofToken_iff_toldBy (hh : '.' ∉ header.toList) (hs : '.' ∉ signature.toList)
    (hm : SpellsMembers bs members) :
    (∀ c : Claims, ofToken (tokenOf header bs signature) = .ok c ↔
      c.ToldBy members ∧ ∀ p ∈ c.named, p.2 ≠ "") ∧
    (∀ (c : Claims) before name after, c.ToldBy members → c.named = before ++ (name, "") :: after →
      (∀ p ∈ before, p.2 ≠ "") →
      ofToken (tokenOf header bs signature) = .error (.missingClaim name)) ∧
    ∀ c header' signature' bs' others, ofToken (tokenOf header bs signature) = .ok c →
      '.' ∉ header'.toList → '.' ∉ signature'.toList → SpellsMembers bs' others →
      (others.filter fun m => m.1 ∈ names).Perm (members.filter fun m => m.1 ∈ names) →
      ofToken (tokenOf header' bs' signature') = .ok c := by
  refine ⟨fun c => toldBy_iff_of_ofToken hh hs hm, ?_, ?_⟩
  · intro c before name after htold hnamed hbefore
    rw [ofToken_of_payload (segments_tokenOf hh hs bs) ((readText_eq_ok_iff hm).2 htold),
      firstEmpty?_of_split hnamed hbefore]
  · intro c header' signature' bs' others h hh' hs' hm' hp
    obtain ⟨htold, hfull⟩ := (toldBy_iff_of_ofToken hh hs hm).1 h
    exact (toldBy_iff_of_ofToken hh' hs' hm').2 ⟨htold.of_perm hp, hfull⟩

/-! ## an object in another order -/

/-- the claims of a user, in an order of their own, among others -/
def shuffled (sub : String) : List (String × Json) :=
  [("exp", .nat Json.maxWord), ("scope", .array [.object [("exp", .null)], .string "sub"]),
    ("preferred_username", .string ""), ("aud", .string "nifi"), ("sub", .string sub), ("", .null),
    ("iat", .nat 0), ("iss", .string "idp"), ("jti", .string "7"), ("nbf", .nat 1)]

/-- what they tell -/
def unshuffled (sub : String) : Claims := ⟨"7", sub, "idp", "nifi", 1, 0, Json.maxWord, ""⟩

theorem toldBy_shuffled (sub : String) :
    (unshuffled sub).ToldBy ((shuffled sub).map fun m => (m.1, m.2.tree)) := by
  have htext : ∀ x, (Datum.text x).IsWritten (Json.string x).tree := fun x => .text (Piece.text?_ofString x)
  have hword : ∀ {n}, n ≤ Json.maxWord → (Datum.word n).IsWritten (Json.nat n).tree := fun {n} hn =>
    word_eq_ok_iff.1 (Json.Tree.word_ofNat hn)
  simp only [ToldBy, data, List.forall_mem_cons, List.not_mem_nil, false_imp_iff, implies_true, and_true]
  exact ⟨⟨_, rfl, htext _⟩, ⟨_, rfl, htext _⟩, ⟨_, rfl, htext _⟩, ⟨_, rfl, htext _⟩,
    ⟨_, rfl, hword (show 1 ≤ Json.maxWord by decide)⟩, ⟨_, rfl, hword (Nat.zero_le _)⟩,
    ⟨_, rfl, hword (Nat.le_refl _)⟩,
    ⟨_, rfl, htext _⟩⟩

/-- they are told, and without a subject they are complained about -/
theorem ofToken_iff_toldBy_shuffled :
    let payload := fun sub => utf8 (Json.object (shuffled sub)).text
    ofToken (tokenOf "" (payload "alice") "x") = .ok (unshuffled "alice") ∧
    ofToken (tokenOf "?" (payload "") "") = .error (.missingClaim "sub") := by
  have hm : ∀ sub, SpellsMembers (utf8 (Json.object (shuffled sub)).text)
      ((shuffled sub).map fun m => (m.1, m.2.tree)) := fun sub => Json.spellsMembers_text rfl
  refine ⟨((ofToken_iff_toldBy (by decide) (by decide) (hm "alice")).1 _).2
    ⟨toldBy_shuffled "alice", by decide⟩, ?_⟩
  exact (ofToken_iff_toldBy (by decide) (by decide) (hm "")).2.1 _ [("jti", "7")] "sub"
    [("iss", "idp"), ("aud", "nifi")] (toldBy_shuffled "") rfl (by decide)

end Credentials.Claims
