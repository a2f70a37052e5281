import Credentials.Proofs.Token.Jwk
import Credentials.Token.Header

/-!
# What a header is made of

* `Header.Among`               a header stands among some members: its algorithm just once, its other
                               fields once at most;
* `Header.ofMembers_eq_ok_iff` an object is read as a header iff the header is among its members, and
                               the members of other names are whole;
* `Header.Among.jwk_cases`     whatever stands under `jwk` is `null` or a key, and the header has it.

This is about objects. A header may be written as an array too; then its fields stand in their order,
each with the same reader.
-/

namespace Credentials.Header

open Json (Tree Member Ending Named Slot Given GivenOnce)

variable {written : List Member} {ending : Ending} {ms : List (String × Tree)} {h : Header}

/-- the names of all fields -/
def fieldNames : List String :=
  ["typ", "alg", "cty", "jku", "jwk", "kid", "x5u", "x5c", "x5t", "x5t#S256"]

/-! ## fields that were met -/

/-- what members make of the fields that were met, each by itself -/
@[mk_iff]
structure Slots.Met (s : Slots) (ms : List (String × Tree)) (s' : Slots) : Prop where
  typ : Slot.Met "typ" textOfTree s.typ ms s'.typ
  algorithm : Slot.Met "alg" algorithmOfTree s.algorithm ms s'.algorithm
  cty : Slot.Met "cty" textOfTree s.cty ms s'.cty
  jku : Slot.Met "jku" textOfTree s.jku ms s'.jku
  jwk : Slot.Met "jwk" jwkOfTree s.jwk ms s'.jwk
  keyId : Slot.Met "kid" textOfTree s.keyId ms s'.keyId
  x5u : Slot.Met "x5u" textOfTree s.x5u ms s'.x5u
  x5c : Slot.Met "x5c" (Tree.optional Tree.texts) s.x5c ms s'.x5c
  x5t : Slot.Met "x5t" textOfTree s.x5t ms s'.x5t
  x5tS256 : Slot.Met "x5t#S256" textOfTree s.x5tS256 ms s'.x5tS256

namespace Slots

variable {s s' : Slots}

theorem met_nil : s.Met [] s' ↔ s' = s := by
  constructor
  · intro h
    cases s'
    obtain ⟨rfl, rfl, rfl, rfl, rfl, rfl, rfl, rfl, rfl, rfl⟩ := h
    rfl
  · rintro rfl
    exact ⟨rfl, rfl, rfl, rfl, rfl, rfl, rfl, rfl, rfl, rfl⟩

/-- one member is taken by its name; if that is none of a field, its value has to be whole -/
theorem take_eq_ok_iff {name : String} {t : Tree} : s.take name t = .ok s' ↔
    (name ∉ fieldNames → t.isWhole = true) ∧ s.Met [(name, t)] s' := by
  unfold take
  split
  case h_11 h1 h2 h3 h4 h5 h6 h7 h8 h9 h10 =>
    have hname : name ∉ fieldNames := by
      simp only [fieldNames, List.mem_cons, List.not_mem_nil, or_false, not_or]
      exact ⟨h1, h2, h3, h4, h5, h6, h7, h8, h9, h10⟩
    have hother : s.Met [(name, t)] s' ↔ s.Met [] s' := by
      simp only [met_iff, Slot.met_cons_of_ne h1, Slot.met_cons_of_ne h2, Slot.met_cons_of_ne h3,
        Slot.met_cons_of_ne h4, Slot.met_cons_of_ne h5, Slot.met_cons_of_ne h6,
        Slot.met_cons_of_ne h7, Slot.met_cons_of_ne h8, Slot.met_cons_of_ne h9,
        Slot.met_cons_of_ne h10]
    rw [hother, met_nil, bind_eq_ok_iff]
    constructor
    · rintro ⟨⟨⟩, hskip, h⟩
      exact ⟨fun _ => Tree.skip_eq_ok_iff.1 hskip, (Except.ok.inj h).symm⟩
    · rintro ⟨hw, rfl⟩
      exact ⟨(), Tree.skip_eq_ok_iff.2 (hw hname), rfl⟩
  -- the field of this name is filled, and the others stay as they are
  all_goals
    simp only [met_iff, Slot.fill_eq_ok_iff, Slot.met_cons_self, Slot.met_cons_of_ne, ne_eq,
      String.reduceEq, not_false_eq_true, Slot.met_nil]
    constructor
    · rintro ⟨hnone, a, ha, rfl⟩
      simp [hnone, ha, fieldNames]
    · cases s'
      grind

theorem met_cons {m : String × Tree} : s.Met (m :: ms) s' ↔ ∃ s₁, s.Met [m] s₁ ∧ s₁.Met ms s' := by
  constructor
  · intro h
    obtain ⟨_, htyp, htyp'⟩ := Slot.met_cons.1 h.typ
    obtain ⟨_, halgorithm, halgorithm'⟩ := Slot.met_cons.1 h.algorithm
    obtain ⟨_, hcty, hcty'⟩ := Slot.met_cons.1 h.cty
    obtain ⟨_, hjku, hjku'⟩ := Slot.met_cons.1 h.jku
    obtain ⟨_, hjwk, hjwk'⟩ := Slot.met_cons.1 h.jwk
    obtain ⟨_, hkeyId, hkeyId'⟩ := Slot.met_cons.1 h.keyId
    obtain ⟨_, hx5u, hx5u'⟩ := Slot.met_cons.1 h.x5u
    obtain ⟨_, hx5c, hx5c'⟩ := Slot.met_cons.1 h.x5c
    obtain ⟨_, hx5t, hx5t'⟩ := Slot.met_cons.1 h.x5t
    obtain ⟨_, hx5tS256, hx5tS256'⟩ := Slot.met_cons.1 h.x5tS256
    exact ⟨⟨_, _, _, _, _, _, _, _, _, _⟩,
      ⟨htyp, halgorithm, hcty, hjku, hjwk, hkeyId, hx5u, hx5c, hx5t, hx5tS256⟩,
      ⟨htyp', halgorithm', hcty', hjku', hjwk', hkeyId', hx5u', hx5c', hx5t', hx5tS256'⟩⟩
  · rintro ⟨s₁, h, h'⟩
    constructor
    all_goals rw [Slot.met_cons]
    · exact ⟨_, h.typ, h'.typ⟩
    · exact ⟨_, h.algorithm, h'.algorithm⟩
    · exact ⟨_, h.cty, h'.cty⟩
    · exact ⟨_, h.jku, h'.jku⟩
    · exact ⟨_, h.jwk, h'.jwk⟩
    · exact ⟨_, h.keyId, h'.keyId⟩
    · exact ⟨_, h.x5u, h'.x5u⟩
    · exact ⟨_, h.x5c, h'.x5c⟩
    · exact ⟨_, h.x5t, h'.x5t⟩
    · exact ⟨_, h.x5tS256, h'.x5tS256⟩

theorem foldlM_take_eq_ok_iff : ms.foldlM (fun s m => take s m.1 m.2) s = .ok s' ↔
    (∀ m ∈ ms, m.1 ∉ fieldNames → m.2.isWhole = true) ∧ s.Met ms s' := by
  induction ms generalizing s with
  | nil =>
    show Except.ok s = .ok s' ↔ _
    rw [met_nil, Except.ok.injEq, eq_comm]
    exact (and_iff_right fun _ hm => absurd hm List.not_mem_nil).symm
  | cons m ms ih =>
    rw [List.foldlM_cons, bind_eq_ok_iff, met_cons, List.forall_mem_cons]
    simp only [take_eq_ok_iff, ih]
    constructor
    · rintro ⟨s₁, ⟨hw, h⟩, hr, h'⟩
      exact ⟨⟨hw, hr⟩, s₁, h, h'⟩
    · rintro ⟨⟨hw, hr⟩, s₁, h, h'⟩
      exact ⟨s₁, ⟨hw, h⟩, hr, h'⟩

end Slots

/-! ## headers -/

/-- a header stands among some members: its algorithm just once, its other fields once at most -/
structure Among (h : Header) (ms : List (String × Tree)) : Prop where
  typ : Given "typ" textOfTree ms h.typ
  algorithm : GivenOnce "alg" algorithmOfTree ms h.algorithm
  cty : Given "cty" textOfTree ms h.cty
  jku : Given "jku" textOfTree ms h.jku
  jwk : Given "jwk" jwkOfTree ms h.jwk
  keyId : Given "kid" textOfTree ms h.keyId
  x5u : Given "x5u" textOfTree ms h.x5u
  x5c : Given "x5c" (Tree.optional Tree.texts) ms h.x5c
  x5t : Given "x5t" textOfTree ms h.x5t
  x5tS256 : Given "x5t#S256" textOfTree ms h.x5tS256

theorem exists_met_finish_iff : (∃ s : Slots, Slots.Met {} ms s ∧ s.finish = .ok h) ↔ h.Among ms := by
  constructor
  · rintro ⟨s, hs, h⟩
    obtain ⟨algorithm, ha, h⟩ := bind_eq_ok_iff.1 h
    obtain rfl := Except.ok.inj h
    have halgorithm := hs.algorithm
    rw [Slot.require_eq_ok_iff.1 ha] at halgorithm
    exact ⟨hs.typ.given, Slot.met_none_some.1 halgorithm, hs.cty.given, hs.jku.given, hs.jwk.given,
      hs.keyId.given, hs.x5u.given, hs.x5c.given, hs.x5t.given, hs.x5tS256.given⟩
  · intro h
    obtain ⟨_, htyp, htyp'⟩ := Slot.exists_met_join.2 h.typ
    have halgorithm := Slot.met_none_some.2 h.algorithm
    obtain ⟨_, hcty, hcty'⟩ := Slot.exists_met_join.2 h.cty
    obtain ⟨_, hjku, hjku'⟩ := Slot.exists_met_join.2 h.jku
    obtain ⟨_, hjwk, hjwk'⟩ := Slot.exists_met_join.2 h.jwk
    obtain ⟨_, hkeyId, hkeyId'⟩ := Slot.exists_met_join.2 h.keyId
    obtain ⟨_, hx5u, hx5u'⟩ := Slot.exists_met_join.2 h.x5u
    obtain ⟨_, hx5c, hx5c'⟩ := Slot.exists_met_join.2 h.x5c
    obtain ⟨_, hx5t, hx5t'⟩ := Slot.exists_met_join.2 h.x5t
    obtain ⟨_, hx5tS256, hx5tS256'⟩ := Slot.exists_met_join.2 h.x5tS256
    refine ⟨⟨_, _, _, _, _, _, _, _, _, _⟩,
      ⟨htyp, halgorithm, hcty, hjku, hjwk, hkeyId, hx5u, hx5c, hx5t, hx5tS256⟩, ?_⟩
    unfold Slots.finish
    rw [htyp', hcty', hjku', hjwk', hkeyId', hx5u', hx5c', hx5t', hx5tS256']
    rfl

/-- An object is read as a header iff it is closed, the header is among its members, and what stands
under other names is whole. -/
theorem ofMembers_eq_ok_iff : ofMembers written ending = .ok h ↔
    ending = .closed ∧ ∃ ms, Named written ms ∧
      (∀ m ∈ ms, m.1 ∉ fieldNames → m.2.isWhole = true) ∧ h.Among ms := by
  unfold ofMembers
  simp only [bind_eq_ok_iff, Tree.foldMembers_eq_ok_iff, Slots.foldlM_take_eq_ok_iff,
    ← exists_met_finish_iff]
  constructor
  · rintro ⟨s, ⟨hc, ms, hn, hw, hs⟩, hf⟩
    exact ⟨hc, ms, hn, hw, s, hs, hf⟩
  · rintro ⟨hc, ms, hn, hw, s, hs, hf⟩
    exact ⟨s, ⟨hc, ms, hn, hw, hs⟩, hf⟩

/-- Whatever stands under `jwk` is `null` or a key, and the header has it. -/
theorem Among.jwk_cases (hh : h.Among ms) {t : Tree} (hm : ("jwk", t) ∈ ms) :
    (t = .null ∧ h.jwk = none) ∨ ∃ k, Jwk.ofTree t = .ok k ∧ h.jwk = some k := by
  rcases Json.Tree.optional_eq_ok_iff.1 (hh.jwk.of_mem hm) with hnull | ⟨-, hkey⟩
  · exact Or.inl hnull
  · exact Or.inr hkey

/-- a number is no key, and neither is an object that names no type -/
example : (Json.readText ofTree (utf8 "\x7b\"alg\":\"EdDSA\",\"kid\":\"k1\",\"jwk\":5\x7d")).map Header.jwk
      = .error (.invalidType (.number (.natural 5)) "struct Jwk") ∧
    (Json.readText ofTree (utf8 "\x7b\"alg\":\"EdDSA\",\"kid\":\"k1\",\"jwk\":\x7b\x7d\x7d")).map Header.jwk
      = .error .malformed := ⟨rfl, rfl⟩

end Credentials.Header
