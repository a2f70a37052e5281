import Credentials.Json.Decode
import Credentials.Proofs.Json.Scanning
import Mathlib.Data.List.Forall2

/-!
# Building what is scanned

* `Tree.build_tokens`              the tokens of a whole tree build this tree;
* `Document.ofText_of_spelling`    a text that spells a whole tree has this tree, and is complete;
* `readText_of_spelling`           so a reader of the text reads this tree;
* `SpellsMembers`                  octets spell an object with members of these names and values.
-/

namespace Credentials.Json

namespace Tree

/-- no tree starts with the end of an array -/
theorem tokens_eq_cons (t : Tree) : ∃ k ks, t.tokens = k :: ks ∧ k ≠ .closeBracket := by
  cases t <;> exact ⟨_, _, rfl, nofun⟩

/-- the first item of an array is built as any other -/
theorem foldl_firstItem (t : Tree) (stack : List Frame) :
    t.tokens.foldl Builder.next (.firstItem stack)
      = t.tokens.foldl Builder.next (.value (.items [] :: stack)) := by
  obtain ⟨k, ks, e, hk⟩ := tokens_eq_cons t
  rw [e, List.foldl_cons, List.foldl_cons]
  congr 1
  cases k <;> first | rfl | exact absurd rfl hk

theorem closed_of_isWhole {items : List Tree} {ending : Ending}
    (h : (Tree.array items ending).isWhole = true) : ending = .closed ∧ allWhole items = true := by
  obtain ⟨he, hi⟩ := Bool.and_eq_true_iff.1 h
  exact ⟨beq_iff_eq.1 he, hi⟩

theorem closed_of_isWhole_object {members : List Member} {ending : Ending}
    (h : (Tree.object members ending).isWhole = true) :
    ending = .closed ∧ allMembersWhole members = true := by
  obtain ⟨he, hi⟩ := Bool.and_eq_true_iff.1 h
  exact ⟨beq_iff_eq.1 he, hi⟩

mutual

/-- the tokens of a whole tree build this tree -/
theorem build_tokens (t : Tree) (h : t.isWhole = true) (stack : List Frame) :
    t.tokens.foldl Builder.next (.value stack) = .after stack t := by
  match t, h with
  | .null, _ | .bool _, _ | .number _, _ | .string _, _ => rfl
  | .array [] ending, h =>
    obtain ⟨rfl, -⟩ := closed_of_isWhole h
    rfl
  | .array (t :: r) ending, h =>
    obtain ⟨rfl, hi⟩ := closed_of_isWhole h
    obtain ⟨ht, hr⟩ := Bool.and_eq_true_iff.1 hi
    show (t.tokens ++ laterItemTokens r).foldl Builder.next (.firstItem stack) = _
    rw [List.foldl_append, foldl_firstItem, build_tokens t ht]
    exact build_laterItemTokens r hr t [] stack
  | .object [] ending, h =>
    obtain ⟨rfl, -⟩ := closed_of_isWhole_object h
    rfl
  | .object ((k, t) :: r) ending, h =>
    obtain ⟨rfl, hi⟩ := closed_of_isWhole_object h
    obtain ⟨ht, hr⟩ := Bool.and_eq_true_iff.1 hi
    show (t.tokens ++ laterMemberTokens r).foldl Builder.next (.value (.members [] k :: stack)) = _
    rw [List.foldl_append, build_tokens t ht]
    exact build_laterMemberTokens r hr k t [] stack

theorem build_laterItemTokens (items : List Tree) (h : allWhole items = true) (t : Tree)
    (done : List Tree) (stack : List Frame) :
    (laterItemTokens items).foldl Builder.next (.after (.items done :: stack) t)
      = .after stack (.array ((t :: done).reverse ++ items) .closed) := by
  match items, h with
  | [], _ =>
    rw [List.append_nil]
    rfl
  | u :: r, h =>
    obtain ⟨hu, hr⟩ := Bool.and_eq_true_iff.1 h
    show (u.tokens ++ laterItemTokens r).foldl Builder.next (.value (.items (t :: done) :: stack)) = _
    rw [List.foldl_append, build_tokens u hu, build_laterItemTokens r hr u (t :: done) stack,
      List.reverse_cons, List.append_assoc]
    rfl

theorem build_laterMemberTokens (members : List Member) (h : allMembersWhole members = true)
    (k : List Piece) (t : Tree) (done : List Member) (stack : List Frame) :
    (laterMemberTokens members).foldl Builder.next (.after (.members done k :: stack) t)
      = .after stack (.object (((k, t) :: done).reverse ++ members) .closed) := by
  match members, h with
  | [], _ =>
    rw [List.append_nil]
    rfl
  | (l, u) :: r, h =>
    obtain ⟨hu, hr⟩ := Bool.and_eq_true_iff.1 h
    show (u.tokens ++ laterMemberTokens r).foldl Builder.next
      (.value (.members ((k, t) :: done) l :: stack)) = _
    rw [List.foldl_append, build_tokens u hu, build_laterMemberTokens r hr l u ((k, t) :: done) stack,
      List.reverse_cons, List.append_assoc]
    rfl

end

end Tree

/-- a text that spells a whole tree has this tree, and nothing is behind it -/
theorem Document.ofText_of_spelling {t : Tree} (h : t.isWhole = true) {bs : Bytes}
    (hs : Spelling bs t.tokens) : Document.ofText bs = ⟨t, true⟩ := by
  unfold Document.ofText Document.ofTokens
  rw [hs.tokens_eq t.apart, t.build_tokens h]
  rfl

/-- a reader of a text that spells a whole tree -/
theorem readText_of_spelling {α : Type} (read : Tree → Except Error α) {t : Tree} (h : t.isWhole = true)
    {bs : Bytes} (hs : Spelling bs t.tokens) : readText read bs = read t := by
  unfold readText Document.read
  rw [Document.ofText_of_spelling h hs]
  cases read t <;> rfl

/-! ## objects by the names of their members -/

/-- written members have these names and values -/
def Named (ms : List Member) (members : List (String × Tree)) : Prop :=
  List.Forall₂ (fun m n => Piece.text? m.1 = some n.1 ∧ m.2 = n.2) ms members

/-- octets spell an object with members of these names and values, in this order -/
def SpellsMembers (bs : Bytes) (members : List (String × Tree)) : Prop :=
  ∃ ms, Named ms members ∧ allMembersWhole ms = true ∧ Spelling bs (Tree.object ms .closed).tokens

/-- a reader of such octets -/
theorem readText_of_spellsMembers {α : Type} (read : Tree → Except Error α) {bs : Bytes}
    {members : List (String × Tree)} (h : SpellsMembers bs members) :
    ∃ ms, Named ms members ∧ allMembersWhole ms = true ∧ readText read bs = read (.object ms .closed) := by
  obtain ⟨ms, hn, hw, hs⟩ := h
  have hwhole : (Tree.object ms .closed).isWhole = true := Bool.and_eq_true_iff.2 ⟨rfl, hw⟩
  exact ⟨ms, hn, hw, readText_of_spelling read hwhole hs⟩

end Credentials.Json
