import Credentials.Json.Decode

/-!
# Records out of a written tree

A record is written as an object with its fields by name, or as an array with its fields in the
order of their declaration.

* `Slot.fill`, `Slot.require`   a field that may be given once, and has to be there in the end;
* `Tree.foldMembers`            walks the members of an object;
* `Items`                       walks the items of an array;
* `Tree.record`                 chooses between the two.
-/

namespace Credentials.Json

/-- a field that may have been met -/
abbrev Slot (α : Type) := Option α

/-- gives a field its value; a field that has one already is refused before the value is looked at -/
def Slot.fill {α : Type} (name : String) (slot : Slot α) (read : Except Error α) :
    Except Error (Slot α) :=
  match slot with
  | some _ => .error (.duplicateField name)
  | none => some <$> read

/-- the value of a field that has to be there -/
def Slot.require {α : Type} (name : String) : Slot α → Except Error α
  | some a => .ok a
  | none => .error (.missingField name)

/-- a container that has come to its end -/
def Ending.close (e : Ending) : Except Error Unit :=
  if e = .closed then .ok () else .error .malformed

/-- feeds the members of an object to a step, name by name -/
def Tree.foldMembers (step : σ → String → Tree → Except Error σ) (ending : Ending) :
    σ → List Member → Except Error σ
  | s, [] => do
    ending.close
    .ok s
  | s, (k, t) :: r => do
    let name ← orMalformed (Piece.text? k)
    let s ← step s name t
    foldMembers step ending s r

/-- what is left of an array -/
structure Items where
  /-- how many items were taken -/
  taken : Nat
  rest : List Tree
  ending : Ending
  /-- what the array stands for -/
  expected : String

namespace Items

/-- the next item, if there is one -/
def next? (read : Tree → Except Error α) (xs : Items) : Except Error (Option α × Items) :=
  match xs.rest with
  | t :: r => do
    let a ← read t
    .ok (some a, { xs with taken := xs.taken + 1, rest := r })
  | [] => do
    xs.ending.close
    .ok (none, xs)

/-- the next item, which has to be there -/
def next (read : Tree → Except Error α) (xs : Items) : Except Error (α × Items) := do
  match ← xs.next? read with
  | (some a, xs) => .ok (a, xs)
  | (none, xs) => .error (.invalidLength xs.taken xs.expected)

/-- the next item, or a value in its place -/
def nextD (default : α) (read : Tree → Except Error α) (xs : Items) :
    Except Error (α × Items) := do
  let (a, xs) ← xs.next? read
  .ok (a.getD default, xs)

/-- no item is left -/
def finish (xs : Items) : Except Error Unit :=
  if xs.rest.isEmpty then xs.ending.close else .error .malformed

end Items

/-- a record by name or by position; `name` is what a message calls it, `arity` says how many
elements it has -/
def Tree.record (name arity : String) (byName : List Member → Ending → Except Error α)
    (byPosition : Items → Except Error (α × Items)) : Tree → Except Error α
  | .object members ending => byName members ending
  | .array items ending => do
    let (a, xs) ← byPosition ⟨0, items, ending, "struct " ++ name ++ " with " ++ arity⟩
    xs.finish
    .ok a
  | t => t.mismatch ("struct " ++ name)

end Credentials.Json
