import Credentials.Json.Token

/-!
# The tree of a JSON text

The tree of a text is built as far as the text keeps to the grammar. Where it breaks off, the tree
says so at that place, so that a reader which walks the tree from left to right meets the problems
of the text in their order.

* `Tree`           a value, with numbers and strings as they are written, members in their order and
                   with repetitions;
* `Ending`         whether a container is closed, or the text breaks in it;
* `Builder.next`   one step of the machine that builds a tree; open containers are on a stack, so
                   that nesting of any depth is no recursion;
* `Document`       the tree of a text, and whether nothing follows it.
-/

namespace Credentials.Json

/-- the end of an array or an object -/
inductive Ending where
  | closed
  /-- the text breaks where the container should go on -/
  | cut
  deriving DecidableEq, Repr

inductive Tree where
  | null
  | bool (b : Bool)
  | number (n : Numeral)
  | string (ps : List Piece)
  | array (items : List Tree) (ending : Ending)
  | object (members : List (List Piece × Tree)) (ending : Ending)
  /-- no value stands here -/
  | broken

/-- a member of an object, as it is written -/
abbrev Member := List Piece × Tree

/-- an open container; what it holds so far has the newest in front -/
inductive Frame where
  | items (done : List Tree)
  /-- the value of `key` is being read -/
  | members (done : List Member) (key : List Piece)

/-- what may come next -/
inductive Builder where
  /-- a value -/
  | value (stack : List Frame)
  /-- a value or the end of an array -/
  | firstItem (stack : List Frame)
  /-- a key or the end of an object -/
  | firstKey (stack : List Frame)
  /-- a key, behind a comma -/
  | key (stack : List Frame) (done : List Member)
  /-- the colon behind a key -/
  | colon (stack : List Frame) (done : List Member) (key : List Piece)
  /-- what follows a whole value -/
  | after (stack : List Frame) (value : Tree)
  /-- nothing: the text is broken, or something follows the whole value -/
  | stopped (value : Tree)

namespace Builder

/-- puts a value into the open containers, which break off behind it -/
def unwind : List Frame → Tree → Tree
  | [], t => t
  | .items done :: stack, t => unwind stack (.array (t :: done).reverse .cut)
  | .members done name :: stack, t => unwind stack (.object ((name, t) :: done).reverse .cut)

/-- an object that breaks off behind its members -/
def cutObject (stack : List Frame) (done : List Member) : Builder :=
  .stopped (unwind stack (.object done.reverse .cut))

/-- a value starts here, or the text breaks -/
def startValue (stack : List Frame) : Token → Builder
  | .null => .after stack .null
  | .bool b => .after stack (.bool b)
  | .number n => .after stack (.number n)
  | .string ps => .after stack (.string ps)
  | .openBracket => .firstItem stack
  | .openBrace => .firstKey stack
  | _ => .stopped (unwind stack .broken)

/-- one step of the machine -/
def next (s : Builder) (token : Token) : Builder :=
  match s with
  | .value stack => startValue stack token
  | .firstItem stack =>
    match token with
    | .closeBracket => .after stack (.array [] .closed)
    | token => startValue (.items [] :: stack) token
  | .firstKey stack =>
    match token with
    | .string ps => .colon stack [] ps
    | .closeBrace => .after stack (.object [] .closed)
    | _ => cutObject stack []
  | .key stack done =>
    match token with
    | .string ps => .colon stack done ps
    | _ => cutObject stack done
  | .colon stack done name =>
    match token with
    | .colon => .value (.members done name :: stack)
    | _ => .stopped (unwind (.members done name :: stack) .broken)
  | .after [] t => .stopped t
  | .after (.items done :: stack) t =>
    match token with
    | .comma => .value (.items (t :: done) :: stack)
    | .closeBracket => .after stack (.array (t :: done).reverse .closed)
    | _ => .stopped (unwind (.items done :: stack) t)
  | .after (.members done name :: stack) t =>
    match token with
    | .comma => .key stack ((name, t) :: done)
    | .closeBrace => .after stack (.object ((name, t) :: done).reverse .closed)
    | _ => .stopped (unwind (.members done name :: stack) t)
  | .stopped t => .stopped t

end Builder

/-- the tree of a text -/
structure Document where
  tree : Tree
  /-- the text keeps to the grammar to its end -/
  complete : Bool

/-- the tree when no token is left -/
def Builder.last : Builder → Document
  | .value stack => ⟨unwind stack .broken, false⟩
  | .firstItem stack => ⟨unwind stack (.array [] .cut), false⟩
  | .firstKey stack => ⟨unwind stack (.object [] .cut), false⟩
  | .key stack done => ⟨unwind stack (.object done.reverse .cut), false⟩
  | .colon stack done name => ⟨unwind (.members done name :: stack) .broken, false⟩
  | .after [] t => ⟨t, true⟩
  | .after stack t => ⟨unwind stack t, false⟩
  | .stopped t => ⟨t, false⟩

/-- the tree of tokens -/
def Document.ofTokens (ts : List Token) : Document := (ts.foldl Builder.next (.value [])).last

/-- the tree of a text -/
def Document.ofText (text : Bytes) : Document := .ofTokens (tokens text)

mutual

/-- nothing is broken in a tree -/
def Tree.isWhole : Tree → Bool
  | .array items ending => ending == .closed && allWhole items
  | .object members ending => ending == .closed && allMembersWhole members
  | .broken => false
  | _ => true

def allWhole : List Tree → Bool
  | [] => true
  | t :: r => t.isWhole && allWhole r

def allMembersWhole : List Member → Bool
  | [] => true
  | (_, t) :: r => t.isWhole && allMembersWhole r

end

end Credentials.Json
