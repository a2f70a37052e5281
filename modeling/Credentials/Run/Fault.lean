/-!
# Injected faults

An operation passes certain sites. A plan at a site says which of the next passes fail.

* `FaultPlan`         a plan: phases, each for a number of passes or for good;
* `FaultPlan.read?`   a plan out of its written form, such as `2*return` or `1*off->return`;
* `Faults.pass`       passes a site.
-/

namespace Credentials

/-- a phase of a plan -/
structure FaultPhase where
  /-- for how many passes; for good if there is no number -/
  count : Option Nat
  fails : Bool
  deriving DecidableEq, Repr

/-- phases, one after another; behind the last one every pass is good -/
abbrev FaultPlan := List FaultPhase

namespace FaultPlan

/-- whether the next pass fails, and the plan behind it -/
def pass : FaultPlan → Bool × FaultPlan
  | [] => (false, [])
  | ⟨none, fails⟩ :: r => (fails, ⟨none, fails⟩ :: r)
  | ⟨some 0, _⟩ :: r => pass r
  | ⟨some (n + 1), fails⟩ :: r => (fails, ⟨some n, fails⟩ :: r)

/-- what happens in a phase: `return` fails, `off` does not -/
def outcome? (s : String) : Option Bool :=
  if s = "return" then some true else if s = "off" then some false else none

/-- a phase, with or without its number of passes -/
def phase? (s : String) : Option FaultPhase :=
  match s.splitOn "*" with
  | [what] => (fun b => ⟨none, b⟩) <$> outcome? what
  | [n, what] => do
    let n ← n.toNat?
    let b ← outcome? what
    some ⟨some n, b⟩
  | _ => none

/-- the plan of a text -/
def read? (s : String) : Option FaultPlan := (s.splitOn "->").mapM phase?

end FaultPlan

/-- plans by the names of their sites -/
abbrev Faults := List (String × FaultPlan)

namespace Faults

/-- a plan set at a site, or taken away -/
def set (fs : Faults) (site : String) (plan : Option FaultPlan) : Faults :=
  let others := fs.filter fun f => f.1 != site
  match plan with
  | some p => (site, p) :: others
  | none => others

/-- passes a site: whether the pass fails, and the plans behind it -/
def pass (fs : Faults) (site : String) : Bool × Faults :=
  match fs.lookup site with
  | some plan =>
    let (fails, rest) := plan.pass
    (fails, fs.set site (some rest))
  | none => (false, fs)

/-- the wording of an injected fault -/
def message (site : String) : String := "injected failure at " ++ site

end Faults

end Credentials
