import EdgeBundle.Module.Linked

/-!
# Checking references

A static reference needs its target earlier in the link order; a dynamic one needs it anywhere.
-/

namespace EdgeBundle.LinkedModule

/-- Position of the last module with the given path. -/
def position? (modules : List LinkedModule) (target : String) : Option Nat :=
  (modules.zipIdx.filter fun m => m.1.path.text == target).getLast?.map Prod.snd

/-- What is wrong with a reference of the module at position `i`, if anything is. -/
def problem? (modules : List LinkedModule) (i : Nat) (r : Reference) : Option ReferenceProblem :=
  match position? modules r.target with
  | none => some .missing
  | some target => if r.kind = .atLoad ∧ i ≤ target then some .registeredLater else none

/-- The unsatisfied references of modules in link order, in order. -/
def findings (modules : List LinkedModule) : List Finding :=
  modules.zipIdx.flatMap fun (m, i) =>
    m.references.filterMap fun r =>
      (problem? modules i r).map fun problem => ⟨m.path, r, problem⟩

/-- The error that a finding is where references are strict. -/
def strictError (f : Finding) : Error :=
  .unresolvedReference f.module.text f.reference.specifier <|
    match f.problem with
    | .missing => .notLinked
    | .registeredLater => .linkedLater f.reference.target

/-- Warns of every unsatisfied reference. If references are strict, the first one is an error. -/
def checkReferences (modules : List LinkedModule) (strict : Bool) : Logged Error (List Finding) :=
  do
    let found := findings modules
    found.forM fun f => Logged.warn (.unsatisfied f)
    match found with
    | [] => return []
    | first :: _ => if strict then throw (strictError first) else return found

end EdgeBundle.LinkedModule
