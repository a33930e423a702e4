import EdgeBundle.Path.Relative

/-!
# Registry references

A reference that a module makes to another one through the registry, and what can be wrong with
it. A static reference is read when its module runs; a dynamic one only when it is called.
-/

namespace EdgeBundle

/-- When a reference is read. -/
inductive ReferenceKind where
  /-- When the referring module runs. -/
  | atLoad
  /-- When the import expression is called. -/
  | onCall
  deriving DecidableEq, Repr

/-- A reference as a module makes it. -/
structure Reference where
  /-- Specifier as written. -/
  specifier : String
  /-- Registry key that it stands for. -/
  target : String
  /-- When it is read. -/
  kind : ReferenceKind
  /-- Line of its statement, from one. -/
  line : Nat
  deriving DecidableEq, Repr

/-- What is wrong with a reference. -/
inductive ReferenceProblem where
  /-- No linked module has the target as its path. -/
  | missing
  /-- The target is linked no earlier than the referring module. -/
  | registeredLater
  deriving DecidableEq, Repr

/-- A reference that the link order does not satisfy. -/
structure Finding where
  /-- The referring module. -/
  module : RelPath
  /-- The reference. -/
  reference : Reference
  /-- What is wrong with it. -/
  problem : ReferenceProblem
  deriving DecidableEq, Repr

/-- Wording of a finding. -/
def Finding.message (f : Finding) : String :=
  let reason := match f.problem with
    | .missing => "no linked module registers"
    | .registeredLater => "link order registers it too late:"
  let r := f.reference
  s!"{f.module.text}:{r.line} '{r.specifier}' ({reason} {r.target})"

end EdgeBundle
