import EdgeBundle.Config
import EdgeBundle.Logged
import EdgeBundle.Record
import EdgeBundle.Text.Search

/-!
# Link order

Modules are put in the order in which they run: libraries, then routes, then the others, and last
the entry module, which starts serving. Inside one group they keep the order in which they were
collected.
-/

namespace EdgeBundle

/-- Group of a module in the link order. -/
inductive LinkPriority where
  /-- The path contains the library marker. -/
  | library
  /-- The path contains the route marker. -/
  | route
  /-- Neither marker. -/
  | other
  /-- The entry module. -/
  | entry
  deriving DecidableEq, Repr

namespace LinkPriority

/-- Place of a group in the link order. -/
def rank : LinkPriority → Nat
  | library => 0
  | route => 1
  | other => 2
  | entry => 3

/-- Group of the module at a path. The entry test comes first, then the library marker. -/
def ofPath (config : Config) (path : RelPath) : LinkPriority :=
  if path.text = config.entryModule then .entry
  else if containsText config.libraryMarker.toList path.chars then .library
  else if containsText config.routeMarker.toList path.chars then .route
  else .other

/-- Group of a record. -/
def ofRecord (config : Config) (r : Record) : LinkPriority :=
  ofPath config r.path

end LinkPriority

/-- Records in link order. -/
def linkOrder (config : Config) (records : List Record) : List Record :=
  let rank (r : Record) : Nat := (LinkPriority.ofRecord config r).rank
  records.mergeSort fun a b => rank a ≤ rank b

/-- Records in link order, with a warning if none of them is the entry module. -/
def orderRecords (config : Config) (records : List Record) : Logged ε (List Record) := do
  let ordered := linkOrder config records
  unless ordered.getLast?.any fun r => LinkPriority.ofRecord config r == .entry do
    Logged.warn (.entryMissing config.entryModule)
  return ordered

end EdgeBundle
