import EdgeBundle.Build

/-!
# Report of a link

What a bundle would hold: the modules in link order, the embedded files, and what did not go as it
should.
-/

namespace EdgeBundle

/-- One module of a link. -/
structure ModuleSummary where
  /-- Path of the module. -/
  path : RelPath
  /-- Its group in the link order. -/
  priority : LinkPriority
  /-- Names that it publishes. -/
  exports : List String
  /-- Number of its references. -/
  references : Nat
  deriving DecidableEq, Repr

/-- What there is to say about a link. -/
structure InspectReport where
  /-- Modules in link order. -/
  linkOrder : List ModuleSummary
  /-- Embedded files with their sizes in bytes. -/
  embedded : List (RelPath × Nat)
  /-- Paths of the dropped client scripts. -/
  dropped : List RelPath
  /-- Unsatisfied references. -/
  findings : List Finding
  /-- What the patches did. -/
  patches : List PatchOutcome
  /-- Size of the bundle in bytes. -/
  bundleBytes : Nat
  /-- Digest of the bundle. -/
  digest : String
  deriving DecidableEq, Repr

/-- What there is to say about a link under a configuration. -/
def LinkOutput.inspect (config : Config) (output : LinkOutput) : InspectReport where
  linkOrder := output.modules.map fun module =>
    ⟨module.path, .ofPath config module.path, module.exports, module.references.length⟩
  embedded := output.vfs.files.map fun f => (f.1, f.2.utf8ByteSize)
  dropped := output.dropped
  findings := output.findings
  patches := output.bundle.patches
  bundleBytes := output.bundle.text.utf8ByteSize
  digest := EdgeBundle.digest output.bundle.text

/-- Name of a group. -/
def LinkPriority.name : LinkPriority → String
  | library => "library"
  | route => "route"
  | other => "other"
  | entry => "entry"

/-- Name of a kind of reference. -/
def ReferenceKind.name : ReferenceKind → String
  | atLoad => "static"
  | onCall => "dynamic"

/-- Name of a problem. -/
def ReferenceProblem.name : ReferenceProblem → String
  | missing => "missing"
  | registeredLater => "registered_later"

/-- A path as a JSON value. -/
def RelPath.toJson (p : RelPath) : Json :=
  .string p.text

/-- A module as a JSON object. -/
def ModuleSummary.toJson (s : ModuleSummary) : Json :=
  .object [("path", s.path.toJson), ("priority", .string s.priority.name),
    ("exports", .array (s.exports.map .string)), ("references", .nat s.references)]

/-- A reference as a JSON object. -/
def Reference.toJson (r : Reference) : Json :=
  .object [("specifier", .string r.specifier), ("target", .string r.target),
    ("kind", .string r.kind.name), ("line", .nat r.line)]

/-- A finding as a JSON object. -/
def Finding.toJson (f : Finding) : Json :=
  .object [("module", f.module.toJson), ("reference", f.reference.toJson),
    ("problem", .string f.problem.name)]

/-- What a patch did as a JSON object. -/
def PatchOutcome.toJson (o : PatchOutcome) : Json :=
  let status : List (String × Json) := match o.status with
    | .applied count => [("status", .string "applied"), ("count", .nat count)]
    | .alreadyApplied => [("status", .string "already_applied")]
    | .anchorMissing => [("status", .string "anchor_missing")]
  .object (("name", .string o.name) :: status)

/-- The report as a JSON object, in the order of its fields. -/
def InspectReport.toJson (r : InspectReport) : Json :=
  .object [("link_order", .array (r.linkOrder.map ModuleSummary.toJson)),
    ("vfs", .array (r.embedded.map fun f =>
      .object [("path", f.1.toJson), ("bytes", .nat f.2)])),
    ("dropped", .array (r.dropped.map RelPath.toJson)),
    ("findings", .array (r.findings.map Finding.toJson)),
    ("patches", .array (r.patches.map PatchOutcome.toJson)),
    ("bundle_bytes", .nat r.bundleBytes), ("digest", .string r.digest)]

end EdgeBundle
