import EdgeBundle.Logged
import EdgeBundle.Pattern.Parser
import EdgeBundle.Pattern.Replacement
import EdgeBundle.Text.Search

/-!
# Patches

Small changes to the text of the linked modules. A patch looks for its anchor and replaces it; where
the anchor does not occur, the text stays as it is. A patch with a marker leaves a text alone that
already holds the marker.
-/

namespace EdgeBundle

/-- A change to a text. -/
structure Patch where
  /-- Name in reports. -/
  name : String
  /-- What is replaced. -/
  anchor : Pattern
  /-- Numbers of the named groups of the anchor. -/
  groupNames : List (String × Nat) := []
  /-- What takes its place. -/
  replacement : Replacement
  /-- Text that shows that the patch has been applied before. -/
  marker : Option String := none
  /-- Whether all occurrences are replaced, instead of the first. -/
  all : Bool := false
  deriving DecidableEq, Repr

/-- What a patch did. -/
inductive PatchStatus where
  /-- It replaced its anchor, `count` times. -/
  | applied (count : Nat)
  /-- Its marker was there. -/
  | alreadyApplied
  /-- Its anchor was not there. -/
  | anchorMissing
  deriving DecidableEq, Repr

/-- What a patch did, by its name. -/
structure PatchOutcome where
  /-- Name of the patch. -/
  name : String
  /-- What it did. -/
  status : PatchStatus
  deriving DecidableEq, Repr

/-- Whether the patch changed the text. -/
def PatchOutcome.isApplied (o : PatchOutcome) : Bool :=
  match o.status with
  | .applied _ => true
  | _ => false

namespace Patch

/-- A patch whose anchor and replacement are given as texts. -/
def ofTexts (name anchor replacement : String) (marker : Option String) (all : Bool) :
    Except Error Patch :=
  match Pattern.parse anchor with
  | .error detail => .error (.pattern name detail)
  | .ok (pattern, groupNames) =>
    .ok ⟨name, pattern, groupNames, .ofChars replacement.toList, marker, all⟩

/-- Occurrences of the anchor that are replaced. -/
def matchesIn (p : Patch) (text : List Char) : List Match :=
  if p.all then p.anchor.findAll text else (p.anchor.find? text).toList

/-- Whether the marker is in the text. -/
def isMarked (p : Patch) (text : List Char) : Bool :=
  p.marker.any fun marker => containsText marker.toList text

/-- Applies a patch to a text. -/
def apply (p : Patch) (text : List Char) : List Char × PatchStatus :=
  if p.isMarked text then (text, .alreadyApplied)
  else
    match p.matchesIn text with
    | [] => (text, .anchorMissing)
    | ms =>
      (Match.splice (p.replacement.expand p.groupNames text) 0 text ms, .applied ms.length)

/-- Applies patches in order, each to the text that the one before it leaves. -/
def applyAll (patches : List Patch) (text : List Char) :
    Logged ε (List Char × List PatchOutcome) := do
  match patches with
  | [] => return (text, [])
  | p :: rest =>
    let (text, status) := p.apply text
    if status = .anchorMissing then Logged.warn (.anchorMissing p.name)
    let (text, outcomes) ← applyAll rest text
    return (text, ⟨p.name, status⟩ :: outcomes)

/-! ## Patches for the edge platform -/

/-- Global that the bundle sets when it runs on the edge platform. -/
def platformFlag : String := "__EDGE_PLATFORM__"

/-- Head of the statement that guards the server start. -/
def guardText : String := "if (!globalThis." ++ platformFlag ++ ") \x7b"

/-- A given text as a pattern. -/
def literal (s : String) : Pattern := .text s.toList

/-- Any text, as short as possible. -/
def anything : Pattern := .many false .any

/-- The application set-up up to the server start, and the call that starts the server. -/
def serveAnchor : Pattern :=
  .seq
    (.group 1 (.concat [literal "const nitroApp = useNitroApp();", anything,
      literal "let _fetch = nitroApp.fetch;", anything]))
    (.group 2 (.concat [literal "serve(\x7b", anything, literal "fetch: _fetch", anything,
      literal "\x7d);"]))

/-- Blanks inside a line. -/
def blanks : Pattern := .many true (.ofChars ['\t', ' '])

/-- A line that does nothing but install the handler for stray errors. -/
def trapAnchor : Pattern :=
  .concat [.look .lineStart, blanks, literal "trapUnhandledErrors()", blanks,
    .opt true (literal ";"), blanks,
    .alt (.seq (.opt true (literal "\r")) (literal "\n")) (.look .textEnd)]

/-- Starts the server only where the platform does not do so itself. -/
def guardServe : Patch where
  name := "guard-serve"
  anchor := serveAnchor
  replacement :=
    [.group 1, .text (guardText ++ "\n  ").toList, .group 2, .text "\n\x7d".toList]
  marker := some guardText

/-- Removes the handler for stray errors, which the platform does not allow. -/
def removeErrorTrap : Patch where
  name := "remove-error-trap"
  anchor := trapAnchor
  replacement := []
  all := true

/-- The patches that every bundle gets. -/
def defaults : List Patch := [guardServe, removeErrorTrap]

end Patch

end EdgeBundle
