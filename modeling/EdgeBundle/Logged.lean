import EdgeBundle.Error
import EdgeBundle.Module.Reference

/-!
# Computations with warnings

A computation of the linker gives a value or ends in an error. Either way the warnings that came up
before are kept, in order.
-/

namespace EdgeBundle

/-- Something that does not end a build but deserves attention. -/
inductive Warning where
  /-- A builtin without stand-in is bound to an empty object. -/
  | noPolyfill (module : String) (line : Nat) (name : String)
  /-- The specifier of an import expression is not a plain string. -/
  | computedImport (module : String) (line : Nat)
  /-- The link order does not satisfy a reference. -/
  | unsatisfied (finding : Finding)
  /-- No module is the configured entry. -/
  | entryMissing (entry : String)
  /-- A patch found nothing to change. -/
  | anchorMissing (patch : String)
  /-- A file is not UTF-8. -/
  | lossyText (path : String)
  deriving DecidableEq, Repr

/-- Wording of a warning. -/
def Warning.message : Warning → String
  | noPolyfill module line name =>
    s!"{module}:{line}: no polyfill for builtin '{name}'; binding an empty object"
  | computedImport module line =>
    s!"{module}:{line}: dynamic import with a computed specifier left as is"
  | unsatisfied finding => s!"Unsatisfied reference {finding.message}"
  | entryMissing entry =>
    s!"Entry module {entry} not found among executable modules; nothing is forced last"
  | anchorMissing patch => s!"Patch {patch} found no anchor; text left unchanged"
  | lossyText path => s!"{path} is not valid UTF-8; embedding a lossy decode"

/-- The outcome of a computation together with the warnings on the way to it. -/
structure Logged (ε α : Type) where
  /-- Value or error. -/
  result : Except ε α
  /-- Warnings in order. -/
  warnings : List Warning

namespace Logged

/-- A value without warnings. -/
protected def pure (a : α) : Logged ε α :=
  ⟨.ok a, []⟩

/-- Goes on with the value of a computation, if it has one. -/
protected def bind (x : Logged ε α) (f : α → Logged ε β) : Logged ε β :=
  match x.result with
  | .ok a => ⟨(f a).result, x.warnings ++ (f a).warnings⟩
  | .error e => ⟨.error e, x.warnings⟩

instance : Monad (Logged ε) where
  pure := Logged.pure
  bind := Logged.bind

instance : MonadExceptOf ε (Logged ε) where
  throw e := ⟨.error e, []⟩
  tryCatch x handle :=
    match x.result with
    | .ok _ => x
    | .error e => ⟨(handle e).result, x.warnings ++ (handle e).warnings⟩

/-- A warning and nothing else. -/
def warn (w : Warning) : Logged ε Unit :=
  ⟨.ok (), [w]⟩

/-- A result without warnings. -/
def ofExcept (r : Except ε α) : Logged ε α :=
  ⟨r, []⟩

/-- Changes the error of a computation. -/
def mapError (f : ε → ε') (x : Logged ε α) : Logged ε' α :=
  ⟨x.result.mapError f, x.warnings⟩

/-- The values of computations, one after the other up to the first error. -/
def collect (items : List (Logged ε α)) : Logged ε (List α) :=
  items.mapM id

end Logged

/-- A computation with warnings that also does what `m` does. -/
def LoggedT (ε : Type) (m : Type → Type) (α : Type) : Type :=
  m (Logged ε α)

namespace LoggedT

variable {m : Type → Type} [Monad m]

/-- What a computation does in `m`. -/
def run (x : LoggedT ε m α) : m (Logged ε α) := x

/-- A value without warnings. -/
protected def pure (a : α) : LoggedT ε m α :=
  (pure (Logged.pure a) : m (Logged ε α))

/-- Goes on with the value of a computation, if it has one. -/
protected def bind (x : LoggedT ε m α) (f : α → LoggedT ε m β) : LoggedT ε m β :=
  (do
    let first ← x.run
    match first.result with
    | .ok a =>
      let second ← (f a).run
      return ⟨second.result, first.warnings ++ second.warnings⟩
    | .error e => return ⟨.error e, first.warnings⟩ : m (Logged ε β))

instance : Monad (LoggedT ε m) where
  pure := LoggedT.pure
  bind := LoggedT.bind

/-- A computation that does nothing in `m`. -/
def ofLogged (x : Logged ε α) : LoggedT ε m α :=
  (pure x : m (Logged ε α))

/-- A computation in `m` that gives a value or an error, without warnings. -/
def ofResult (x : m (Except ε α)) : LoggedT ε m α :=
  (do return ⟨← x, []⟩ : m (Logged ε α))

/-- Changes the error of a computation. -/
def mapError (f : ε → ε') (x : LoggedT ε m α) : LoggedT ε' m α :=
  (do return (← x.run).mapError f : m (Logged ε' α))

end LoggedT

end EdgeBundle
