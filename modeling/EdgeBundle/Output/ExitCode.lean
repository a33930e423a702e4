/-!
# Exit codes

The number that a run of the program leaves to its caller.
-/

namespace EdgeBundle

/-- What a run leaves to its caller. -/
structure ExitCode where
  /-- The number. -/
  value : Int32
  deriving DecidableEq, Repr

namespace ExitCode

/-- The run did what it was asked for. -/
def success : ExitCode := ⟨0⟩

/-- The run failed. -/
def failure : ExitCode := ⟨1⟩

/-- The arguments of the run cannot be used. -/
def invalidInput : ExitCode := ⟨2⟩

instance : Inhabited ExitCode := ⟨success⟩

/-- Whether the run did what it was asked for. -/
def isSuccess (code : ExitCode) : Bool :=
  code.value == 0

instance : ToString ExitCode := ⟨fun code => toString code.value⟩

end ExitCode

end EdgeBundle
