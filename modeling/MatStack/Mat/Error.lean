import MatStack.Matd.WarmSession

/-!
# Errors of a command

What a command of `mat` or an operation of `matd` ends with: a kind, from which the exit code
follows, and a text.
-/

namespace MatStack

structure MatError where
  kind : ErrorKind
  detail : String
deriving DecidableEq

namespace MatError

def parseError (detail : String) : MatError := ⟨.parseError, detail⟩

/-- A name that is not known. -/
def unresolvedOp : MatError :=
  parseError ("unknown cluster/attribute/command name (or unsupported non-scalar type); " ++
    "numeric IDs are accepted")

end MatError

end MatStack
