/-!
# Environments

The variables that a session has and hands to the programs it starts.
-/

namespace PipelineShell

/-- Names with values. A name that stands twice has its first value. -/
structure Environment where
  bindings : List (String × String)
  deriving DecidableEq, Repr

namespace Environment

/-- The value of a variable. -/
def find? (env : Environment) (name : String) : Option String := env.bindings.lookup name

/-- The environment without a variable. -/
def erase (env : Environment) (name : String) : Environment :=
  ⟨env.bindings.filter fun v => v.1 ≠ name⟩

/-- The environment with a variable set. -/
def insert (env : Environment) (name value : String) : Environment :=
  ⟨(env.erase name).bindings ++ [(name, value)]⟩

end Environment

end PipelineShell
