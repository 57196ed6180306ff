import ScopeSelectors.Rule.Table
/-!
# The shared rule table

A running program holds one *current* rule table, which readers take
snapshots of and which can be replaced as a whole.  Replacing installs the new
table, returns the one it replaces and writes a debug record with both sizes.
A snapshot taken earlier keeps the table it was taken of.
-/

namespace ScopeSelectors

/-- The current rule table of a program. -/
structure SharedTable (α : Type) where
  /-- The table readers see now. -/
  current : RuleTable α

namespace SharedTable

variable {α : Type}

/-- A shared table that starts with no rules. -/
def empty : SharedTable α := ⟨RuleTable.empty⟩

/-- The table readers see now. -/
def snapshot (s : SharedTable α) : RuleTable α := s.current

/-- Installs `t`, returning the table it replaces. -/
def replace (s : SharedTable α) (t : RuleTable α) : Logged (RuleTable α × SharedTable α) := do
  Logged.log .debug .sharedTable ("replacing rule table: " ++ toString s.current.size ++
    " rules -> " ++ toString t.size ++ " rules")
  pure (s.current, ⟨t⟩)

end SharedTable

end ScopeSelectors
