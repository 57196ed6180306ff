/-!
# Log records

The library reports what it does as *log records*: a severity level, a target
naming the part of the program that speaks, and a message.  Records are plain
values.  A computation that logs returns a `Logged` value, its result together
with the records it produced, oldest first; sequencing two such computations
concatenates their records in order (`records_bind`).  Which records are shown
is decided by whoever prints them, with `Level.atLeast`.
-/

namespace ScopeSelectors

/-- The severity of a log record, from the most verbose to the most severe. -/
inductive Level where
  /-- Step-by-step detail. -/
  | trace
  /-- Detail useful when looking for a fault. -/
  | debug
  /-- Normal progress. -/
  | info
  /-- Something was refused or skipped. -/
  | warn
  /-- The program could not do what it was asked. -/
  | error
  deriving DecidableEq, Repr

namespace Level

/-- The rank of a level: more severe is higher. -/
def rank : Level → Nat
  | .trace => 0
  | .debug => 1
  | .info => 2
  | .warn => 3
  | .error => 4

/-- Whether a record at level `l` passes a threshold of `min`. -/
def atLeast (l min : Level) : Bool := min.rank ≤ l.rank

/-- The level as records show it, in capitals. -/
def label : Level → String
  | .trace => "TRACE"
  | .debug => "DEBUG"
  | .info => "INFO"
  | .warn => "WARN"
  | .error => "ERROR"

/-- The level as a configuration names it, in lower case. -/
def name : Level → String
  | .trace => "trace"
  | .debug => "debug"
  | .info => "info"
  | .warn => "warn"
  | .error => "error"

end Level

/-- The part of the program that writes a record. -/
inductive Target where
  /-- The selector cache. -/
  | cache
  /-- Rule tables and their resolution. -/
  | resolver
  /-- The shared, replaceable rule table. -/
  | sharedTable
  /-- The command-line program itself. -/
  | program
  /-- The commands of the command-line program. -/
  | commands
  deriving DecidableEq, Repr

/-- The name a target is shown under. -/
def Target.name : Target → String
  | .cache => "scope_selector::cache"
  | .resolver => "scope_selector::resolver"
  | .sharedTable => "scope_selector::resolver::shared"
  | .program => "scope_match"
  | .commands => "scope_selector_cli::commands"

/-- Whether the target is part of the library, as opposed to the command-line
program built on it. -/
def Target.fromLibrary : Target → Bool
  | .cache | .resolver | .sharedTable => true
  | .program | .commands => false

/-- One log record. -/
structure Record where
  /-- Its severity. -/
  level : Level
  /-- Who wrote it. -/
  target : Target
  /-- What it says. -/
  message : String
  /-- The values it carries, as its line writes them after the message: each
  `name=value` after a space.  Empty for a record that is only a message. -/
  fields : String
  deriving DecidableEq, Repr

/-- A result together with the records produced while computing it, oldest first. -/
structure Logged (α : Type) where
  /-- The result. -/
  value : α
  /-- The records, oldest first. -/
  records : List Record

namespace Logged

instance : Monad Logged where
  pure a := ⟨a, []⟩
  bind x f := ⟨(f x.value).value, x.records ++ (f x.value).records⟩

/-- Writes one record that is only a message. -/
def log (level : Level) (target : Target) (message : String) : Logged Unit :=
  ⟨(), [⟨level, target, message, ""⟩]⟩

/-- Writes one record with a message and fields. -/
def logFields (level : Level) (target : Target) (message fields : String) : Logged Unit :=
  ⟨(), [⟨level, target, message, fields⟩]⟩

theorem records_bind {α β : Type} (x : Logged α) (f : α → Logged β) :
    (x >>= f).records = x.records ++ (f x.value).records := rfl

theorem value_bind {α β : Type} (x : Logged α) (f : α → Logged β) :
    (x >>= f).value = (f x.value).value := rfl

theorem records_pure {α : Type} (a : α) : (pure a : Logged α).records = [] := rfl

end Logged

end ScopeSelectors
