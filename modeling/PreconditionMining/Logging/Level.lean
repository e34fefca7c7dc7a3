/-
# Levels

A message has a level, and a log keeps the messages up to a level: the more
serious a message is, the lower its level.  A level is read from its name
without regard to the case of letters.
-/

namespace PreconditionMining

/-- How serious a message is. -/
inductive Level
  | error
  | warn
  | info
  | debug
  | trace
deriving DecidableEq

namespace Level

/-- The levels, the most serious one first. -/
def all : List Level := [error, warn, info, debug, trace]

/-- The place of a level among all levels. -/
def rank : Level → Nat
  | error => 0
  | warn => 1
  | info => 2
  | debug => 3
  | trace => 4

/-- The name of a level. -/
def name : Level → String
  | error => "error"
  | warn => "warn"
  | info => "info"
  | debug => "debug"
  | trace => "trace"

/-- Whether a log that is kept up to a level holds messages of another one. -/
def keeps (limit level : Level) : Bool := level.rank ≤ limit.rank

/-- The level of a name in lower case. -/
def ofName? (name : String) : Option Level := all.find? fun l => l.name = name

/-- The level of a name in any case. -/
def parse? (text : String) : Option Level := ofName? (text.map Char.toLower)

/-- **Each level is read from its name.** -/
theorem ofName?_name (l : Level) : ofName? l.name = some l := by
  cases l <;> decide

end Level

end PreconditionMining
