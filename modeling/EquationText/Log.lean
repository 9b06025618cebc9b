/-! # Log entries

What a run reports besides its output. An entry has a level and comes from one part of the program.
-/

namespace EquationText

/-- The importance of a log entry, and the least importance that a log keeps. -/
inductive Level
  | unset
  | debug
  | info
  | warning
  | error
  | critical
deriving DecidableEq, Inhabited

namespace Level

def name : Level → String
  | unset => "NOTSET"
  | debug => "DEBUG"
  | info => "INFO"
  | warning => "WARNING"
  | error => "ERROR"
  | critical => "CRITICAL"

/-- The rank of a level; more important levels rank higher, and a level that is not set counts as a
warning. -/
def rank : Level → Nat
  | debug => 10
  | info => 20
  | unset | warning => 30
  | error => 40
  | critical => 50

/-- The level of a name in any case; an unknown name is a warning. -/
def ofName (name : String) : Level :=
  match String.ofList (name.toList.map Char.toUpper) with
  | "DEBUG" => debug
  | "INFO" => info
  | "ERROR" => error
  | "CRITICAL" | "FATAL" => critical
  | "NOTSET" => unset
  | _ => warning

end Level

/-- The part of the program that an entry comes from. -/
inductive Source
  | engine
  | dispatcher
  | api
  | cli
deriving DecidableEq

/-- The name under which a part of the program logs. -/
def Source.name : Source → String
  | engine => "lineqpp.engine"
  | dispatcher => "lineqpp.dispatcher"
  | api => "lineqpp.api"
  | cli => "lineqpp.cli"

/-- One line of a log. -/
structure Entry where
  level : Level
  source : Source
  message : String
deriving DecidableEq

namespace Entry

/-- Whether a log of the given level keeps the entry. -/
def isKeptAt (level : Level) (entry : Entry) : Bool := level.rank ≤ entry.level.rank

end Entry

end EquationText
