import EquationText.Log

/-! # Where log entries go

Once the log is configured, every entry of its level goes to it, one line each with level and
source. As long as it is not, the reports of the engine can be directed to streams for the time of a
run: their bare messages then go to every stream that is open.
-/

namespace EquationText

namespace Entry

/-- The line of an entry in a configured log. -/
def toText (entry : Entry) : String := s!"[{entry.level.name}] {entry.source.name}: {entry.message}"

/-- Whether the entry is a report of the engine. -/
def isReport (entry : Entry) : Bool := entry.source = .engine && entry.isKeptAt .info

end Entry

/-- Each text on a line of its own. -/
def asLines (texts : List String) : String := String.join (texts.map (· ++ "\n"))

/-- The lines of the entries that a log of the given level keeps. -/
def logText (level : Level) (entries : List Entry) : String :=
  asLines ((entries.filter (·.isKeptAt level)).map Entry.toText)

/-- The messages of the reports among the entries. -/
def reportText (entries : List Entry) : String :=
  asLines ((entries.filter Entry.isReport).map (·.message))

/-- Where log entries go. -/
structure Routing where
  /-- The level of the log, once it is configured. -/
  configured : Option Level
  /-- The number of streams to which reports are directed. -/
  streams : Nat
deriving DecidableEq

namespace Routing

/-- Nothing is configured and no stream is open. -/
def initial : Routing := ⟨none, 0⟩

/-- The routing with a configured log. -/
def configure (level : Level) (routing : Routing) : Routing :=
  { routing with configured := some level }

/-- The number of logs that are configured. -/
def logs (routing : Routing) : Nat := if routing.configured.isSome then 1 else 0

/-- The routing while reports are directed to one more stream; a configured log makes the stream
unnecessary. -/
def openStream (routing : Routing) : Routing :=
  if routing.configured.isSome then routing else { routing with streams := routing.streams + 1 }

/-- Whether entries reach the log: reports that are directed to a stream do not. -/
def reachesLog (routing : Routing) : Bool := routing.streams = 0

/-- What the log receives. -/
def logged (routing : Routing) (entries : List Entry) : String :=
  match routing.configured with
  | some level => if routing.reachesLog then logText level entries else ""
  | none => ""

/-- What a stream receives that is open within `inside` and was not before. -/
def streamed (outside inside : Routing) (entries : List Entry) : String :=
  if outside.streams < inside.streams then reportText entries else ""

end Routing

end EquationText
