/-
Log lines.

A line reads `[cpuN][pid=X][subsystem][LEVEL] message`. It is written fragment by fragment
into `lineSize` bytes; a fragment that does not fit is cut at the last character that does.

A `Record` is a message before it is written: how severe it is, which part of the kernel it
comes from, and the fragments of its text. A `Source` is the core and the task it is
attributed to.
-/
import Microkernel.Config

namespace Microkernel.Log

/-- How severe a message is, from the most severe down. -/
inductive Level where
  | error
  | warn
  | info
  | debug
  | trace
  deriving DecidableEq

namespace Level

/-- The level as it stands in a line. -/
def text : Level → String
  | error => "ERROR"
  | warn => "WARN"
  | info => "INFO"
  | debug => "DEBUG"
  | trace => "TRACE"

/-- The place of the level; a greater one is more verbose. -/
def rank : Level → Nat
  | error => 0
  | warn => 1
  | info => 2
  | debug => 3
  | trace => 4

/-- Less verbose or more verbose. -/
def compare (a b : Level) : Ordering :=
  Ord.compare a.rank b.rank

/-- A log that goes down to `limit` keeps messages of the level. -/
def enabledAt (level limit : Level) : Bool :=
  decide (level.rank ≤ limit.rank)

end Level

/-- The core and the task that a line is attributed to. -/
structure Source where
  core : CoreId
  task : TaskId
  deriving DecidableEq

/-- The id that stands for no task where lines are attributed. -/
def vacantId : TaskId := 0xffffffffffffffff

/-- The source of lines from a core and its current task; without one, task 0 is named. -/
def Source.ofCore (core : CoreId) (task : Option TaskId) : Source :=
  ⟨core, (task.filter fun id => decide (id ≠ vacantId)).getD 0⟩

/-- A message before it is written. -/
structure Record where
  level : Level
  subsystem : String
  fragments : List String
  deriving DecidableEq

/-- Most bytes of a line. -/
def lineSize : Nat := 512

/-- The bytes that characters take. -/
def byteSize : List Char → Nat
  | [] => 0
  | c :: cs => c.utf8Size + byteSize cs

/-- The first characters, as many as fit into `room` bytes. -/
def fitting : Nat → List Char → List Char
  | _, [] => []
  | room, c :: cs =>
    if c.utf8Size ≤ room then c :: fitting (room - c.utf8Size) cs else []

/-- Adds what fits of a fragment to a line. -/
def addFragment (line : List Char) (fragment : String) : List Char :=
  line ++ fitting (lineSize - byteSize line) fragment.toList

/-- The line that fragments written one after the other give. -/
def lineOf (fragments : List String) : List Char :=
  fragments.foldl addFragment []

/-- The fragments of a whole line: where it comes from, and its message. -/
def Record.lineFragments (r : Record) (source : Source) : List String :=
  ["[cpu", toString source.core, "][pid=", toString source.task, "][", r.subsystem, "][",
    r.level.text, "] "] ++ r.fragments

/-- The line of a message. -/
def Record.line (r : Record) (source : Source) : String :=
  String.ofList (lineOf (r.lineFragments source))

end Microkernel.Log
