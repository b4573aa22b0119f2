/-
The log of one machine.

Messages at or above the chosen level become lines. A line goes to the console and into the
ring that keeps the most recent ones; less severe messages leave no trace.
-/
import Microkernel.Log.Line
import Microkernel.Log.Ring

namespace Microkernel

/-- The chosen level, whom lines are attributed to, and the retained lines. -/
structure Log where
  level : Log.Level
  source : Log.Source
  ring : Log.Ring
  deriving DecidableEq

namespace Log

/-- An empty log of the usual level. -/
def new : Log where
  level := .info
  source := ⟨0, 0⟩
  ring := .empty

/-- Writes a message; answers its line, if the level lets it pass. -/
def write (log : Log) (record : Record) : Option String × Log :=
  if record.level.enabledAt log.level then
    let line := record.line log.source
    (some line, { log with ring := log.ring.push line.toUTF8.data.toList })
  else
    (none, log)

end Log

end Microkernel
