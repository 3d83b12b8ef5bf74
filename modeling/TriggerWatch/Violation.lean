/-
# Violations and their reporters

An event for a model that is not armed is a violation of the interface's contract.  It is told to a
reporter (`ViolationReporter`), which cannot fail, and does not call back into the stack.  There are
two of them here: the journal (`LogReporter`) writes the violation to the log as its configuration
says, and a recorder, which stands for any reporter that a client brings along, keeps it.

`Violation.text` is how a violation is displayed, and the log shows it on one line, perhaps with the
call stack on the lines below (`Config.record`, `LogRecord.message`).
-/

import TriggerWatch.Config
import TriggerWatch.ModelTable

namespace TriggerWatch

/-- An event that was not expected, and the state in which it met its model. -/
structure Violation where
  kind : EventKind
  model : ModelHandle
  /-- The state on arrival; `none` for a model that is not tracked. -/
  observed : Option ModelState
  status : Status
  deriving DecidableEq

/-- The name of a state on arrival.  A model that is not tracked is in an unknown state. -/
def observedName : Option ModelState → String
  | some state => state.name
  | none => "unknown"

/-- The wording of a violation, as it is displayed. -/
def Violation.text (v : Violation) : List Char :=
  "Unexpected recognition event for model: ".toList ++ Text.decimal v.model.toInt ++
    " (expected ".toList ++ ModelState.armed.name.toList ++
    ", observed ".toList ++ (observedName v.observed).toList ++
    ", status ".toList ++ (Code.name v.status).toList ++
    ", ".toList ++ v.kind.name.toList ++ [')']

/-- The log record about a violation: the level is that of the configuration, and the call stack
follows if the configuration asks for it. -/
def Config.record (config : Config) (v : Violation) : LogRecord where
  severity := config.severity
  text := String.ofList v.text
  withStack := config.captureStack

/-- Who is told about violations (`ViolationReporter`). -/
inductive Reporter where
  /-- The log. -/
  | journal (config : Config)
  /-- Somebody who keeps a record under a name. -/
  | recorder (name : String)
  deriving DecidableEq

/-- What a reporter writes to the log about a violation (`report`), if it writes to the log. -/
def Reporter.record? : Reporter → Violation → Option LogRecord
  | .journal config, v => some (config.record v)
  | .recorder _, _ => none

end TriggerWatch
