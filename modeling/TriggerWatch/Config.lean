/-
# Log records, and the configuration of what is logged

A record has a severity, a text, and perhaps the call stack of the place that wrote it.  The call
stack is taken when the record is written out, so `LogRecord.message` is given its text.

`Config` is `EnforcerConfig`.  Two environment variables say how violations are logged: how serious
they are, and whether the call stack is logged with them.  `Config.read` is `from_lookup`, the body
of `from_env`: white space around a value does not matter; a variable that is not set, or whose
bytes are no text, leaves its default alone; so does a value that is not understood, but that one is
also mentioned in the log.

The two variables are read by the same few lines of code, and so there is one `Config.readWord`,
which is given the name of the variable and its words.
-/

import TriggerWatch.Text.CharClass
import TriggerWatch.Text.Quoted

namespace TriggerWatch

/-! ### Log records -/

/-- The tag that the records of this library go by (`TAG`). -/
def logTag : String := "SoundTriggerHw2Enforcer"

/-- How serious a record is (`ViolationSeverity`, and the two levels of the log that go with it). -/
inductive Severity where
  | error
  | warn
  deriving DecidableEq

/-- What is written to the log. -/
structure LogRecord where
  severity : Severity
  text : String
  /-- The call stack is to follow the text. -/
  withStack : Bool := false
  deriving DecidableEq

/-- What the log shows of a record: its text, and on the lines below it the call stack, if the
record asks for it. -/
def LogRecord.message (record : LogRecord) (callStack : String) : String :=
  if record.withStack then record.text ++ "\n" ++ callStack else record.text

/-- The first line of a message. -/
def headline (message : String) : List Char := message.toList.takeWhile (· ≠ '\n')

/-! ### The configuration -/

/-- How violations are logged (`EnforcerConfig`): as errors and with the call stack, unless the
environment says otherwise. -/
structure Config where
  severity : Severity := .error
  captureStack : Bool := true
  deriving DecidableEq

/-- What the environment holds for a variable.  A lookup that finds no text finds nothing. -/
inductive Setting where
  | unset
  /-- Bytes that are not UTF-8. -/
  | undecodable
  | text (value : String)
  deriving DecidableEq

/-- The setting that consists of the given bytes. -/
def Setting.ofBytes (bytes : List UInt8) : Setting :=
  match String.fromUTF8? ⟨bytes.toArray⟩ with
  | some value => .text value
  | none => .undecodable

namespace Config

/-- The variable for `severity`. -/
def severityVariable : String := "SOUNDTRIGGER_ENFORCER_SEVERITY"

/-- The variable for `captureStack`. -/
def captureStackVariable : String := "SOUNDTRIGGER_ENFORCER_CAPTURE_STACK"

/-- The words for `severity`. -/
def severityWords : List (String × Severity) := [("error", .error), ("warn", .warn)]

/-- The words for `captureStack`. -/
def captureStackWords : List (String × Bool) := [("0", false), ("1", true)]

/-- The record about a value that is not understood.  The value is shown as it is after trimming,
and quoted. -/
def ignored (name : String) (value : List Char) : LogRecord where
  severity := .warn
  text := "Ignoring " ++ name ++ "=" ++ String.ofList (Text.quoted value)

/-- What the setting of a variable says in the given words, or else the fallback, and what is logged
about it.  This is one of the two matches of `from_lookup`. -/
def readWord {α : Type} (name : String) (words : List (String × α)) (fallback : α) :
    Setting → α × List LogRecord
  | .text value =>
    let word := Text.trim value.toList
    match words.find? fun entry => entry.1.toList = word with
    | some entry => (entry.2, [])
    | none => (fallback, [ignored name word])
  | .unset | .undecodable => (fallback, [])

/-- The configuration that the environment asks for, and what is logged while it is read, the
severity first (`from_lookup`). -/
def read (environment : String → Setting) : Config × List LogRecord :=
  let initial : Config := {}
  let severity :=
    readWord severityVariable severityWords initial.severity (environment severityVariable)
  let captureStack :=
    readWord captureStackVariable captureStackWords initial.captureStack
      (environment captureStackVariable)
  ({ severity := severity.1, captureStack := captureStack.1 }, severity.2 ++ captureStack.2)

end Config

end TriggerWatch
