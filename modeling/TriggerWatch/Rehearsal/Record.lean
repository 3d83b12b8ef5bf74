/-
# Records of a rehearsal

What a rehearsal shows: the result of each step, everything that could be seen during the step in
the order in which it was seen, and the states of the watched models after it.
-/

import TriggerWatch.Rehearsal.Script
import TriggerWatch.Stack.Layer

namespace TriggerWatch

/-- What can be seen of the state of a model at some instant. -/
inductive Sight where
  /-- A call is under way, so nobody can ask. -/
  | busy
  /-- There is no enforcer to ask. -/
  | hidden
  | untracked
  | tracked (state : ModelState)
  deriving DecidableEq

/-- What an enforcer says about a model. -/
def Sight.ofState : Option ModelState → Sight
  | some state => .tracked state
  | none => .untracked

/-- What came of a step. -/
inductive Result where
  | reply (reply : Reply)
  | sight (sight : Sight)
  deriving DecidableEq

/-- What can be seen during a step. -/
inductive Entry where
  /-- A relay answered a call by itself. -/
  | swallowed (tag : String) (call : Swallowable)
  /-- The implementation was called. -/
  | called (request : Request Nat)
  /-- A recorder was told about a violation; `now` is the state of its model at that instant. -/
  | violation (recorder : String) (violation : Violation) (now : Sight)
  | logged (record : LogRecord)
  /-- A client got an event; `now` is the state of its model at that instant. -/
  | notified (client : String) (event : Event) (cookie : Int32) (now : Sight)
  /-- A client took a step from inside its callback. -/
  | reacted (client : String) (step : Step) (result : Result)
  /-- A recipient was told that the implementation had died. -/
  | died (recipient : String) (cookie : UInt64)
  /-- An event could not be sent, for want of a callback. -/
  | undelivered (handle : ModelHandle)
  deriving DecidableEq

/-- What can be seen of a moment. Some of them nobody sees. -/
def Happening.entry? (sight : ModelHandle → Sight) : Happening → Option Entry
  | .swallows _ tag call => some (.swallowed tag call)
  | .calls request => some (.called request)
  | .reports _ (.recorder name) v => some (.violation name v (sight v.model))
  | .logs _ record => some (.logged record)
  | .notifies client event cookie => some (.notified client event cookie (sight event.model))
  | .enters _ _ | .returns _ _ _ | .arrives _ _ _ | .reports _ (.journal _) _ | .commits _ _
  | .hands _ _ _ | .answers _ | .looks _ _ _ => none

/-- What came of one step. -/
structure StepRecord where
  result : Result
  entries : List Entry
  /-- The states of the watched models after the step. -/
  states : List Sight
  deriving DecidableEq

/-- What came of a script. -/
structure Record where
  /-- The tags of the relays, in the order in which they were put in place. -/
  built : List String
  steps : List StepRecord
  deriving DecidableEq

end TriggerWatch
