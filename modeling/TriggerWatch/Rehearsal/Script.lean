/-
# Scripts

A script says how a stack is to be put together, what the clients and the implementation below do
step by step, and which models are to be watched. In it events are drafts and parameters are plain
numbers; a step with a number that stands for nothing fails before anything is called.
-/

import TriggerWatch.Event.Draft
import TriggerWatch.Stack.Assembly

namespace TriggerWatch

/-- An event that the implementation is to send through the callback it has for `at`. -/
structure Emission where
  handle : ModelHandle
  event : EventDraft := {}
  /-- `none` stands for the cookie that came with the callback. -/
  cookie : Option Int32 := none
  deriving DecidableEq

/-- An emission whose event is complete. -/
structure Delivery where
  handle : ModelHandle
  event : Event
  cookie : Option Int32
  deriving DecidableEq

/-- The event is about the model of the callback, unless the draft says otherwise. -/
def Emission.complete (emission : Emission) : Except CallError Delivery := do
  let event ← emission.event.complete emission.handle
  return { handle := emission.handle, event, cookie := emission.cookie }

/-- What the implementation is to do with the call of a step. -/
structure Plan where
  /-- It fails in this way. -/
  fault : Option CallError := none
  /-- It replies this, in place of what it would reply by itself. -/
  answer : Option Reply := none
  /-- It sends these events before it replies. -/
  emissions : List Emission := []
  deriving DecidableEq

/-- A call in which a parameter is still a number. -/
inductive CallDraft where
  | plain (request : Request String)
  | getParameter (h : ModelHandle) (parameter : Int32)
  | setParameter (h : ModelHandle) (parameter : Int32) (value : Int32)
  | parameterRange (h : ModelHandle) (parameter : Int32)
  deriving DecidableEq

/-- The call that a draft stands for; a number that is no parameter is a bad value. -/
def CallDraft.complete : CallDraft → Except CallError (Request String)
  | plain request => .ok request
  | getParameter h parameter => (Code.ofInt32 parameter).map fun p => .getParameter h p
  | setParameter h parameter value => (Code.ofInt32 parameter).map fun p => .setParameter h p value
  | parameterRange h parameter => (Code.ofInt32 parameter).map fun p => .parameterRange h p

/-- One step of a script. -/
inductive Step where
  /-- A client calls into the stack. -/
  | call (call : CallDraft) (plan : Plan)
  /-- The implementation sends an event. -/
  | deliver (emission : Emission)
  /-- The implementation dies. -/
  | die
  /-- The outermost enforcer is asked for the state of a model. -/
  | modelState (h : ModelHandle)
  /-- Logging is set up once more, which changes nothing. -/
  | initLogging
  deriving DecidableEq

/-- What is to be rehearsed. -/
structure Script where
  /-- The handle that the implementation gives to the first model it loads. -/
  firstHandle : ModelHandle := 1
  /-- An enforcer on top of everything else, which can be asked for its states. -/
  top : Option EnforcerPlan := none
  /-- The other layers, outermost first. -/
  layers : List LayerPlan := []
  /-- The models whose states are noted after each step. -/
  watched : List ModelHandle := []
  /-- For each client, the lists of steps it takes when it gets its first, second, … event. -/
  reactions : List (String × List (List Step)) := []
  steps : List Step := []

/-- All layers of a script, outermost first. -/
def Script.plans (script : Script) : List LayerPlan :=
  match script.top with
  | some plan => .enforcer plan :: script.layers
  | none => script.layers

end TriggerWatch
