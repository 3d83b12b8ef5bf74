/-
# Calls and their answers

The interface of a sound trigger HAL is `ISoundTriggerHw2`.  `Request` has one constructor for each
call that an implementation of it takes, and `Reply` one for each kind of answer, the failures among
them.

| request | call of the interface | answer |
| --- | --- | --- |
| `properties` | `get_properties` | `properties` |
| `load` | `load_sound_model`, `load_phrase_sound_model` | `handle` |
| `unload` | `unload_sound_model` | `done` |
| `start` | `start_recognition` | `done` |
| `stop` | `stop_recognition` | `done` |
| `stopAll` | `stop_all_recognitions` | `done` |
| `requestState` | `get_model_state` | `done` |
| `getParameter` | `get_model_parameter` | `value` |
| `setParameter` | `set_model_parameter` | `done` |
| `parameterRange` | `query_parameter` | `range` |
| `linkToDeath` | `link_to_death` | `flag` |
| `unlinkToDeath` | `unlink_to_death` | `flag` |
| `descriptor` | `interface_descriptor` | `descriptor` |

The two loads are one request, since they differ in the model that they are given and in nothing
else.  A request that brings a callback is generic in what stands for the callback: the name of a
client above the stack, a chain of watched callbacks inside it, a ticket below it.

`Request.commit?` is what an enforcer does after it has passed the call on: it writes down what the
reply has made true, and a failed call has made nothing true.
-/

import TriggerWatch.Event.Basic
import TriggerWatch.ModelTable

namespace TriggerWatch

/-- A call into an implementation of `ISoundTriggerHw2`; `κ` stands for a callback. -/
inductive Request (κ : Type) where
  | properties
  | load (model : Model) (callback : κ) (cookie : Int32)
  | unload (h : ModelHandle)
  | start (h : ModelHandle) (config : RecognitionConfig) (callback : κ) (cookie : Int32)
  | stop (h : ModelHandle)
  | stopAll
  /-- Asks for an event with the state of the model. -/
  | requestState (h : ModelHandle)
  | getParameter (h : ModelHandle) (parameter : ModelParameter)
  | setParameter (h : ModelHandle) (parameter : ModelParameter) (value : Int32)
  | parameterRange (h : ModelHandle) (parameter : ModelParameter)
  /-- Registers a recipient for the news that the implementation has died. -/
  | linkToDeath (recipient : String) (cookie : UInt64)
  | unlinkToDeath (recipient : String)
  | descriptor
  deriving DecidableEq

/-- An answer to a call.  All failures are alike to the layers that pass them on. -/
inductive Reply where
  | failed (error : CallError)
  | done
  | handle (h : ModelHandle)
  | properties (properties : Properties)
  | value (value : Int32)
  /-- `none` for a parameter that the model does not have. -/
  | range (range : Option ParameterRange)
  | flag (yes : Bool)
  | descriptor (name : String)
  deriving DecidableEq

namespace Request

variable {κ κ' : Type}

/-- The callback that a request brings.  A load and a start bring one, and the others do not. -/
def callback? : Request κ → Option κ
  | load _ callback _ => some callback
  | start _ _ callback _ => some callback
  | _ => none

/-- Tells whether a request only reads.  `get_properties`, `get_model_parameter`, `query_parameter`
and `interface_descriptor` do, and are given the implementation for reading only.  Calls that only
read may be under way together; every other call needs the stack for itself. -/
def reads : Request κ → Bool
  | properties | getParameter _ _ | parameterRange _ _ | descriptor => true
  | _ => false

/-- The same request with another callback. -/
def map (f : κ → κ') : Request κ → Request κ'
  | properties => .properties
  | load model callback cookie => .load model (f callback) cookie
  | unload h => .unload h
  | start h config callback cookie => .start h config (f callback) cookie
  | stop h => .stop h
  | stopAll => .stopAll
  | requestState h => .requestState h
  | getParameter h parameter => .getParameter h parameter
  | setParameter h parameter value => .setParameter h parameter value
  | parameterRange h parameter => .parameterRange h parameter
  | linkToDeath recipient cookie => .linkToDeath recipient cookie
  | unlinkToDeath recipient => .unlinkToDeath recipient
  | descriptor => .descriptor

/-- The call that a request makes, without what stands for the callback. -/
def bare (request : Request κ) : Request Unit := request.map fun _ => ()

/-- Tells whether a reply is of the kind that the request asks for.  Linking and unlinking answer
yes or no, and have no other way to fail. -/
def accepts : Request κ → Reply → Bool
  | linkToDeath _ _, .flag _ | unlinkToDeath _, .flag _ => true
  | linkToDeath _ _, _ | unlinkToDeath _, _ => false
  | _, .failed _ => true
  | load _ _ _, .handle _ => true
  | properties, .properties _ => true
  | getParameter _ _, .value _ => true
  | parameterRange _ _, .range _ => true
  | descriptor, .descriptor _ => true
  | unload _, .done | start _ _ _ _, .done | stop _, .done | stopAll, .done => true
  | requestState _, .done | setParameter _ _ _, .done => true
  | _, _ => false

/-- What an enforcer writes down when a request gets its reply.  It is a line of its own in
`load_sound_model`, `load_phrase_sound_model`, `unload_sound_model`, `start_recognition`,
`stop_recognition` and `stop_all_recognitions`, and stands behind the passed-on call there; if that
has failed, the line is not reached. -/
def commit? : Request κ → Reply → Option Commit
  | load _ _ _, .handle h => some (.loaded h)
  | unload h, .done => some (.unloaded h)
  | start h _ _ _, .done => some (.started h)
  | stop h, .done => some (.stopped h)
  | stopAll, .done => some .stoppedAll
  | _, _ => none

end Request
end TriggerWatch
