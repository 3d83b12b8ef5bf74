/-
# Recognition events

An implementation reports on a model by an event, which is generic (`RecognitionEvent`, delivered by
`recognition_callback`) or of a phrase (`PhraseRecognitionEvent`, delivered by
`phrase_recognition_callback`).  Both kinds carry the same header (`RecognitionEventHeader`); the
header names the model, and its status says what happened.  A forced event only answers a request
for the model's state, so it does not end the recognition.

The model that an event is about is the one in its header.  It need not be a model whose callback
the event comes through.
-/

import TriggerWatch.Sound

namespace TriggerWatch

/-- What an event says about the recognition (`RecognitionStatus`). -/
inductive Status where
  | success
  | aborted
  | failure
  /-- The event was asked for, and nothing was recognised. -/
  | forced
  deriving DecidableEq

instance : Code Status where
  variants := [.success, .aborted, .failure, .forced]
  code
    | .success => 0
    | .aborted => 1
    | .failure => 2
    | .forced => 3
  name
    | .success => "Success"
    | .aborted => "Aborted"
    | .failure => "Failure"
    | .forced => "Forced"

/-- Tells whether a status only answers a request for the state (`is_forced`). -/
def Status.isForced (status : Status) : Bool := status = .forced

/-- The two ways in which an event is delivered.  A violation says in which of them it came. -/
inductive EventKind where
  | recognition
  | phraseRecognition
  deriving DecidableEq

/-- The name of a kind, as it is shown in the text of a violation. -/
def EventKind.name : EventKind → String
  | .recognition => "Recognition"
  | .phraseRecognition => "PhraseRecognition"

/-- The format of the audio that is captured after a recognition (`AudioConfig`). -/
structure AudioFormat where
  rate : UInt32 := 0
  mask : UInt32 := 0
  format : UInt32 := 0
  deriving DecidableEq

/-- What both kinds of event say (`RecognitionEventHeader`). -/
structure EventHeader where
  status : Status := .success
  type : ModelType := .generic
  model : ModelHandle := 0
  captureAvailable : Bool := false
  captureSession : Int32 := 0
  captureDelayMs : Int32 := 0
  capturePreambleMs : Int32 := 0
  triggerInData : Bool := false
  audio : AudioFormat := {}
  deriving DecidableEq

/-- An event on its way from the implementation to a client.  That of a phrase says what came of
each phrase as well. -/
inductive Event where
  | generic (header : EventHeader) (data : List UInt8)
  | phrase (header : EventHeader) (data : List UInt8) (details : List PhraseDetail)
  deriving DecidableEq

namespace Event

/-- What the event says whatever its kind. -/
def header : Event → EventHeader
  | generic header _ => header
  | phrase header _ _ => header

/-- The way in which the event is delivered. -/
def kind : Event → EventKind
  | generic _ _ => .recognition
  | phrase _ _ _ => .phraseRecognition

/-- The model that the event is about. -/
def model (event : Event) : ModelHandle := event.header.model

/-- What the event says about the recognition. -/
def status (event : Event) : Status := event.header.status

end Event
end TriggerWatch
