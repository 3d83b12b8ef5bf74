/-
# Drafts of events

A draft says about an event what there is to say, and leaves out the rest.  Its status is still a
plain number.  What is left out is filled in as in a fresh event of that kind (`new` of
`RecognitionEvent` and of `PhraseRecognitionEvent`): no capture, no data, and a model of the type
that goes with the kind.
-/

import TriggerWatch.Event.Basic

namespace TriggerWatch

/-- An event with gaps; `none` is filled in by `EventDraft.complete`. -/
structure EventDraft where
  kind : EventKind := .recognition
  status : Int32 := 0
  type : Option ModelType := none
  model : Option ModelHandle := none
  captureAvailable : Bool := false
  captureSession : Int32 := 0
  captureDelayMs : Int32 := 0
  capturePreambleMs : Int32 := 0
  triggerInData : Bool := false
  audio : AudioFormat := {}
  data : List UInt8 := []
  /-- Only an event of a phrase has these. -/
  details : List PhraseDetail := []
  deriving DecidableEq

/-- The type of model that sends events of a kind. -/
def EventKind.modelType : EventKind → ModelType
  | .recognition => .generic
  | .phraseRecognition => .keyphrase

/-- Fills the gaps of a draft, for a model that is known otherwise; a number that is no status is
a bad value. -/
def EventDraft.complete (draft : EventDraft) (model : ModelHandle) : Except CallError Event := do
  let status ← Code.ofInt32 draft.status
  let header : EventHeader := {
    status
    type := draft.type.getD draft.kind.modelType
    model := draft.model.getD model
    captureAvailable := draft.captureAvailable
    captureSession := draft.captureSession
    captureDelayMs := draft.captureDelayMs
    capturePreambleMs := draft.capturePreambleMs
    triggerInData := draft.triggerInData
    audio := draft.audio }
  match draft.kind with
  | .recognition => return .generic header draft.data
  | .phraseRecognition => return .phrase header draft.data draft.details

end TriggerWatch
