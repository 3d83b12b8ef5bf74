/-
# Sound models and what goes with them

The data that a client hands to a sound trigger implementation, or gets from it by asking: models
(`SoundModel`, `PhraseSoundModel`), phrases (`Phrase`, `PhraseRecognitionExtra`), recognition
configurations, properties, and the parameters of a model.  They keep the fields of the interface.
A field that nobody sets has the value given here, which is its default.

No layer of a stack looks into any of this, but for the description among the properties, which a
relay puts its tag in front of.
-/

import TriggerWatch.Code
import TriggerWatch.Flag.Basic

namespace TriggerWatch

/-- The number by which an implementation knows a loaded model.  It is the implementation that gives
it out, and it may give it out again after an unload. -/
abbrev ModelHandle := Int32

/-- How a phrase may be recognised (`RecognitionModes`). -/
def recognitionModes : FlagFamily where
  title := "RecognitionModes"
  flags := [("VOICE_TRIGGER", 1), ("USER_IDENTIFICATION", 2), ("USER_AUTHENTICATION", 4),
    ("GENERIC_TRIGGER", 8)]

/-- How captured audio may be processed (`AudioCapabilities`). -/
def audioCapabilities : FlagFamily where
  title := "AudioCapabilities"
  flags := [("ECHO_CANCELLATION", 1), ("NOISE_SUPPRESSION", 2)]

/-- Whether a model listens for phrases or for sounds of any kind (`SoundModelType`). -/
inductive ModelType where
  | keyphrase
  | generic
  deriving DecidableEq

instance : Code ModelType where
  variants := [.keyphrase, .generic]
  code
    | .keyphrase => 0
    | .generic => 1
  name
    | .keyphrase => "Keyphrase"
    | .generic => "Generic"

/-- A sound model; only the implementation knows what its data means. -/
structure SoundModel where
  type : ModelType := .generic
  uuid : String := ""
  /-- The implementation that the model is meant for. -/
  vendorUuid : String := ""
  data : List UInt8 := []
  deriving DecidableEq

/-- A phrase, and the users who may speak it. -/
structure Phrase where
  id : Int32 := 0
  modes : FlagSet recognitionModes := {}
  users : List Int32 := []
  locale : String := ""
  text : String := ""
  deriving DecidableEq

/-- A sound model that listens for phrases (`PhraseSoundModel`). -/
structure PhraseModel where
  common : SoundModel := {}
  phrases : List Phrase := []
  deriving DecidableEq

/-- A model of either variant, as a client loads it.  Which one it is tells `load_sound_model` from
`load_phrase_sound_model`. -/
inductive Model where
  | generic (model : SoundModel)
  | phrase (model : PhraseModel)
  deriving DecidableEq

/-- How sure the recogniser is of a user. -/
structure ConfidenceLevel where
  user : Int32 := 0
  percent : Int32 := 0
  deriving DecidableEq

/-- What is asked of the recognition of one phrase, or what came of it (`PhraseRecognitionExtra`).
-/
structure PhraseDetail where
  id : Int32 := 0
  modes : FlagSet recognitionModes := {}
  confidence : Int32 := 0
  levels : List ConfidenceLevel := []
  deriving DecidableEq

/-- What a client asks for when it starts a recognition (`start_recognition`). -/
structure RecognitionConfig where
  captureRequested : Bool := false
  phrases : List PhraseDetail := []
  data : List UInt8 := []
  audio : FlagSet audioCapabilities := {}
  deriving DecidableEq

/-- What an implementation says about itself (`get_properties`). -/
structure Properties where
  implementor : String := ""
  description : String := ""
  version : UInt32 := 0
  uuid : String := ""
  supportedModelArch : String := ""
  maxSoundModels : UInt32 := 0
  maxKeyPhrases : UInt32 := 0
  maxUsers : UInt32 := 0
  modes : FlagSet recognitionModes := {}
  captureTransition : Bool := false
  maxBufferMs : UInt32 := 0
  concurrentCapture : Bool := false
  triggerInEvent : Bool := false
  powerConsumptionMw : UInt32 := 0
  audio : FlagSet audioCapabilities := {}
  deriving DecidableEq

/-- A setting of a loaded model that a client can read and write.  `invalid` has the number -1, the
only negative number of a variant. -/
inductive ModelParameter where
  | invalid
  | thresholdFactor
  deriving DecidableEq

instance : Code ModelParameter where
  variants := [.invalid, .thresholdFactor]
  code
    | .invalid => -1
    | .thresholdFactor => 0
  name
    | .invalid => "Invalid"
    | .thresholdFactor => "ThresholdFactor"

/-- The values that a parameter may take, from the first to the last (`ModelParameterRange`). -/
structure ParameterRange where
  first : Int32
  last : Int32
  deriving DecidableEq

/-- Tells whether a value lies in the range, both ends included.  No value does if the range is
upside down. -/
def ParameterRange.contains (range : ParameterRange) (value : Int32) : Bool :=
  range.first ≤ value && value ≤ range.last

end TriggerWatch
