/-
# Rehearsals

`Script.rehearse` puts the stack of a script together and plays its steps. A client that gets an
event takes the next list of steps it has in store, unless a call is under way, and plays them
before it returns. Since each of them leaves one list fewer in store, their number bounds how
deeply this can nest, and `Bench.react` recurses on it.
-/

import TriggerWatch.Rehearsal.Device
import TriggerWatch.Rehearsal.Record
import TriggerWatch.Stack.Basic

namespace TriggerWatch

/-- A rehearsal under way. -/
structure Bench where
  stack : Stack
  device : Device
  /-- The enforcer that can be asked for states. -/
  top : Option Nat
  /-- What each client has in store. -/
  reactions : List (String × List (List Step))
  /-- What was seen in the present step, in order. -/
  entries : List Entry := []

namespace Bench

/-- Writes down what was seen. -/
def see (b : Bench) (entry : Entry) : Bench := { b with entries := b.entries ++ [entry] }

/-- What can be seen of a model, given the cells of the enforcers. -/
def sightIn (b : Bench) (cells : List (Nat × Cell)) (h : ModelHandle) : Sight :=
  if b.stack.busy then .busy
  else match b.top with
    | none => .hidden
    | some id => .ofState <|
      (cells.find? fun entry => entry.1 = id).bind fun entry => entry.2.table.get? h

/-- Makes a move on the stack, and writes down what can be seen of it. -/
def play (b : Bench) (move : Move) : List Moment × Bench :=
  let (stack, moments) := b.stack.step move
  let seen := moments.filterMap fun moment => moment.what.entry? (b.sightIn moment.cells)
  (moments, { b with stack, entries := b.entries ++ seen })

/-- The reply that a caller got, if it got one. -/
def replyIn (moments : List Moment) : Option Reply :=
  moments.findSome? fun moment =>
    match moment.what with
    | .answers reply => some reply
    | _ => none

/-- The call that arrived below, if one did. -/
def callIn (moments : List Moment) : Option (Request Nat) :=
  moments.findSome? fun moment =>
    match moment.what with
    | .calls request => some request
    | _ => none

/-- Sends an event through the callback for its handle. The client that gets it has not returned
yet; without a callback nobody gets it. -/
def send (b : Bench) (delivery : Delivery) : Option String × Bench :=
  match b.device.callback? delivery.handle with
  | none => (none, b.see (.undelivered delivery.handle))
  | some registration =>
    let cookie := delivery.cookie.getD registration.cookie
    let (moments, b) := b.play (.event registration.ticket delivery.event cookie)
    let client := moments.findSome? fun moment =>
      match moment.what with
      | .notifies client _ _ => some client
      | _ => none
    (client, b)

/-- The client returns from its callback. -/
def finish (b : Bench) : Bench := (b.play .finish).2

/-- A client calls into the stack. What the implementation sends meanwhile is not reacted to. -/
def call (b : Bench) (request : Request String) (plan : Plan) (deliveries : List Delivery) :
    Result × Bench :=
  let (moments, b) := b.play (.call request)
  match callIn moments with
  | none => (.reply ((replyIn moments).getD .done), b)
  | some arrived =>
    let (device, reply) := b.device.take arrived plan
    let b := { b with device }
    let b := deliveries.foldl (fun b delivery =>
      match b.send delivery with
      | (some _, b) => b.finish
      | (none, b) => b) b
    let (moments, b) := b.play (.reply reply)
    (.reply ((replyIn moments).getD reply), b)

/-- The state of a model, by asking the enforcer on top. -/
def ask (b : Bench) (h : ModelHandle) : Sight × Bench :=
  match b.top with
  | none => (.hidden, b)
  | some id =>
    let (moments, b) := b.play (.look id h)
    let state := moments.findSome? fun moment =>
      match moment.what with
      | .looks _ _ state => some state
      | _ => none
    (.ofState (state.getD none), b)

/-- Plays one step; `react` plays what a client does about an event. -/
def perform (react : String → Bench → Bench) (step : Step) (b : Bench) : Result × Bench :=
  match step with
  | .call draft plan =>
    match draft.complete, plan.emissions.mapM Emission.complete with
    | .ok request, .ok deliveries => b.call request plan deliveries
    | .error fault, _ | _, .error fault => (.reply (.failed fault), b)
  | .deliver emission =>
    match emission.complete with
    | .error fault => (.reply (.failed fault), b)
    | .ok delivery =>
      match b.send delivery with
      | (some client, b) => (.reply .done, (react client b).finish)
      | (none, b) => (.reply .done, b)
  | .die => (.reply .done, b.device.recipients.foldl (fun b entry =>
      b.see (.died entry.1 entry.2)) b)
  | .modelState h =>
    let (sight, b) := b.ask h
    (.sight sight, b)
  | .initLogging => (.reply .done, b)

/-- Takes the next list of steps that a client has in store. -/
def takeReaction (b : Bench) (client : String) : Option (List Step × Bench) :=
  match b.reactions.find? fun entry => entry.1 = client with
  | some (_, steps :: rest) =>
    some (steps, { b with reactions := b.reactions.map fun entry =>
      if entry.1 = client then (client, rest) else entry })
  | _ => none

/-- What a client does about an event, nested no deeper than `depth`. -/
def react : (depth : Nat) → String → Bench → Bench
  | 0, _, b => b
  | depth + 1, client, b =>
    match b.takeReaction client with
    | none => b
    | some (steps, b) => steps.foldl (fun b step =>
        let (result, b) := b.perform (react depth) step
        b.see (.reacted client step result)) b

/-- The number of lists of steps that the clients have in store. -/
def inStore (b : Bench) : Nat :=
  b.reactions.foldl (fun count entry => count + entry.2.length) 0

/-- Plays a step of the script itself, and tells what came of it. -/
def playStep (b : Bench) (watched : List ModelHandle) (step : Step) : StepRecord × Bench :=
  let (result, b) := { b with entries := [] }.perform (react b.inStore) step
  ({ result, entries := b.entries, states := watched.map (b.sightIn b.stack.cells) }, b)

/-- Plays steps in order. -/
def playSteps (b : Bench) (watched : List ModelHandle) : List Step → List StepRecord
  | [] => []
  | step :: steps =>
    let (record, b) := b.playStep watched step
    record :: b.playSteps watched steps

end Bench

/-- Plays a script from the beginning. -/
def Script.rehearse (script : Script) : Record :=
  let (layers, built) := layersOf script.plans
  let bench : Bench := {
    stack := .fresh layers
    device := { nextHandle := script.firstHandle }
    top := script.top.map fun _ => script.layers.length
    reactions := script.reactions }
  { built, steps := bench.playSteps script.watched script.steps }

end TriggerWatch
