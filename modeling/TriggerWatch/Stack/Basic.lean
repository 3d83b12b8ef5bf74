/-
# Stacks

A stack of layers stands between a client and an implementation.  It only ever reacts: the client
calls and returns from its callbacks, the implementation replies and sends events.  `Move` lists
what the two may do, `Stack.step` is the reaction to one move, and `Stack.run` the reaction to a
list of moves.  A move that is not possible in the present situation changes nothing, so every list
of moves is a run.

A call of one of the layers' methods is thus cut in two.  `Stack.onCall` is what the layers do until
the call has arrived at the implementation, `Stack.onReply` what they do from its return on.  What
happens in between, from within the call, are further moves.  A callback is cut in two as well: by
`Stack.onEvent` the event has come up to the client, and `Stack.onFinish` is the return of the
client, after which no layer has anything left to do.  `Stack.onLook` is `model_state`.

What is under way is kept as a list of frames, innermost first: an event may come while a call is
under way, and a client may call from inside a callback, as long as no call is under way already
that either of the two would have to wait for.
-/

import TriggerWatch.Stack.Passage

namespace TriggerWatch

/-- What may be under way: a call that waits for its reply, or a callback that waits for its client
to return. -/
inductive Frame where
  /-- A call that has arrived below, and the layers that it passed, the last one first. -/
  | call (request : Request Nat) (passed : List Nat)
  /-- A callback of a client. -/
  | callback (client : String)
  deriving DecidableEq

/-- A stack in the middle of a run.  The layers are the decorators that the client's calls go
through one after the other; the implementation below them is not part of the stack. -/
structure Stack where
  /-- The layers, outermost first. -/
  layers : List Layer
  /-- The callbacks that the implementation has been given; a ticket is a place in this list. -/
  issued : List Callback := []
  /-- What is under way, innermost first. -/
  frames : List Frame := []

/-- What the client or the implementation may do.  Nothing is said about when they do it, so every
client and every implementation is covered. -/
inductive Move where
  /-- The client calls; it names itself where the call brings a callback. -/
  | call (request : Request String)
  /-- The implementation replies to the innermost call. -/
  | reply (reply : Reply)
  /-- The implementation sends an event through a callback that it was given. -/
  | event (ticket : Nat) (event : Event) (cookie : Int32)
  /-- The client returns from the innermost callback. -/
  | finish
  /-- Somebody asks the enforcer with a number for the state of a model. -/
  | look (layer : Nat) (h : ModelHandle)
  deriving DecidableEq

namespace Stack

/-- A stack on which nothing has happened yet. -/
def fresh (layers : List Layer) : Stack := { layers }

/-- A call is under way. -/
def busy (s : Stack) : Bool :=
  s.frames.any fun
    | .call _ _ => true
    | .callback _ => false

/-- Tells whether the client may call now: it is not itself waiting for a reply, and the calls that
are under way further out, if any, only read, as this one does.  A call that does not only read has
the whole stack to itself until it returns. -/
def admits (s : Stack) (request : Request String) : Bool :=
  match s.frames with
  -- The client is waiting for a reply.
  | .call _ _ :: _ => false
  | frames => frames.all fun
    | .call earlier _ => earlier.reads && request.reads
    | .callback _ => true

/-- The cells of the enforcers. -/
def cells (s : Stack) : List (Nat × Cell) := cellsOf s.layers

/-- The table of the enforcer with a number. -/
def table? (s : Stack) (id : Nat) : Option ModelTable :=
  (s.cells.find? fun entry => entry.1 = id).map fun entry => entry.2.table

/-- The reaction to a call.  It goes down through the layers, and arrives below with its callback
made a ticket; if a relay answers it, the answer goes up again at once. -/
def onCall (s : Stack) (request : Request String) : Stack × List Moment :=
  if !s.admits request then (s, [])
  else
    let d := descend s.layers request
    if d.swallowed then
      -- Nothing arrives below: no callback is given out, and no call is under way.
      let p := d.passage.climb d.request .done d.passed
      ({ s with layers := p.layers }, p.moments)
    else
      let ticketed := d.request.map fun _ => s.issued.length
      let p := d.passage.note (.calls ticketed)
      ({ layers := p.layers
         issued := s.issued ++ d.request.callback?.toList
         frames := .call ticketed d.passed :: s.frames }, p.moments)

/-- The reaction to a reply.  It goes up through the layers that have passed the call on, the
innermost first, and comes to the caller. -/
def onReply (s : Stack) (reply : Reply) : Stack × List Moment :=
  match s.frames with
  | .call request passed :: frames =>
    if request.accepts reply then
      let p := ({ layers := s.layers } : Passage).climb request reply passed
      ({ s with layers := p.layers, frames }, p.moments)
    else (s, [])
  | _ => (s, [])

/-- The reaction to an event.  It goes up through the layers that have wrapped the callback, the
innermost first, and comes to the client. -/
def onEvent (s : Stack) (ticket : Nat) (event : Event) (cookie : Int32) : Stack × List Moment :=
  match s.issued[ticket]? with
  | some callback =>
    let risen := callback.watchers.foldl (Passage.rise event cookie) { layers := s.layers }
    let p := risen.note (.notifies callback.client event cookie)
    ({ s with layers := p.layers, frames := .callback callback.client :: s.frames }, p.moments)
  | none => (s, [])

/-- The reaction to a client's return.  The layers did all they had to do before the client was
told. -/
def onFinish (s : Stack) : Stack × List Moment :=
  match s.frames with
  | .callback _ :: frames => ({ s with frames }, [])
  | _ => (s, [])

/-- The reaction to a question about a model (`model_state`).  Only an enforcer has an answer. -/
def onLook (s : Stack) (id : Nat) (h : ModelHandle) : Stack × List Moment :=
  let p : Passage := { layers := s.layers }
  match p.role? id with
  | some (.enforcer e) =>
    let looked := p.modifyCell id fun cell => (cell.look h).2
    let p := looked.note (.looks id h (e.cell.look h).1)
    ({ s with layers := p.layers }, p.moments)
  | _ => (s, [])

/-- The reaction to a move, and the moments of it. -/
def step (s : Stack) : Move → Stack × List Moment
  | .call request => s.onCall request
  | .reply reply => s.onReply reply
  | .event ticket event cookie => s.onEvent ticket event cookie
  | .finish => s.onFinish
  | .look id h => s.onLook id h

/-- The reaction to a list of moves, and the moments of all of them. -/
def run (s : Stack) : List Move → Stack × List Moment
  | [] => (s, [])
  | move :: moves =>
    let (next, now) := s.step move
    let (last, later) := next.run moves
    (last, now ++ later)

/-- Nothing happens when nobody moves. -/
@[simp] theorem run_nil (s : Stack) : s.run [] = (s, []) := rfl

/-- A run is its first move, and then the rest of it. -/
theorem run_cons (s : Stack) (move : Move) (moves : List Move) :
    s.run (move :: moves) =
      (((s.step move).1.run moves).1, (s.step move).2 ++ ((s.step move).1.run moves).2) := rfl

/-- **A run may be cut in two.** What comes later happens on the stack that the earlier moves leave
behind. -/
theorem run_append (s : Stack) (before after : List Move) :
    s.run (before ++ after) =
      (((s.run before).1.run after).1, (s.run before).2 ++ ((s.run before).1.run after).2) := by
  induction before generalizing s with
  | nil => simp
  | cons move moves ih => simp [run_cons, ih]

end Stack
end TriggerWatch
