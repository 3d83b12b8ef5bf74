/-
# Layers, and the moments of a run

A layer of a stack is an enforcer or a relay.  A relay stands for the other decorators that one may
put around an implementation: it passes everything on, but it puts its tag in front of the
description that the layers below it give of themselves, and it may answer some calls itself,
without passing them on.  Each layer of a stack has a number of its own.

A run of a stack is written down as a list of moments: what happened, and what the cells of all
enforcers were at that instant.  The instants at which a layer gives control away (to the layer
below, to a reporter, to the layer above) are among them.  Whoever has control at such an instant
may do what it likes with the stack, and so these are the instants at which no hold may be out.  The
others are there because they can be seen as well: what is logged, and what is written to a table.
-/

import TriggerWatch.Call
import TriggerWatch.Enforcer

namespace TriggerWatch

/-! ### Layers -/

/-- The calls that a relay may answer by itself, since all that is there to say is "done". -/
inductive Swallowable where
  | unload
  | start
  | stop
  | stopAll
  deriving DecidableEq

/-- Which of these calls a request is, if it is one. -/
def Request.swallowable? {κ : Type} : Request κ → Option Swallowable
  | .unload _ => some .unload
  | .start _ _ _ _ => some .start
  | .stop _ => some .stop
  | .stopAll => some .stopAll
  | _ => none

/-- A layer that passes on what it does not answer by itself.  Its choice may depend on how many
calls have come to it before. -/
structure Relay where
  tag : String
  swallows : Nat → Swallowable → Bool
  /-- The number of calls that have come to it. -/
  seen : Nat := 0

/-- Which call the relay answers by itself, if it does so with this request. -/
def Relay.swallowed? {κ : Type} (r : Relay) (request : Request κ) : Option Swallowable :=
  request.swallowable?.filter (r.swallows r.seen)

/-- A reply on its way up through the relay.  It changes the answer to `get_properties`, and no
other. -/
def Relay.tagReply (r : Relay) : Reply → Reply
  | .properties p => .properties { p with description := r.tag ++ "/" ++ p.description }
  | reply => reply

/-- What a layer is: a decorator that watches, or one that relays. -/
inductive Role where
  | enforcer (e : Enforcer)
  | relay (r : Relay)

/-- The same part after a call has come to it. Only a relay counts them. -/
def Role.countCall : Role → Role
  | .relay r => .relay { r with seen := r.seen + 1 }
  | .enforcer e => .enforcer e

/-- A layer, and the number by which it is known. -/
structure Layer where
  id : Nat
  role : Role

/-- The cell of a layer, if it is an enforcer. -/
def Layer.cell? (layer : Layer) : Option (Nat × Cell) :=
  match layer.role with
  | .enforcer e => some (layer.id, e.cell)
  | .relay _ => none

/-- The cells of the enforcers among some layers, with the numbers of their layers. -/
def cellsOf (layers : List Layer) : List (Nat × Cell) := layers.filterMap Layer.cell?

/-! ### Moments -/

/-- A callback inside the stack: the client it leads to, and the layers that look at an event on its
way there, the first to look first.  Each of them has wrapped the callback in one more
`CallbackEnforcer`, and the outermost wrapping is the one of the innermost layer. -/
structure Callback where
  client : String
  watchers : List Nat := []
  deriving DecidableEq

/-- The same callback, looked at by one more layer before all others (`enforce`). -/
def Callback.watchedBy (callback : Callback) (layer : Nat) : Callback :=
  { callback with watchers := layer :: callback.watchers }

/-- What can happen during a run.  It happens at a layer, but for what comes out of the stack: a
call that arrives below, an event that comes to a client, and an answer. -/
inductive Happening where
  /-- A call comes to a layer on its way down. -/
  | enters (layer : Nat) (call : Request Unit)
  /-- A relay answers a call by itself. -/
  | swallows (layer : Nat) (tag : String) (call : Swallowable)
  /-- A call arrives below the stack; its callback has become a ticket. -/
  | calls (request : Request Nat)
  /-- A layer gets the reply to a call that it has passed on. -/
  | returns (layer : Nat) (call : Request Unit) (reply : Reply)
  /-- An event comes to a layer that looks at it, on its way up. -/
  | arrives (layer : Nat) (event : Event) (cookie : Int32)
  /-- A layer tells its reporter about a violation. -/
  | reports (layer : Nat) (reporter : Reporter) (violation : Violation)
  | logs (layer : Nat) (record : LogRecord)
  /-- A layer has written a commit to its table. -/
  | commits (layer : Nat) (commit : Commit)
  /-- A layer is done with an event, and hands it on. -/
  | hands (layer : Nat) (event : Event) (cookie : Int32)
  /-- A client gets an event. -/
  | notifies (client : String) (event : Event) (cookie : Int32)
  /-- The caller gets its reply. -/
  | answers (reply : Reply)
  /-- Somebody asks an enforcer for the state of a model. -/
  | looks (layer : Nat) (h : ModelHandle) (state : Option ModelState)
  deriving DecidableEq

/-- A happening, and the cells of the enforcers at that instant. -/
structure Moment where
  what : Happening
  cells : List (Nat × Cell)
  deriving DecidableEq

end TriggerWatch
