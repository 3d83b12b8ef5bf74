/-
# Passages

A call on its way down, a reply or an event on its way up passes the layers one after another.  A
`Passage` is a stack in the middle of that: the layers as they are by now, and the moments so far.

An enforcer that an event passes looks at its table, tells its reporter if the model is not armed,
commits the event, and hands it on, in this order (`Passage.watch`; it is `check`, and the two
callbacks of `CallbackEnforcer` which begin with it).  Neither the reporter nor the layer above it
gets control while a hold on the table is out.

An enforcer that a call passes wraps the callback, if there is one, and passes the call on
(`Descent.enter`).  What it does when the reply has come is in `Passage.settle`.  The table is
borrowed only then, so that the implementation may send events from within the call.
-/

import TriggerWatch.Stack.Layer

namespace TriggerWatch

/-- The layers in the middle of a move, and the moments of the move so far. -/
structure Passage where
  layers : List Layer
  moments : List Moment := []

namespace Passage

/-- Writes down that something happens now. -/
def note (p : Passage) (what : Happening) : Passage :=
  { p with moments := p.moments ++ [{ what, cells := cellsOf p.layers }] }

/-- The part that the layer with a number plays. -/
def role? (p : Passage) (id : Nat) : Option Role :=
  (p.layers.find? fun layer => layer.id = id).map Layer.role

/-- Changes the part that the layer with a number plays. -/
def modifyRole (p : Passage) (id : Nat) (f : Role → Role) : Passage :=
  { p with layers := p.layers.map fun layer =>
      if layer.id = id then { layer with role := f layer.role } else layer }

/-- Changes the cell of the enforcer with a number. -/
def modifyCell (p : Passage) (id : Nat) (f : Cell → Cell) : Passage :=
  p.modifyRole id fun
    | .enforcer e => .enforcer { e with cell := f e.cell }
    | .relay r => .relay r

/-- An enforcer writes a commit to its table.  What is logged about it is logged in between, while
the table is borrowed for writing: `loaded` warns before it returns. -/
def commit (p : Passage) (id : Nat) (e : Enforcer) (c : Commit) : Passage :=
  if c.writes then
    -- The hold is given back only after what is logged about the commit has been logged.
    let written := p.modifyCell id fun cell => cell.write c
    let logged := match Enforcer.commitRecord? e.cell.table c with
      | some record => written.note (.logs id record)
      | none => written
    (logged.modifyCell id Cell.release).note (.commits id c)
  else p.note (.commits id c)

/-- An enforcer tells its reporter about a violation (`report`).  A journal writes it to the log at
once. -/
def report (p : Passage) (id : Nat) (reporter : Reporter) (v : Violation) : Passage :=
  let told := p.note (.reports id reporter v)
  match reporter.record? v with
  | some record => told.note (.logs id record)
  | none => told

/-- An event passes an enforcer: `check`, then the callback that was wrapped.  The table is looked
at once, before the report, and written to after it; a forced event is noted as a commit that writes
nothing. -/
def watch (p : Passage) (id : Nat) (e : Enforcer) (event : Event) (cookie : Int32) : Passage :=
  let arrived := p.note (.arrives id event cookie)
  let looked := arrived.modifyCell id fun cell => (cell.look event.model).2
  let reported := match Enforcer.judge event (e.cell.look event.model).1 with
    | some v => looked.report id e.reporter v
    | none => looked
  (reported.commit id e (.event event.model event.status)).note (.hands id event cookie)

/-- An event passes the layer with a number, on its way up.  A relay does not wrap callbacks, and so
no event comes to it. -/
def rise (event : Event) (cookie : Int32) (p : Passage) (id : Nat) : Passage :=
  match p.role? id with
  | some (.enforcer e) => p.watch id e event cookie
  | _ => p

/-- A reply passes the layer with a number, on its way up.  An enforcer commits what the reply says
has happened, and changes nothing about the reply; a relay puts its tag in front of a description.
-/
def settle {κ : Type} (request : Request κ) (pr : Passage × Reply) (id : Nat) : Passage × Reply :=
  let returned := pr.1.note (.returns id request.bare pr.2)
  match pr.1.role? id with
  | some (.enforcer e) =>
    match request.commit? pr.2 with
    | some c => (returned.commit id e c, pr.2)
    | none => (returned, pr.2)
  | some (.relay r) => (returned, r.tagReply pr.2)
  | none => pr

/-- A reply passes some layers, on its way up, and comes to the caller.  These are the layers that
have passed the call on, the innermost first. -/
def climb {κ : Type} (p : Passage) (request : Request κ) (reply : Reply) (ids : List Nat) :
    Passage :=
  let (arrived, given) := ids.foldl (settle request) (p, reply)
  arrived.note (.answers given)

end Passage

/-- A call on its way down.  Its callback is the one that the layers so far have made of that of the
client. -/
structure Descent where
  passage : Passage
  request : Request Callback
  /-- The layers that it has passed, the last one first. -/
  passed : List Nat := []
  /-- A relay has answered it. -/
  swallowed : Bool := false

/-- A call comes to a layer on its way down.  An enforcer wraps the callback (`enforce`), and so
will look at what comes through it; a relay may answer the call.  Nothing is written to a table on
the way down. -/
def Descent.enter (d : Descent) (layer : Layer) : Descent :=
  if d.swallowed then d
  else
    let entered := d.passage.note (.enters layer.id d.request.bare)
    match layer.role with
    | .enforcer _ =>
      { d with
        passage := entered
        request := d.request.map fun callback => callback.watchedBy layer.id
        passed := layer.id :: d.passed }
    | .relay r =>
      -- The relay decides by the calls before this one, and counts this one in any case.
      let counted := entered.modifyRole layer.id Role.countCall
      match r.swallowed? d.request with
      | some call =>
        { d with passage := counted.note (.swallows layer.id r.tag call), swallowed := true }
      | none => { d with passage := counted, passed := layer.id :: d.passed }

/-- A call on its way through the layers, from the outermost one down. -/
def descend (layers : List Layer) (request : Request String) : Descent :=
  layers.foldl Descent.enter
    { passage := { layers }, request := request.map fun client => { client } }

end TriggerWatch
