/-
# Enforcers, and their tables under holds

An enforcer (`SoundTriggerHw2Enforcer`) keeps the table of the models that it has seen loaded, and
judges each event by it: an event for a model that is not armed is a violation.  It only looks on.
What it does to its table is written here; how it takes its turn among other layers is the business
of the stack (`Passage.watch`, `Passage.settle`, `Descent.enter`).

The table is shared (`Shared`) by the calls that go down and the events that come up, and one may
come while the other is under way.  So whoever reads the table borrows it for reading first, and
whoever writes borrows it for writing.  Such a borrow is a `Hold` here.  A hold that conflicts with
one that is still out is not granted, which would be the end of the program; `Cell` goes on, and
remembers that it was asked for.
-/

import TriggerWatch.ModelTable
import TriggerWatch.Violation

namespace TriggerWatch

/-! ### Cells -/

/-- The holds on a table that are out: the borrows that have not ended yet. -/
inductive Hold where
  | free
  /-- One reader, and so many more. -/
  | shared (more : Nat)
  | exclusive
  deriving DecidableEq

/-- A table, the holds on it, and whether a hold was ever asked for in vain.  It is the cell
`states` of an enforcer. -/
structure Cell where
  table : ModelTable := {}
  hold : Hold := .free
  clashed : Bool := false
  deriving DecidableEq

namespace Cell

/-- Asks for a shared hold, to read. -/
def share (cell : Cell) : Cell :=
  match cell.hold with
  | .free => { cell with hold := .shared 0 }
  | .shared more => { cell with hold := .shared (more + 1) }
  | .exclusive => { cell with clashed := true }

/-- Asks for the exclusive hold, to write. -/
def claim (cell : Cell) : Cell :=
  match cell.hold with
  | .free => { cell with hold := .exclusive }
  | _ => { cell with clashed := true }

/-- Gives one hold back. -/
def release (cell : Cell) : Cell :=
  match cell.hold with
  | .shared (more + 1) => { cell with hold := .shared more }
  | _ => { cell with hold := .free }

/-- The state of a model, read under a shared hold that is given back at once.  `check` looks like
this before it reports, and so does `model_state`, by which others ask. -/
def look (cell : Cell) (h : ModelHandle) : Option ModelState × Cell :=
  let held := cell.share
  (held.table.get? h, held.release)

/-- The cell while a commit is being written: changed, and held exclusively.  The hold is given back
when the line that writes is done, and the reload warning is logged before that. -/
def write (cell : Cell) (commit : Commit) : Cell :=
  let held := cell.claim
  { held with table := held.table.commit commit }

/-- Nobody holds the table, and no hold was ever asked for in vain. -/
def AtRest (cell : Cell) : Prop := cell.hold = .free ∧ cell.clashed = false

instance (cell : Cell) : Decidable cell.AtRest := inferInstanceAs (Decidable (_ ∧ _))

/-- Looking at a cell at rest leaves it as it is: the shared hold is granted, and given back. -/
theorem look_of_atRest {cell : Cell} (h : cell.AtRest) (model : ModelHandle) :
    cell.look model = (cell.table.get? model, cell) := by
  obtain ⟨table, hold, clashed⟩ := cell
  obtain ⟨rfl, rfl⟩ := h
  rfl

/-- Writing to a cell at rest and giving the hold back changes the table and nothing else. -/
theorem release_write_of_atRest {cell : Cell} (h : cell.AtRest) (commit : Commit) :
    (cell.write commit).release = { cell with table := cell.table.commit commit } := by
  obtain ⟨table, hold, clashed⟩ := cell
  obtain ⟨rfl, rfl⟩ := h
  rfl

end Cell

/-! ### Enforcers -/

/-- An enforcer: its table, and whom it tells about violations.  The implementation below it is the
rest of the stack. -/
structure Enforcer where
  reporter : Reporter
  cell : Cell := {}
  deriving DecidableEq

namespace Enforcer

/-- The violation that an event is, if its model was found in the given state on arrival: the first
half of `check`. -/
def judge (event : Event) (observed : Option ModelState) : Option Violation :=
  if observed = some .armed then none
  else some { kind := event.kind, model := event.model, observed, status := event.status }

/-- The record about a load that returned the handle of a model still tracked, which `loaded` logs.
-/
def reloadRecord (h : ModelHandle) : LogRecord where
  severity := .warn
  text := "Model " ++ String.ofList (Text.decimal h.toInt) ++ " loaded while still tracked"

/-- What is logged while a commit is written to a table.  Only `loaded` has something to say. -/
def commitRecord? (t : ModelTable) : Commit → Option LogRecord
  | .loaded h => if (t.get? h).isSome then some (reloadRecord h) else none
  | _ => none

end Enforcer

end TriggerWatch
