/-
# No hold is ever in the way

A reader of an enforcer's table takes a shared hold on it and a writer an exclusive one, and a hold
that is asked for while another is in the way is not granted.  This never comes to pass.  A hold is
given back before the layer gives control to anybody else, so at every instant of a run no table is
held, with one exception: an enforcer that warns about a load is in the middle of writing that load
down.

`Passage.Calm` is the invariant, and `Passage.Calm.turn` says that each turn keeps it.  Calls and
events may be nested in any way, and a run is still a sequence of turns.  So nothing is asked for in
vain, and whoever asks for the state of a model meanwhile gets it: `Stack.holds_never_clash`.
-/

import TriggerWatch.Proofs.Turn

namespace TriggerWatch

/-- A layer gives control away by what happens: to the layer below it or to the implementation, to
its reporter, or to the layer above it or the client. -/
def Happening.GivesControl : Happening → Prop
  | .enters _ _ | .calls _ | .returns _ _ _ | .answers _ | .arrives _ _ _ | .reports _ _ _
  | .hands _ _ _ | .notifies _ _ _ => True
  | .swallows _ _ _ | .logs _ _ | .commits _ _ | .looks _ _ _ => False

/-- Whoever warns about a load keeps control. -/
theorem Happening.GivesControl.not_warns {what : Happening} (h : what.GivesControl) (id : Nat) :
    ¬ what.Warns id := by
  rintro ⟨k, rfl⟩
  exact h

/-- A cell at rest grants the exclusive hold that a commit asks for. -/
theorem Cell.AtRest.write {cell : Cell} (h : cell.AtRest) (c : Commit) :
    (cell.write c).hold = .exclusive ∧ (cell.write c).clashed = false := by
  obtain ⟨table, hold, clashed⟩ := cell
  obtain ⟨rfl, rfl⟩ := h
  exact ⟨rfl, rfl⟩

/-- A cell at rest is at rest again when a commit has been written and its hold given back. -/
theorem Cell.AtRest.release_write {cell : Cell} (h : cell.AtRest) (c : Commit) :
    (cell.write c).release.AtRest := by
  rw [Cell.release_write_of_atRest h]
  exact h

/-- No table is held at an instant but that of an enforcer that warns about a load. -/
def Moment.Calm (m : Moment) : Prop :=
  ∀ entry ∈ m.cells, entry.2.AtRest ∨
    (m.what.Warns entry.1 ∧ entry.2.hold = .exclusive ∧ entry.2.clashed = false)

namespace Passage

/-- No table is held, and none has been but by an enforcer that warned about a load. -/
structure Calm (p : Passage) : Prop where
  now : ∀ entry ∈ cellsOf p.layers, entry.2.AtRest
  past : ∀ m ∈ p.moments, m.Calm

/-- The cells after one of them was changed: the changed one, and the others as they were. -/
theorem mem_cellsOf_modifyCell {p : Passage} {id : Nat} {f : Cell → Cell} {entry : Nat × Cell}
    (h : entry ∈ cellsOf (p.modifyCell id f).layers) :
    ∃ cell, (entry.1, cell) ∈ cellsOf p.layers ∧
      entry.2 = if entry.1 = id then f cell else cell := by
  obtain ⟨layer, hlayer, hentry⟩ := List.mem_filterMap.1 h
  obtain ⟨⟨k, role⟩, hmem, rfl⟩ := List.mem_map.1 hlayer
  by_cases hk : k = id
  · cases role with
    | relay r => simp [hk, Layer.cell?] at hentry
    | enforcer e =>
      obtain rfl : (k, f e.cell) = entry := by simpa [hk, Layer.cell?] using hentry
      exact ⟨e.cell, List.mem_filterMap.2 ⟨_, hmem, rfl⟩, (if_pos hk).symm⟩
  · cases role with
    | relay r => simp [hk, Layer.cell?] at hentry
    | enforcer e =>
      obtain rfl : (k, e.cell) = entry := by simpa [hk, Layer.cell?] using hentry
      exact ⟨e.cell, List.mem_filterMap.2 ⟨_, hmem, rfl⟩, (if_neg hk).symm⟩

/-- Counting a call changes relays only, and no cell. -/
theorem mem_cellsOf_count {p : Passage} {id : Nat} {entry : Nat × Cell}
    (h : entry ∈ cellsOf (p.modifyRole id Role.countCall).layers) : entry ∈ cellsOf p.layers := by
  obtain ⟨layer, hlayer, hentry⟩ := List.mem_filterMap.1 h
  obtain ⟨⟨k, role⟩, hmem, rfl⟩ := List.mem_map.1 hlayer
  refine List.mem_filterMap.2 ⟨⟨k, role⟩, hmem, ?_⟩
  cases role with
  | relay r => by_cases hk : k = id <;> simp [hk, Layer.cell?, Role.countCall] at hentry
  | enforcer e => by_cases hk : k = id <;> simpa [hk, Layer.cell?, Role.countCall] using hentry

namespace Calm

variable {p : Passage}

/-- One more moment, at which the tables are as they are. -/
theorem note_of_calm {what : Happening} (hpast : ∀ m ∈ p.moments, m.Calm)
    (hcalm : Moment.Calm { what, cells := cellsOf p.layers }) :
    ∀ m ∈ (p.note what).moments, m.Calm := by
  intro m hm
  rcases List.mem_append.1 hm with hm | hm
  · exact hpast m hm
  · rwa [List.mem_singleton.1 hm]

/-- Writing a happening down keeps everything calm, since no cell changes. -/
theorem note (h : p.Calm) (what : Happening) : (p.note what).Calm :=
  ⟨h.now, note_of_calm h.past fun entry hentry => .inl (h.now entry hentry)⟩

/-- A look at a table gives back the hold that it takes, so that everything stays calm. -/
theorem look (h : p.Calm) (id : Nat) (model : ModelHandle) :
    (p.modifyCell id fun cell => (cell.look model).2).Calm := by
  refine ⟨fun entry hentry => ?_, h.past⟩
  obtain ⟨cell, hcell, heq⟩ := mem_cellsOf_modifyCell hentry
  have hrest := h.now _ hcell
  rw [Cell.look_of_atRest hrest, ite_self] at heq
  rw [heq]
  exact hrest

/-- A commit is written under an exclusive hold, and nobody but the log gets to know. -/
theorem commit (h : p.Calm) (id : Nat) (e : Enforcer) (c : Commit) : (p.commit id e c).Calm := by
  let written := p.modifyCell id fun cell => cell.write c
  have hheld : ∀ entry ∈ cellsOf written.layers, entry.2.AtRest ∨
      (entry.1 = id ∧ entry.2.hold = .exclusive ∧ entry.2.clashed = false) := by
    intro entry hentry
    obtain ⟨cell, hcell, heq⟩ := mem_cellsOf_modifyCell hentry
    have hrest := h.now _ hcell
    rw [heq]
    split
    · next hid => exact .inr ⟨hid, hrest.write c⟩
    · exact .inl hrest
  have hreleased : ∀ entry ∈ cellsOf (written.modifyCell id Cell.release).layers,
      entry.2.AtRest := by
    intro entry hentry
    obtain ⟨held, hmem, heq⟩ := mem_cellsOf_modifyCell hentry
    obtain ⟨cell, hcell, hwritten⟩ := mem_cellsOf_modifyCell hmem
    have hrest := h.now _ hcell
    dsimp only at hwritten
    rw [heq, hwritten]
    split
    · exact hrest.release_write c
    · exact hrest
  -- The warning, if there is one, is the only moment under the hold.
  unfold Passage.commit
  split
  · cases hrecord : Enforcer.commitRecord? e.cell.table c with
    | none => exact note ⟨hreleased, h.past⟩ (.commits id c)
    | some record =>
      have hwarns : (Happening.logs id record).Warns id := warns_of_commitRecord? hrecord id
      have hlogged : ∀ m ∈ (written.note (.logs id record)).moments, m.Calm := by
        refine note_of_calm h.past fun entry hentry => (hheld entry hentry).imp_right ?_
        rintro ⟨hid, hhold⟩
        exact ⟨hid ▸ hwarns, hhold⟩
      exact note (p := (written.note (.logs id record)).modifyCell id Cell.release)
        ⟨hreleased, hlogged⟩ (.commits id c)
  · exact h.note (.commits id c)

/-- **A turn leaves no table held.** The only hold that is out at an instant of a turn is the one
under which a commit is written, and nothing but the warning about a load happens under it. -/
theorem turn {p' : Passage} (hturn : p.Turn p') (h : p.Calm) : p'.Calm := by
  cases hturn with
  | @note what => exact h.note what
  | look id model => exact h.look id model
  | @commit id e c => exact h.commit id e c
  | count id => exact ⟨fun entry hentry => h.now entry (mem_cellsOf_count hentry), h.past⟩

end Calm
end Passage

namespace Stack

variable {s : Stack}

/-- The cells of a fresh stack are at rest. -/
theorem atRest_fresh (plans : List LayerPlan) :
    ∀ entry ∈ (fresh (layersOf plans).1).cells, entry.2.AtRest := by
  induction plans with
  | nil => exact fun entry hentry => absurd hentry List.not_mem_nil
  | cons plan plans ih =>
    intro entry hentry
    simp only [cells, fresh, layersOf_cons, cellsOf] at hentry
    cases plan with
    | relay plan =>
      rw [List.filterMap_cons_none rfl] at hentry
      exact ih entry hentry
    | enforcer plan =>
      rw [List.filterMap_cons_some (f := Layer.cell?) rfl, List.mem_cons] at hentry
      rcases hentry with rfl | hentry
      · exact ⟨rfl, rfl⟩
      · exact ih entry hentry

/-- **One move keeps the cells at rest,** and shows no clash at any of its moments.  A call and a
look write nothing at all; a reply and an event pass the layers one by one, and each of them gives
its hold back before it gives control away. -/
theorem calm_step (h : ∀ entry ∈ s.cells, entry.2.AtRest) (move : Move) :
    (∀ entry ∈ (s.step move).1.cells, entry.2.AtRest) ∧ ∀ m ∈ (s.step move).2, m.Calm := by
  have hstart : ({ layers := s.layers } : Passage).Calm :=
    ⟨h, fun m hm => absurd hm List.not_mem_nil⟩
  have hdone := (s.turns_step move).invariant Passage.Calm.turn hstart
  exact ⟨hdone.now, hdone.past⟩

/-- **In a run from a state in which no table is held,** none is held at any instant but by an
enforcer that warns about a load. -/
theorem calm_run (h : ∀ entry ∈ s.cells, entry.2.AtRest) (moves : List Move) :
    (∀ entry ∈ (s.run moves).1.cells, entry.2.AtRest) ∧ ∀ m ∈ (s.run moves).2, m.Calm := by
  induction moves generalizing s with
  | nil => exact ⟨h, fun m hm => absurd hm List.not_mem_nil⟩
  | cons move moves ih =>
    obtain ⟨hnext, hnow⟩ := calm_step h move
    obtain ⟨hlast, hlater⟩ := ih hnext
    rw [run_cons]
    refine ⟨hlast, fun m hm => ?_⟩
    exact (List.mem_append.1 hm).elim (hnow m) (hlater m)

/-- **No hold is ever asked for in vain,** for any layers and whatever the client and the
implementation do.  When a layer gives control away, no table is held; the only holds to be seen at
all are those of enforcers that warn about a load, each on its own table.  But for that, who asks
an enforcer for the state of a model is served at any instant, and leaves the table as it was. -/
theorem holds_never_clash (plans : List LayerPlan) (moves : List Move) :
    let out := (fresh (layersOf plans).1).run moves
    (∀ entry ∈ out.1.cells, entry.2.AtRest) ∧
    ∀ m ∈ out.2, ∀ entry ∈ m.cells,
      entry.2.clashed = false ∧
      (m.what.GivesControl → entry.2.hold = .free) ∧
      ((m.what.Warns entry.1 ∧ entry.2.hold = .exclusive) ∨
        (entry.2.hold = .free ∧ ∀ h, entry.2.look h = (entry.2.table.get? h, entry.2))) := by
  intro out
  obtain ⟨hlast, hcalm⟩ := calm_run (atRest_fresh plans) moves
  refine ⟨hlast, fun m hm entry hentry => ?_⟩
  rcases hcalm m hm entry hentry with hrest | ⟨hwarns, hhold, hclashed⟩
  · exact ⟨hrest.2, fun _ => hrest.1, .inr ⟨hrest.1, Cell.look_of_atRest hrest⟩⟩
  · exact ⟨hclashed, fun hgives => absurd hwarns (hgives.not_warns entry.1),
      .inl ⟨hwarns, hhold⟩⟩

/-- An event comes from within the call that starts its model, and the inner of two enforcers tells
its reporter.  Who asks it for the state of the model at that instant is told. -/
theorem holds_never_clash_within_start :
    let out := (fresh (layersOf [.enforcer {}, .enforcer { recorder := some "inner" }]).1).run
      [.call (.load (.generic {}) "client" 0), .reply (.handle 1), .call (.start 1 {} "client" 0),
        .event 0 (.generic { model := 1 } []) 0]
    let cell : Cell := { table := ModelTable.insert {} 1 .idle }
    ∃ m ∈ out.2, (∃ v, m.what = .reports 0 (.recorder "inner") v) ∧ (0, cell) ∈ m.cells ∧
      cell.hold = .free ∧ cell.look 1 = (some .idle, cell) := by
  intro out cell
  let m := out.2.get ⟨12, by decide⟩
  have hm : m ∈ out.2 := List.get_mem _ _
  have hwhat : m.what = .reports 0 (.recorder "inner")
      { kind := .recognition, model := 1, observed := some .idle, status := .success } := by decide
  have hentry : (0, cell) ∈ m.cells := by decide
  obtain ⟨-, hfree, hlook⟩ := (holds_never_clash _ _).2 m hm (0, cell) hentry
  have hgives : m.what.GivesControl := hwhat ▸ trivial
  refine ⟨m, hm, ⟨_, hwhat⟩, hentry, hfree hgives, ?_⟩
  rcases hlook with ⟨hwarns, -⟩ | ⟨-, hlook⟩
  · exact absurd hwarns (hgives.not_warns 0)
  · exact hlook 1

end Stack
end TriggerWatch
