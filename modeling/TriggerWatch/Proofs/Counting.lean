/-
# What relays have counted

A relay counts the calls that come to it, because its choice which calls to answer by itself may
depend on that.  A relay that passes every call on has no such choice.  So where all layers of a
stack do, the counts are nobody's business: stacks that differ in them alone do the same
(`Stack.Orderly.run_congr`).

Every operation on passages commutes with forgetting the counts.  Only the way down does not, since
it is there that relays count; but what it leaves behind is, but for the counts, a matter of the
numbers of the layers alone (`Descent.uncounted_foldl_enter`).
-/

import TriggerWatch.Proofs.Due

namespace TriggerWatch

/-- The same part, but no call has been counted. -/
def Role.uncounted : Role → Role
  | .enforcer e => .enforcer e
  | .relay r => .relay { r with seen := 0 }

/-- The same layer, but no call has been counted. -/
def Layer.uncounted (layer : Layer) : Layer := { layer with role := layer.role.uncounted }

/-- A call that is counted is forgotten with the others. -/
theorem Role.uncounted_countCall (role : Role) : role.countCall.uncounted = role.uncounted := by
  cases role <;> rfl

/-- Counts are forgotten once and for all. -/
@[simp] theorem Role.uncounted_uncounted (role : Role) :
    role.uncounted.uncounted = role.uncounted := by
  cases role <;> rfl

/-- The counts of all layers are forgotten once and for all. -/
@[simp] theorem map_uncounted_uncounted (layers : List Layer) :
    (layers.map Layer.uncounted).map Layer.uncounted = layers.map Layer.uncounted := by
  simp [Function.comp_def, Layer.uncounted]

/-- The cells of enforcers have nothing to do with counts. -/
@[simp] theorem cellsOf_uncounted (layers : List Layer) :
    cellsOf (layers.map Layer.uncounted) = cellsOf layers := by
  rw [cellsOf, cellsOf, List.filterMap_map]
  refine List.filterMap_congr fun layer _ => ?_
  obtain ⟨id, role⟩ := layer
  cases role <;> rfl

/-- Nor have the kinds of layers. -/
theorem kindsOf_uncounted (layers : List Layer) :
    kindsOf (layers.map Layer.uncounted) = kindsOf layers := by
  rw [kindsOf, kindsOf, List.map_map]
  refine List.map_congr_left fun layer _ => ?_
  obtain ⟨id, role⟩ := layer
  cases role <;> rfl

/-- A relay that passes every call on, whatever it has counted, does so without its count. -/
theorem forwards_uncounted {layers : List Layer} (h : ∀ layer ∈ layers, layer.role.Forwards) :
    ∀ layer ∈ layers.map Layer.uncounted, layer.role.Forwards := by
  intro layer hlayer
  obtain ⟨⟨id, role⟩, hmem, rfl⟩ := List.mem_map.1 hlayer
  have hforwards := h _ hmem
  cases role with
  | enforcer e => trivial
  | relay r => exact hforwards

/-! ### Passages -/

namespace Passage

/-- The same passage, but no call has been counted. -/
def uncounted (p : Passage) : Passage := { p with layers := p.layers.map Layer.uncounted }

/-- What happens is written down with the cells, so the counts do not show in it. -/
@[simp] theorem uncounted_note (p : Passage) (what : Happening) :
    (p.note what).uncounted = p.uncounted.note what := by
  simp [note, uncounted]

/-- The part of a layer, but for its count. -/
theorem role?_uncounted (p : Passage) (id : Nat) :
    p.uncounted.role? id = (p.role? id).map Role.uncounted := by
  simp only [role?, uncounted, List.find?_map, Option.map_map]
  rfl

/-- To change a cell, and to forget the counts, may be done in either order. -/
@[simp] theorem uncounted_modifyCell (p : Passage) (id : Nat) (f : Cell → Cell) :
    (p.modifyCell id f).uncounted = p.uncounted.modifyCell id f := by
  simp only [modifyCell, modifyRole, uncounted, List.map_map, mk.injEq, and_true]
  refine List.map_congr_left fun layer _ => ?_
  obtain ⟨k, role⟩ := layer
  by_cases hk : k = id <;> cases role <;> simp [Layer.uncounted, Role.uncounted, hk]

/-- That a call is counted does not show without the counts. -/
theorem uncounted_countCall (p : Passage) (id : Nat) :
    (p.modifyRole id Role.countCall).uncounted = p.uncounted := by
  simp only [modifyRole, uncounted, List.map_map, mk.injEq, and_true]
  refine List.map_congr_left fun layer _ => ?_
  by_cases hid : layer.id = id <;> simp [Layer.uncounted, Role.uncounted_countCall, hid]

/-- A commit is the same, whatever has been counted. -/
@[simp] theorem uncounted_commit (p : Passage) (id : Nat) (e : Enforcer) (c : Commit) :
    (p.commit id e c).uncounted = p.uncounted.commit id e c := by
  unfold commit
  split
  · split <;> simp
  · simp

/-- So is a report. -/
@[simp] theorem uncounted_report (p : Passage) (id : Nat) (reporter : Reporter) (v : Violation) :
    (p.report id reporter v).uncounted = p.uncounted.report id reporter v := by
  unfold report
  split <;> simp

/-- So is the way of an event past one enforcer. -/
@[simp] theorem uncounted_watch (p : Passage) (id : Nat) (e : Enforcer) (event : Event)
    (cookie : Int32) :
    (p.watch id e event cookie).uncounted = p.uncounted.watch id e event cookie := by
  unfold watch
  split <;> simp

/-- So is the way of an event past one layer. -/
theorem uncounted_rise (event : Event) (cookie : Int32) (p : Passage) (id : Nat) :
    (rise event cookie p id).uncounted = rise event cookie p.uncounted id := by
  unfold rise
  rw [role?_uncounted]
  cases p.role? id with
  | none => rfl
  | some role =>
    cases role with
    | enforcer e => exact uncounted_watch p id e event cookie
    | relay r => rfl

/-- **The way of an event up is the same, whatever has been counted.** -/
theorem uncounted_foldl_rise (event : Event) (cookie : Int32) (watchers : List Nat) (p : Passage) :
    (watchers.foldl (rise event cookie) p).uncounted =
      watchers.foldl (rise event cookie) p.uncounted :=
  (List.foldl_hom uncounted fun p id => (uncounted_rise event cookie p id).symm).symm

/-- A reply passes one layer in the same way, whatever has been counted. -/
theorem uncounted_settle {κ : Type} (request : Request κ) (pr : Passage × Reply) (id : Nat) :
    ((settle request pr id).1.uncounted, (settle request pr id).2) =
      settle request (pr.1.uncounted, pr.2) id := by
  unfold settle
  dsimp only
  rw [role?_uncounted]
  cases pr.1.role? id with
  | none => rfl
  | some role =>
    cases role with
    | enforcer e => cases request.commit? pr.2 <;> simp [Role.uncounted]
    | relay r => simp [Role.uncounted, Relay.tagReply]

/-- **The way of a reply up is the same, whatever has been counted,** and so is the reply. -/
theorem uncounted_foldl_settle {κ : Type} (request : Request κ) (ids : List Nat)
    (pr : Passage × Reply) :
    ((ids.foldl (settle request) pr).1.uncounted, (ids.foldl (settle request) pr).2) =
      ids.foldl (settle request) (pr.1.uncounted, pr.2) :=
  (List.foldl_hom (fun pr : Passage × Reply => (pr.1.uncounted, pr.2))
    fun pr id => (uncounted_settle request pr id).symm).symm

/-- The caller gets the same, whatever has been counted. -/
theorem uncounted_climb {κ : Type} (p : Passage) (request : Request κ) (reply : Reply)
    (ids : List Nat) :
    (p.climb request reply ids).uncounted = p.uncounted.climb request reply ids := by
  unfold climb
  rw [← uncounted_foldl_settle request ids (p, reply)]
  exact uncounted_note _ _

end Passage

/-! ### Calls on their way down -/

/-- A call comes to a layer that passes it on. -/
theorem Descent.enter_of_forwards {layer : Layer} (h : layer.role.Forwards) {d : Descent}
    (hd : d.swallowed = false) :
    (d.enter layer).swallowed = false ∧
      (d.enter layer).passage.uncounted =
        d.passage.uncounted.note (.enters layer.id d.request.bare) := by
  obtain ⟨id, role⟩ := layer
  unfold enter
  simp only [hd, Bool.false_eq_true, if_false]
  cases role with
  | enforcer e => exact ⟨rfl, Passage.uncounted_note _ _⟩
  | relay r =>
    dsimp only
    rw [Relay.swallowed?_of_forwards h]
    exact ⟨rfl, (Passage.uncounted_countCall _ id).trans (Passage.uncounted_note _ _)⟩

/-- **All that a call leaves behind is that it has come to each layer,** where it is passed on, but
for the counts. -/
theorem Descent.uncounted_foldl_enter {layers : List Layer}
    (h : ∀ layer ∈ layers, layer.role.Forwards) {d : Descent} (hd : d.swallowed = false) :
    (layers.foldl enter d).passage.uncounted =
      (layers.map Layer.id).foldl (fun p id => p.note (.enters id d.request.bare))
        d.passage.uncounted := by
  induction layers generalizing d with
  | nil => rfl
  | cons layer layers ih =>
    obtain ⟨hopen, hentered⟩ := enter_of_forwards (h layer List.mem_cons_self) hd
    have hbare : (d.enter layer).request.bare = d.request.bare := map_enter () d layer
    rw [List.foldl_cons, ih (fun l hl => h l (List.mem_cons_of_mem _ hl)) hopen, hentered, hbare]
    rfl

/-- A call leaves the same behind, whatever has been counted. -/
theorem descend_uncounted {layers : List Layer} (h : ∀ layer ∈ layers, layer.role.Forwards)
    (request : Request String) :
    (descend (layers.map Layer.uncounted) request).passage.uncounted =
      (descend layers request).passage.uncounted := by
  have hids : (layers.map Layer.uncounted).map Layer.id = layers.map Layer.id := by
    rw [List.map_map]
    rfl
  rw [descend, descend, Descent.uncounted_foldl_enter (forwards_uncounted h) rfl,
    Descent.uncounted_foldl_enter h rfl, hids]
  simp only [Passage.uncounted, map_uncounted_uncounted]

/-! ### Moves -/

namespace Stack

variable {s : Stack}

/-- The same stack, but no call has been counted. -/
def uncounted (s : Stack) : Stack := { s with layers := s.layers.map Layer.uncounted }

/-- The layers have the same numbers. -/
theorem ids_uncounted (s : Stack) :
    s.uncounted.layers.map Layer.id = s.layers.map Layer.id := by
  rw [uncounted, List.map_map]
  rfl

/-- The enforcers are the same. -/
theorem enforcersOf_uncounted (s : Stack) :
    enforcersOf s.uncounted.layers = enforcersOf s.layers :=
  enforcersOf_congr (kindsOf_uncounted s.layers)

/-- An orderly stack is orderly without its counts. -/
theorem Orderly.uncounted (h : s.Orderly) : s.uncounted.Orderly where
  nodup := by rw [ids_uncounted]; exact h.nodup
  forwards := forwards_uncounted h.forwards
  wired := fun callback hcallback => by
    rw [enforcersOf_uncounted]
    exact h.wired callback hcallback
  routed := fun request passed hframe => by
    rw [ids_uncounted]
    exact h.routed request passed hframe

/-- What comes of two moves is the same if their passages are, but for the counts. -/
theorem uncounted_congr {p p' : Passage} (h : p'.uncounted = p.uncounted)
    (issued : List Callback) (frames : List Frame) :
    ({ layers := p'.layers, issued, frames } : Stack).uncounted =
        ({ layers := p.layers, issued, frames } : Stack).uncounted ∧
      p'.moments = p.moments := by
  obtain ⟨hlayers, hmoments⟩ := Passage.mk.inj h
  simp only [uncounted, hlayers, hmoments, and_self]

/-- Stacks that differ in what has been counted have the same cells. -/
theorem cells_congr_uncounted {s' : Stack} (h : s'.uncounted = s.uncounted) :
    s'.cells = s.cells := by
  rw [cells, cells, ← cellsOf_uncounted s'.layers, ← cellsOf_uncounted s.layers]
  exact congrArg (cellsOf ·.layers) h

/-- The counts of a stack are forgotten once and for all. -/
theorem uncounted_uncounted (s : Stack) : s.uncounted.uncounted = s.uncounted := by
  simp only [uncounted, map_uncounted_uncounted]

/-- Two passages that begin with the same layers, but for the counts. -/
theorem uncounted_start (s : Stack) :
    ({ layers := s.uncounted.layers } : Passage).uncounted =
      ({ layers := s.layers } : Passage).uncounted := by
  simp only [Passage.uncounted, uncounted, map_uncounted_uncounted]

/-- The reaction to a call.  The call arrives below either way, since no relay answers it; here it
is needed that every call is passed on. -/
theorem Orderly.uncounted_call (h : s.Orderly) (request : Request String) :
    (s.uncounted.step (.call request)).1.uncounted = (s.step (.call request)).1.uncounted ∧
      (s.uncounted.step (.call request)).2 = (s.step (.call request)).2 := by
  cases hadmits : s.admits request with
  | false =>
    have hadmits' : s.uncounted.admits request = false := hadmits
    simp [Stack.step, onCall, hadmits, hadmits', uncounted_uncounted]
  | true =>
    have hadmits' : s.uncounted.admits request = true := hadmits
    have hdown : (descend s.uncounted.layers request).passage.uncounted =
        (descend s.layers request).passage.uncounted := descend_uncounted h.forwards request
    have hnoted : ∀ what, ((descend s.uncounted.layers request).passage.note what).uncounted =
        ((descend s.layers request).passage.note what).uncounted := fun what => by
      rw [Passage.uncounted_note, Passage.uncounted_note, hdown]
    rw [h.step_call hadmits, h.uncounted.step_call hadmits', ids_uncounted, enforcersOf_uncounted]
    exact uncounted_congr (hnoted _) _ _

/-- The reaction to a reply. -/
theorem uncounted_reply (s : Stack) (reply : Reply) :
    (s.uncounted.onReply reply).1.uncounted = (s.onReply reply).1.uncounted ∧
      (s.uncounted.onReply reply).2 = (s.onReply reply).2 := by
  have hframes : s.uncounted.frames = s.frames := rfl
  simp only [onReply, hframes]
  split
  · split
    · refine uncounted_congr ?_ _ _
      rw [Passage.uncounted_climb, Passage.uncounted_climb, uncounted_start]
    · exact ⟨s.uncounted_uncounted, rfl⟩
  · exact ⟨s.uncounted_uncounted, rfl⟩

/-- The reaction to an event. -/
theorem uncounted_event (s : Stack) (ticket : Nat) (event : Event) (cookie : Int32) :
    (s.uncounted.onEvent ticket event cookie).1.uncounted =
        (s.onEvent ticket event cookie).1.uncounted ∧
      (s.uncounted.onEvent ticket event cookie).2 = (s.onEvent ticket event cookie).2 := by
  have hissued : s.uncounted.issued = s.issued := rfl
  simp only [onEvent, hissued]
  split
  · refine uncounted_congr ?_ _ _
    rw [Passage.uncounted_note, Passage.uncounted_note, Passage.uncounted_foldl_rise,
      Passage.uncounted_foldl_rise, uncounted_start]
  · exact ⟨s.uncounted_uncounted, rfl⟩

/-- The reaction to a client's return. -/
theorem uncounted_finish (s : Stack) :
    s.uncounted.onFinish.1.uncounted = s.onFinish.1.uncounted ∧
      s.uncounted.onFinish.2 = s.onFinish.2 := by
  have hframes : s.uncounted.frames = s.frames := rfl
  simp only [onFinish, hframes]
  split
  · exact uncounted_congr s.uncounted_start _ _
  · exact ⟨s.uncounted_uncounted, rfl⟩

/-- The reaction to a question about a model, which is answered from a table. -/
theorem uncounted_look (s : Stack) (id : Nat) (k : ModelHandle) :
    (s.uncounted.onLook id k).1.uncounted = (s.onLook id k).1.uncounted ∧
      (s.uncounted.onLook id k).2 = (s.onLook id k).2 := by
  have hrole : ({ layers := s.uncounted.layers } : Passage).role? id =
      (({ layers := s.layers } : Passage).role? id).map Role.uncounted :=
    Passage.role?_uncounted { layers := s.layers } id
  simp only [onLook, hrole]
  cases ({ layers := s.layers } : Passage).role? id with
  | none => exact ⟨s.uncounted_uncounted, rfl⟩
  | some role =>
    cases role with
    | relay r => exact ⟨s.uncounted_uncounted, rfl⟩
    | enforcer e =>
      refine uncounted_congr ?_ _ _
      rw [Passage.uncounted_note, Passage.uncounted_note, Passage.uncounted_modifyCell,
        Passage.uncounted_modifyCell, uncounted_start]

/-- **A move does the same, whatever has been counted,** where every call is passed on. -/
theorem Orderly.step_uncounted (h : s.Orderly) (move : Move) :
    (s.uncounted.step move).1.uncounted = (s.step move).1.uncounted ∧
      (s.uncounted.step move).2 = (s.step move).2 := by
  cases move with
  | call request => exact h.uncounted_call request
  | reply reply => exact s.uncounted_reply reply
  | event ticket event cookie => exact s.uncounted_event ticket event cookie
  | finish => exact s.uncounted_finish
  | look id k => exact s.uncounted_look id k

/-- **Stacks that differ in what has been counted do the same,** where every call is passed on. -/
theorem Orderly.run_congr {s' : Stack} (h : s.Orderly) (h' : s'.Orderly)
    (heq : s'.uncounted = s.uncounted) (moves : List Move) :
    (s'.run moves).1.uncounted = (s.run moves).1.uncounted ∧
      (s'.run moves).2 = (s.run moves).2 := by
  induction moves generalizing s s' with
  | nil => exact ⟨heq, rfl⟩
  | cons move moves ih =>
    obtain ⟨hnext, hnow⟩ := h.step_uncounted move
    obtain ⟨hnext', hnow'⟩ := h'.step_uncounted move
    rw [heq] at hnext' hnow'
    obtain ⟨hlast, hlater⟩ := ih (h.step move) (h'.step move) (hnext'.symm.trans hnext)
    rw [run_cons, run_cons]
    exact ⟨hlast, congrArg₂ (· ++ ·) (hnow'.symm.trans hnow) hlater⟩

end Stack
end TriggerWatch
