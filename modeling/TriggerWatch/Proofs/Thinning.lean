/-
# Taking layers out

A `Thinning` takes some layers out of a stack and gives the others new numbers.  Whatever mentions
layers (the layers themselves, cells, callbacks, frames, moments) is thinned by forgetting what
belongs to the layers that are gone.

Every operation on passages commutes with that, as long as only enforcers are taken out, since an
enforcer neither changes nor withholds what passes it.  `Stack.step_thin` says so for moves: to take
the enforcers out before a move or after it is the same.
-/

import TriggerWatch.Proofs.Visit
import TriggerWatch.Proofs.Wiring

namespace TriggerWatch

/-- The new number of each layer that stays. -/
structure Thinning where
  place : Nat → Option Nat
  /-- No two layers get the same number. -/
  inj : ∀ {a b c : Nat}, place a = some c → place b = some c → a = b

/-- Takes out the layer with a number, and lets those above it move down. -/
def Thinning.dropping (k : Nat) : Thinning where
  place id := if id < k then some id else if id = k then none else some (id - 1)
  inj := by
    intro a b c ha hb
    split at ha <;> split at hb <;> simp at ha hb <;> omega

variable (r : Thinning)

/-! ### What is left of everything -/

/-- A layer under its new number, if it stays. -/
def Layer.thin (layer : Layer) : Option Layer :=
  (r.place layer.id).map fun id => { layer with id }

/-- What is left of the cells. -/
def thinCells (cells : List (Nat × Cell)) : List (Nat × Cell) :=
  cells.filterMap fun entry => (r.place entry.1).map fun id => (id, entry.2)

/-- The same callback, looked at by fewer layers. -/
def Callback.thin (callback : Callback) : Callback :=
  { callback with watchers := callback.watchers.filterMap r.place }

/-- What is left of a happening: one at a layer that is gone is forgotten. -/
def Happening.thin : Happening → Option Happening
  | .enters layer call => (r.place layer).map fun id => .enters id call
  | .swallows layer tag call => (r.place layer).map fun id => .swallows id tag call
  | .calls request => some (.calls request)
  | .returns layer call reply => (r.place layer).map fun id => .returns id call reply
  | .arrives layer event cookie => (r.place layer).map fun id => .arrives id event cookie
  | .reports layer reporter v => (r.place layer).map fun id => .reports id reporter v
  | .logs layer record => (r.place layer).map fun id => .logs id record
  | .commits layer c => (r.place layer).map fun id => .commits id c
  | .hands layer event cookie => (r.place layer).map fun id => .hands id event cookie
  | .notifies client event cookie => some (.notifies client event cookie)
  | .answers reply => some (.answers reply)
  | .looks layer h state => (r.place layer).map fun id => .looks id h state

/-- What is left of a moment. -/
def Moment.thin (m : Moment) : Option Moment :=
  (m.what.thin r).map fun what => { what, cells := thinCells r m.cells }

/-- What is left of a frame. -/
def Frame.thin : Frame → Frame
  | .call request passed => .call request (passed.filterMap r.place)
  | .callback client => .callback client

/-- What is left of a passage. -/
def Passage.thin (p : Passage) : Passage where
  layers := p.layers.filterMap (Layer.thin r)
  moments := p.moments.filterMap (Moment.thin r)

/-- What is left of a call on its way down. -/
def Descent.thin (d : Descent) : Descent where
  passage := d.passage.thin r
  request := d.request.map (Callback.thin r)
  passed := d.passed.filterMap r.place
  swallowed := d.swallowed

/-- What is left of a stack. -/
def Stack.thin (s : Stack) : Stack where
  layers := s.layers.filterMap (Layer.thin r)
  issued := s.issued.map (Callback.thin r)
  frames := s.frames.map (Frame.thin r)

variable {r}

/-- Only enforcers are taken out of these layers. -/
def Thinning.Spares (r : Thinning) (layers : List Layer) : Prop :=
  ∀ id, r.place id = none → (id, false) ∉ kindsOf layers

/-- The cells of the layers that are left are what is left of the cells. -/
theorem cellsOf_thin (layers : List Layer) :
    cellsOf (layers.filterMap (Layer.thin r)) = thinCells r (cellsOf layers) := by
  rw [cellsOf, cellsOf, thinCells, List.filterMap_filterMap, List.filterMap_filterMap]
  congr 1
  funext layer
  obtain ⟨id, role⟩ := layer
  cases role <;> cases hid : r.place id <;> simp [Layer.thin, Layer.cell?, hid]

/-- A layer that stays watches what is left of the callback, under its new number. -/
theorem Callback.thin_watchedBy_of_some {id id' : Nat} (hid : r.place id = some id')
    (callback : Callback) :
    (callback.watchedBy id).thin r = (callback.thin r).watchedBy id' := by
  simp [watchedBy, Callback.thin, hid]

/-- A layer that is gone watches nothing. -/
theorem Callback.thin_watchedBy_of_none {id : Nat} (hid : r.place id = none)
    (callback : Callback) : (callback.watchedBy id).thin r = callback.thin r := by
  simp [watchedBy, Callback.thin, hid]

/-! ### Passages -/

namespace Passage

variable {id : Nat} {p : Passage}

/-- What happens at a layer that stays happens at it under its new number. -/
theorem thin_note_of_some {what what' : Happening} (hw : what.thin r = some what') :
    (p.note what).thin r = (p.thin r).note what' := by
  simp [note, Passage.thin, Moment.thin, hw, cellsOf_thin]

/-- What happens at a layer that is gone does not happen. -/
theorem thin_note_of_none (hid : r.place id = none) {what : Happening}
    (hw : what.layer? = some id) : (p.note what).thin r = p.thin r := by
  have hgone : what.thin r = none := by
    cases what <;> simp_all [Happening.layer?, Happening.thin]
  simp [note, Passage.thin, Moment.thin, hgone]

/-- A layer that stays plays its part under its new number. -/
theorem role?_thin {id' : Nat} (hid : r.place id = some id') :
    (p.thin r).role? id' = p.role? id := by
  simp only [role?, Passage.thin]
  induction p.layers with
  | nil => rfl
  | cons layer layers ih =>
    by_cases hlayer : layer.id = id
    · simp [Layer.thin, hlayer, hid]
    · cases hplace : r.place layer.id with
      | none => simpa [Layer.thin, hplace, hlayer] using ih
      | some k =>
        have hk : k ≠ id' := fun heq => hlayer (r.inj hplace (heq ▸ hid))
        simpa [Layer.thin, hplace, hlayer, hk] using ih

/-- To change the part of a layer that stays, before or after, is the same: no other layer has its
new number. -/
theorem thin_modifyRole_of_some {id' : Nat} (hid : r.place id = some id') (f : Role → Role) :
    (p.modifyRole id f).thin r = (p.thin r).modifyRole id' f := by
  simp only [modifyRole, Passage.thin, List.filterMap_map, List.map_filterMap, mk.injEq, and_true]
  congr 1
  funext layer
  by_cases hlayer : layer.id = id
  · simp [Layer.thin, hlayer, hid]
  · cases hplace : r.place layer.id with
    | none => simp [Layer.thin, hplace, hlayer]
    | some k =>
      have hk : k ≠ id' := fun heq => hlayer (r.inj hplace (heq ▸ hid))
      simp [Layer.thin, hplace, hlayer, hk]

/-- To change the part of a layer that is gone changes nothing. -/
theorem thin_modifyRole_of_none (hid : r.place id = none) (f : Role → Role) :
    (p.modifyRole id f).thin r = p.thin r := by
  simp only [modifyRole, Passage.thin, List.filterMap_map, mk.injEq, and_true]
  congr 1
  funext layer
  by_cases hlayer : layer.id = id <;> simp [Layer.thin, hlayer, hid]

/-- A commit at a layer that stays is one under its new number. -/
theorem thin_commit_of_some {id' : Nat} (hid : r.place id = some id') (e : Enforcer) (c : Commit) :
    (p.commit id e c).thin r = (p.thin r).commit id' e c := by
  have hlogs : ∀ record, (Happening.logs id record).thin r = some (.logs id' record) := by
    simp [Happening.thin, hid]
  have hcommits : (Happening.commits id c).thin r = some (.commits id' c) := by
    simp [Happening.thin, hid]
  simp only [commit]
  split
  · rw [thin_note_of_some hcommits, modifyCell, thin_modifyRole_of_some hid]
    split
    · rw [thin_note_of_some (hlogs _), modifyCell, thin_modifyRole_of_some hid]
      rfl
    · rw [modifyCell, thin_modifyRole_of_some hid]
      rfl
  · exact thin_note_of_some hcommits

/-- Of a commit at a layer that is gone, nothing is left, the warning about a load included. -/
theorem thin_commit_of_none (hid : r.place id = none) (e : Enforcer) (c : Commit) :
    (p.commit id e c).thin r = p.thin r := by
  simp only [commit]
  split
  · rw [thin_note_of_none hid rfl, modifyCell, thin_modifyRole_of_none hid]
    split
    · rw [thin_note_of_none hid rfl, modifyCell, thin_modifyRole_of_none hid]
    · rw [modifyCell, thin_modifyRole_of_none hid]
  · exact thin_note_of_none hid rfl

/-- A report by a layer that stays is one under its new number. -/
theorem thin_report_of_some {id' : Nat} (hid : r.place id = some id') (reporter : Reporter)
    (v : Violation) : (p.report id reporter v).thin r = (p.thin r).report id' reporter v := by
  have hreports : (Happening.reports id reporter v).thin r = some (.reports id' reporter v) := by
    simp [Happening.thin, hid]
  simp only [report]
  split
  · next record _ =>
    have hlogs : (Happening.logs id record).thin r = some (.logs id' record) := by
      simp [Happening.thin, hid]
    rw [thin_note_of_some hlogs, thin_note_of_some hreports]
  · exact thin_note_of_some hreports

/-- Of a report by a layer that is gone, nothing is left, the record in the log included. -/
theorem thin_report_of_none (hid : r.place id = none) (reporter : Reporter) (v : Violation) :
    (p.report id reporter v).thin r = p.thin r := by
  simp only [report]
  split
  · rw [thin_note_of_none hid rfl, thin_note_of_none hid rfl]
  · exact thin_note_of_none hid rfl

/-- An event passes an enforcer that stays in the same way under its new number. -/
theorem thin_watch_of_some {id' : Nat} (hid : r.place id = some id') (e : Enforcer)
    (event : Event) (cookie : Int32) :
    (p.watch id e event cookie).thin r = (p.thin r).watch id' e event cookie := by
  have harrives : (Happening.arrives id event cookie).thin r =
      some (.arrives id' event cookie) := by
    simp [Happening.thin, hid]
  have hhands : (Happening.hands id event cookie).thin r = some (.hands id' event cookie) := by
    simp [Happening.thin, hid]
  have hlook : ∀ f : Cell → Cell, ((p.note (.arrives id event cookie)).modifyCell id f).thin r =
      ((p.thin r).note (.arrives id' event cookie)).modifyCell id' f := by
    intro f
    rw [modifyCell, thin_modifyRole_of_some hid, thin_note_of_some harrives]
    rfl
  simp only [watch]
  rw [thin_note_of_some hhands, thin_commit_of_some hid]
  split
  · rw [thin_report_of_some hid, hlook]
  · rw [hlook]

/-- An enforcer that is gone is not missed by the event. -/
theorem thin_watch_of_none (hid : r.place id = none) (e : Enforcer) (event : Event)
    (cookie : Int32) : (p.watch id e event cookie).thin r = p.thin r := by
  have hlook : ∀ f : Cell → Cell,
      ((p.note (.arrives id event cookie)).modifyCell id f).thin r = p.thin r := by
    intro f
    rw [modifyCell, thin_modifyRole_of_none hid, thin_note_of_none hid rfl]
  simp only [watch]
  rw [thin_note_of_none hid rfl, thin_commit_of_none hid]
  split
  · rw [thin_report_of_none hid, hlook]
  · rw [hlook]

/-- **An event passes what is left of its watchers,** with the same outcome but for the layers that
are gone.  No event is changed or withheld on its way up. -/
theorem thin_foldl_rise (event : Event) (cookie : Int32) (watchers : List Nat) (p : Passage) :
    (watchers.foldl (rise event cookie) p).thin r =
      (watchers.filterMap r.place).foldl (rise event cookie) (p.thin r) := by
  induction watchers generalizing p with
  | nil => rfl
  | cons id watchers ih =>
    rw [List.foldl_cons, ih]
    cases hid : r.place id with
    | none =>
      have hrise : (rise event cookie p id).thin r = p.thin r := by
        unfold rise
        split
        · exact thin_watch_of_none hid _ event cookie
        · rfl
      rw [List.filterMap_cons_none hid, hrise]
    | some id' =>
      have hrise : (rise event cookie p id).thin r = rise event cookie (p.thin r) id' := by
        simp only [rise, role?_thin hid]
        split
        · exact thin_watch_of_some hid _ event cookie
        · rfl
      rw [List.filterMap_cons_some hid, List.foldl_cons, hrise]

/-- A reply passes a layer that stays in the same way under its new number, and comes out the same
as before. -/
theorem thin_settle_of_some {κ : Type} {id' : Nat} (hid : r.place id = some id')
    (request : Request κ) (reply : Reply) :
    ((settle request (p, reply) id).1.thin r, (settle request (p, reply) id).2) =
      settle request (p.thin r, reply) id' := by
  have hreturns : (Happening.returns id request.bare reply).thin r =
      some (.returns id' request.bare reply) := by
    simp [Happening.thin, hid]
  simp only [settle, role?_thin hid]
  split
  · split
    · simp [thin_commit_of_some hid, thin_note_of_some hreturns]
    · simp [thin_note_of_some hreturns]
  · simp [thin_note_of_some hreturns]
  · rfl

/-- A reply passes an enforcer that is gone as it is. -/
theorem thin_settle_of_none {κ : Type} (hid : r.place id = none)
    (hrole : (id, false) ∉ kindsOf p.layers) (request : Request κ) (reply : Reply) :
    ((settle request (p, reply) id).1.thin r, (settle request (p, reply) id).2) =
      (p.thin r, reply) := by
  have hreturns : (p.note (.returns id request.bare reply)).thin r = p.thin r :=
    thin_note_of_none hid rfl
  simp only [settle]
  split
  · split
    · simp [thin_commit_of_none hid, hreturns]
    · simp [hreturns]
  · next relay hrelay => exact absurd (mem_kindsOf_of_role? hrelay) hrole
  · rfl

/-- **A reply passes what is left of its layers, and comes out the same.** Only enforcers are gone,
and an enforcer hands replies on as they are. -/
theorem thin_foldl_settle {κ : Type} (request : Request κ) (ids : List Nat)
    (pr : Passage × Reply) (h : r.Spares pr.1.layers) :
    ((ids.foldl (settle request) pr).1.thin r, (ids.foldl (settle request) pr).2) =
      (ids.filterMap r.place).foldl (settle request) (pr.1.thin r, pr.2) := by
  induction ids generalizing pr with
  | nil => rfl
  | cons id ids ih =>
    have hnext : r.Spares (settle request pr id).1.layers := by
      rw [Thinning.Spares, kindsOf_settle]
      exact h
    rw [List.foldl_cons, ih _ hnext]
    cases hid : r.place id with
    | none => rw [List.filterMap_cons_none hid, thin_settle_of_none hid (h id hid)]
    | some id' =>
      rw [List.filterMap_cons_some hid, List.foldl_cons, thin_settle_of_some hid]

/-- What the caller gets does not depend on the enforcers that are gone. -/
theorem thin_climb {κ : Type} (request : Request κ) (reply : Reply) (ids : List Nat)
    (h : r.Spares p.layers) :
    (p.climb request reply ids).thin r =
      (p.thin r).climb request reply (ids.filterMap r.place) := by
  have hanswers : ∀ given, (Happening.answers given).thin r = some (.answers given) :=
    fun _ => rfl
  rw [climb, climb, ← thin_foldl_settle request ids (p, reply) h, thin_note_of_some (hanswers _)]

/-- How a reply is taken does not depend on the callback that its call has brought. -/
theorem climb_map {κ κ' : Type} (f : κ → κ') (request : Request κ) (p : Passage) (reply : Reply)
    (ids : List Nat) : p.climb (request.map f) reply ids = p.climb request reply ids := by
  have hsettle : settle (request.map f) = settle request := by
    funext pr id
    simp only [settle, Request.bare_map, Request.commit?_map]
  rw [climb, climb, hsettle]

end Passage

/-! ### Calls on their way down -/

namespace Descent

/-- A call comes to a layer that stays in the same way under its new number. -/
theorem thin_enter_of_some {layer : Layer} {id' : Nat} (hid : r.place layer.id = some id')
    (d : Descent) : (d.enter layer).thin r = (d.thin r).enter { layer with id := id' } := by
  obtain ⟨p, request, passed, swallowed⟩ := d
  obtain ⟨id, role⟩ := layer
  have hid : r.place id = some id' := hid
  have henters : (p.note (.enters id request.bare)).thin r =
      (p.thin r).note (.enters id' request.bare) :=
    Passage.thin_note_of_some (by simp [Happening.thin, hid])
  cases swallowed with
  | true => rfl
  | false =>
    cases role with
    | enforcer e =>
      simp [enter, Descent.thin, henters, hid, Request.bare_map, Request.map_map,
        Function.comp_def, Callback.thin_watchedBy_of_some hid]
    | relay relay =>
      -- The callback has no say in whether the relay answers.
      have hswallowed : relay.swallowed? (request.map (Callback.thin r)) =
          relay.swallowed? request := by
        cases request <;> rfl
      have hswallows : ∀ tag call, (Happening.swallows id tag call).thin r =
          some (.swallows id' tag call) := by
        simp [Happening.thin, hid]
      simp only [enter, Descent.thin, Bool.false_eq_true, if_false, hswallowed, Request.bare_map]
      split
      · simp [Passage.thin_note_of_some (hswallows _ _), Passage.thin_modifyRole_of_some hid,
          henters]
      · simp [Passage.thin_modifyRole_of_some hid, henters, hid]

/-- A call passes an enforcer that is gone as it is. -/
theorem thin_enter_of_none {layer : Layer} (hid : r.place layer.id = none)
    (hrole : layer.role.isEnforcer = true) (d : Descent) : (d.enter layer).thin r = d.thin r := by
  obtain ⟨p, request, passed, swallowed⟩ := d
  obtain ⟨id, role⟩ := layer
  have hid : r.place id = none := hid
  have henters : (p.note (.enters id request.bare)).thin r = p.thin r :=
    Passage.thin_note_of_none hid rfl
  cases swallowed with
  | true => rfl
  | false =>
    cases role with
    | enforcer e =>
      simp [enter, Descent.thin, henters, hid, Request.map_map, Function.comp_def,
        Callback.thin_watchedBy_of_none hid]
    | relay relay => cases hrole

/-- **A call passes what is left of the layers,** and comes out the same but for the watchers of its
callback. -/
theorem thin_foldl_enter (layers : List Layer) (d : Descent) (h : r.Spares layers) :
    (layers.foldl enter d).thin r = (layers.filterMap (Layer.thin r)).foldl enter (d.thin r) := by
  induction layers generalizing d with
  | nil => rfl
  | cons layer layers ih =>
    have htail : r.Spares layers := fun id hid hmem => h id hid (List.mem_cons_of_mem _ hmem)
    rw [List.foldl_cons, ih _ htail]
    cases hid : r.place layer.id with
    | none =>
      have hrole : layer.role.isEnforcer = true := by
        cases hkind : layer.role.isEnforcer with
        | true => rfl
        | false => exact absurd (by simp [kindsOf, hkind]) (h layer.id hid)
      rw [thin_enter_of_none hid hrole, List.filterMap_cons_none (by simp [Layer.thin, hid])]
    | some id' =>
      rw [thin_enter_of_some hid, List.filterMap_cons_some (by simp [Layer.thin, hid]; rfl),
        List.foldl_cons]

end Descent

/-- **A call goes down through what is left as it went down before.** -/
theorem thin_descend (layers : List Layer) (request : Request String) (h : r.Spares layers) :
    (descend layers request).thin r = descend (layers.filterMap (Layer.thin r)) request := by
  rw [descend, Descent.thin_foldl_enter layers _ h, descend]
  congr 1
  simp [Descent.thin, Passage.thin, Request.map_map, Callback.thin, Function.comp_def]

/-! ### Moves -/

namespace Stack

variable {s : Stack}

/-- Whether a call is possible does not depend on the layers. -/
theorem admits_thin (s : Stack) (request : Request String) :
    (s.thin r).admits request = s.admits request := by
  obtain ⟨layers, issued, frames⟩ := s
  have hall : ∀ frames : List Frame,
      ((frames.map (Frame.thin r)).all fun
        | .call earlier _ => earlier.reads && request.reads
        | .callback _ => true) =
      frames.all fun
        | .call earlier _ => earlier.reads && request.reads
        | .callback _ => true := by
    intro frames
    induction frames with
    | nil => rfl
    | cons frame frames ih => cases frame <;> simp_all [Frame.thin]
  cases frames with
  | nil => rfl
  | cons frame frames =>
    cases frame with
    | call request passed => rfl
    | callback client => exact hall (.callback client :: frames)

/-- The reaction to a call, with the layers taken out before it or after it. -/
theorem onCall_thin (h : r.Spares s.layers) (request : Request String) :
    (s.thin r).onCall request =
      ((s.onCall request).1.thin r, (s.onCall request).2.filterMap (Moment.thin r)) := by
  have hspares : r.Spares (descend s.layers request).passage.layers := by
    rw [Thinning.Spares, kindsOf_descend]
    exact h
  have hdown : (descend s.layers request).thin r = descend (s.thin r).layers request :=
    thin_descend s.layers request h
  simp only [onCall, admits_thin]
  -- From here on it does not matter how the call has come down, only that it has come down alike.
  split
  · rfl
  · rw [← hdown]
    generalize descend s.layers request = d at hspares
    obtain ⟨p, given, passed, swallowed⟩ := d
    cases swallowed with
    | true =>
      have hclimb := Passage.thin_climb given .done passed hspares
      simp only [Descent.thin, if_true, Passage.climb_map, ← hclimb]
      rfl
    | false =>
      have hticketed : (given.map (Callback.thin r)).map (fun _ => (s.thin r).issued.length) =
          given.map fun _ => s.issued.length := by
        simp [Request.map_map, Stack.thin, Function.comp_def]
      have hcalls : ∀ ticketed, (Happening.calls ticketed).thin r = some (.calls ticketed) :=
        fun _ => rfl
      simp only [Descent.thin, Bool.false_eq_true, if_false, hticketed, Request.callback?_map,
        ← Passage.thin_note_of_some (hcalls _)]
      cases given.callback? <;> simp [Stack.thin, Passage.thin, Frame.thin]

/-- The reaction to a reply, with the layers taken out before it or after it. -/
theorem onReply_thin (h : r.Spares s.layers) (reply : Reply) :
    (s.thin r).onReply reply =
      ((s.onReply reply).1.thin r, (s.onReply reply).2.filterMap (Moment.thin r)) := by
  obtain ⟨layers, issued, frames⟩ := s
  cases frames with
  | nil => rfl
  | cons frame frames =>
    cases frame with
    | callback client => rfl
    | call request passed =>
      have hstart : ({ layers } : Passage).thin r = { layers := layers.filterMap (Layer.thin r) } :=
        rfl
      have hclimb := Passage.thin_climb (p := { layers }) request reply passed h
      simp only [onReply, Stack.thin, List.map_cons, Frame.thin]
      split
      · rw [← hstart, ← hclimb]
        rfl
      · rfl

/-- The reaction to an event, with the layers taken out before it or after it. -/
theorem onEvent_thin (s : Stack) (ticket : Nat) (event : Event) (cookie : Int32) :
    (s.thin r).onEvent ticket event cookie =
      ((s.onEvent ticket event cookie).1.thin r,
        (s.onEvent ticket event cookie).2.filterMap (Moment.thin r)) := by
  have hissued : (s.thin r).issued[ticket]? = s.issued[ticket]?.map (Callback.thin r) := by
    simp [Stack.thin]
  simp only [onEvent, hissued]
  cases s.issued[ticket]? with
  | none => rfl
  | some callback =>
    have hrise := Passage.thin_foldl_rise (r := r) event cookie callback.watchers
      { layers := s.layers }
    have hnotifies : (Happening.notifies callback.client event cookie).thin r =
      some (.notifies callback.client event cookie) := rfl
    have hstart : ({ layers := s.layers } : Passage).thin r = { layers := (s.thin r).layers } := rfl
    simp only [Option.map_some, Callback.thin, ← hstart, ← hrise,
      ← Passage.thin_note_of_some hnotifies]
    rfl

/-- **To take enforcers out before a move or after it is the same.** -/
theorem step_thin (h : r.Spares s.layers) {move : Move}
    (hmove : ∀ id model, move ≠ .look id model) :
    (s.thin r).step move =
      ((s.step move).1.thin r, (s.step move).2.filterMap (Moment.thin r)) := by
  cases move with
  | call request => exact onCall_thin h request
  | reply reply => exact onReply_thin h reply
  | event ticket event cookie => exact onEvent_thin s ticket event cookie
  | finish =>
    obtain ⟨layers, issued, frames⟩ := s
    rcases frames with _ | ⟨_ | _, frames⟩ <;> rfl
  | look id model => exact absurd rfl (hmove id model)

end Stack
end TriggerWatch
