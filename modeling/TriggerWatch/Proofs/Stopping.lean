/-
# Stopping all models, and stopping each

To stop all models makes every tracked model idle in one pass.  To stop the models of a list makes
each of them idle that is tracked, one after the other.  If the list misses no tracked model, the
two come to the same table, whatever the order, the repetitions and the untracked models on the list
(`ModelTable.foldl_replace_eq_idleAll`): a model that is on the list is idle afterwards if it is
tracked, by induction on the list, and tables that answer alike are equal.

An enforcer acts by its table and by what comes to it.  So the two ways to stop are the same to it
from then on, and in a stack whose layers pass every call on they are the same to everybody
(`Stack.stop_at_once_eq_one_by_one`).
-/

import TriggerWatch.Proofs.Counting
import TriggerWatch.Proofs.Failure
import TriggerWatch.Proofs.Reentrance

namespace TriggerWatch

/-! ### Tables -/

namespace ModelTable

/-- The models that are tracked, in the order of their handles. -/
def tracked (t : ModelTable) : List ModelHandle := t.entries.map Prod.fst

/-- The tracked handles are those for which the table has an answer. -/
theorem mem_tracked {t : ModelTable} {h : ModelHandle} : h ∈ t.tracked ↔ t.get? h ≠ none := by
  obtain ⟨es, hs⟩ := t
  simp only [tracked, get?]
  clear hs
  induction es with
  | nil => simp [lookup]
  | cons e es ih =>
    by_cases he : h = e.1
    · simp [lookup, he]
    · simpa [lookup, he] using ih

/-- Changing states changes nothing about which models are tracked. -/
@[simp] theorem tracked_mapStates (t : ModelTable) (f : ModelHandle → ModelState → ModelState) :
    (t.mapStates f).tracked = t.tracked := by
  simp [tracked, mapStates]

/-- Replacing a state changes nothing about which models are tracked. -/
@[simp] theorem tracked_replace (t : ModelTable) (h : ModelHandle) (s : ModelState) :
    (t.replace h s).tracked = t.tracked :=
  tracked_mapStates t _

/-- Making everything idle changes nothing about which models are tracked. -/
@[simp] theorem tracked_idleAll (t : ModelTable) : t.idleAll.tracked = t.tracked :=
  tracked_mapStates t _

/-- Nor do several replacements, one after the other. -/
theorem tracked_foldl_replace (t : ModelTable) (hs : List ModelHandle) (s : ModelState) :
    (hs.foldl (fun u h => u.replace h s) t).tracked = t.tracked := by
  induction hs generalizing t with
  | nil => rfl
  | cons h hs ih => rw [List.foldl_cons, ih, tracked_replace]

/-- Models that are given one state one after the other have that state if they are tracked. -/
theorem get?_foldl_replace (t : ModelTable) (hs : List ModelHandle) (s : ModelState)
    (k : ModelHandle) :
    (hs.foldl (fun u h => u.replace h s) t).get? k =
      (t.get? k).map fun old => if k ∈ hs then s else old := by
  induction hs generalizing t with
  | nil => simp
  | cons h hs ih =>
    rw [List.foldl_cons, ih, get?_replace, Option.map_map]
    congr 1
    funext old
    by_cases hk : k = h <;> by_cases hmem : k ∈ hs <;> simp [hk, hmem]

/-- **To make each model of a list idle is to make all idle,** if no tracked model is missing. -/
theorem foldl_replace_eq_idleAll {t : ModelTable} {hs : List ModelHandle} (h : t.tracked ⊆ hs) :
    hs.foldl (fun u h => u.replace h .idle) t = t.idleAll := by
  refine ext_get? fun k => ?_
  rw [get?_foldl_replace, get?_idleAll]
  cases hk : t.get? k with
  | none => rfl
  | some old =>
    have hmem : k ∈ hs := h (mem_tracked.2 (hk ▸ Option.some_ne_none old))
    rw [Option.map_some, Option.map_some, if_pos hmem]

/-- The commits of stops are replacements, one after the other. -/
theorem commitAll_map_stopped (t : ModelTable) (hs : List ModelHandle) :
    t.commitAll (hs.map .stopped) = hs.foldl (fun u h => u.replace h .idle) t := by
  rw [commitAll, List.foldl_map]
  rfl

end ModelTable

/-! ### Stacks with one table -/

/-- A part without its state: where an enforcer reports to, or a relay that has counted no call. -/
def Role.stateless : Role → Reporter ⊕ Relay
  | .enforcer e => .inl e.reporter
  | .relay r => .inr { r with seen := 0 }

/-- The part with the table `t`, if it is an enforcer. -/
def roleWith (t : ModelTable) : Reporter ⊕ Relay → Role
  | .inl reporter => .enforcer { reporter, cell := { table := t } }
  | .inr r => .relay r

/-- Being stateless lasts: neither a call that is counted nor a change of a cell gives a layer a
state of its own. -/
theorem lasting_stateless : Lasting Role.stateless :=
  ⟨fun _ _ => rfl, fun role => by cases role <;> rfl⟩

namespace Stack

variable {s : Stack} {t : ModelTable}

/-- **Layers are known by their parts and their table,** but for what relays have counted. -/
theorem Even.map_uncounted (h : s.Even t) (hs : s.Threaded) :
    s.layers.map Layer.uncounted = (viewOf Role.stateless s.layers).map fun entry =>
      { id := entry.1, role := roleWith t entry.2 } := by
  rw [viewOf, List.map_map]
  refine List.map_congr_left fun layer hlayer => ?_
  have hown := roleAt?_of_mem hs.nodup hlayer
  obtain ⟨id, role⟩ := layer
  cases role with
  | relay r => rfl
  | enforcer e =>
    obtain ⟨reporter, hrole⟩ := h.role? (mem_enforcersOf.2 (List.mem_map.2 ⟨_, hlayer, rfl⟩))
    obtain rfl : e = { reporter, cell := { table := t } } :=
      Role.enforcer.inj (Option.some.inj (hown.symm.trans hrole))
    rfl

/-- **Two runs that come to one table lead to one stack,** but for what relays have counted, if they
leave the same under way and have given out the same callbacks. -/
theorem Even.uncounted_run_congr (h : s.Even t) (hs : s.Orderly) {moves moves' : List Move}
    (htables : t.commitAll (s.due moves') = t.commitAll (s.due moves))
    (hissued : (s.run moves').1.issued = (s.run moves).1.issued)
    (hframes : (s.run moves').1.frames = (s.run moves).1.frames) :
    (s.run moves').1.uncounted = (s.run moves).1.uncounted := by
  have hafter' := h.run hs moves'
  rw [htables] at hafter'
  have hlayers : (s.run moves').1.layers.map Layer.uncounted =
      (s.run moves).1.layers.map Layer.uncounted := by
    rw [hafter'.map_uncounted (hs.run moves').threaded,
      (h.run hs moves).map_uncounted (hs.run moves).threaded,
      viewOf_run lasting_stateless, viewOf_run lasting_stateless]
  exact Stack.ext hlayers hissued hframes

/-- **An enforcer acts by its table and by what comes to it,** in whatever stack it is. -/
theorem Has.run_congr {s' : Stack} {id : Nat} {reporter : Reporter} (h : s.Has id reporter t)
    (h' : s'.Has id reporter t) {moves moves' : List Move}
    (hvisits : visits id (s.run moves).2 = visits id (s'.run moves').2) :
    account id (s.run moves).2 = account id (s'.run moves').2 ∧
      (s.run moves).1.table? id = (s'.run moves').1.table? id := by
  obtain ⟨haccount, hafter⟩ := run_chronicle h moves
  obtain ⟨haccount', hafter'⟩ := run_chronicle h' moves'
  rw [hvisits] at haccount hafter
  exact ⟨haccount.trans haccount'.symm, hafter.table?.trans hafter'.table?.symm⟩

/-! ### Calls that are answered at once -/

/-- **Calls that bring no callback, and are answered at once,** leave nothing behind but what the
enforcers write down. -/
theorem run_exchanges (hs : s.Orderly) (hbusy : s.busy = false)
    {calls : List (Request String × Reply)}
    (haccepts : ∀ call ∈ calls, call.1.accepts call.2 = true)
    (hbare : ∀ call ∈ calls, call.1.callback? = none) :
    (s.run (exchanges calls)).1.frames = s.frames ∧ (s.run (exchanges calls)).1.issued = s.issued ∧
      s.due (exchanges calls) = calls.filterMap fun call => call.1.commit? call.2 := by
  induction calls generalizing s with
  | nil => exact ⟨rfl, rfl, rfl⟩
  | cons call calls ih =>
    obtain ⟨request, reply⟩ := call
    let exchange : List Move := [.call request, .reply reply]
    have hadmits := admits_of_not_busy hbusy request
    have hcall := hs.step_call hadmits
    have hframes : (s.run exchange).1.frames = s.frames :=
      (contains_exchange hs hadmits (haccepts _ List.mem_cons_self)).2
    have hcalled : (s.step (.call request)).1.issued = s.issued := by
      rw [hcall, hbare _ List.mem_cons_self]
      exact List.append_nil _
    have hissued : (s.run exchange).1.issued = s.issued := (issued_reply _ reply).trans hcalled
    have hdue : s.due exchange = (request.commit? reply).toList := by
      simp [exchange, due, due?, hcall, Request.commit?_map]
    obtain ⟨hframes', hissued', hdue'⟩ := ih (hs.run exchange) (busy_congr hframes ▸ hbusy)
      (fun call hcall => haccepts call (List.mem_cons_of_mem _ hcall))
      (fun call hcall => hbare call (List.mem_cons_of_mem _ hcall))
    rw [show exchanges ((request, reply) :: calls) = exchange ++ exchanges calls from rfl,
      run_append, due_append, hdue, hdue']
    refine ⟨hframes'.trans hframes, hissued'.trans hissued, ?_⟩
    cases hcommit : request.commit? reply <;> simp [hcommit]

/-! ### Two ways to stop -/

/-- The client stops all models, and is told that it is done. -/
def stopAtOnce : List Move := exchanges [(.stopAll, .done)]

/-- The client stops some models, one after the other, and is told each time that it is done. -/
def stopOneByOne (handles : List ModelHandle) : List Move :=
  exchanges (handles.map fun h => (.stop h, .done))

variable {handles : List ModelHandle}

/-- Stopping everything at once leaves everything under way as it was, and one commit is due. -/
theorem run_stopAtOnce (hs : s.Orderly) (hbusy : s.busy = false) :
    (s.run stopAtOnce).1.frames = s.frames ∧ (s.run stopAtOnce).1.issued = s.issued ∧
      s.due stopAtOnce = [.stoppedAll] :=
  run_exchanges hs hbusy (by simp [Request.accepts]) (by simp [Request.callback?])

/-- So does stopping one model after the other, and there the stops are due, in this order. -/
theorem run_stopOneByOne (hs : s.Orderly) (hbusy : s.busy = false) (handles : List ModelHandle) :
    (s.run (stopOneByOne handles)).1.frames = s.frames ∧
      (s.run (stopOneByOne handles)).1.issued = s.issued ∧
      s.due (stopOneByOne handles) = handles.map .stopped := by
  have hstops : ∀ call ∈ handles.map fun h => ((.stop h, .done) : Request String × Reply),
      call.1.accepts call.2 = true ∧ call.1.callback? = none := by
    intro call hcall
    obtain ⟨h, -, rfl⟩ := List.mem_map.1 hcall
    exact ⟨rfl, rfl⟩
  obtain ⟨hframes, hissued, hdue⟩ := run_exchanges hs hbusy
    (fun call hcall => (hstops call hcall).1) (fun call hcall => (hstops call hcall).2)
  refine ⟨hframes, hissued, hdue.trans ?_⟩
  rw [List.filterMap_map]
  exact congrFun List.filterMap_eq_map handles

/-- **Both ways to stop lead to one stack,** but for what relays have counted. -/
theorem Even.uncounted_stops (h : s.Even t) (hs : s.Orderly) (hbusy : s.busy = false)
    (htracked : t.tracked ⊆ handles) :
    (s.run stopAtOnce).1.uncounted = (s.run (stopOneByOne handles)).1.uncounted := by
  obtain ⟨hframes, hissued, hdue⟩ := run_stopAtOnce hs hbusy
  obtain ⟨hframes', hissued', hdue'⟩ := run_stopOneByOne hs hbusy handles
  refine h.uncounted_run_congr hs ?_ (hissued.trans hissued'.symm) (hframes.trans hframes'.symm)
  rw [hdue, hdue', ModelTable.commitAll_map_stopped, ModelTable.foldl_replace_eq_idleAll htracked]
  rfl

/-- In a stack without enforcers, the table that its enforcers have may be any. -/
theorem Even.exists_tracked_subset (h : s.Even t)
    (hhandles : ∀ id ∈ enforcersOf s.layers, ∀ u, s.table? id = some u → u.tracked ⊆ handles) :
    ∃ u, s.Even u ∧ u.tracked ⊆ handles := by
  cases hids : enforcersOf s.layers with
  | nil => exact ⟨{}, fun id hid => absurd (hids ▸ hid) List.not_mem_nil, List.nil_subset _⟩
  | cons id ids =>
    have hid : id ∈ enforcersOf s.layers := hids ▸ List.mem_cons_self
    exact ⟨t, h, hhandles id hid t (h.table? hid)⟩

/-- **To stop all models is as good as to stop each,** if the list of those that are stopped misses
no tracked model, in whatever order, with repetitions and with models that are not tracked.

The tables are the same, and neither way changes which models are tracked.  So an enforcer, with any
layers around it, that has written down the one or the other and nothing else (no event has come
meanwhile) does the same later on, if the same comes to it: its reports, its records and its table
are the same.  And if all layers of a stack pass every call on, the same moves do the same later,
whatever the client and the implementation do: each moment is the same, with all tables. -/
theorem stop_at_once_eq_one_by_one (handles : List ModelHandle) :
    (∀ t : ModelTable,
      (t.tracked ⊆ handles → handles.foldl (fun u h => u.replace h .idle) t = t.idleAll) ∧
      (handles.foldl (fun u h => u.replace h .idle) t).tracked = t.tracked ∧
      t.idleAll.tracked = t.tracked) ∧
    (∀ (outer : List LayerPlan) (plan : EnforcerPlan) (inner : List LayerPlan)
        (moves atOnce oneByOne : List Move),
      let id := inner.length
      let s := ((fresh (layersOf (outer ++ .enforcer plan :: inner)).1).run moves).1
      let all := s.run atOnce
      let each := s.run oneByOne
      (∀ t, s.table? id = some t → t.tracked ⊆ handles) →
      commits id all.2 = [.stoppedAll] → commits id each.2 = handles.map .stopped →
      ∀ later later', visits id (all.1.run later).2 = visits id (each.1.run later').2 →
        account id (all.1.run later).2 = account id (each.1.run later').2 ∧
        (all.1.run later).1.table? id = (each.1.run later').1.table? id) ∧
    ∀ (plans : List LayerPlan) (moves : List Move), (∀ plan ∈ plans, plan.Forwards) →
      let enforcers := enforcersOf (layersOf plans).1
      let s := ((fresh (layersOf plans).1).run moves).1
      let all := s.run stopAtOnce
      let each := s.run (stopOneByOne handles)
      s.busy = false → (∀ id ∈ enforcers, ∀ t, s.table? id = some t → t.tracked ⊆ handles) →
      (∀ id ∈ enforcers, commits id all.2 = [.stoppedAll] ∧
        commits id each.2 = handles.map .stopped) ∧
      ∀ later, (all.1.run later).2 = (each.1.run later).2 ∧
        (all.1.run later).1.cells = (each.1.run later).1.cells := by
  refine ⟨fun t => ⟨ModelTable.foldl_replace_eq_idleAll, t.tracked_foldl_replace handles .idle,
    t.tracked_idleAll⟩, ?_, ?_⟩
  · intro outer plan inner moves atOnce oneByOne id s all each hhandles hall heach later later'
    have hhas : s.Has id plan.reporter _ := (run_chronicle (has_fresh outer plan inner) moves).2
    have hafter := (run_chronicle hhas atOnce).has
    have hafter' := (run_chronicle hhas oneByOne).has
    rw [hall] at hafter
    rw [heach, ModelTable.commitAll_map_stopped,
      ModelTable.foldl_replace_eq_idleAll (hhandles _ hhas.table?)] at hafter'
    exact hafter.run_congr hafter'
  · intro plans moves hplans enforcers s all each hbusy hhandles
    obtain ⟨hs, henforcers, u, hu⟩ := exists_even hplans moves
    change enforcersOf s.layers = enforcers at henforcers
    obtain ⟨t, heven, htracked⟩ := hu.exists_tracked_subset (henforcers ▸ hhandles)
    refine ⟨fun id hid => ?_, fun later => ?_⟩
    · obtain ⟨reporter, hhas⟩ := heven id (henforcers ▸ hid)
      exact ⟨(hhas.run_due hs _).1.trans (run_stopAtOnce hs hbusy).2.2,
        (hhas.run_due hs _).1.trans (run_stopOneByOne hs hbusy handles).2.2⟩
    · obtain ⟨hlast, hmoments⟩ :=
        (hs.run _).run_congr (hs.run _) (heven.uncounted_stops hs hbusy htracked) later
      exact ⟨hmoments, cells_congr_uncounted hlast⟩

/-- Two enforcers with a relay in between, and two models that are armed: the list of those to be
stopped has them in another order, one of them twice, and a model that is not tracked.  Either way
both enforcers report the event that comes later. -/
theorem stop_at_once_eq_one_by_one_shuffled :
    let handles : List ModelHandle := [2, 7, 1, 2]
    let t : ModelTable := ModelTable.insert (ModelTable.insert {} 1 .armed) 2 .armed
    let plans : List LayerPlan :=
      [.enforcer { recorder := some "outer" }, .relay { tag := "relay" }, .enforcer {}]
    let s := ((fresh (layersOf plans).1).run
      [.call (.load (.generic {}) "client" 0), .reply (.handle 1),
        .call (.load (.generic {}) "client" 0), .reply (.handle 2),
        .call (.start 1 {} "client" 0), .reply .done,
        .call (.start 2 {} "client" 0), .reply .done]).1
    let all := s.run stopAtOnce
    let each := s.run (stopOneByOne handles)
    let later : List Move := [.event 3 (.generic { model := 2 } []) 7]
    let later' : List Move := .look 2 1 :: later
    (t.tracked ⊆ handles ∧ handles.foldl (fun u h => u.replace h .idle) t = t.idleAll) ∧
    (s.table? 0 = some t ∧ commits 0 all.2 = [.stoppedAll] ∧
      commits 0 each.2 = handles.map .stopped ∧
      visits 0 (all.1.run later).2 = visits 0 (each.1.run later').2 ∧
      account 0 (all.1.run later).2 = account 0 (each.1.run later').2) ∧
    (∀ plan ∈ plans, plan.Forwards) ∧ s.busy = false ∧ s.table? 2 = some t ∧
      (all.1.run later).2 = (each.1.run later).2 ∧
      violations (each.1.run later).2 = [0, 2].map fun id => (id,
        { kind := .recognition, model := 2, observed := some .idle, status := .success }) := by
  intro handles t plans s all each later later'
  have htracked : t.tracked ⊆ handles := by decide
  have htable : ∀ id ∈ [0, 2], s.table? id = some t := by decide
  have hhandles : ∀ id ∈ [0, 2], ∀ u, s.table? id = some u → u.tracked ⊆ handles := by
    intro id hid u hu
    obtain rfl : t = u := Option.some.inj ((htable id hid).symm.trans hu)
    exact htracked
  have hplans : ∀ plan ∈ plans, plan.Forwards := by
    simp [plans, LayerPlan.Forwards, LayerPlan.role, Role.Forwards]
  have hbusy : s.busy = false := by decide
  have hcommits : commits 0 all.2 = [.stoppedAll] := by decide
  have hcommits' : commits 0 each.2 = handles.map .stopped := by decide
  have hvisits : visits 0 (all.1.run later).2 = visits 0 (each.1.run later').2 := by decide
  obtain ⟨htables, henforcer, hstack⟩ := stop_at_once_eq_one_by_one handles
  have haccount := (henforcer [.enforcer { recorder := some "outer" }, .relay { tag := "relay" }] {}
    [] _ stopAtOnce (stopOneByOne handles) (hhandles 0 (by decide)) hcommits hcommits' later later'
    hvisits).1
  have hlater := ((hstack plans _ hplans hbusy hhandles).2 later).1
  exact ⟨⟨htracked, (htables t).1 htracked⟩,
    ⟨htable 0 (by decide), hcommits, hcommits', hvisits, haccount⟩,
    hplans, hbusy, htable 2 (by decide), hlater, by decide⟩

end Stack
end TriggerWatch
