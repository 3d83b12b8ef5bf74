/-
# How a stack is wired

What the layers are never changes during a run (`Stack.viewOf_run`): each keeps its number, and an
enforcer stays an enforcer (`Stack.kindsOf_run`).  Every callback that has come out below a stack is
looked at by each of its enforcers once, the innermost first (`Stack.wired_run`), and the reply to
every call that has come out passes all layers (`Stack.routed_step`).
-/

import Mathlib.Data.List.Nodup
import TriggerWatch.Stack.Assembly
import TriggerWatch.Stack.Basic

namespace TriggerWatch

/-- Tells whether a part is that of an enforcer. -/
def Role.isEnforcer : Role → Bool
  | .enforcer _ => true
  | .relay _ => false

/-- The number of each layer, and whether it is an enforcer. -/
def kindsOf (layers : List Layer) : List (Nat × Bool) :=
  layers.map fun layer => (layer.id, layer.role.isEnforcer)

/-- The numbers of the enforcers, the innermost first. -/
def enforcersOf (layers : List Layer) : List Nat :=
  (((kindsOf layers).filter Prod.snd).map Prod.fst).reverse

/-- The enforcers are known from the kinds of the layers. -/
theorem enforcersOf_congr {layers layers' : List Layer} (h : kindsOf layers = kindsOf layers') :
    enforcersOf layers = enforcersOf layers' := by
  rw [enforcersOf, enforcersOf, h]

/-- A layer on top comes last among the enforcers, if it is one. -/
theorem enforcersOf_cons (layer : Layer) (layers : List Layer) :
    enforcersOf (layer :: layers) =
      enforcersOf layers ++ if layer.role.isEnforcer then [layer.id] else [] := by
  cases h : layer.role.isEnforcer <;> simp [enforcersOf, kindsOf, h]

/-- An enforcer is a layer of that kind. -/
theorem mem_enforcersOf {layers : List Layer} {id : Nat} :
    id ∈ enforcersOf layers ↔ (id, true) ∈ kindsOf layers := by
  simp [enforcersOf]

/-- No enforcer is numbered twice if no layer is. -/
theorem nodup_enforcersOf {layers : List Layer} (h : (layers.map Layer.id).Nodup) :
    (enforcersOf layers).Nodup := by
  have hids : (kindsOf layers).map Prod.fst = layers.map Layer.id := by
    simp [kindsOf]
  exact List.nodup_reverse.2 (h.sublist (hids ▸ List.filter_sublist.map Prod.fst))

/-- Where an element stands in a list that has each element once. -/
theorem exists_split_of_mem {ids : List Nat} {id : Nat} (hnodup : ids.Nodup) (hid : id ∈ ids) :
    ∃ before after, ids = before ++ id :: after ∧ id ∉ before ∧ id ∉ after := by
  obtain ⟨before, after, rfl⟩ := List.append_of_mem hid
  rw [List.nodup_middle, List.nodup_cons, List.mem_append, not_or] at hnodup
  exact ⟨before, after, rfl, hnodup.1⟩

/-- A renamed callback is the callback of the renamed request. -/
theorem Request.callback?_map {κ κ' : Type} (f : κ → κ') (request : Request κ) :
    (request.map f).callback? = request.callback?.map f := by
  cases request <;> rfl

/-- Callbacks renamed twice are renamed once. -/
theorem Request.map_map {κ κ' κ'' : Type} (f : κ → κ') (g : κ' → κ'') (request : Request κ) :
    (request.map f).map g = request.map (g ∘ f) := by
  cases request <;> rfl

/-- What a call is does not depend on what stands for its callback. -/
theorem Request.bare_map {κ κ' : Type} (f : κ → κ') (request : Request κ) :
    (request.map f).bare = request.bare :=
  Request.map_map f _ request

/-- What is written down about a call does not depend on its callback. -/
theorem Request.commit?_map {κ κ' : Type} (f : κ → κ') (request : Request κ) (reply : Reply) :
    (request.map f).commit? reply = request.commit? reply := by
  cases request <;> cases reply <;> rfl

/-- A relay does not care about the callback of a call. -/
theorem Relay.swallowed?_map {κ κ' : Type} (f : κ → κ') (r : Relay) (request : Request κ) :
    r.swallowed? (request.map f) = r.swallowed? request := by
  cases request <;> rfl

/-- Which replies fit a call does not depend on its callback. -/
theorem Request.accepts_map {κ κ' : Type} (f : κ → κ') (request : Request κ) (reply : Reply) :
    (request.map f).accepts reply = request.accepts reply := by
  cases request <;> cases reply <;> rfl

/-! ### The layers of some plans -/

/-- The first plan gives the outermost layer.  Its number is that of the layers below it, since each
of these has the number of the layers below itself. -/
theorem layersOf_cons (plan : LayerPlan) (plans : List LayerPlan) :
    (layersOf (plan :: plans)).1 =
      { id := (layersOf plans).1.length, role := plan.role } :: (layersOf plans).1 := by
  cases plan <;> simp [layersOf, LayerPlan.build, StateT.run_bind] <;> rfl

/-- The layers of some plans do not depend on the plans above. -/
theorem exists_layersOf_append (upper lower : List LayerPlan) :
    ∃ top, (layersOf (upper ++ lower)).1 = top ++ (layersOf lower).1 ∧
      top.map Layer.role = upper.map LayerPlan.role := by
  induction upper with
  | nil => exact ⟨[], rfl, rfl⟩
  | cons plan upper ih =>
    obtain ⟨top, hlayers, hroles⟩ := ih
    refine ⟨{ id := (layersOf (upper ++ lower)).1.length, role := plan.role } :: top, ?_, ?_⟩
    · rw [List.cons_append, layersOf_cons, hlayers, List.cons_append]
    · rw [List.map_cons, hroles, List.map_cons]

/-- There is one layer for each plan. -/
@[simp] theorem length_layersOf (plans : List LayerPlan) :
    (layersOf plans).1.length = plans.length := by
  induction plans with
  | nil => rfl
  | cons plan plans ih => simp [layersOf_cons, ih]

/-- The layers are numbered from the innermost one up, from zero on. -/
theorem lt_of_mem_layersOf {plans : List LayerPlan} {layer : Layer}
    (h : layer ∈ (layersOf plans).1) : layer.id < plans.length := by
  induction plans with
  | nil => exact absurd h List.not_mem_nil
  | cons plan plans ih =>
    rw [layersOf_cons, List.mem_cons] at h
    rw [List.length_cons]
    rcases h with rfl | h
    · simp
    · exact Nat.lt_succ_of_lt (ih h)

/-- No two layers have the same number. -/
theorem nodup_layersOf (plans : List LayerPlan) :
    ((layersOf plans).1.map Layer.id).Nodup := by
  induction plans with
  | nil => exact List.nodup_nil
  | cons plan plans ih =>
    rw [layersOf_cons, List.map_cons, List.nodup_cons]
    refine ⟨fun h => ?_, ih⟩
    obtain ⟨layer, hmem, hid⟩ := List.mem_map.1 h
    have := lt_of_mem_layersOf hmem
    simp at hid
    omega

/-! ### What survives a passage -/

namespace Passage

variable {P : Passage → Prop}

/-- What survives each enforcer that an event passes survives them all. -/
theorem foldl_rise_invariant {event : Event} {cookie : Int32}
    (hwatch : ∀ (p : Passage) (id : Nat) (e : Enforcer), p.role? id = some (.enforcer e) → P p →
      P (p.watch id e event cookie))
    (watchers : List Nat) {p : Passage} (h : P p) : P (watchers.foldl (rise event cookie) p) := by
  induction watchers generalizing p with
  | nil => exact h
  | cons id watchers ih =>
    refine ih ?_
    unfold rise
    split
    · next e hrole => exact hwatch p id e hrole h
    · exact h

/-- What survives each layer that a reply passes survives them all. -/
theorem foldl_settle_invariant {κ : Type} {request : Request κ}
    (hreturns : ∀ (p : Passage) (id : Nat) (reply : Reply), P p →
      P (p.note (.returns id request.bare reply)))
    (hcommit : ∀ (p : Passage) (id : Nat) (e : Enforcer) (c : Commit),
      p.role? id = some (.enforcer e) → P p → P (p.commit id e c))
    (ids : List Nat) {pr : Passage × Reply} (h : P pr.1) :
    P (ids.foldl (settle request) pr).1 := by
  induction ids generalizing pr with
  | nil => exact h
  | cons id ids ih =>
    have hreturned := hreturns pr.1 id pr.2 h
    refine ih ?_
    unfold settle
    dsimp only
    split
    · next e hrole =>
      split
      · next c _ => exact hcommit (pr.1.note (.returns id request.bare pr.2)) id e c hrole hreturned
      · exact hreturned
    · exact hreturned
    · exact h

end Passage

/-- What survives each thing that happens to a call on its way down survives the whole way. -/
theorem descend_invariant {P : Passage → Prop}
    (henters : ∀ (p : Passage) (id : Nat) (call : Request Unit), P p → P (p.note (.enters id call)))
    (hswallows : ∀ (p : Passage) (id : Nat) (tag : String) (call : Swallowable), P p →
      P (p.note (.swallows id tag call)))
    (hcounts : ∀ (p : Passage) (id : Nat), P p → P (p.modifyRole id Role.countCall))
    {layers : List Layer} (h : P { layers }) (request : Request String) :
    P (descend layers request).passage := by
  have henter : ∀ (d : Descent) (layer : Layer), P d.passage → P (d.enter layer).passage := by
    intro d layer hd
    have hentered := henters d.passage layer.id d.request.bare hd
    unfold Descent.enter
    split
    · exact hd
    · cases layer.role with
      | enforcer e => exact hentered
      | relay r =>
        have hcounted := hcounts _ layer.id hentered
        dsimp only
        split
        · next call _ => exact hswallows _ layer.id r.tag call hcounted
        · exact hcounted
  have hfold : ∀ (front : List Layer) (d : Descent), P d.passage →
      P (front.foldl Descent.enter d).passage := by
    intro front
    induction front with
    | nil => exact fun _ hd => hd
    | cons layer front ih => exact fun d hd => ih _ (henter d layer hd)
  exact hfold layers _ h

/-! ### Nothing changes what a layer is -/

/-- What `g` sees of each layer, beside its number. -/
def viewOf {α : Type} (g : Role → α) (layers : List Layer) : List (Nat × α) :=
  layers.map fun layer => (layer.id, g layer.role)

/-- A view of the layers has their numbers. -/
theorem map_fst_viewOf {α : Type} (g : Role → α) (layers : List Layer) :
    (viewOf g layers).map Prod.fst = layers.map Layer.id := by
  simp [viewOf]

/-- Neither a table nor a count of calls makes a difference to `g`. -/
structure Lasting {α : Type} (g : Role → α) : Prop where
  cell : ∀ (e : Enforcer) (cell : Cell), g (.enforcer { e with cell }) = g (.enforcer e)
  count : ∀ role : Role, g role.countCall = g role

/-- An enforcer stays an enforcer, and a relay a relay. -/
theorem lasting_isEnforcer : Lasting Role.isEnforcer :=
  ⟨fun _ _ => rfl, fun role => by cases role <;> rfl⟩

section

variable {α : Type} {g : Role → α}

namespace Passage

/-- A layer that plays a part is of the kind of that part. -/
theorem mem_kindsOf_of_role? {p : Passage} {id : Nat} {role : Role} (h : p.role? id = some role) :
    (id, role.isEnforcer) ∈ kindsOf p.layers := by
  obtain ⟨layer, hfind, rfl⟩ := Option.map_eq_some_iff.1 h
  obtain rfl : layer.id = id := by simpa using List.find?_some hfind
  exact List.mem_map.2 ⟨layer, List.mem_of_find?_eq_some hfind, rfl⟩

/-- A change of a part that makes no difference to `g` makes none to the view through `g`. -/
theorem viewOf_modifyRole (p : Passage) (id : Nat) {f : Role → Role}
    (hf : ∀ role, g (f role) = g role) :
    viewOf g (p.modifyRole id f).layers = viewOf g p.layers := by
  simp only [viewOf, modifyRole, List.map_map]
  refine List.map_congr_left fun layer _ => ?_
  by_cases hid : layer.id = id <;> simp [hid, hf]

/-- To write down that something happens changes no layer. -/
@[simp] theorem viewOf_note (p : Passage) (what : Happening) :
    viewOf g (p.note what).layers = viewOf g p.layers := rfl

/-- A lasting view does not show the cell of an enforcer. -/
theorem viewOf_modifyCell (hg : Lasting g) (p : Passage) (id : Nat) (f : Cell → Cell) :
    viewOf g (p.modifyCell id f).layers = viewOf g p.layers := by
  refine p.viewOf_modifyRole id fun role => ?_
  cases role with
  | enforcer e => exact hg.cell e _
  | relay r => rfl

/-- A lasting view does not show what is committed. -/
theorem viewOf_commit (hg : Lasting g) (p : Passage) (id : Nat) (e : Enforcer) (c : Commit) :
    viewOf g (p.commit id e c).layers = viewOf g p.layers := by
  unfold commit
  split
  · split <;> simp [viewOf_modifyCell hg]
  · simp

/-- To report a violation changes no layer. -/
theorem viewOf_report (p : Passage) (id : Nat) (reporter : Reporter) (v : Violation) :
    viewOf g (p.report id reporter v).layers = viewOf g p.layers := by
  unfold report
  split <;> simp

/-- A lasting view does not show that an event has passed an enforcer. -/
theorem viewOf_watch (hg : Lasting g) (p : Passage) (id : Nat) (e : Enforcer) (event : Event)
    (cookie : Int32) : viewOf g (p.watch id e event cookie).layers = viewOf g p.layers := by
  unfold watch
  split <;> simp [viewOf_commit hg, viewOf_report, viewOf_modifyCell hg]

/-- A lasting view is the same after the way of an event up. -/
theorem viewOf_foldl_rise (hg : Lasting g) (event : Event) (cookie : Int32) (watchers : List Nat)
    (p : Passage) :
    viewOf g (watchers.foldl (rise event cookie) p).layers = viewOf g p.layers :=
  foldl_rise_invariant (P := fun q => viewOf g q.layers = viewOf g p.layers)
    (fun q id e _ hq => (viewOf_watch hg q id e event cookie).trans hq) watchers rfl

/-- A lasting view is the same after the way of a reply up. -/
theorem viewOf_foldl_settle (hg : Lasting g) {κ : Type} (request : Request κ) (ids : List Nat)
    (pr : Passage × Reply) :
    viewOf g (ids.foldl (settle request) pr).1.layers = viewOf g pr.1.layers :=
  foldl_settle_invariant (P := fun q => viewOf g q.layers = viewOf g pr.1.layers)
    (fun _ _ _ hq => hq) (fun q id e c _ hq => (viewOf_commit hg q id e c).trans hq) ids rfl

/-- A lasting view is the same after a reply has passed one layer. -/
theorem viewOf_settle (hg : Lasting g) {κ : Type} (request : Request κ) (pr : Passage × Reply)
    (id : Nat) : viewOf g (settle request pr id).1.layers = viewOf g pr.1.layers :=
  viewOf_foldl_settle hg request [id] pr

/-- A lasting view is the same when the caller has got its reply. -/
theorem viewOf_climb (hg : Lasting g) {κ : Type} (p : Passage) (request : Request κ)
    (reply : Reply) (passed : List Nat) :
    viewOf g (p.climb request reply passed).layers = viewOf g p.layers :=
  viewOf_foldl_settle hg request passed (p, reply)

end Passage

/-- A lasting view is the same after the way of a call down: a relay has counted the call, which the
view does not show. -/
theorem viewOf_descend (hg : Lasting g) (layers : List Layer) (request : Request String) :
    viewOf g (descend layers request).passage.layers = viewOf g layers :=
  descend_invariant (P := fun q => viewOf g q.layers = viewOf g layers) (fun _ _ _ hq => hq)
    (fun _ _ _ _ hq => hq)
    (fun q id hq => (q.viewOf_modifyRole id hg.count).trans hq) rfl request

/-- **A move leaves every lasting view of the layers as it is.** The layers change by moves in no
other way than on the ways up and down, and through a look. -/
theorem Stack.viewOf_step (hg : Lasting g) (s : Stack) (move : Move) :
    viewOf g (s.step move).1.layers = viewOf g s.layers := by
  cases move with
  | call request =>
    simp only [step, onCall]
    split
    · rfl
    · split <;> simp [Passage.viewOf_climb hg, viewOf_descend hg]
  | reply reply =>
    simp only [step, onReply]
    split
    · split <;> simp [Passage.viewOf_climb hg]
    · rfl
  | event ticket event cookie =>
    simp only [step, onEvent]
    split <;> simp [Passage.viewOf_foldl_rise hg]
  | finish =>
    simp only [step, onFinish]
    split <;> rfl
  | look id h =>
    simp only [step, onLook]
    split <;> simp [Passage.viewOf_modifyCell hg]

/-- **What lasts of the layers never changes,** however many moves are made. -/
theorem Stack.viewOf_run (hg : Lasting g) (s : Stack) (moves : List Move) :
    viewOf g (s.run moves).1.layers = viewOf g s.layers := by
  induction moves generalizing s with
  | nil => rfl
  | cons move moves ih => rw [run_cons, ih, viewOf_step hg]

end

namespace Passage

/-- To write down that something happens changes no kind. -/
@[simp] theorem kindsOf_note (p : Passage) (what : Happening) :
    kindsOf (p.note what).layers = kindsOf p.layers := rfl

/-- An enforcer with another cell is an enforcer. -/
@[simp] theorem kindsOf_modifyCell (p : Passage) (id : Nat) (f : Cell → Cell) :
    kindsOf (p.modifyCell id f).layers = kindsOf p.layers :=
  viewOf_modifyCell lasting_isEnforcer p id f

/-- The kinds of the layers are the same after the way of an event up. -/
@[simp] theorem kindsOf_foldl_rise (event : Event) (cookie : Int32) (watchers : List Nat)
    (p : Passage) :
    kindsOf (watchers.foldl (rise event cookie) p).layers = kindsOf p.layers :=
  viewOf_foldl_rise lasting_isEnforcer event cookie watchers p

/-- The kinds of the layers are the same after a reply has passed one of them. -/
@[simp] theorem kindsOf_settle {κ : Type} (request : Request κ) (pr : Passage × Reply) (id : Nat) :
    kindsOf (settle request pr id).1.layers = kindsOf pr.1.layers :=
  viewOf_settle lasting_isEnforcer request pr id

/-- The kinds of the layers are the same after the way of a reply up. -/
@[simp] theorem kindsOf_climb {κ : Type} (p : Passage) (request : Request κ) (reply : Reply)
    (passed : List Nat) : kindsOf (p.climb request reply passed).layers = kindsOf p.layers :=
  viewOf_climb lasting_isEnforcer p request reply passed

end Passage

/-- The kinds of the layers are the same after the way of a call down. -/
@[simp] theorem kindsOf_descend (layers : List Layer) (request : Request String) :
    kindsOf (descend layers request).passage.layers = kindsOf layers :=
  viewOf_descend lasting_isEnforcer layers request

namespace Stack

/-- The kinds of the layers are the same after a move. -/
theorem kindsOf_step (s : Stack) (move : Move) :
    kindsOf (s.step move).1.layers = kindsOf s.layers :=
  viewOf_step lasting_isEnforcer s move

/-- **What the layers are never changes.** An enforcer stays an enforcer and a relay a relay, and
each keeps its number. -/
theorem kindsOf_run (s : Stack) (moves : List Move) :
    kindsOf (s.run moves).1.layers = kindsOf s.layers :=
  viewOf_run lasting_isEnforcer s moves

end Stack

/-! ### The way down -/

namespace Descent

/-- A call that was answered on its way comes no further. -/
theorem foldl_enter_of_swallowed (layers : List Layer) {d : Descent} (h : d.swallowed = true) :
    layers.foldl enter d = d := by
  induction layers with
  | nil => rfl
  | cons layer layers ih =>
    rw [List.foldl_cons, show d.enter layer = d by simp [enter, h], ih]

/-- A call that comes out below was not answered on its way. -/
theorem swallowed_eq_false_of_foldl {layer : Layer} {layers : List Layer} {d : Descent}
    (h : ((layer :: layers).foldl enter d).swallowed = false) :
    d.swallowed = false ∧ (d.enter layer).swallowed = false := by
  have hopen : ∀ (layers : List Layer) (d : Descent),
      (layers.foldl enter d).swallowed = false → d.swallowed = false := by
    intro layers d h
    cases hs : d.swallowed with
    | false => rfl
    | true => rw [foldl_enter_of_swallowed layers hs, hs] at h; cases h
  exact ⟨hopen _ d h, hopen layers _ h⟩

/-- **Each enforcer that a call passes will look at what comes through its callback.** -/
theorem callback?_foldl_enter (layers : List Layer) (d : Descent)
    (h : (layers.foldl enter d).swallowed = false) :
    (layers.foldl enter d).request.callback? =
      d.request.callback?.map fun callback =>
        { callback with watchers := enforcersOf layers ++ callback.watchers } := by
  induction layers generalizing d with
  | nil => simp [enforcersOf, kindsOf]
  | cons layer layers ih =>
    obtain ⟨hd, -⟩ := swallowed_eq_false_of_foldl h
    rw [List.foldl_cons, ih _ h]
    have hcallback : (d.enter layer).request.callback? =
        if layer.role.isEnforcer then
          d.request.callback?.map fun callback => callback.watchedBy layer.id
        else d.request.callback? := by
      unfold enter
      simp only [hd, Bool.false_eq_true, if_false]
      cases layer.role with
      | enforcer e => exact Request.callback?_map _ d.request
      | relay r =>
        dsimp only
        split <;> rfl
    rw [hcallback, enforcersOf_cons]
    cases layer.role.isEnforcer with
    | true => simp [Function.comp_def, Callback.watchedBy]
    | false => simp

/-- A layer that passes a call on is passed. -/
theorem passed_enter {d : Descent} {layer : Layer} (hd : d.swallowed = false)
    (hopen : (d.enter layer).swallowed = false) :
    (d.enter layer).passed = layer.id :: d.passed := by
  revert hopen
  unfold enter
  simp only [hd, Bool.false_eq_true, if_false]
  cases layer.role with
  | enforcer e => exact fun _ => rfl
  | relay r =>
    dsimp only
    split
    · exact nofun
    · exact fun _ => rfl

/-- A call that comes out below has passed every layer. -/
theorem passed_foldl_enter (layers : List Layer) (d : Descent)
    (h : (layers.foldl enter d).swallowed = false) :
    (layers.foldl enter d).passed = (layers.map Layer.id).reverse ++ d.passed := by
  induction layers generalizing d with
  | nil => rfl
  | cons layer layers ih =>
    obtain ⟨hd, hopen⟩ := swallowed_eq_false_of_foldl h
    rw [List.foldl_cons, ih _ h, passed_enter hd hopen]
    simp

/-- Nothing but the callback of a call changes on its way. -/
theorem map_enter {κ : Type} (given : κ) (d : Descent) (layer : Layer) :
    ((d.enter layer).request.map fun _ => given) = d.request.map fun _ => given := by
  unfold enter
  split
  · rfl
  · cases layer.role with
    | enforcer e => exact Request.map_map _ _ d.request
    | relay r =>
      dsimp only
      split <;> rfl

/-- A call comes out of the layers as it came in, but for its callback. -/
theorem map_foldl_enter {κ : Type} (given : κ) (layers : List Layer) (d : Descent) :
    ((layers.foldl enter d).request.map fun _ => given) = d.request.map fun _ => given := by
  induction layers generalizing d with
  | nil => rfl
  | cons layer layers ih => rw [List.foldl_cons, ih, map_enter]

/-- A call that was answered on its way has passed the layers above the relay that answered it. -/
theorem exists_of_swallowed (layers : List Layer) {d : Descent} (hd : d.swallowed = false)
    (h : (layers.foldl enter d).swallowed = true) :
    ∃ front layer rest r call, layers = front ++ layer :: rest ∧ layer.role = .relay r ∧
      r.swallowed? d.request.bare = some call ∧
      (layers.foldl enter d).passed = (front.map Layer.id).reverse ++ d.passed := by
  induction layers generalizing d with
  | nil => cases hd.symm.trans h
  | cons layer layers ih =>
    rw [List.foldl_cons] at h ⊢
    cases hnext : (d.enter layer).swallowed with
    | false =>
      obtain ⟨front, answering, rest, r, call, rfl, hrole, hcall, hpassed⟩ := ih hnext h
      have hbare : (d.enter layer).request.bare = d.request.bare := map_enter () d layer
      refine ⟨layer :: front, answering, rest, r, call, rfl, hrole, hbare ▸ hcall, ?_⟩
      rw [hpassed, passed_enter hd hnext]
      simp
    | true =>
      -- This layer has answered, so it is a relay, and the layers after it do not get the call.
      rw [foldl_enter_of_swallowed layers hnext]
      revert hnext
      unfold enter
      simp only [hd, Bool.false_eq_true, if_false]
      cases hrole : layer.role with
      | enforcer e => exact nofun
      | relay r =>
        dsimp only
        split
        · next call hcall =>
          have hbare := (r.swallowed?_map (fun _ => ()) d.request).trans hcall
          exact fun _ => ⟨[], layer, layers, r, call, rfl, hrole, hbare, rfl⟩
        · exact nofun

end Descent

/-- A callback that comes out below is looked at by every enforcer. -/
theorem callback?_descend {layers : List Layer} {request : Request String}
    (h : (descend layers request).swallowed = false) :
    (descend layers request).request.callback? =
      request.callback?.map fun client => { client, watchers := enforcersOf layers } := by
  rw [descend, Descent.callback?_foldl_enter layers _ h, Request.callback?_map, Option.map_map]
  congr 1
  funext client
  simp

/-- A call that comes out below has passed every layer, the innermost last. -/
theorem passed_descend {layers : List Layer} {request : Request String}
    (h : (descend layers request).swallowed = false) :
    (descend layers request).passed = (layers.map Layer.id).reverse := by
  rw [descend, Descent.passed_foldl_enter layers _ h, List.append_nil]

/-- **A call that is answered on its way has passed the layers above a relay that answers it.** -/
theorem exists_of_swallowed_descend {layers : List Layer} {request : Request String}
    (h : (descend layers request).swallowed = true) :
    ∃ front layer rest r call, layers = front ++ layer :: rest ∧ layer.role = .relay r ∧
      r.swallowed? request = some call ∧
      (descend layers request).passed = (front.map Layer.id).reverse := by
  obtain ⟨front, layer, rest, r, call, hlayers, hrole, hcall, hpassed⟩ :=
    Descent.exists_of_swallowed layers rfl h
  refine ⟨front, layer, rest, r, call, hlayers, hrole, ?_, by simpa [descend] using hpassed⟩
  rwa [Request.bare_map, Request.bare, r.swallowed?_map] at hcall

/-- A call that comes out below is the call that was made. -/
theorem map_descend {κ : Type} (given : κ) (layers : List Layer) (request : Request String) :
    ((descend layers request).request.map fun _ => given) = request.map fun _ => given := by
  rw [descend, Descent.map_foldl_enter, Request.map_map]
  rfl

namespace Stack

/-- The layers have the same numbers after a move. -/
theorem ids_step (s : Stack) (move : Move) :
    (s.step move).1.layers.map Layer.id = s.layers.map Layer.id := by
  rw [← map_fst_viewOf Role.isEnforcer, viewOf_step lasting_isEnforcer, map_fst_viewOf]

/-- The layers have the same numbers at the end of a run. -/
theorem ids_run (s : Stack) (moves : List Move) :
    (s.run moves).1.layers.map Layer.id = s.layers.map Layer.id := by
  rw [← map_fst_viewOf Role.isEnforcer, viewOf_run lasting_isEnforcer, map_fst_viewOf]

/-- Every callback that is out is looked at by each enforcer, the innermost first. -/
def Wired (s : Stack) : Prop :=
  ∀ callback ∈ s.issued, callback.watchers = enforcersOf s.layers

/-- **A move keeps the stack wired.** Only a call gives a callback out, and an enforcer watches the
callback of every call that passes it. -/
theorem wired_step {s : Stack} (h : s.Wired) (move : Move) : (s.step move).1.Wired := by
  have hkinds := enforcersOf_congr (kindsOf_step s move)
  unfold Wired
  rw [hkinds]
  cases move with
  | call request =>
    simp only [step, onCall]
    split
    · exact h
    · split
      · exact h
      · next hs =>
        intro callback hmem
        rw [List.mem_append, callback?_descend (by simpa using hs), Option.mem_toList,
          Option.map_eq_some_iff] at hmem
        rcases hmem with hmem | ⟨client, -, rfl⟩
        · exact h callback hmem
        · rfl
  | reply reply =>
    simp only [step, onReply]
    split
    · split <;> exact h
    · exact h
  | event ticket event cookie =>
    simp only [step, onEvent]
    split <;> exact h
  | finish =>
    simp only [step, onFinish]
    split <;> exact h
  | look id k =>
    simp only [step, onLook]
    split <;> exact h

/-- **Every callback that is out, after any run, is looked at by each enforcer once,** the innermost
first. -/
theorem wired_run (layers : List Layer) (moves : List Move) :
    ((fresh layers).run moves).1.Wired := by
  have hrun : ∀ (moves : List Move) (s : Stack), s.Wired → (s.run moves).1.Wired := by
    intro moves
    induction moves with
    | nil => exact fun _ h => h
    | cons move moves ih => exact fun s h => ih _ (wired_step h move)
  exact hrun moves _ fun _ h => absurd h List.not_mem_nil

/-- The reply to every call that is under way will pass each layer, the innermost first. -/
def Routed (s : Stack) : Prop :=
  ∀ request passed, .call request passed ∈ s.frames → passed = (s.layers.map Layer.id).reverse

/-- **A move keeps the replies on their route.** Only a call that comes out below adds a frame, and
it has passed every layer. -/
theorem routed_step {s : Stack} (h : s.Routed) (move : Move) : (s.step move).1.Routed := by
  unfold Routed
  rw [ids_step]
  -- A reply and a return take one frame away, and the others are as they were.
  have htail : ∀ frame frames, s.frames = frame :: frames → ∀ request passed,
      .call request passed ∈ frames → passed = (s.layers.map Layer.id).reverse :=
    fun frame frames hframes request passed hmem =>
      h request passed (hframes ▸ List.mem_cons_of_mem frame hmem)
  cases move with
  | call request =>
    simp only [step, onCall]
    split
    · exact h
    · split
      · exact h
      · next hs =>
        intro given passed hmem
        rcases List.mem_cons.1 hmem with heq | hmem
        · obtain ⟨-, rfl⟩ := Frame.call.inj heq
          exact passed_descend (by simpa using hs)
        · exact h given passed hmem
  | reply reply =>
    simp only [step, onReply]
    split
    · next hframes =>
      split
      · exact htail _ _ hframes
      · exact h
    · exact h
  | event ticket event cookie =>
    simp only [step, onEvent]
    split
    · intro given passed hmem
      rcases List.mem_cons.1 hmem with heq | hmem
      · cases heq
      · exact h given passed hmem
    · exact h
  | finish =>
    simp only [step, onFinish]
    split
    · next hframes => exact htail _ _ hframes
    · exact h
  | look id k =>
    simp only [step, onLook]
    split <;> exact h

end Stack
end TriggerWatch
