/-
# What is due

A move makes an enforcer write down one commit, or none.  Which one it is can be read off the frames
and the move (`Stack.due?`), but for a call that a relay answers: there it is a matter of which
enforcers are above the relay (`Stack.dueAt?`).  `Stack.Has.commits_step` says so of a stack in any
state that a run may lead to.

In a stack whose layers pass every call on, what is due is the same for all enforcers, and
`Stack.due` reads off the commits of a whole run.  `Stack.Has.run_due` says that they are what an
enforcer writes down, and `Stack.Even.run` that enforcers with one table have one table after every
run.
-/

import TriggerWatch.Proofs.Arrival
import TriggerWatch.Proofs.Turn

namespace TriggerWatch

/-- The table after some commits. -/
def ModelTable.commitAll (t : ModelTable) (cs : List Commit) : ModelTable :=
  cs.foldl ModelTable.commit t

/-- No commit changes nothing. -/
@[simp] theorem ModelTable.commitAll_nil (t : ModelTable) : t.commitAll [] = t := rfl

/-- Commits are written one after the other. -/
@[simp] theorem ModelTable.commitAll_cons (t : ModelTable) (c : Commit) (cs : List Commit) :
    t.commitAll (c :: cs) = (t.commit c).commitAll cs := rfl

/-- Visits change a table by their commits only. -/
theorem Visit.afterAll_eq_commitAll (t : ModelTable) (vs : List Visit) :
    afterAll t vs = t.commitAll (vs.filterMap commit?) := by
  induction vs generalizing t with
  | nil => rfl
  | cons v vs ih =>
    rw [show afterAll t (v :: vs) = afterAll (v.after t) vs from rfl, ih, after]
    cases hv : v.commit? <;> simp [hv]

/-! ### Layers that pass every call on -/

/-- A part that passes every call on. -/
def Role.Forwards : Role → Prop
  | .enforcer _ => True
  | .relay r => ∀ seen call, r.swallows seen call = false

/-- A plan of a layer that passes every call on. -/
def LayerPlan.Forwards (plan : LayerPlan) : Prop := plan.role.Forwards

/-- Whether a part passes every call on is a matter of its plan, not of its state. -/
theorem lasting_forwards : Lasting Role.Forwards :=
  ⟨fun _ _ => rfl, fun role => by cases role <;> rfl⟩

/-- Layers pass every call on if layers with the same view do. -/
theorem forwards_congr {layers layers' : List Layer}
    (h : viewOf Role.Forwards layers = viewOf Role.Forwards layers')
    (hforwards : ∀ layer ∈ layers', layer.role.Forwards) :
    ∀ layer ∈ layers, layer.role.Forwards := by
  intro layer hlayer
  have hmem : (layer.id, layer.role.Forwards) ∈ viewOf Role.Forwards layers' :=
    h ▸ List.mem_map_of_mem hlayer
  obtain ⟨layer', hlayer', heq⟩ := List.mem_map.1 hmem
  exact (Prod.mk.inj heq).2 ▸ hforwards layer' hlayer'

/-- The layers of plans that pass every call on do so. -/
theorem forwards_layersOf {plans : List LayerPlan} (h : ∀ plan ∈ plans, plan.Forwards) :
    ∀ layer ∈ (layersOf plans).1, layer.role.Forwards := by
  induction plans with
  | nil => exact fun layer hlayer => absurd hlayer List.not_mem_nil
  | cons plan plans ih =>
    intro layer hlayer
    rw [layersOf_cons, List.mem_cons] at hlayer
    rcases hlayer with rfl | hlayer
    · exact h plan List.mem_cons_self
    · exact ih (fun p hp => h p (List.mem_cons_of_mem _ hp)) layer hlayer

/-- Enforcers pass every call on. -/
theorem forwards_enforcers (plans : List EnforcerPlan) :
    ∀ plan ∈ plans.map LayerPlan.enforcer, plan.Forwards := by
  intro plan hplan
  obtain ⟨_, -, rfl⟩ := List.mem_map.1 hplan
  trivial

/-- A relay that passes every call on answers none by itself. -/
theorem Relay.swallowed?_of_forwards {κ : Type} {r : Relay} (h : (Role.relay r).Forwards)
    (request : Request κ) : r.swallowed? request = none := by
  unfold swallowed?
  cases request.swallowable? with
  | none => rfl
  | some call => simp [Option.filter, h r.seen call]

/-- A call gets through layers that pass every call on. -/
theorem swallowed_descend {layers : List Layer} (h : ∀ layer ∈ layers, layer.role.Forwards)
    (request : Request String) : (descend layers request).swallowed = false := by
  cases hswallowed : (descend layers request).swallowed with
  | false => rfl
  | true =>
    obtain ⟨front, layer, rest, r, call, rfl, hrole, hcall, -⟩ :=
      exists_of_swallowed_descend hswallowed
    have hforwards : layer.role.Forwards := h layer (by simp)
    rw [hrole] at hforwards
    cases (Relay.swallowed?_of_forwards hforwards request).symm.trans hcall

namespace Stack

variable {s : Stack} {id : Nat} {reporter : Reporter} {t : ModelTable}

/-! ### What an enforcer writes down because of a move -/

/-- A stack whose callbacks and replies come to every enforcer that they have to come to, once. -/
structure Threaded (s : Stack) : Prop where
  nodup : (s.layers.map Layer.id).Nodup
  wired : s.Wired
  routed : s.Routed

/-- On a fresh stack nothing is under way yet, and no callback has been given out. -/
theorem threaded_fresh (plans : List LayerPlan) : (fresh (layersOf plans).1).Threaded where
  nodup := nodup_layersOf plans
  wired := fun _ hcallback => absurd hcallback List.not_mem_nil
  routed := fun _ _ hframe => absurd hframe List.not_mem_nil

/-- A move keeps callbacks and replies threaded through the enforcers. -/
theorem Threaded.step (h : s.Threaded) (move : Move) : (s.step move).1.Threaded where
  nodup := by rw [ids_step]; exact h.nodup
  wired := wired_step h.wired move
  routed := routed_step h.routed move

/-- So does a run. -/
theorem Threaded.run (h : s.Threaded) (moves : List Move) : (s.run moves).1.Threaded := by
  induction moves generalizing s with
  | nil => exact h
  | cons move moves ih => exact ih (h.step move)

/-- What an enforcer has written down says what its table is. -/
theorem Chronicles.has {out : Stack × List Moment} (h : Chronicles id reporter t out) :
    out.1.Has id reporter (t.commitAll (TriggerWatch.commits id out.2)) := by
  rw [h.commits, ← Visit.afterAll_eq_commitAll]
  exact h.2

/-- What every enforcer has to write down because of a move, if no relay answers a call. -/
def due? (s : Stack) : Move → Option Commit
  | .reply reply =>
    match s.frames with
    | .call request _ :: _ => request.commit? reply
    | _ => none
  | .event ticket event _ =>
    if ticket < s.issued.length then some (.event event.model event.status) else none
  | .call _ | .finish | .look _ _ => none

/-- What an enforcer has to write down because of a move.  If a relay answers a call, that concerns
the enforcers above the relay. -/
def dueAt? (s : Stack) (id : Nat) (move : Move) : Option Commit :=
  match move with
  | .call request =>
    let d := descend s.layers request
    if s.admits request ∧ d.swallowed ∧ id ∈ d.passed then request.commit? .done else none
  | move => s.due? move

/-- Only a reply that fits its call is written down. -/
theorem accepts_of_commit? {κ : Type} {request : Request κ} {reply : Reply} {c : Commit}
    (h : request.commit? reply = some c) : request.accepts reply = true := by
  cases request <;> cases reply <;> first | rfl | cases h

/-- A reply that does not fit its call is not written down. -/
theorem commit?_of_not_accepts {κ : Type} {request : Request κ} {reply : Reply}
    (h : request.accepts reply = false) : request.commit? reply = none := by
  cases hcommit : request.commit? reply with
  | none => rfl
  | some c =>
    rw [accepts_of_commit? hcommit] at h
    cases h

/-- An enforcer that is there is among the enforcers. -/
theorem Has.mem_enforcersOf (h : s.Has id reporter t) : id ∈ enforcersOf s.layers :=
  TriggerWatch.mem_enforcersOf.2 (Passage.mem_kindsOf_of_role? (p := { layers := s.layers }) h.role)

/-- A call passes no layer twice. -/
theorem nodup_passed_descend {layers : List Layer} (h : (layers.map Layer.id).Nodup)
    (request : Request String) : (descend layers request).passed.Nodup := by
  cases hswallowed : (descend layers request).swallowed with
  | false => exact passed_descend hswallowed ▸ List.nodup_reverse.2 h
  | true =>
    obtain ⟨front, layer, rest, _, _, rfl, -, -, hpassed⟩ := exists_of_swallowed_descend hswallowed
    rw [List.map_append] at h
    exact hpassed ▸ List.nodup_reverse.2 (List.nodup_append.1 h).1

/-- What a reply calls for is known from the call as the client made it. -/
theorem commit?_descend (layers : List Layer) (request : Request String) (reply : Reply) :
    (descend layers request).request.commit? reply = request.commit? reply := by
  rw [← Request.commit?_bare, ← Request.commit?_bare request]
  exact congrArg (Request.commit? · reply) (map_descend () layers request)

/-- An enforcer that is there is one at the beginning of a move. -/
theorem Has.enforces (h : s.Has id reporter t) : ({ layers := s.layers } : Passage).Enforces id :=
  ⟨_, h.role⟩

/-- What is due because of a call: nothing if it arrives below, and if a relay answers it, what the
answer calls for, at the enforcers that the call has passed. -/
theorem Has.commits_call (h : s.Has id reporter t) (hs : s.Threaded) (request : Request String) :
    commits id (s.step (.call request)).2 = (s.dueAt? id (.call request)).toList := by
  have hdown := (turns_descend s.layers request).enforces h.enforces
  have hnone := commits_descend id s.layers request
  simp only [Stack.step, onCall, dueAt?]
  cases s.admits request with
  | false => simp [commits]
  | true =>
    simp only [Bool.not_true, Bool.false_eq_true, if_false, true_and]
    cases (descend s.layers request).swallowed with
    | false =>
      simp only [Bool.false_eq_true, if_false, false_and, Option.toList_none]
      exact (Passage.commits_note_of_none rfl id _).trans hnone
    | true =>
      simp only [if_true, Passage.climb]
      rw [Passage.commits_note_of_none rfl, Passage.commits_foldl_settle _
        (nodup_passed_descend hs.nodup request) _ hdown, hnone, commit?_descend]
      split <;> simp [*]

/-- What is due because of a reply: what it calls for, at every enforcer, since the call has passed
them all. -/
theorem Has.commits_reply (h : s.Has id reporter t) (hs : s.Threaded) (reply : Reply) :
    commits id (s.step (.reply reply)).2 = (s.dueAt? id (.reply reply)).toList := by
  simp only [dueAt?, due?]
  split
  · next request passed frames hframes =>
    have hpassed := hs.routed request passed (hframes ▸ List.mem_cons_self)
    cases haccepts : request.accepts reply with
    | true =>
      have hid : id ∈ passed := by
        have hkind := TriggerWatch.mem_enforcersOf.1 h.mem_enforcersOf
        obtain ⟨layer, hlayer, hkind⟩ := List.mem_map.1 hkind
        rw [hpassed, List.mem_reverse]
        exact List.mem_map.2 ⟨layer, hlayer, (Prod.mk.inj hkind).1⟩
      simp only [Stack.step, onReply, hframes, haccepts, if_true, Passage.climb]
      rw [Passage.commits_note_of_none rfl, Passage.commits_foldl_settle request
        (hpassed ▸ List.nodup_reverse.2 hs.nodup) _ h.enforces, if_pos hid]
      rfl
    | false =>
      simp [Stack.step, onReply, hframes, haccepts, commit?_of_not_accepts haccepts, commits]
  · simp only [Stack.step, onReply]
    rfl

/-- What is due because of an event: that it came, at every enforcer, since they all watch the
callback. -/
theorem Has.commits_event (h : s.Has id reporter t) (hs : s.Threaded) (ticket : Nat) (event : Event)
    (cookie : Int32) :
    commits id (s.step (.event ticket event cookie)).2 =
      (s.dueAt? id (.event ticket event cookie)).toList := by
  by_cases hlt : ticket < s.issued.length
  · have hcallback := List.getElem?_eq_getElem hlt
    have hwatchers := hs.wired _ (List.mem_of_getElem? hcallback)
    simp only [Stack.step, onEvent, hcallback, dueAt?, due?, if_pos hlt]
    rw [Passage.commits_note_of_none rfl, Passage.commits_foldl_rise event cookie
      (hwatchers ▸ nodup_enforcersOf hs.nodup) h.enforces, if_pos (hwatchers ▸ h.mem_enforcersOf)]
    rfl
  · simp [Stack.step, onEvent, commits, dueAt?, due?, hlt]

/-- **What is due is what an enforcer writes down,** in one move. -/
theorem Has.commits_step (h : s.Has id reporter t) (hs : s.Threaded) (move : Move) :
    commits id (s.step move).2 = (s.dueAt? id move).toList := by
  cases move with
  | call request => exact h.commits_call hs request
  | reply reply => exact h.commits_reply hs reply
  | event ticket event cookie => exact h.commits_event hs ticket event cookie
  | finish =>
    simp only [step, onFinish]
    split <;> rfl
  | look k model =>
    simp only [step, onLook]
    split
    · exact Passage.commits_note_of_none rfl id _
    · rfl

/-! ### One commit for all enforcers -/

/-- A stack whose layers pass every call on, and whose events and replies come to each of them. -/
structure Orderly (s : Stack) : Prop where
  nodup : (s.layers.map Layer.id).Nodup
  forwards : ∀ layer ∈ s.layers, layer.role.Forwards
  wired : s.Wired
  routed : s.Routed

/-- Where every call is passed on, callbacks and replies are threaded all the same. -/
theorem Orderly.threaded (h : s.Orderly) : s.Threaded := ⟨h.nodup, h.wired, h.routed⟩

/-- A fresh stack whose plans pass every call on is orderly. -/
theorem orderly_fresh {plans : List LayerPlan} (h : ∀ plan ∈ plans, plan.Forwards) :
    (fresh (layersOf plans).1).Orderly where
  __ := threaded_fresh plans
  forwards := forwards_layersOf h

/-- A move leaves the stack orderly. -/
theorem Orderly.step (h : s.Orderly) (move : Move) : (s.step move).1.Orderly where
  __ := h.threaded.step move
  forwards := forwards_congr (viewOf_step lasting_forwards s move) h.forwards

/-- So does a run. -/
theorem Orderly.run (h : s.Orderly) (moves : List Move) : (s.run moves).1.Orderly := by
  induction moves generalizing s with
  | nil => exact h
  | cons move moves ih => exact ih (h.step move)

/-- A call that the client may make arrives below. -/
theorem Orderly.step_call (h : s.Orderly) {request : Request String}
    (hadmits : s.admits request = true) :
    s.step (.call request) =
      ({ layers := (descend s.layers request).passage.layers
         issued := s.issued ++ (request.callback?.map fun client =>
          { client, watchers := enforcersOf s.layers }).toList
         frames := .call (request.map fun _ => s.issued.length) (s.layers.map Layer.id).reverse ::
          s.frames },
        ((descend s.layers request).passage.note
          (.calls (request.map fun _ => s.issued.length))).moments) := by
  have hthrough := swallowed_descend h.forwards request
  simp only [Stack.step, onCall, hadmits, hthrough, Bool.not_true, Bool.false_eq_true, if_false,
    map_descend, callback?_descend hthrough, passed_descend hthrough]
  rfl

/-- What every enforcer has to write down because of some moves. -/
def due (s : Stack) : List Move → List Commit
  | [] => []
  | move :: moves => (s.due? move).toList ++ (s.step move).1.due moves

/-- What is due because of two lists of moves, one after the other. -/
theorem due_append (s : Stack) (before after : List Move) :
    s.due (before ++ after) = s.due before ++ (s.run before).1.due after := by
  induction before generalizing s with
  | nil => rfl
  | cons move moves ih =>
    rw [List.cons_append, due, due, ih, List.append_assoc]
    rfl

/-- Where every call is passed on, the same is due to every enforcer. -/
theorem Orderly.dueAt?_eq (h : s.Orderly) (id : Nat) (move : Move) :
    s.dueAt? id move = s.due? move := by
  cases move with
  | call request => simp [dueAt?, due?, swallowed_descend h.forwards]
  | _ => rfl

/-- **What is due is what an enforcer writes down,** and its table is what comes of that. -/
theorem Has.run_due (h : s.Has id reporter t) (hs : s.Orderly) (moves : List Move) :
    commits id (s.run moves).2 = s.due moves ∧
      (s.run moves).1.Has id reporter (t.commitAll (s.due moves)) := by
  have hcommits : commits id (s.run moves).2 = s.due moves := by
    induction moves generalizing s t with
    | nil => rfl
    | cons move moves ih =>
      have hnext := ih (step_chronicle h move).2 (hs.step move)
      rw [run_cons, due, ← hnext, ← hs.dueAt?_eq id move,
        ← h.commits_step hs.threaded move]
      simp [commits]
  exact ⟨hcommits, hcommits ▸ (run_chronicle h moves).has⟩

/-- Every enforcer has the table `t`, and nobody holds it. -/
def Even (s : Stack) (t : ModelTable) : Prop :=
  ∀ id ∈ enforcersOf s.layers, ∃ reporter, s.Has id reporter t

/-- The plan of an enforcer of a fresh stack, and what lies above and below it. -/
theorem exists_plan_of_mem_enforcersOf {plans : List LayerPlan}
    (h : id ∈ enforcersOf (layersOf plans).1) :
    ∃ outer plan inner, plans = outer ++ .enforcer plan :: inner ∧ inner.length = id := by
  induction plans with
  | nil => exact absurd h List.not_mem_nil
  | cons plan plans ih =>
    rw [layersOf_cons, enforcersOf_cons, List.mem_append] at h
    rcases h with h | h
    · obtain ⟨outer, plan', inner, rfl, hid⟩ := ih h
      exact ⟨plan :: outer, plan', inner, rfl, hid⟩
    · cases plan with
      | enforcer plan =>
        obtain rfl : id = plans.length := by simpa [LayerPlan.role, Role.isEnforcer] using h
        exact ⟨[], plan, plans, rfl, rfl⟩
      | relay plan => simp [LayerPlan.role, Role.isEnforcer] at h

/-- All tables of a fresh stack are empty. -/
theorem even_fresh (plans : List LayerPlan) : (fresh (layersOf plans).1).Even {} := by
  intro id hid
  obtain ⟨outer, plan, inner, rfl, rfl⟩ := exists_plan_of_mem_enforcersOf hid
  exact ⟨plan.reporter, has_fresh outer plan inner⟩

/-- The enforcers are the same at the end of a run. -/
theorem enforcersOf_run (s : Stack) (moves : List Move) :
    enforcersOf (s.run moves).1.layers = enforcersOf s.layers :=
  enforcersOf_congr (kindsOf_run s moves)

/-- **Enforcers that have one table have one table after every run.** -/
theorem Even.run (h : s.Even t) (hs : s.Orderly) (moves : List Move) :
    (s.run moves).1.Even (t.commitAll (s.due moves)) := by
  intro id hid
  obtain ⟨reporter, hhas⟩ := h id (enforcersOf_run s moves ▸ hid)
  exact ⟨reporter, (hhas.run_due hs moves).2⟩

/-- **The enforcers of a stack have one table,** in every state that a run leads to, if its layers
pass every call on. -/
theorem exists_even {plans : List LayerPlan} (h : ∀ plan ∈ plans, plan.Forwards)
    (moves : List Move) :
    let s := ((fresh (layersOf plans).1).run moves).1
    s.Orderly ∧ enforcersOf s.layers = enforcersOf (layersOf plans).1 ∧ ∃ t, s.Even t :=
  ⟨(orderly_fresh h).run moves, enforcersOf_run _ moves, _,
    (even_fresh plans).run (orderly_fresh h) moves⟩

end Stack
end TriggerWatch
