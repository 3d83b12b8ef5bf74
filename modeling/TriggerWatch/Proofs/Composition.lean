/-
# The order of the plans

A stack is put together from its last plan to its first, so that each building step has what the
steps after it have made to build on, and each is carried out once (`assemble_traced`).  A call
comes to the layers in the order of the plans (`Stack.route_call`).  Events and replies pass them
the other way round (`Stack.Threaded.route_event`), so the tags that relays put in front of a
description end up in the order of the plans too (`Stack.Threaded.outward_reply`).
-/

import TriggerWatch.Proofs.Enclosure
import TriggerWatch.Proofs.Lockstep
import TriggerWatch.Proofs.Transparency

namespace TriggerWatch

/-! ### Building steps -/

/-- A building step that also leaves behind which step it is, and what it was given to build on. -/
def traced {σ H : Type} (step : (H → StateM σ H) × Nat) (below : H) :
    StateM (σ × List (Nat × H)) H := fun (s, trace) =>
  let (built, s') := (step.1 below).run s
  (built, s', trace ++ [(step.2, below)])

/-- Steps that are numbered from `k` on are carried out from the last one to the first, each once
and on what those after it have made. -/
theorem assemble_traced {σ H : Type} (steps : List (H → StateM σ H)) (base : H) (s : σ) (k : Nat)
    (trace : List (Nat × H)) :
    (assemble ((steps.zipIdx k).map traced) base).run (s, trace) =
      let out := (assemble steps base).run s
      (out.1, out.2, trace ++ (List.range steps.length).reverse.map fun place =>
        (k + place, ((assemble (steps.drop (place + 1)) base).run s).1)) := by
  induction steps generalizing k with
  | nil =>
    rw [List.length_nil, List.range_zero, List.reverse_nil, List.map_nil, List.append_nil]
    rfl
  | cons step steps ih =>
    rw [List.zipIdx_cons, List.map_cons, assemble_cons, assemble_cons, StateT.run_bind, ih]
    -- the first step is carried out last, and every other one is a place further in the longer list
    have hplaces : (List.range (step :: steps).length).reverse =
        (List.range steps.length).reverse.map Nat.succ ++ [0] := by
      rw [List.length_cons, List.range_succ_eq_map, List.reverse_cons, List.map_reverse]
    have hlater : (fun place => (k + place,
          ((assemble ((step :: steps).drop (place + 1)) base).run s).1)) ∘ Nat.succ =
        fun place => (k + 1 + place, ((assemble (steps.drop (place + 1)) base).run s).1) :=
      funext fun place => congrArg (·, _) (Nat.add_right_comm k place 1)
    rw [hplaces, List.map_append, List.map_map, hlater, ← List.append_assoc]
    rfl

/-- Each layer plays the part that was planned. -/
theorem roles_layersOf (plans : List LayerPlan) :
    (layersOf plans).1.map Layer.role = plans.map LayerPlan.role := by
  induction plans with
  | nil => rfl
  | cons plan plans ih => rw [layersOf_cons, List.map_cons, ih, List.map_cons]

/-! ### Tags on a description -/

/-- The tag of a relay. -/
def Role.tag? : Role → Option String
  | .relay r => some r.tag
  | .enforcer _ => none

/-- The tag of a relay never changes. -/
theorem lasting_tag? : Lasting Role.tag? :=
  ⟨fun _ _ => rfl, fun role => by cases role <;> rfl⟩

/-- The tags of the relays among some layers, outermost first. -/
def tagsOf (layers : List Layer) : List String :=
  (viewOf Role.tag? layers).filterMap Prod.snd

/-- A description with some tags in front of it, each followed by a slash. -/
def describe (tags : List String) (own : String) : String :=
  tags.foldr (fun tag rest => tag ++ "/" ++ rest) own

/-- A reply that has come past some tags.  Only properties have a description. -/
def Reply.tagged (tags : List String) : Reply → Reply
  | .properties p => .properties { p with description := describe tags p.description }
  | reply => reply

/-- No tags leave a reply as it is. -/
theorem Reply.tagged_nil (reply : Reply) : reply.tagged [] = reply := by
  cases reply <;> rfl

/-- Tags are put in front of those that are there already. -/
theorem Reply.tagged_tagged (reply : Reply) (inner outer : List String) :
    (reply.tagged inner).tagged outer = reply.tagged (outer ++ inner) := by
  cases reply with
  | properties p => simp [tagged, describe]
  | _ => rfl

/-- The tags of the layers are those of the plans. -/
theorem tagsOf_layersOf (plans : List LayerPlan) :
    tagsOf (layersOf plans).1 = plans.filterMap fun plan => plan.role.tag? := by
  have hroles := congrArg (List.filterMap Role.tag?) (roles_layersOf plans)
  rw [List.filterMap_map, List.filterMap_map] at hroles
  rw [tagsOf, viewOf, List.filterMap_map]
  exact hroles

namespace Passage

/-- A reply that passes a layer gets its tag, if it is a relay. -/
theorem snd_settle {p : Passage} {layer : Layer} (hnodup : (p.layers.map Layer.id).Nodup)
    (hlayer : layer ∈ p.layers) {κ : Type} (request : Request κ) (reply : Reply) :
    (settle request (p, reply) layer.id).2 = reply.tagged layer.role.tag?.toList := by
  have hrole : p.role? layer.id = some layer.role := roleAt?_of_mem hnodup hlayer
  simp only [settle, hrole]
  cases layer.role with
  | enforcer e =>
    dsimp only
    split <;> exact reply.tagged_nil.symm
  | relay r => cases reply <;> rfl

/-- **A reply gets the tags of the relays that it passes,** the last one in front. -/
theorem snd_foldl_settle {κ : Type} (request : Request κ) {entries : List (Nat × Option String)}
    (pr : Passage × Reply) (hnodup : ((viewOf Role.tag? pr.1.layers).map Prod.fst).Nodup)
    (hentries : ∀ entry ∈ entries, entry ∈ viewOf Role.tag? pr.1.layers) :
    ((entries.map Prod.fst).foldl (settle request) pr).2 =
      pr.2.tagged (entries.filterMap Prod.snd).reverse := by
  induction entries generalizing pr with
  | nil => exact pr.2.tagged_nil.symm
  | cons entry entries ih =>
    obtain ⟨layer, hlayer, rfl⟩ := List.mem_map.1 (hentries entry List.mem_cons_self)
    -- the entries ahead are still entries of the passage: a layer keeps its number and its tag
    have hview := viewOf_settle lasting_tag? request pr layer.id
    have hrest := ih (settle request pr layer.id) (hview ▸ hnodup) fun entry hentry =>
      hview ▸ hentries entry (List.mem_cons_of_mem _ hentry)
    rw [List.map_cons, List.foldl_cons, hrest, snd_settle (map_fst_viewOf .. ▸ hnodup) hlayer,
      Reply.tagged_tagged]
    cases layer.role.tag? <;> simp

/-! ### What comes out -/

/-- What happens at a layer does not come out of the stack. -/
theorem outward_note {what : Happening} {id : Nat} (h : what.layer? = some id) (p : Passage) :
    outward (p.note what).moments = outward p.moments := by
  simp [note, outward, h]

/-- A commit does not come out of the stack. -/
theorem outward_commit (p : Passage) (id : Nat) (e : Enforcer) (c : Commit) :
    outward (p.commit id e c).moments = outward p.moments := by
  unfold commit
  split
  · rw [outward_note rfl]
    split
    · exact outward_note rfl _
    · rfl
  · exact outward_note rfl p

/-- Nothing comes out of the stack while a reply is on its way up. -/
theorem outward_foldl_settle {κ : Type} (request : Request κ) (ids : List Nat)
    (pr : Passage × Reply) :
    outward (ids.foldl (settle request) pr).1.moments = outward pr.1.moments :=
  foldl_settle_invariant (P := fun q => outward q.moments = outward pr.1.moments)
    (fun q _ _ hq => (outward_note rfl q).trans hq)
    (fun q id e c _ hq => (outward_commit q id e c).trans hq) ids rfl

end Passage

/-- Nothing comes out while a call is on its way down. -/
theorem outward_descend (layers : List Layer) (request : Request String) :
    outward (descend layers request).passage.moments = [] :=
  descend_invariant (P := fun q => outward q.moments = [])
    (fun q _ _ hq => (Passage.outward_note rfl q).trans hq)
    (fun q _ _ _ hq => (Passage.outward_note rfl q).trans hq) (fun _ _ hq => hq) rfl request

namespace Stack

variable {s : Stack}

/-- A call that no relay answers arrives below as it is. -/
theorem outward_call {request : Request String} (hadmits : s.admits request = true)
    (hopen : (descend s.layers request).swallowed = false) :
    outward (s.step (.call request)).2 = [.calls (request.map fun _ => s.issued.length)] := by
  simp only [step, onCall, hadmits, hopen, Bool.not_true, Bool.false_eq_true, if_false,
    map_descend, Passage.note, outward_append, outward_descend]
  rfl

/-- **A reply comes to the caller with the tags of all relays,** in the order of the layers, in
front of its description.  A reply without a description comes as it is. -/
theorem Threaded.outward_reply (hs : s.Threaded) {request : Request Nat} {passed : List Nat}
    {frames : List Frame} (hframes : s.frames = .call request passed :: frames) {reply : Reply}
    (haccepts : request.accepts reply = true) :
    outward (s.step (.reply reply)).2 = [.answers (reply.tagged (tagsOf s.layers))] := by
  have hids := map_fst_viewOf Role.tag? s.layers
  have hpassed : passed = (viewOf Role.tag? s.layers).reverse.map Prod.fst := by
    rw [List.map_reverse, hids]
    exact hs.routed request passed (hframes ▸ List.mem_cons_self)
  have hgiven := Passage.snd_foldl_settle request ({ layers := s.layers }, reply)
    (hids ▸ hs.nodup) fun entry hentry => List.mem_reverse.1 hentry
  rw [← hpassed, List.filterMap_reverse, List.reverse_reverse] at hgiven
  have hquiet := Passage.outward_foldl_settle request passed ({ layers := s.layers }, reply)
  simp only [Stack.step, onReply, hframes, haccepts, if_true, Passage.climb, Passage.note,
    outward_append, hquiet, hgiven]
  rfl

end Stack

/-! ### The way through the layers -/

/-- The layer that a call or an event comes to, if one comes to a layer. -/
def Happening.reached? : Happening → Option Nat
  | .enters layer _ | .arrives layer _ _ => some layer
  | _ => none

/-- The layers that calls and events come to during some moments, in this order. -/
def route (moments : List Moment) : List Nat := moments.filterMap fun m => m.what.reached?

namespace Passage

/-- What happens next may be that a call or an event comes to a layer. -/
@[simp] theorem route_note (p : Passage) (what : Happening) :
    route (p.note what).moments = route p.moments ++ what.reached?.toList := by
  cases h : what.reached? <;> simp [route, note, h]

/-- A commit is no stop on the way of an event. -/
theorem route_commit (p : Passage) (id : Nat) (e : Enforcer) (c : Commit) :
    route (p.commit id e c).moments = route p.moments := by
  unfold commit
  split
  · split <;> simp [Happening.reached?]
  · simp [Happening.reached?]

/-- Nor is a report. -/
theorem route_report (p : Passage) (id : Nat) (reporter : Reporter) (v : Violation) :
    route (p.report id reporter v).moments = route p.moments := by
  unfold report
  split <;> simp [Happening.reached?]

/-- An event that passes an enforcer has come to that layer, and to no other. -/
theorem route_watch (p : Passage) (id : Nat) (e : Enforcer) (event : Event) (cookie : Int32) :
    route (p.watch id e event cookie).moments = route p.moments ++ [id] := by
  simp only [watch]
  rw [route_note, route_commit]
  split
  · simp [route_report, Happening.reached?]
  · simp [Happening.reached?]

/-- An event comes to the enforcers that look at it one after the other. -/
theorem route_foldl_rise (event : Event) (cookie : Int32) {watchers : List Nat} {p : Passage}
    (h : ∀ id ∈ watchers, p.Enforces id) :
    route (watchers.foldl (rise event cookie) p).moments = route p.moments ++ watchers := by
  induction watchers generalizing p with
  | nil => exact (List.append_nil _).symm
  | cons k watchers ih =>
    have hrest : ∀ id ∈ watchers, (rise event cookie p k).Enforces id := fun id hid =>
      (turns_foldl_rise event cookie [k] p).enforces (h id (List.mem_cons_of_mem _ hid))
    obtain ⟨e, hrole⟩ := h k List.mem_cons_self
    rw [List.foldl_cons, ih hrest, rise, hrole]
    simp [route_watch]

end Passage

/-- A call that is still on its way comes to the next layer. -/
theorem Descent.route_enter {d : Descent} (hd : d.swallowed = false) (layer : Layer) :
    route (d.enter layer).passage.moments = route d.passage.moments ++ [layer.id] := by
  have hcounted : ∀ (p : Passage) (f : Role → Role),
      route (p.modifyRole layer.id f).moments = route p.moments := fun _ _ => rfl
  unfold enter
  simp only [hd, Bool.false_eq_true, if_false]
  cases layer.role with
  | enforcer e => simp [Happening.reached?]
  | relay r =>
    dsimp only
    split <;> simp [hcounted, Happening.reached?]

/-- **A call that is not answered on its way down comes to each layer once, from the outermost one
down.** -/
theorem Descent.route_foldl_enter (layers : List Layer) (d : Descent)
    (h : (layers.foldl enter d).swallowed = false) :
    route (layers.foldl enter d).passage.moments =
      route d.passage.moments ++ layers.map Layer.id := by
  induction layers generalizing d with
  | nil => exact (List.append_nil _).symm
  | cons layer layers ih =>
    obtain ⟨hd, -⟩ := swallowed_eq_false_of_foldl h
    rw [List.foldl_cons, ih _ h, route_enter hd]
    simp

namespace Stack

variable {s : Stack}

/-- **A call that arrives below comes to the layers from the outermost one down.** -/
theorem route_call {request : Request String} (hadmits : s.admits request = true)
    (hopen : (descend s.layers request).swallowed = false) :
    route (s.step (.call request)).2 = s.layers.map Layer.id := by
  simp only [step, onCall, hadmits, hopen, Bool.not_true, Bool.false_eq_true, if_false,
    Passage.route_note]
  rw [descend, Descent.route_foldl_enter _ _ hopen]
  simp [route, Happening.reached?]

/-- **An event comes to the enforcers from the innermost one up.** -/
theorem Threaded.route_event (hs : s.Threaded) {ticket : Nat} (hticket : ticket < s.issued.length)
    (event : Event) (cookie : Int32) :
    route (s.step (.event ticket event cookie)).2 = enforcersOf s.layers := by
  have hcallback : s.issued[ticket]? = some s.issued[ticket] := List.getElem?_eq_getElem hticket
  have henforces : ∀ id ∈ enforcersOf s.layers, ({ layers := s.layers } : Passage).Enforces id := by
    intro id hid
    obtain ⟨layer, hlayer, heq⟩ := List.mem_map.1 (mem_enforcersOf.1 hid)
    obtain ⟨rfl, henforcer⟩ := Prod.mk.inj heq
    have hrole := roleAt?_of_mem hs.nodup hlayer
    cases hkind : layer.role with
    | enforcer e => exact ⟨e, hrole.trans (congrArg some hkind)⟩
    | relay r =>
      rw [hkind] at henforcer
      cases henforcer
  simp only [Stack.step, onEvent, hcallback, Passage.route_note,
    hs.wired _ (List.getElem_mem hticket), Passage.route_foldl_rise event cookie henforces]
  simp [route, Happening.reached?]

/-! ### All that the order of the plans settles -/

/-- No relay answers a call for the properties. -/
theorem swallowed_descend_properties (layers : List Layer) :
    (descend layers .properties).swallowed = false := by
  cases hswallowed : (descend layers .properties).swallowed with
  | false => rfl
  | true =>
    obtain ⟨_, _, _, _, _, -, -, hcall, -⟩ := exists_of_swallowed_descend hswallowed
    cases hcall

/-- What comes of a call for the properties, whatever happens while it is under way. -/
theorem Threaded.outward_properties (hs : s.Threaded) (hadmits : s.admits .properties = true)
    {within : List Move} (hcontains : (s.step (.call .properties)).1.Contains within) :
    let called := s.step (.call .properties)
    let inside := (called.1.run within).1
    outward called.2 = [.calls .properties] ∧
    (∀ p : Properties, outward (inside.step (.reply (.properties p))).2 =
      [.answers (.properties
        { p with description := describe (tagsOf s.layers) p.description })]) ∧
    ∀ e, outward (inside.step (.reply (.failed e))).2 = [.answers (.failed e)] := by
  intro called inside
  have hopen := swallowed_descend_properties s.layers
  have hcalled : called.1.frames = .call .properties (descend s.layers .properties).passed ::
      s.frames := by
    simp only [called, Stack.step, onCall, hadmits, hopen, Bool.not_true, Bool.false_eq_true,
      if_false, map_descend]
    rfl
  have hframes : inside.frames = _ := hcontains.2.trans hcalled
  have hinside : inside.Threaded := (hs.step _).run within
  have htags : tagsOf inside.layers = tagsOf s.layers := by
    rw [tagsOf, viewOf_run lasting_tag?, viewOf_step lasting_tag?, ← tagsOf]
  refine ⟨outward_call hadmits hopen, fun p => ?_, fun e => ?_⟩
  · rw [hinside.outward_reply hframes rfl, htags]
    rfl
  · rw [hinside.outward_reply hframes rfl]
    rfl

/-- **The order of the plans is the order of the layers,** for calls on their way down and for the
tags on a description.  The plans are carried out from the last one to the first, each once and on
what those after it have made, so a list of plans may be carried out in two parts, the later part
first.  In every state that a run leads to, the properties come to the caller as the implementation
gives them, but for the tags of the relays, in the order of the plans and each followed by a slash,
in front of the description; a failure comes as it is.  Calls that are passed on come to the layers
in the order of the plans, and events come to the enforcers among them the other way round. -/
theorem plans_in_order :
    (∀ {m : Type → Type} [Monad m] [LawfulMonad m] {H : Type} (xs ys : List (H → m H)) (base : H),
      assemble (xs ++ ys) base = assemble ys base >>= fun below => assemble xs below) ∧
    (∀ {σ H : Type} (steps : List (H → StateM σ H)) (base : H) (state : σ),
      (assemble (steps.zipIdx.map traced) base).run (state, []) =
        let out := (assemble steps base).run state
        (out.1, out.2, (List.range steps.length).reverse.map fun place =>
          (place, ((assemble (steps.drop (place + 1)) base).run state).1))) ∧
    (∀ xs ys : List LayerPlan, layersOf (xs ++ ys) =
      (assemble (xs.map LayerPlan.build) (layersOf ys).1).run (layersOf ys).2) ∧
    ∀ (plans : List LayerPlan) (moves : List Move),
      let layers := (layersOf plans).1
      let s := ((fresh layers).run moves).1
      layers.map Layer.role = plans.map LayerPlan.role ∧
      (∀ within,
        let called := s.step (.call .properties)
        let inside := (called.1.run within).1
        s.admits .properties = true → called.1.Contains within →
          outward called.2 = [.calls .properties] ∧
          (∀ p : Properties, outward (inside.step (.reply (.properties p))).2 =
            [.answers (.properties { p with
              description :=
                describe (plans.filterMap fun plan => plan.role.tag?) p.description })]) ∧
          ∀ e, outward (inside.step (.reply (.failed e))).2 = [.answers (.failed e)]) ∧
      ((∀ plan ∈ plans, plan.Forwards) → ∀ request, s.admits request = true →
        outward (s.step (.call request)).2 = [.calls (request.map fun _ => s.issued.length)] ∧
        route (s.step (.call request)).2 = layers.map Layer.id) ∧
      ∀ ticket event cookie, ticket < s.issued.length →
        route (s.step (.event ticket event cookie)).2 =
          ((layers.filter fun layer => layer.role.isEnforcer).map Layer.id).reverse := by
  refine ⟨assemble_append, fun steps base state => ?_, ?_, ?_⟩
  · simpa using assemble_traced steps base state 0 []
  · intro xs ys
    rw [layersOf, List.map_append, assemble_append]
    rfl
  · intro plans moves layers s
    have hs : s.Threaded := (threaded_fresh plans).run moves
    have hids : s.layers.map Layer.id = layers.map Layer.id := ids_run (fresh layers) moves
    have htags : tagsOf s.layers = plans.filterMap fun plan => plan.role.tag? := by
      rw [tagsOf, viewOf_run lasting_tag?, ← tagsOf]
      exact tagsOf_layersOf plans
    refine ⟨roles_layersOf plans, ?_, ?_, ?_⟩
    · intro within called inside hadmits hcontains
      rw [← htags]
      exact hs.outward_properties hadmits hcontains
    · intro hforwards request hadmits
      have hopen := swallowed_descend ((orderly_fresh hforwards).run moves).forwards request
      exact ⟨outward_call hadmits hopen, (route_call hadmits hopen).trans hids⟩
    · intro ticket event cookie hticket
      rw [hs.route_event hticket, enforcersOf_run]
      simp [enforcersOf, kindsOf, layers, fresh, List.filter_map, Function.comp_def]

/-- Relays among enforcers: an event comes while the properties are asked for. -/
theorem plans_in_order_mixed :
    let plans : List LayerPlan :=
      [.enforcer {}, .relay { tag := "outer" }, .enforcer {}, .relay { tag := "inner" }]
    let s := ((fresh (layersOf plans).1).run
      [.call (.load (.generic {}) "client" 0), .reply (.handle 1)]).1
    let event : Event := .generic { model := 1 } []
    let called := (s.step (.call .properties)).1
    let inside := (called.run [.event 0 event 7, .finish]).1
    (∀ plan ∈ plans, plan.Forwards) ∧ s.admits .properties = true ∧
      called.Contains [.event 0 event 7, .finish] ∧
      outward (inside.step (.reply (.properties { description := "base" }))).2 =
        [.answers (.properties { description := "outer/inner/base" })] ∧
      s.admits (.stop 1) = true ∧ route (s.step (.call (.stop 1))).2 = [3, 2, 1, 0] ∧
      route (s.step (.event 0 event 7)).2 = [1, 3] := by
  intro plans s event called inside
  have hforwards : ∀ plan ∈ plans, plan.Forwards := by
    simp [plans, LayerPlan.Forwards, LayerPlan.role, Role.Forwards]
  have hasks : s.admits .properties = true := by decide
  have hstops : s.admits (.stop 1) = true := by decide
  have hcontains : called.Contains [.event 0 event 7, .finish] := by decide
  obtain ⟨-, -, -, hplans⟩ := plans_in_order
  obtain ⟨-, hproperties, hcalls, hevents⟩ :=
    hplans plans [.call (.load (.generic {}) "client" 0), .reply (.handle 1)]
  obtain ⟨-, hgiven, -⟩ := hproperties _ hasks hcontains
  refine ⟨hforwards, hasks, hcontains, (hgiven _).trans ?_, hstops,
    (hcalls hforwards _ hstops).2, (hevents 0 event 7 (by decide)).trans (by decide)⟩
  decide

end Stack
end TriggerWatch
