/-
# Calls from inside a callback

A client may call while it is being told of an event.  By then every enforcer has written down what
the event does to its table, and it does nothing more about that event.  So what the client does
from inside its callback is as good as what it does when the callback is over:
`Stack.reentrant_eq_deferred`.
-/

import TriggerWatch.Proofs.Enclosure
import TriggerWatch.Proofs.Lockstep

namespace TriggerWatch
namespace Stack

variable {s : Stack}

/-! ### Calls of a client that is told of an event -/

/-- Being busy is a matter of what is under way, and of nothing else. -/
theorem busy_congr {s' : Stack} (h : s'.frames = s.frames) : s'.busy = s.busy := by
  rw [busy, h, busy]

/-- An event makes no stack busy: it puts a callback on top, and no call. -/
theorem busy_event (hbusy : s.busy = false) {ticket : Nat} {callback : Callback}
    (hcallback : s.issued[ticket]? = some callback) (event : Event) (cookie : Int32) :
    (s.step (.event ticket event cookie)).1.busy = false := by
  rw [busy, frames_event hcallback event cookie]
  simpa [busy] using hbusy

/-- A call and its reply happen within what is under way. -/
theorem contains_exchange (hs : s.Orderly) {request : Request String} {reply : Reply}
    (hadmits : s.admits request = true) (haccepts : request.accepts reply = true) :
    s.Contains [.call request, .reply reply] := by
  have hcall := congrArg (fun out => out.1.frames) (hs.step_call hadmits)
  have haccepts' : (request.map fun _ => s.issued.length).accepts reply = true :=
    (Request.accepts_map _ request reply).trans haccepts
  have hreply := frames_reply hcall haccepts'
  refine ⟨⟨List.suffix_rfl, ?_, ?_⟩, hreply⟩
  · exact hcall ▸ List.suffix_cons _ s.frames
  · exact hreply ▸ List.suffix_rfl

/-- Calls with their replies, one after the other. -/
def exchanges (calls : List (Request String × Reply)) : List Move :=
  calls.flatMap fun call => [.call call.1, .reply call.2]

/-- **A client that is told of an event may make any calls.** -/
theorem contains_exchanges (hs : s.Orderly) (hbusy : s.busy = false)
    {calls : List (Request String × Reply)} (h : ∀ call ∈ calls, call.1.accepts call.2 = true) :
    s.Contains (exchanges calls) := by
  induction calls generalizing s with
  | nil => exact ⟨List.suffix_rfl, rfl⟩
  | cons call calls ih =>
    have hfirst := contains_exchange hs (admits_of_not_busy hbusy call.1)
      (h call List.mem_cons_self)
    refine hfirst.append (ih (hs.run _) ?_ fun other hother =>
      h other (List.mem_cons_of_mem _ hother))
    rw [busy_congr hfirst.2, hbusy]

/-! ### A model that is started again -/

/-- What is due if the client starts a model from inside the callback for an event of it. -/
theorem due_restart (hs : s.Orderly) (hbusy : s.busy = false) {ticket : Nat} {callback : Callback}
    (hcallback : s.issued[ticket]? = some callback) (event : Event) (cookie : Int32)
    (config : RecognitionConfig) (client : String) (given : Int32) :
    s.due [.event ticket event cookie, .call (.start event.model config client given),
      .reply .done, .finish] = [.event event.model event.status, .started event.model] := by
  have hlt : ticket < s.issued.length := (List.getElem?_eq_some_iff.1 hcallback).1
  have hcall := congrArg (fun out => out.1.frames) ((hs.step (.event ticket event cookie)).step_call
    (admits_of_not_busy (busy_event hbusy hcallback event cookie)
      (.start event.model config client given)))
  simp only [due, due?, if_pos hlt, hcall]
  rfl

/-- A restart from within the callback of the event, or right after it: the model is armed, if it is
tracked. -/
theorem get?_commitAll_restart (t : ModelTable) (h : ModelHandle) (status : Status) :
    (t.commitAll [.event h status, .started h]).get? h = (t.get? h).map fun _ => .armed := by
  simp only [ModelTable.commitAll_cons, ModelTable.commitAll_nil, ModelTable.get?_commit]
  cases hforced : status.isForced <;> simp [Commit.effect, hforced, Function.comp_def]

/-- An armed model stays armed as long as nothing is written down that ends its recognition. -/
theorem get?_commitAll_of_armed {t : ModelTable} {h : ModelHandle} {cs : List Commit}
    (harmed : t.get? h = some .armed)
    (hcs : ∀ c ∈ cs, c.effect h (some .armed) = some .armed) :
    (t.commitAll cs).get? h = some .armed := by
  induction cs generalizing t with
  | nil => exact harmed
  | cons c cs ih =>
    refine ih ?_ fun other hother => hcs other (List.mem_cons_of_mem _ hother)
    rw [ModelTable.get?_commit, harmed]
    exact hcs c List.mem_cons_self

/-- No enforcer reports an event of a model that is armed. -/
theorem violations_event_of_armed {t : ModelTable} (heven : s.Even t) (hs : s.Orderly)
    (ticket : Nat) {event : Event} (harmed : t.get? event.model = some .armed) (cookie : Int32) :
    violations (s.step (.event ticket event cookie)).2 = [] := by
  cases hcallback : s.issued[ticket]? with
  | none => simp [step, onEvent, hcallback, violations]
  | some callback =>
    obtain ⟨before, hout, hviolations⟩ := violations_event heven hs hcallback event cookie
    rw [if_pos harmed] at hviolations
    rw [hout, violations, List.filterMap_append, ← violations, hviolations]
    rfl

/-- **The next event of an armed model is not reported,** unless something else has ended the
recognition by then. -/
theorem Even.violations_of_armed {t : ModelTable} (heven : s.Even t) (hs : s.Orderly)
    {h : ModelHandle} (harmed : t.get? h = some .armed) {meanwhile : List Move}
    (hspares : ∀ id ∈ enforcersOf s.layers, ∀ c ∈ commits id (s.run meanwhile).2,
      c.effect h (some .armed) = some .armed)
    (ticket : Nat) {event : Event} (hmodel : event.model = h) (cookie : Int32) :
    violations ((s.run meanwhile).1.step (.event ticket event cookie)).2 = [] := by
  have hlater : ∃ u, (s.run meanwhile).1.Even u ∧ u.get? h = some .armed := by
    cases hids : enforcersOf s.layers with
    | nil =>
      -- without enforcers there is no table that could say otherwise
      refine ⟨t, fun id hid => ?_, harmed⟩
      rw [enforcersOf_run, hids] at hid
      exact absurd hid List.not_mem_nil
    | cons id ids =>
      have hid : id ∈ enforcersOf s.layers := hids ▸ List.mem_cons_self
      obtain ⟨reporter, hhas⟩ := heven id hid
      have hdue := (hhas.run_due hs meanwhile).1
      exact ⟨_, heven.run hs meanwhile, get?_commitAll_of_armed harmed (hdue ▸ hspares id hid)⟩
  obtain ⟨u, hu, harmed⟩ := hlater
  exact violations_event_of_armed hu (hs.run meanwhile) ticket (hmodel ▸ harmed) cookie

/-- What a client does within the callback for an event may be done after it. -/
theorem run_event_comm (hbusy : s.busy = false) {ticket : Nat} {callback : Callback}
    (hcallback : s.issued[ticket]? = some callback) {event : Event} {cookie : Int32}
    {session : List Move} (hsession : (s.step (.event ticket event cookie)).1.Contains session) :
    s.run (.event ticket event cookie :: session ++ [.finish]) =
      s.run (.event ticket event cookie :: .finish :: session) := by
  have hdelivered : (s.step (.event ticket event cookie)).1 =
      ({ (s.step (.event ticket event cookie)).1 with frames := s.frames } : Stack).withFrames
        (.callback callback.client :: s.frames) := by
    rw [withFrames, ← frames_event hcallback event cookie]
  rw [hdelivered] at hsession
  have hcomm := run_finish_comm (s := { (s.step (.event ticket event cookie)).1 with
    frames := s.frames }) hbusy hsession
  rw [List.cons_append, run_cons, run_cons, hdelivered]
  rw [hcomm]

/-- **What a client does from inside its callback might as well be done right after it,** in a stack
of enforcers, if the event came while no call was under way.  The stack is the same afterwards, and
so is all that has happened; this is so for any calls of the client, and also if more events come
from within them.  In particular, every enforcer has a model armed that was started again from
inside the callback for an event of it, if it tracks that model, and does not report its next
event, unless something else has ended the recognition by then. -/
theorem reentrant_eq_deferred (plans : List EnforcerPlan) (moves : List Move) :
    let layers := (layersOf (plans.map .enforcer)).1
    let s := ((fresh layers).run moves).1
    s.busy = false → ∀ ticket callback event cookie, s.issued[ticket]? = some callback →
      (∀ session, (s.step (.event ticket event cookie)).1.Contains session →
        s.run (.event ticket event cookie :: session ++ [.finish]) =
          s.run (.event ticket event cookie :: .finish :: session)) ∧
      (∀ calls, (∀ call ∈ calls, call.1.accepts call.2 = true) →
        (s.step (.event ticket event cookie)).1.Contains (exchanges calls)) ∧
      ∀ config client given,
        let restarted := (s.run [.event ticket event cookie,
          .call (.start event.model config client given), .reply .done, .finish]).1
        ∃ t t', (∀ id ∈ enforcersOf layers, s.table? id = some t ∧ restarted.table? id = some t') ∧
          t'.get? event.model = ((t.get? event.model).map fun _ => .armed) ∧
          (t.get? event.model ≠ none → ∀ meanwhile,
            (∀ id ∈ enforcersOf layers, ∀ c ∈ commits id (restarted.run meanwhile).2,
              c.effect event.model (some .armed) = some .armed) →
            ∀ ticket' next cookie', next.model = event.model →
              violations ((restarted.run meanwhile).1.step (.event ticket' next cookie')).2 =
                []) := by
  intro layers s hbusy ticket callback event cookie hcallback
  obtain ⟨hs, henforcers, t, heven⟩ := exists_even (forwards_enforcers plans) moves
  change enforcersOf s.layers = enforcersOf layers at henforcers
  refine ⟨fun session hsession => run_event_comm hbusy hcallback hsession, fun calls hcalls => ?_,
    fun config client given => ?_⟩
  · exact contains_exchanges (hs.step _) (busy_event hbusy hcallback event cookie) hcalls
  · intro restarted
    have hafter := heven.run hs [.event ticket event cookie,
      .call (.start event.model config client given), .reply .done, .finish]
    rw [due_restart hs hbusy hcallback event cookie config client given] at hafter
    have hget := get?_commitAll_restart t event.model event.status
    -- All that matters of the new table is what it says about this one model.
    generalize t.commitAll [.event event.model event.status, .started event.model] = t'
      at hafter hget
    have henforcers' : enforcersOf restarted.layers = enforcersOf layers :=
      (enforcersOf_run s _).trans henforcers
    refine ⟨t, t', fun id hid => ⟨heven.table? (henforcers ▸ hid), hafter.table? ?_⟩, hget, ?_⟩
    · exact henforcers' ▸ hid
    · intro htracked meanwhile hspares ticket' next cookie' hnext
      obtain ⟨state, hstate⟩ := Option.ne_none_iff_exists'.1 htracked
      have harmed : t'.get? event.model = some .armed := by rw [hget, hstate]; rfl
      exact hafter.violations_of_armed (hs.run _) harmed (henforcers'.symm ▸ hspares) ticket' hnext
        cookie'

/-- Two enforcers: a client starts its model again, after a call that fails, from inside the
callback for the event that has ended the recognition. -/
theorem reentrant_eq_deferred_restart :
    let plans : List EnforcerPlan := [{ recorder := some "outer" }, {}]
    let s := ((fresh (layersOf (plans.map .enforcer)).1).run
      [.call (.load (.generic {}) "client" 0), .reply (.handle 1),
        .call (.start 1 {} "client" 0), .reply .done]).1
    let event : Event := .generic { model := 1 } []
    let session : List Move := [.call (.stop 1), .reply (.failed .deadObject),
      .call (.start 1 {} "client" 0), .reply .done]
    let restarted := (s.run [.event 1 event 7, .call (.start event.model {} "client" 0),
      .reply .done, .finish]).1
    s.busy = false ∧ s.issued[1]? = some { client := "client", watchers := [0, 1] } ∧
      (s.step (.event 1 event 7)).1.Contains session ∧
      s.run (.event 1 event 7 :: session ++ [.finish]) =
        s.run (.event 1 event 7 :: .finish :: session) ∧
      violations (restarted.step (.event 0 event 8)).2 = [] := by
  intro plans s event session restarted
  have hbusy : s.busy = false := by decide
  have hissued : s.issued[1]? = some { client := "client", watchers := [0, 1] } := by decide
  have hsession : (s.step (.event 1 event 7)).1.Contains session := by decide
  obtain ⟨hcomm, -, hrestart⟩ := reentrant_eq_deferred plans
    [.call (.load (.generic {}) "client" 0), .reply (.handle 1),
      .call (.start 1 {} "client" 0), .reply .done] hbusy 1 _ event 7 hissued
  obtain ⟨t, t', htables, -, hquiet⟩ := hrestart {} "client" 0
  have htable : s.table? 0 = some (ModelTable.insert {} 1 .armed) := by decide
  obtain rfl : ModelTable.insert {} 1 .armed = t :=
    Option.some.inj (htable.symm.trans (htables 0 (by decide)).1)
  have hnext := hquiet (by decide) [] (fun _ _ c hc => absurd hc List.not_mem_nil) 0 event 8 rfl
  simp only [run_nil] at hnext
  exact ⟨hbusy, hissued, hsession, hcomm session hsession, hnext⟩

end Stack
end TriggerWatch
