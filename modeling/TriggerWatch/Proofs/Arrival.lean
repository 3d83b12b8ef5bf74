/-
# What an event does

An event that the implementation sends through any of the callbacks it has been given comes to each
enforcer once (`Stack.watchers_split`), and what the enforcer makes of it is its account of that one
visit.  So the reports and the new table follow from the old table and what the event says of
itself, and the callback that carries the event plays no part: `Stack.event_reported`.
-/

import TriggerWatch.Proofs.Chronicle

namespace TriggerWatch

open Visit (commitAccount reportAccount)

/-- The violations that a layer reports during some moments, each with the reporter it tells and the
table at that instant. -/
def reports (id : Nat) (moments : List Moment) :
    List (Reporter × Violation × Option ModelTable) :=
  (account id moments).filterMap fun entry =>
    match entry.1 with
    | .reports _ reporter v => some (reporter, v, entry.2.map Cell.table)
    | _ => none

/-- The events that a layer hands on during some moments, each with the table at that instant. -/
def handed (id : Nat) (moments : List Moment) : List (Event × Int32 × Option ModelTable) :=
  (account id moments).filterMap fun entry =>
    match entry.1 with
    | .hands _ event cookie => some (event, cookie, entry.2.map Cell.table)
    | _ => none

section

variable {id : Nat} {reporter : Reporter} {t : ModelTable} {moments : List Moment} {event : Event}
  {cookie : Int32}

/-- **An event is reported if its model is not armed on arrival, and otherwise not.** -/
theorem reports_event
    (h : account id moments = told ((Visit.event event cookie).account id reporter t)) :
    reports id moments = if t.get? event.model = some .armed then [] else
      [(reporter,
        { kind := event.kind, model := event.model, observed := t.get? event.model,
          status := event.status }, some t)] := by
  rw [reports, h]
  by_cases harmed : t.get? event.model = some .armed
  · simp [Visit.account, Visit.opening, Visit.sequel, Enforcer.judge, harmed, commitAccount,
      Enforcer.commitRecord?]
  · cases hrecord : reporter.record?
        { kind := event.kind, model := event.model, observed := t.get? event.model,
          status := event.status } <;>
      simp [Visit.account, Visit.opening, Visit.sequel, Enforcer.judge, harmed, commitAccount,
        Enforcer.commitRecord?, reportAccount, hrecord]

/-- An event is handed on once, when the table has changed already. -/
theorem handed_event
    (h : account id moments = told ((Visit.event event cookie).account id reporter t)) :
    handed id moments = [(event, cookie, some (t.commit (.event event.model event.status)))] := by
  rw [handed, h]
  cases hjudge : Enforcer.judge event (t.get? event.model) with
  | none =>
    simp [Visit.account, Visit.opening, Visit.sequel, hjudge, commitAccount, Enforcer.commitRecord?]
  | some v =>
    cases hrecord : reporter.record? v <;>
      simp [Visit.account, Visit.opening, Visit.sequel, hjudge, commitAccount,
        Enforcer.commitRecord?, reportAccount, hrecord]

end

namespace Stack

variable {s : Stack} {id : Nat} {reporter : Reporter} {t : ModelTable}

/-- **Each enforcer looks once at what comes through a callback.** -/
theorem watchers_split (outer : List LayerPlan) (plan : EnforcerPlan) (inner : List LayerPlan)
    (moves : List Move) {callback : Callback}
    (h : callback ∈ ((fresh (layersOf (outer ++ .enforcer plan :: inner)).1).run moves).1.issued) :
    ∃ below above, callback.watchers = below ++ inner.length :: above ∧
      inner.length ∉ below ∧ inner.length ∉ above := by
  have hwatchers := wired_run _ moves callback h
  rw [enforcersOf_congr (kindsOf_run _ moves)] at hwatchers
  have hnodup : callback.watchers.Nodup := hwatchers ▸ nodup_enforcersOf (nodup_layersOf _)
  have hmem : inner.length ∈ callback.watchers := by
    rw [hwatchers, mem_enforcersOf]
    exact Passage.mem_kindsOf_of_role? (p := { layers := _ }) (has_fresh outer plan inner).role
  exact exists_split_of_mem hnodup hmem

/-- What an event shows of an enforcer that looks at it once. -/
theorem Has.shows_foldl_rise (h : s.Has id reporter t) {below above : List Nat}
    (hbelow : id ∉ below) (habove : id ∉ above) (event : Event) (cookie : Int32) :
    ((below ++ id :: above).foldl (Passage.rise event cookie) { layers := s.layers }).Shows id
      { reporter, cell := { table := t.commit (.event event.model event.status) } }
      (told ((Visit.event event cookie).account id reporter t)) := by
  have hstart : ({ layers := s.layers } : Passage).Shows id
      { reporter, cell := { table := t } } [] := ⟨h.role, rfl⟩
  rw [List.foldl_append, List.foldl_cons]
  exact (hstart.foldl_rise_other event cookie hbelow).rise_own event cookie |>.foldl_rise_other
    event cookie habove

/-- The same for the move as a whole, at whose end the client gets the event. -/
theorem Has.event (h : s.Has id reporter t) {ticket : Nat} {callback : Callback}
    (hcallback : s.issued[ticket]? = some callback) {below above : List Nat}
    (hwatchers : callback.watchers = below ++ id :: above) (hbelow : id ∉ below)
    (habove : id ∉ above) (event : Event) (cookie : Int32) :
    let out := s.step (.event ticket event cookie)
    account id out.2 = told ((Visit.event event cookie).account id reporter t) ∧
      out.1.table? id = some (t.commit (.event event.model event.status)) ∧
      ∃ before m, out.2 = before ++ [m] ∧ m.what = .notifies callback.client event cookie ∧
        m.table? id = some (t.commit (.event event.model event.status)) := by
  have hrisen := h.shows_foldl_rise hbelow habove event cookie
  have hdone := hrisen.note_other (.notifies callback.client event cookie)
    (Option.some_ne_none id).symm
  have hcell := find?_cellsOf hrisen.role
  simp only [step, onEvent, hcallback, hwatchers]
  refine ⟨hdone.account, ?_, _, _, rfl, rfl, ?_⟩
  · exact table?_of_role (e := { reporter, cell := { table := _ } }) hrisen.role
  · rw [Moment.table?, Moment.cell?, hcell]
    rfl

/-- **What an enforcer makes of an event depends on its table and on the event alone.**  In whatever
way the stack has come to be as it is, and whichever of its callbacks carries the event: if the
model is not armed on arrival, there is one report, which says so and finds the table as it was;
then the event is handed on, and only the entry of its model has changed by then. -/
theorem event_reported (outer : List LayerPlan) (plan : EnforcerPlan) (inner : List LayerPlan)
    (moves : List Move) :
    let s := ((fresh (layersOf (outer ++ .enforcer plan :: inner)).1).run moves).1
    let id := inner.length
    ∃ t, s.table? id = some t ∧ ∀ event : Event, ∃ t',
      (∀ h, h ≠ event.model → t'.get? h = t.get? h) ∧
      t'.get? event.model = (if event.status = .forced then t.get? event.model
        else (t.get? event.model).map fun _ => .idle) ∧
      ∀ ticket callback cookie, s.issued[ticket]? = some callback →
        let out := s.step (.event ticket event cookie)
        account id out.2 = told ((Visit.event event cookie).account id plan.reporter t) ∧
        reports id out.2 = (if t.get? event.model = some .armed then [] else
          [(plan.reporter,
            { kind := event.kind, model := event.model, observed := t.get? event.model,
              status := event.status }, some t)]) ∧
        handed id out.2 = [(event, cookie, some t')] ∧
        out.1.table? id = some t' ∧
        ∃ before m, out.2 = before ++ [m] ∧ m.what = .notifies callback.client event cookie ∧
          m.table? id = some t' := by
  intro s id
  have hhas := (run_chronicle (has_fresh outer plan inner) moves).2
  generalize Visit.afterAll {} _ = t at hhas
  refine ⟨t, hhas.table?, fun event => ⟨t.commit (.event event.model event.status), ?_, ?_, ?_⟩⟩
  · intro h hne
    rw [ModelTable.get?_commit]
    simp [Commit.effect, hne]
  · rw [ModelTable.get?_commit]
    by_cases hforced : event.status = .forced <;>
      simp [Commit.effect, Status.isForced, hforced]
  · intro ticket callback cookie hcallback
    obtain ⟨below, above, hwatchers, hbelow, habove⟩ :=
      watchers_split outer plan inner moves (List.mem_of_getElem? hcallback)
    obtain ⟨haccount, htable, hnotified⟩ :=
      hhas.event hcallback hwatchers hbelow habove event cookie
    exact ⟨haccount, reports_event haccount, handed_event haccount, htable, hnotified⟩

/-- An event that comes before its model was started is reported. -/
theorem event_reported_before_start :
    let s := ((fresh (layersOf [.enforcer {}]).1).run
      [.call (.load (.generic {}) "client" 0), .reply (.handle 1)]).1
    let t := ModelTable.insert {} 1 .idle
    s.issued[0]? = some { client := "client", watchers := [0] } ∧ s.table? 0 = some t ∧
      reports 0 (s.step (.event 0 (.generic { model := 1 } []) 7)).2 =
        [(.journal {}, { kind := .recognition, model := 1, observed := some .idle,
                         status := .success }, some t)] := by
  intro s t
  have hissued : s.issued[0]? = some { client := "client", watchers := [0] } := by decide
  have htable : s.table? 0 = some t := by decide
  obtain ⟨t₀, ht₀, hevent⟩ := event_reported [] {} []
    [.call (.load (.generic {}) "client" 0), .reply (.handle 1)]
  obtain rfl : t = t₀ := Option.some.inj (htable.symm.trans ht₀)
  obtain ⟨_, -, -, hreported⟩ := hevent (.generic { model := 1 } [])
  exact ⟨hissued, htable, (hreported 0 _ 7 hissued).2.1⟩

end Stack
end TriggerWatch
