/-
# Enforcers on top of one another agree

Two enforcers of one stack see the same calls and events, one after the other: the inner one first,
on the way up.  So in the middle of a move their tables may differ, but when the move is over, and
the client or the implementation has the say again, they are the same table.  It follows that the
enforcers find an event expected or not expected all together.

`Stack.violations_event` and `Stack.logged_load` give the reports and warnings of a whole stack, in
their order, and `Stack.lockstep` puts this together for every stack of enforcers and relays that
pass every call on.
-/

import TriggerWatch.Proofs.Due

namespace TriggerWatch

/-- The violation that is reported, and the layer that reports it, if something is reported. -/
def Happening.violation? : Happening → Option (Nat × Violation)
  | .reports id _ v => some (id, v)
  | _ => none

/-- The record that is logged, and the layer that logs it, if something is logged. -/
def Happening.record? : Happening → Option (Nat × LogRecord)
  | .logs id record => some (id, record)
  | _ => none

/-- The violations that are reported during some moments, each with the layer that reports it. -/
def violations (moments : List Moment) : List (Nat × Violation) :=
  moments.filterMap fun m => m.what.violation?

/-- What is logged during some moments, each record with the layer that logs it. -/
def logged (moments : List Moment) : List (Nat × LogRecord) :=
  moments.filterMap fun m => m.what.record?

namespace Passage

variable {p : Passage} {id : Nat} {reporter : Reporter} {t : ModelTable}

/-- A happening adds the violation that it reports, if it is a report. -/
@[simp] theorem violations_note (p : Passage) (what : Happening) :
    violations (p.note what).moments = violations p.moments ++ what.violation?.toList := by
  cases h : what.violation? <;> simp [violations, note, h]

/-- A happening adds the record that it logs, if it logs one. -/
@[simp] theorem logged_note (p : Passage) (what : Happening) :
    logged (p.note what).moments = logged p.moments ++ what.record?.toList := by
  cases h : what.record? <;> simp [logged, note, h]

/-- Changing a cell is not itself a moment. -/
@[simp] theorem moments_modifyCell (p : Passage) (id : Nat) (f : Cell → Cell) :
    (p.modifyCell id f).moments = p.moments := rfl

/-! ### Reports of an event -/

/-- A commit reports nothing. -/
theorem violations_commit (p : Passage) (id : Nat) (e : Enforcer) (c : Commit) :
    violations (p.commit id e c).moments = violations p.moments := by
  unfold commit
  split
  · split <;> simp [Happening.violation?]
  · simp [Happening.violation?]

/-- A report is about one violation, whatever the reporter does with it. -/
theorem violations_report (p : Passage) (id : Nat) (reporter : Reporter) (v : Violation) :
    violations (p.report id reporter v).moments = violations p.moments ++ [(id, v)] := by
  unfold report
  split <;> simp [Happening.violation?]

/-- An enforcer reports an event as its table says. -/
theorem violations_rise (hrole : p.role? id = some (.enforcer { reporter, cell := { table := t } }))
    (event : Event) (cookie : Int32) :
    violations (rise event cookie p id).moments = violations p.moments ++
      (Enforcer.judge event (t.get? event.model)).toList.map fun v => (id, v) := by
  have hlook := Cell.look_of_atRest
    (show ({ table := t } : Cell).AtRest from ⟨rfl, rfl⟩) event.model
  rw [rise, hrole]
  simp only [watch, hlook]
  split
  · next v hjudge =>
    simp [violations_commit, violations_report, hjudge, Happening.violation?]
  · next hjudge => simp [violations_commit, hjudge, Happening.violation?]

/-- **Enforcers with one table report an event all together,** in the order in which they look. -/
theorem violations_foldl_rise (event : Event) (cookie : Int32) {watchers : List Nat}
    (hnodup : watchers.Nodup)
    (hroles : ∀ id ∈ watchers, ∃ reporter,
      p.role? id = some (.enforcer { reporter, cell := { table := t } })) :
    violations (watchers.foldl (rise event cookie) p).moments = violations p.moments ++
      watchers.flatMap fun id =>
        (Enforcer.judge event (t.get? event.model)).toList.map fun v => (id, v) := by
  induction watchers generalizing p with
  | nil => simp
  | cons k watchers ih =>
    obtain ⟨hk, hnodup⟩ := List.nodup_cons.1 hnodup
    obtain ⟨reporter, hrole⟩ := hroles k List.mem_cons_self
    have hrest : ∀ id ∈ watchers, ∃ reporter,
        (rise event cookie p k).role? id =
          some (.enforcer { reporter, cell := { table := t } }) := by
      intro id hid
      obtain ⟨reporter', hrole'⟩ := hroles id (List.mem_cons_of_mem _ hid)
      have hshows : p.Shows id { reporter := reporter', cell := { table := t } }
          (account id p.moments) := ⟨hrole', rfl⟩
      have hne : k ≠ id := fun heq => hk (heq ▸ hid)
      exact ⟨reporter', (hshows.rise_other hne event cookie).role⟩
    rw [List.foldl_cons, ih hnodup hrest, violations_rise hrole, List.append_assoc,
      List.flatMap_cons]

/-! ### Records of a reply -/

/-- A commit logs the reload warning if there is cause for one, and nothing else. -/
theorem logged_commit (p : Passage) (id : Nat) (e : Enforcer) (c : Commit) :
    logged (p.commit id e c).moments = logged p.moments ++
      (Enforcer.commitRecord? e.cell.table c).toList.map fun record => (id, record) := by
  unfold commit
  cases hrecord : Enforcer.commitRecord? e.cell.table c with
  | none => split <;> simp [Happening.record?]
  | some record =>
    have hwrites : c.writes = true := by
      cases c <;> first | rfl | cases hrecord
    simp [hwrites, Happening.record?]

/-- An enforcer logs what there is to be logged about a reply. -/
theorem logged_settle_enforcer {κ : Type} (request : Request κ) (reply : Reply)
    (hrole : p.role? id = some (.enforcer { reporter, cell := { table := t } })) :
    logged (settle request (p, reply) id).1.moments = logged p.moments ++
      ((request.commit? reply).bind (Enforcer.commitRecord? t)).toList.map
        fun record => (id, record) := by
  simp only [settle, hrole]
  cases request.commit? reply <;> simp [logged_commit, Happening.record?]

/-- A layer that is no enforcer logs nothing. -/
theorem logged_settle_relay {κ : Type} (request : Request κ) (reply : Reply)
    (hkind : (id, true) ∉ kindsOf p.layers) :
    logged (settle request (p, reply) id).1.moments = logged p.moments := by
  unfold settle
  dsimp only
  split
  · next e hrole => exact absurd (mem_kindsOf_of_role? hrole) hkind
  · simp [Happening.record?]
  · rfl

/-- **Enforcers with one table log the same about a reply,** in the order in which it passes
them. -/
theorem logged_foldl_settle {κ : Type} (request : Request κ) {kinds : List (Nat × Bool)}
    (hnodup : (kinds.map Prod.fst).Nodup) (pr : Passage × Reply)
    (henforcers : ∀ id, (id, true) ∈ kinds → ∃ reporter,
      pr.1.role? id = some (.enforcer { reporter, cell := { table := t } }))
    (hrelays : ∀ id, (id, false) ∈ kinds → (id, true) ∉ kindsOf pr.1.layers) :
    logged ((kinds.map Prod.fst).foldl (settle request) pr).1.moments = logged pr.1.moments ++
      ((kinds.filter Prod.snd).map Prod.fst).flatMap fun id =>
        ((request.commit? pr.2).bind (Enforcer.commitRecord? t)).toList.map
          fun record => (id, record) := by
  -- The induction is on the kinds, since the layers themselves change on the way.
  induction kinds generalizing pr with
  | nil => simp
  | cons kind kinds ih =>
    obtain ⟨k, enforces⟩ := kind
    rw [List.map_cons] at hnodup
    obtain ⟨hk, hnodup⟩ := List.nodup_cons.1 hnodup
    have hrest : ∀ id, (id, true) ∈ kinds → ∃ reporter,
        (settle request pr k).1.role? id =
          some (.enforcer { reporter, cell := { table := t } }) := by
      intro id hid
      obtain ⟨reporter, hrole⟩ := henforcers id (List.mem_cons_of_mem _ hid)
      have hshows : pr.1.Shows id { reporter, cell := { table := t } }
          (account id pr.1.moments) := ⟨hrole, rfl⟩
      have hne : k ≠ id := fun heq => hk (List.mem_map.2 ⟨_, hid, heq.symm⟩)
      exact ⟨reporter, (hshows.settle_other hne request pr.2).role⟩
    have hrelays' : ∀ id, (id, false) ∈ kinds →
        (id, true) ∉ kindsOf (settle request pr k).1.layers := by
      intro id hid
      rw [kindsOf_settle]
      exact hrelays id (List.mem_cons_of_mem _ hid)
    rw [List.map_cons, List.foldl_cons, ih hnodup _ hrest hrelays', commit?_settle]
    cases enforces with
    | true =>
      obtain ⟨reporter, hrole⟩ := henforcers k List.mem_cons_self
      rw [show settle request pr k = settle request (pr.1, pr.2) k from rfl,
        logged_settle_enforcer request pr.2 hrole, List.append_assoc,
        List.filter_cons_of_pos (by rfl), List.map_cons, List.flatMap_cons]
    | false =>
      rw [show settle request pr k = settle request (pr.1, pr.2) k from rfl,
        logged_settle_relay request pr.2 (hrelays k List.mem_cons_self),
        List.filter_cons_of_neg (by simp)]

end Passage

/-- The enforcers are numbered from the inside out. -/
theorem pairwise_enforcersOf (plans : List LayerPlan) :
    (enforcersOf (layersOf plans).1).Pairwise (· < ·) := by
  induction plans with
  | nil => exact .nil
  | cons plan plans ih =>
    rw [layersOf_cons, enforcersOf_cons]
    refine List.pairwise_append.2 ⟨ih, by split <;> simp, fun id hid k hk => ?_⟩
    obtain ⟨layer, hlayer, heq⟩ := List.mem_map.1 (mem_enforcersOf.1 hid)
    obtain rfl : k = plans.length := by
      split at hk
      · simpa using hk
      · exact absurd hk List.not_mem_nil
    exact (Prod.mk.inj heq).1 ▸ lt_of_mem_layersOf hlayer

namespace Stack

variable {s : Stack} {t : ModelTable}

/-- In an even stack each enforcer has the common table, and nobody holds it. -/
theorem Even.role? (h : s.Even t) {id : Nat} (hid : id ∈ enforcersOf s.layers) :
    ∃ reporter, ({ layers := s.layers } : Passage).role? id =
      some (.enforcer { reporter, cell := { table := t } }) := by
  obtain ⟨reporter, hhas⟩ := h id hid
  exact ⟨reporter, hhas.role⟩

/-- In an even stack each enforcer answers with the common table. -/
theorem Even.table? (h : s.Even t) {id : Nat} (hid : id ∈ enforcersOf s.layers) :
    s.table? id = some t := by
  obtain ⟨reporter, hhas⟩ := h id hid
  exact hhas.table?

/-- **An event is reported by all enforcers or by none,** the innermost first, and after that the
client gets it. -/
theorem violations_event (h : s.Even t) (hs : s.Orderly) {ticket : Nat} {callback : Callback}
    (hcallback : s.issued[ticket]? = some callback) (event : Event) (cookie : Int32) :
    let out := s.step (.event ticket event cookie)
    ∃ before, out.2 = before ++
        [{ what := .notifies callback.client event cookie, cells := out.1.cells }] ∧
      violations before = if t.get? event.model = some .armed then [] else
        (enforcersOf s.layers).map fun id =>
          (id, { kind := event.kind, model := event.model, observed := t.get? event.model,
                 status := event.status }) := by
  have hwatchers : callback.watchers = enforcersOf s.layers :=
    hs.wired _ (List.mem_of_getElem? hcallback)
  have hviolations := Passage.violations_foldl_rise (p := { layers := s.layers }) (t := t) event
    cookie (nodup_enforcersOf hs.nodup) fun id hid => h.role? hid
  simp only [step, onEvent, hcallback, hwatchers]
  refine ⟨_, rfl, hviolations.trans ?_⟩
  by_cases harmed : t.get? event.model = some .armed
  · simp [violations, Enforcer.judge, harmed]
  · simp [violations, Enforcer.judge, harmed, List.map_eq_flatMap]

/-- **A load of a model that is still tracked is logged by all enforcers,** and no other load is
logged by any. -/
theorem logged_load (h : s.Even t) (hs : s.Orderly) {model : Model} {given : Nat} {cookie : Int32}
    {passed : List Nat} {frames : List Frame}
    (hframes : s.frames = .call (.load model given cookie) passed :: frames) (k : ModelHandle) :
    logged (s.step (.reply (.handle k))).2 = if (t.get? k).isSome then
      (enforcersOf s.layers).map fun id => (id, Enforcer.reloadRecord k) else [] := by
  have hkinds : (kindsOf s.layers).reverse.map Prod.fst = passed := by
    rw [hs.routed _ passed (hframes ▸ List.mem_cons_self), List.map_reverse]
    simp [kindsOf]
  have hids : ((kindsOf s.layers).map Prod.fst).Nodup := by
    simpa [kindsOf, Function.comp_def] using hs.nodup
  have hnodup : ((kindsOf s.layers).reverse.map Prod.fst).Nodup := by
    rw [List.map_reverse]
    exact List.nodup_reverse.2 hids
  have hlogged := Passage.logged_foldl_settle (t := t) (.load model given cookie) hnodup
    ({ layers := s.layers }, .handle k)
    (fun id hid => h.role? (mem_enforcersOf.2 (List.mem_reverse.1 hid)))
    (fun id hid htrue => by
      have heq := List.inj_on_of_nodup_map hids (List.mem_reverse.1 hid) htrue rfl
      cases heq)
  have henforcers : ((kindsOf s.layers).reverse.filter Prod.snd).map Prod.fst =
      enforcersOf s.layers := by
    rw [List.filter_reverse, List.map_reverse, enforcersOf]
  rw [hkinds, henforcers] at hlogged
  simp only [step, onReply, hframes, Request.accepts, if_true, Passage.climb, Passage.logged_note,
    hlogged, Request.commit?, Option.bind_some, Enforcer.commitRecord?]
  cases htracked : (t.get? k).isSome <;>
    simp [logged, Happening.record?, List.map_eq_flatMap]

/-- **All enforcers of a stack are in step,** if its layers pass every call on, in any run.  They
have one table whenever the client or the implementation has the say, and also when the client gets
an event, which all of them or none have reported by then, the innermost first.  And all of them or
none log that the model of a load is still tracked. -/
theorem lockstep (plans : List LayerPlan) (hplans : ∀ plan ∈ plans, plan.Forwards)
    (moves : List Move) :
    let s := ((fresh (layersOf plans).1).run moves).1
    let enforcers := enforcersOf (layersOf plans).1
    enforcers.Pairwise (· < ·) ∧
    ∃ t, (∀ id ∈ enforcers, s.table? id = some t) ∧
      (∀ ticket callback event cookie, s.issued[ticket]? = some callback →
        ∃ before m, (s.step (.event ticket event cookie)).2 = before ++ [m] ∧
          m.what = .notifies callback.client event cookie ∧
          (∀ id ∈ enforcers, m.table? id = some (t.commit (.event event.model event.status))) ∧
          violations before = if t.get? event.model = some .armed then [] else
            enforcers.map fun id =>
              (id, { kind := event.kind, model := event.model, observed := t.get? event.model,
                     status := event.status })) ∧
      ∀ model given cookie passed frames h,
        s.frames = .call (.load model given cookie) passed :: frames →
        logged (s.step (.reply (.handle h))).2 =
          if (t.get? h).isSome then enforcers.map fun id => (id, Enforcer.reloadRecord h)
          else [] := by
  intro s enforcers
  obtain ⟨hs, henforcers, t, heven⟩ := exists_even hplans moves
  change enforcersOf s.layers = enforcers at henforcers
  refine ⟨pairwise_enforcersOf plans, t, fun id hid => heven.table? (henforcers ▸ hid), ?_, ?_⟩
  · intro ticket callback event cookie hcallback
    obtain ⟨before, hout, hviolations⟩ := violations_event heven hs hcallback event cookie
    refine ⟨before, _, hout, rfl, fun id hid => ?_, henforcers ▸ hviolations⟩
    have hmem : id ∈ enforcersOf (s.run [.event ticket event cookie]).1.layers := by
      rw [enforcersOf_run, henforcers]
      exact hid
    have hnext := (heven.run hs [.event ticket event cookie]).table? hmem
    have hlt : ticket < s.issued.length := (List.getElem?_eq_some_iff.1 hcallback).1
    rw [due, due?, if_pos hlt] at hnext
    rw [Moment.table?, Moment.cell?, Option.map_map]
    exact hnext
  · intro model given cookie passed frames h hframes
    exact henforcers ▸ logged_load heven hs hframes h

/-- Two enforcers with a relay in between: an event that comes before its model was started is
reported by both. -/
theorem lockstep_before_start :
    let plans : List LayerPlan :=
      [.enforcer { recorder := some "outer" }, .relay { tag := "relay" }, .enforcer {}]
    let s := ((fresh (layersOf plans).1).run
      [.call (.load (.generic {}) "client" 0), .reply (.handle 1)]).1
    (∀ plan ∈ plans, plan.Forwards) ∧
      s.issued[0]? = some { client := "client", watchers := [0, 2] } ∧
      ∃ before m, (s.step (.event 0 (.generic { model := 1 } []) 7)).2 = before ++ [m] ∧
        violations before = [0, 2].map fun id => (id,
          { kind := .recognition, model := 1, observed := some .idle, status := .success }) := by
  intro plans s
  have hplans : ∀ plan ∈ plans, plan.Forwards := by
    simp [plans, LayerPlan.Forwards, LayerPlan.role, Role.Forwards]
  have hissued : s.issued[0]? = some { client := "client", watchers := [0, 2] } := by decide
  obtain ⟨-, t, htable, hevent, -⟩ := lockstep plans hplans
    [.call (.load (.generic {}) "client" 0), .reply (.handle 1)]
  obtain rfl : ModelTable.insert {} 1 .idle = t :=
    Option.some.inj ((by decide : s.table? 0 = some _).symm.trans (htable 0 (by decide)))
  obtain ⟨before, m, hout, -, -, hviolations⟩ :=
    hevent 0 _ (.generic { model := 1 } []) 7 hissued
  exact ⟨hplans, hissued, before, m, hout, hviolations⟩

end Stack
end TriggerWatch
