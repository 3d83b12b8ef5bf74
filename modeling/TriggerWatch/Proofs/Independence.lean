/-
# Models do not interfere

What concerns a model is that it is loaded and unloaded, started and stopped, that all models are
stopped, and the events of the model that are not forced.  Nothing else can make a difference to its
entry in the table, or to what is reported about its events: no other model, no call that fails, and
no call that only asks.

`ModelTable.get?_commitAll` follows the entry of one model through some commits, and `replay` what
is reported about its events; neither looks at anything but the state of that model and what
concerns it.  So two runs, of whatever stacks, that agree in what concerns a model agree in both:
`Stack.models_independent`.
-/

import TriggerWatch.Proofs.History
import TriggerWatch.Proofs.Instant

namespace TriggerWatch

open Visit (afterAll commitAccount reportAccount)

/-! ### What concerns a model -/

/-- A visit may make a difference to a model. -/
def Visit.Concerns (h : ModelHandle) (v : Visit) : Prop :=
  v.Loads h ∨ v.Unloads h ∨ v.Starts h ∨ v.Disarms h

/-- Tells whether a commit may make a difference to a model. -/
def Commit.concerns (h : ModelHandle) : Commit → Bool
  | .loaded k | .unloaded k | .started k | .stopped k => k = h
  | .stoppedAll => true
  | .event model status => model = h ∧ status ≠ .forced

/-- A commit that does not concern a model has no effect on its state. -/
theorem Commit.effect_of_not_concerns {h : ModelHandle} {c : Commit}
    (hc : c.concerns h = false) (state : Option ModelState) : c.effect h state = state := by
  cases c with
  | stoppedAll => cases hc
  | event model status =>
    have hkeep : ¬ (h = model ∧ status.isForced = false) := by
      rintro ⟨rfl, hstatus⟩
      simp_all [concerns, Status.isForced]
    simp [effect, hkeep]
  | _ k =>
    have hne : h ≠ k := fun heq => by simp [concerns, heq] at hc
    simp [effect, hne]

/-- **The entry of a model depends on the commits that concern it,** and on what it was. -/
theorem ModelTable.get?_commitAll (t : ModelTable) (cs : List Commit) (h : ModelHandle) :
    (t.commitAll cs).get? h =
      (cs.filter (Commit.concerns h)).foldl (fun state c => c.effect h state) (t.get? h) := by
  induction cs generalizing t with
  | nil => rfl
  | cons c cs ih =>
    rw [commitAll_cons, ih, get?_commit]
    cases hc : c.concerns h with
    | true => rw [List.filter_cons_of_pos hc, List.foldl_cons]
    | false => rw [List.filter_cons_of_neg (by simp [hc]), Commit.effect_of_not_concerns hc]

/-! ### What is reported about a model -/

/-- The way in which an event comes, if a visit is one. -/
def Visit.kind? : Visit → Option EventKind
  | .event e _ => some e.kind
  | _ => none

/-- What a visit does that concerns a model: the commit, and for an event also its kind, which the
reports about it mention. -/
def Visit.deed? (h : ModelHandle) (v : Visit) : Option (Commit × Option EventKind) :=
  (v.commit?.filter (Commit.concerns h)).map fun c => (c, v.kind?)

/-- What some visits do that concerns a model. -/
def deeds (h : ModelHandle) (vs : List Visit) : List (Commit × Option EventKind) :=
  vs.filterMap (Visit.deed? h)

/-- The violation that a happening reports, if it is that of an event of the model, not a forced
one. -/
def Happening.reportAbout? (h : ModelHandle) : Happening → Option Violation
  | .reports _ _ v => if v.model = h ∧ v.status ≠ .forced then some v else none
  | _ => none

/-- The violations by events of a model that a layer reports during some moments, but for forced
ones. -/
def reportsAbout (h : ModelHandle) (id : Nat) (moments : List Moment) : List Violation :=
  (account id moments).filterMap fun entry => entry.1.reportAbout? h

/-- The violation that is reported because of a deed, if the model is in the given state. -/
def reportOf (state : Option ModelState) : Commit × Option EventKind → List Violation
  | (.event model status, some kind) =>
    if state = some .armed then [] else [{ kind, model, observed := state, status }]
  | _ => []

/-- The violations that are reported because of some deeds, if the model is in the given state. -/
def replay (h : ModelHandle) (state : Option ModelState) :
    List (Commit × Option EventKind) → List Violation
  | [] => []
  | deed :: rest => reportOf state deed ++ replay h (deed.1.effect h state) rest

variable {h : ModelHandle} {id : Nat} {reporter : Reporter} {t : ModelTable}

/-- A visit that does something to a model changes its state as the commit says. -/
theorem get?_after_of_deed {v : Visit} {deed : Commit × Option EventKind}
    (hv : v.deed? h = some deed) : (v.after t).get? h = deed.1.effect h (t.get? h) := by
  simp only [Visit.deed?, Option.map_eq_some_iff, Option.filter_eq_some_iff] at hv
  obtain ⟨c, ⟨hcommit, -⟩, rfl⟩ := hv
  exact Visit.get?_after hcommit

/-- A visit that does nothing to a model leaves its state alone. -/
theorem get?_after_of_no_deed {v : Visit} (hv : v.deed? h = none) :
    (v.after t).get? h = t.get? h := by
  cases hcommit : v.commit? with
  | none => rw [Visit.after, hcommit]
  | some c =>
    have hc : c.concerns h = false := by simpa [Visit.deed?, hcommit] using hv
    rw [Visit.get?_after hcommit, Commit.effect_of_not_concerns hc]

/-- A commit comes with no report. -/
theorem reportAbout_commitAccount (c : Commit) :
    (commitAccount id t c).filterMap (fun entry => entry.1.reportAbout? h) = [] := by
  cases hrecord : Enforcer.commitRecord? t c <;>
    simp [commitAccount, hrecord, Happening.reportAbout?]

/-- A report is about the model of its violation; those that do not end a recognition are left out
of the comparison. -/
theorem reportAbout_reportAccount (v : Violation) :
    (reportAccount id reporter t v).filterMap (fun entry => entry.1.reportAbout? h) =
      if v.model = h ∧ v.status ≠ .forced then [v] else [] := by
  by_cases habout : v.model = h ∧ v.status ≠ .forced <;>
    cases hrecord : reporter.record? v <;>
    simp [reportAccount, hrecord, Happening.reportAbout?, habout]

/-- What an event does: if it ends a recognition, it makes its own model idle. -/
theorem deed?_event (e : Event) (cookie : Int32) :
    (Visit.event e cookie).deed? h =
      if e.model = h ∧ e.status ≠ .forced then some (.event e.model e.status, some e.kind)
      else none := by
  by_cases habout : e.model = h ∧ e.status ≠ .forced <;>
    simp [Visit.deed?, Visit.commit?, Visit.kind?, Option.filter, Commit.concerns, habout]

/-- What is reported because of one visit. -/
theorem reportAbout_account (v : Visit) :
    (v.account id reporter t).filterMap (fun entry => entry.1.reportAbout? h) =
      (v.deed? h).toList.flatMap (reportOf (t.get? h)) := by
  have hopening : (v.opening id t).reportAbout? h = none := by cases v <;> rfl
  simp only [Visit.account, List.filterMap_cons, hopening]
  cases v with
  | call | look => rfl
  | reply request given =>
    have hsilent : ∀ c, reportOf (t.get? h) (c, none) = [] := fun c => by cases c <;> rfl
    cases hcommit : request.commit? given with
    | none => simp [Visit.sequel, Visit.deed?, Visit.commit?, hcommit]
    | some c =>
      simp only [Visit.sequel, Visit.deed?, Visit.commit?, Visit.kind?, hcommit,
        reportAbout_commitAccount, Option.filter]
      split <;> simp [hsilent]
  | event e cookie =>
    have hhands : [(Happening.hands id e cookie,
        ({ table := t.commit (.event e.model e.status) } : Cell))].filterMap
        (fun entry => entry.1.reportAbout? h) = [] := rfl
    simp only [Visit.sequel, List.filterMap_append, reportAbout_commitAccount, hhands,
      List.append_nil, deed?_event, Enforcer.judge]
    by_cases habout : e.model = h ∧ e.status ≠ .forced
    · obtain ⟨rfl, hstatus⟩ := habout
      by_cases harmed : t.get? e.model = some .armed <;>
        simp [harmed, reportOf, hstatus, reportAbout_reportAccount]
    · rw [if_neg habout]
      by_cases harmed : t.get? e.model = some .armed <;>
        simp [harmed, reportAbout_reportAccount, habout]

/-- **What is reported about a model is what its own deeds call for.** -/
theorem reportAbout_chronicle (vs : List Visit) :
    ((chronicle id reporter t vs).filterMap fun entry => entry.1.reportAbout? h) =
      replay h (t.get? h) (deeds h vs) := by
  induction vs generalizing t with
  | nil => rfl
  | cons v vs ih =>
    rw [chronicle, List.filterMap_append, reportAbout_account, ih]
    unfold deeds
    cases hdeed : v.deed? h with
    | none =>
      rw [List.filterMap_cons_none hdeed, get?_after_of_no_deed hdeed]
      rfl
    | some deed =>
      rw [List.filterMap_cons_some hdeed, get?_after_of_deed hdeed, replay]
      simp

/-- **The state of a model after some visits depends on its own deeds only.** The induction is on
the visits; a visit without a deed for the model drops out. -/
theorem get?_afterAll_of_deeds (t : ModelTable) (vs : List Visit) :
    (afterAll t vs).get? h =
      (deeds h vs).foldl (fun state deed => deed.1.effect h state) (t.get? h) := by
  induction vs generalizing t with
  | nil => rfl
  | cons v vs ih =>
    rw [show afterAll t (v :: vs) = afterAll (v.after t) vs from rfl, ih]
    unfold deeds
    cases hdeed : v.deed? h with
    | none => rw [List.filterMap_cons_none hdeed, get?_after_of_no_deed hdeed]
    | some deed =>
      rw [List.filterMap_cons_some hdeed, get?_after_of_deed hdeed, List.foldl_cons]

/-! ### Two runs -/

/-- Two lists of visits differ only by visits that are none of a model's business, put in or left
out anywhere. -/
inductive SameFor (h : ModelHandle) : List Visit → List Visit → Prop where
  | nil : SameFor h [] []
  | both {vs ws : List Visit} (v : Visit) : SameFor h vs ws → SameFor h (v :: vs) (v :: ws)
  | left {vs ws : List Visit} {v : Visit} :
      ¬ v.Concerns h → SameFor h vs ws → SameFor h (v :: vs) ws
  | right {vs ws : List Visit} {v : Visit} :
      ¬ v.Concerns h → SameFor h vs ws → SameFor h vs (v :: ws)

/-- A visit that does not concern a model does nothing to it. -/
theorem deed?_of_not_concerns {v : Visit} (hv : ¬ v.Concerns h) : v.deed? h = none := by
  rw [Visit.deed?, Option.map_eq_none_iff, Option.filter_eq_none_iff]
  intro c hcommit hconcerns
  have hcalls := Visit.commit?_eq_some_iff.1 hcommit
  refine hv ?_
  cases c with
  | loaded k =>
    obtain rfl : k = h := by simpa [Commit.concerns] using hconcerns
    exact .inl hcalls
  | unloaded k =>
    obtain rfl : k = h := by simpa [Commit.concerns] using hconcerns
    exact .inr (.inl hcalls)
  | started k =>
    obtain rfl : k = h := by simpa [Commit.concerns] using hconcerns
    exact .inr (.inr (.inl hcalls))
  | stopped k =>
    obtain rfl : k = h := by simpa [Commit.concerns] using hconcerns
    exact .inr (.inr (.inr (.inl hcalls)))
  | stoppedAll => exact .inr (.inr (.inr (.inr (.inl hcalls))))
  | event model status =>
    obtain ⟨rfl, hstatus⟩ : model = h ∧ status ≠ .forced := by
      simpa [Commit.concerns] using hconcerns
    obtain ⟨e, cookie, rfl, hmodel, rfl⟩ := hcalls
    exact .inr (.inr (.inr (.inr (.inr ⟨hmodel, hstatus⟩))))

/-- Two lists of visits that are the same for a model have the same deeds for it. -/
theorem SameFor.deeds_eq {vs ws : List Visit} (hsame : SameFor h vs ws) :
    deeds h vs = deeds h ws := by
  unfold deeds
  induction hsame with
  | nil => rfl
  | both v _ ih => rw [List.filterMap_cons, List.filterMap_cons, ih]
  | left hv _ ih => rw [List.filterMap_cons_none (deed?_of_not_concerns hv), ih]
  | right hv _ ih => rw [List.filterMap_cons_none (deed?_of_not_concerns hv), ih]

namespace Stack

/-- What a run comes to for a model: its entry in the table of an enforcer, and what the enforcer
has reported about it, but for forced events. -/
def ComesTo (out : Stack × List Moment) (id : Nat) (h : ModelHandle) (state : Option ModelState)
    (reported : List Violation) : Prop :=
  (∃ t, out.1.table? id = some t ∧ t.get? h = state) ∧ reportsAbout h id out.2 = reported

/-- **What a run comes to for a model can be read off its deeds.** -/
theorem Chronicles.comesTo {out : Stack × List Moment} (hout : Chronicles id reporter t out)
    (h : ModelHandle) :
    let done := deeds h (visits id out.2)
    ComesTo out id h (done.foldl (fun state deed => deed.1.effect h state) (t.get? h))
      (replay h (t.get? h) done) := by
  refine ⟨⟨_, hout.2.table?, get?_afterAll_of_deeds t _⟩, ?_⟩
  rw [reportsAbout, hout.1, filterMap_told (Happening.reportAbout? h), reportAbout_chronicle]

/-- **No model makes a difference to another,** in any two runs of any two enforcers, each with any
layers around it.  At two instants by which they have committed the same of what concerns a model,
they have the same entry for it.  If all that concerns the model is the same in both runs, they also
report the same about it, in the same order, but for forced events.  In particular that is so if the
runs differ only by visits that do not concern the model, wherever these come. -/
theorem models_independent (h : ModelHandle)
    (outer : List LayerPlan) (plan : EnforcerPlan) (inner : List LayerPlan) (moves : List Move)
    (outer' : List LayerPlan) (plan' : EnforcerPlan) (inner' : List LayerPlan)
    (moves' : List Move) :
    let out := (fresh (layersOf (outer ++ .enforcer plan :: inner)).1).run moves
    let out' := (fresh (layersOf (outer' ++ .enforcer plan' :: inner')).1).run moves'
    let id := inner.length
    let id' := inner'.length
    (∀ before m after before' m' after',
      out.2 = before ++ m :: after → out'.2 = before' ++ m' :: after' →
      ¬ m.what.Warns id → ¬ m'.what.Warns id' →
      (commits id (before ++ [m])).filter (Commit.concerns h) =
        (commits id' (before' ++ [m'])).filter (Commit.concerns h) →
      ∃ t t', m.table? id = some t ∧ m'.table? id' = some t' ∧ t.get? h = t'.get? h) ∧
    (deeds h (visits id out.2) = deeds h (visits id' out'.2) →
      ∃ state reported, ComesTo out id h state reported ∧ ComesTo out' id' h state reported) ∧
    (SameFor h (visits id out.2) (visits id' out'.2) →
      ∃ state reported, ComesTo out id h state reported ∧ ComesTo out' id' h state reported) := by
  intro out out' id id'
  have hhas := has_fresh outer plan inner
  have hhas' := has_fresh outer' plan' inner'
  have hsame : deeds h (visits id out.2) = deeds h (visits id' out'.2) →
      ∃ state reported, ComesTo out id h state reported ∧ ComesTo out' id' h state reported := by
    intro hdeeds
    have hout := (run_chronicle hhas moves).comesTo h
    have hout' := (run_chronicle hhas' moves').comesTo h
    exact ⟨_, _, hout, hdeeds ▸ hout'⟩
  -- Equal visits have equal deeds, so the last part is a case of the one before.
  refine ⟨?_, hsame, fun hvisits => hsame hvisits.deeds_eq⟩
  intro before m after before' m' after' hsplit hsplit' hwarns hwarns' hcommits
  refine ⟨_, _, by rw [Moment.table?, hhas.cell?_of_run hsplit hwarns]; rfl,
    by rw [Moment.table?, hhas'.cell?_of_run hsplit' hwarns']; rfl, ?_⟩
  rw [ModelTable.get?_commitAll, ModelTable.get?_commitAll, hcommits]

/-- One enforcer reports an event that comes before its model was started.  So does the outer one of
two enforcers, through which another model is started as well, a forced event comes, and a stop
fails. -/
theorem models_independent_stop :
    let moves : List Move := [.call (.load (.generic {}) "client" 0), .reply (.handle 1),
      .event 0 (.generic { model := 1 } []) 0]
    let moves' : List Move := [.call (.load (.generic {}) "client" 0), .reply (.handle 1),
      .call (.start 2 {} "client" 0), .reply .done,
      .event 0 (.generic { model := 1, status := .forced } []) 0, .finish,
      .call (.stop 1), .reply (.failed .deadObject), .event 0 (.generic { model := 1 } []) 0]
    let out := (fresh (layersOf [.enforcer {}]).1).run moves
    let out' := (fresh (layersOf [.enforcer { recorder := some "outer" }, .enforcer {}]).1).run
      moves'
    (∃ before m before' m' t t', out.2 = before ++ [m] ∧ out'.2 = before' ++ [m'] ∧
      m.table? 0 = some t ∧ m'.table? 1 = some t' ∧ t.get? 1 = t'.get? 1) ∧
    (deeds 1 (visits 0 out.2) = deeds 1 (visits 1 out'.2) ∧
      ∃ state reported, ComesTo out 0 1 state reported ∧ ComesTo out' 1 1 state reported) ∧
    SameFor 1 (visits 0 out.2) (visits 1 out'.2) ∧
    reportsAbout 1 1 out'.2 =
      [{ kind := .recognition, model := 1, observed := some .idle, status := .success }] := by
  intro moves moves' out out'
  obtain ⟨hinstants, hdeeds, hvisits⟩ := models_independent 1 [] {} [] moves
    [] { recorder := some "outer" } [.enforcer {}] moves'
  have hsplit : out.2 = out.2.take 10 ++ [out.2.get ⟨10, by decide⟩] := by decide
  have hsplit' : out'.2 = out'.2.take 41 ++ [out'.2.get ⟨41, by decide⟩] := by decide
  have hwhat : (out.2.get ⟨10, by decide⟩).what =
      .notifies "client" (.generic { model := 1 } []) 0 := by decide
  have hwhat' : (out'.2.get ⟨41, by decide⟩).what =
      .notifies "client" (.generic { model := 1 } []) 0 := by decide
  have hwarns : ¬ (out.2.get ⟨10, by decide⟩).what.Warns 0 := by
    rintro ⟨h, hlogs⟩
    cases hwhat.symm.trans hlogs
  have hwarns' : ¬ (out'.2.get ⟨41, by decide⟩).what.Warns 1 := by
    rintro ⟨h, hlogs⟩
    cases hwhat'.symm.trans hlogs
  obtain ⟨t, t', ht, ht', hstate⟩ := hinstants _ _ _ _ _ _ hsplit hsplit' hwarns hwarns' (by decide)
  have hsame : SameFor 1 (visits 0 out.2) (visits 1 out'.2) := by
    have hlist : visits 0 out.2 = [.call (.load (.generic {}) () 0),
        .reply (.load (.generic {}) () 0) (.handle 1), .event (.generic { model := 1 } []) 0] := by
      decide
    have hlist' : visits 1 out'.2 = [.call (.load (.generic {}) () 0),
        .reply (.load (.generic {}) () 0) (.handle 1), .call (.start 2 {} () 0),
        .reply (.start 2 {} () 0) .done, .event (.generic { model := 1, status := .forced } []) 0,
        .call (.stop 1), .reply (.stop 1) (.failed .deadObject),
        .event (.generic { model := 1 } []) 0] := by
      decide
    rw [hlist, hlist']
    refine .both _ (.both _ (.right ?_ (.right ?_ (.right ?_ (.right ?_ (.right ?_
      (.both _ .nil)))))))
    all_goals
      simp [Visit.Concerns, Visit.Loads, Visit.Unloads, Visit.Starts, Visit.Disarms, Visit.Stops,
        Visit.StopsAll, Visit.Spends, Event.status, Event.header]
  obtain ⟨_, reported, ⟨-, hreported⟩, -, hreported'⟩ := hvisits hsame
  have hknown : reportsAbout 1 0 out.2 =
      [{ kind := .recognition, model := 1, observed := some .idle, status := .success }] := by
    decide
  have hequal : deeds 1 (visits 0 out.2) = deeds 1 (visits 1 out'.2) := by decide
  exact ⟨⟨_, _, _, _, t, t', hsplit, hsplit', ht, ht', hstate⟩, ⟨hequal, hdeeds hequal⟩, hsame,
    hreported'.trans (hreported.symm.trans hknown)⟩

end Stack
end TriggerWatch
