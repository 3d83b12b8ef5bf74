/-
# Loads of models that are still tracked

An enforcer that tracks a model warns when a load comes back with the handle of that model: the
implementation has given one handle to two models, or an unload has passed the enforcer by.  There
is one warning for each such load, as it is written down, and there are no others:
`Stack.reload_warned`.

A handle is tracked if it has come back from a load and has not been unloaded since.  So an
implementation that gives out no handle again before it was unloaded is never warned about, whatever
else happens.  `Stack.Has.yielded_of_loadedIn` finds the answer of the implementation that made a
model tracked.
-/

import TriggerWatch.Proofs.History
import TriggerWatch.Proofs.Instant

namespace TriggerWatch

open Visit (afterAll commitAccount reportAccount)

/-- A warning about a load names the handle. -/
theorem Enforcer.eq_of_reloadRecord_eq {h k : ModelHandle} (heq : reloadRecord h = reloadRecord k) :
    h = k := by
  have htext := congrArg (fun record => record.text.toList) heq
  simp only [reloadRecord, String.toList_append, String.toList_ofList, List.append_cancel_left_eq,
    List.append_cancel_right_eq] at htext
  exact Int32.toInt_inj.1 (Text.eq_of_decimal_eq htext)

namespace Visit

variable {id layer : Nat} {reporter : Reporter} {t : ModelTable} {v : Visit} {h : ModelHandle}
  {cell : Cell}

/-- A visit loads a model only if it is the reply to a load, with the handle of the model. -/
theorem exists_eq_of_loads (hv : v.Loads h) :
    ∃ model cookie, v = .reply (.load model () cookie) (.handle h) := by
  unfold Loads at hv
  split at hv
  · next model _ cookie k =>
    obtain rfl : k = h := hv
    exact ⟨model, cookie, rfl⟩
  · exact hv.elim

/-- While a commit is written, a warning about a load is logged only if it is that load, and the
model is still tracked. -/
theorem eq_loaded_of_reload {c : Commit} (hmem : (.logs layer (Enforcer.reloadRecord h), cell) ∈
    commitAccount id t c) : c = .loaded h ∧ t.get? h ≠ none := by
  rw [commitAccount, List.mem_append, List.mem_map] at hmem
  rcases hmem with ⟨record, hrecord, heq⟩ | hmem
  · obtain ⟨hlogs, -⟩ := Prod.mk.inj heq
    obtain rfl := (Happening.logs.inj hlogs).2
    cases c with
    | loaded k =>
      simp only [Option.mem_toList, Enforcer.commitRecord?, Option.ite_none_right_eq_some,
        Option.some.injEq] at hrecord
      obtain rfl := Enforcer.eq_of_reloadRecord_eq hrecord.2
      exact ⟨rfl, Option.isSome_iff_ne_none.1 hrecord.1⟩
    | _ => exact absurd hrecord List.not_mem_nil
  · cases List.mem_singleton.1 hmem

/-- While a violation is reported, no warning about a load is logged: the wordings are different. -/
theorem reload_notMem_reportAccount (violation : Violation) :
    (.logs layer (Enforcer.reloadRecord h), cell) ∉ reportAccount id reporter t violation := by
  intro hmem
  simp only [reportAccount, List.mem_cons, List.mem_map, Option.mem_toList] at hmem
  rcases hmem with heq | ⟨record, hrecord, heq⟩
  · cases heq
  · cases reporter with
    | journal config =>
      obtain rfl : config.record violation = record := Option.some.inj hrecord
      obtain ⟨hlogs, -⟩ := Prod.mk.inj heq
      exact absurd (Happening.logs.inj hlogs).2 (config.record_ne_reloadRecord violation h)
    | recorder name => cases hrecord

/-- **A warning about a load belongs to a load** that came back with the handle of a model that is
still tracked. -/
theorem loads_of_reload (hmem : (.logs layer (Enforcer.reloadRecord h), cell) ∈
    v.sequel id reporter t) : v.Loads h ∧ t.get? h ≠ none := by
  cases v with
  | call | look => exact absurd hmem List.not_mem_nil
  | reply request given =>
    cases hcommit : request.commit? given with
    | none => simp [sequel, hcommit] at hmem
    | some c =>
      simp only [sequel, hcommit] at hmem
      obtain ⟨rfl, htracked⟩ := eq_loaded_of_reload hmem
      exact ⟨(commit?_eq_some_iff (v := .reply request given) (c := .loaded h)).1 hcommit, htracked⟩
  | event e cookie =>
    rw [sequel, List.mem_append, List.mem_append, List.mem_singleton] at hmem
    rcases hmem with (hreport | hc) | heq
    · cases hjudge : Enforcer.judge e (t.get? e.model) with
      | none => simp [hjudge] at hreport
      | some violation =>
        rw [hjudge] at hreport
        exact absurd hreport (reload_notMem_reportAccount violation)
    · cases (eq_loaded_of_reload hc).1
    · cases heq

/-- What happens at an enforcer when a load comes back with a handle. -/
theorem sequel_of_loads (hv : v.Loads h) :
    v.sequel id reporter t =
      (if (t.get? h).isSome then
        [(.logs id (Enforcer.reloadRecord h),
          { table := t.commit (.loaded h), hold := .exclusive })]
      else []) ++ [(.commits id (.loaded h), { table := t.commit (.loaded h) })] := by
  obtain ⟨model, cookie, rfl⟩ := exists_eq_of_loads hv
  simp only [sequel, Request.commit?, commitAccount, Enforcer.commitRecord?]
  split <;> simp

end Visit

/-- The warning about a load comes right after the load has come back. -/
theorem reload_of_chronicle {id : Nat} {reporter : Reporter} {t : ModelTable} {vs : List Visit}
    {pre post : List (Happening × Cell)} {h : ModelHandle} {cell : Cell}
    (hsplit : chronicle id reporter t vs =
      pre ++ (.logs id (Enforcer.reloadRecord h), cell) :: post) :
    ∃ earlier model cookie u, u.get? h ≠ none ∧
      pre = earlier ++ [(.returns id (.load model () cookie) (.handle h), { table := u })] := by
  obtain ⟨earlier, v, later, pre', post', -, rfl, hv⟩ := chronicle_eq_append_cons hsplit
  -- A warning does not begin a visit.  It is the second thing in one: the load comes back before it,
  -- and nothing in between.
  cases pre' with
  | nil =>
    have hopening := congrArg (fun entry => entry.1.visit?) (List.cons.inj hv).1
    rw [Visit.visit?_opening] at hopening
    cases hopening
  | cons first pre' =>
    obtain ⟨rfl, hsequel⟩ := List.cons.inj hv
    have hsequel : v.sequel id reporter (afterAll t earlier) =
        pre' ++ (.logs id (Enforcer.reloadRecord h), cell) :: post' := hsequel
    obtain ⟨hloads, htracked⟩ := Visit.loads_of_reload
      (hsequel ▸ List.mem_append_right pre' List.mem_cons_self)
    rw [Visit.sequel_of_loads hloads, if_pos (Option.isSome_iff_ne_none.2 htracked)] at hsequel
    cases pre' with
    | nil =>
      obtain ⟨model, cookie, rfl⟩ := Visit.exists_eq_of_loads hloads
      exact ⟨_, model, cookie, afterAll t earlier, htracked, rfl⟩
    | cons second pre' =>
      have hrest := (List.cons.inj hsequel).2
      obtain ⟨-, heq⟩ := List.append_eq_singleton_iff.1 hrest.symm |>.resolve_right (by simp)
      cases heq

/-- A model that is loaded in a history is loaded in any first part of it that all its loads belong
to, and has not been unloaded after that part. -/
theorem loadedIn_of_append {h : ModelHandle} {history later : List Visit}
    (hloaded : LoadedIn h (history ++ later)) (hlater : ∀ v ∈ later, ¬ v.Loads h) :
    LoadedIn h history ∧ ∀ v ∈ later, ¬ v.Unloads h := by
  induction later using List.reverseRecOn with
  | nil => exact ⟨by simpa using hloaded, fun v hv => absurd hv List.not_mem_nil⟩
  | append_singleton later v ih =>
    rw [← List.append_assoc, loadedIn_concat] at hloaded
    obtain ⟨-, hunloads, hloaded⟩ := hloaded.resolve_left (hlater v (by simp))
    obtain ⟨hhistory, hkept⟩ := ih hloaded fun w hw => hlater w (List.mem_append_left _ hw)
    refine ⟨hhistory, fun w hw => ?_⟩
    rcases List.mem_append.1 hw with hw | hw
    · exact hkept w hw
    · rwa [List.mem_singleton.1 hw]

namespace Stack

variable {s : Stack} {id : Nat} {reporter : Reporter} {t : ModelTable} {h : ModelHandle}

/-- The handle with which the implementation answers a load, if a move is such an answer. -/
def yields? (s : Stack) : Move → Option ModelHandle
  | .reply (.handle h) =>
    match s.frames with
    | .call (.load _ _ _) _ :: _ => some h
    | _ => none
  | _ => none

/-- Only a reply with a handle yields a handle. -/
theorem eq_of_yields? {move : Move} (hyields : s.yields? move = some h) :
    move = .reply (.handle h) := by
  unfold yields? at hyields
  split at hyields
  · split at hyields
    · rw [Option.some.inj hyields]
    · cases hyields
  · cases hyields

/-- If a load is due at a layer, the implementation has just yielded the handle. -/
theorem yields?_of_dueAt? {move : Move} (hdue : s.dueAt? id move = some (.loaded h)) :
    s.yields? move = some h := by
  cases move with
  | call request =>
    simp only [dueAt?, Option.ite_none_right_eq_some] at hdue
    cases request <;> cases hdue.2
  | reply reply =>
    simp only [dueAt?, due?] at hdue
    split at hdue
    · next request passed frames hframes =>
      cases request <;> cases reply <;> cases hdue
      simp [yields?, hframes]
    · cases hdue
  | event ticket event cookie =>
    simp only [dueAt?, due?, Option.ite_none_right_eq_some] at hdue
    cases hdue.2
  | finish | look => cases hdue

/-- A load that comes back to an enforcer has been answered by the implementation just now. -/
theorem Has.yields?_of_loads (hhas : s.Has id reporter t) (hs : s.Threaded) {move : Move}
    {v : Visit} (hv : v ∈ visits id (s.step move).2) (hloads : v.Loads h) :
    s.yields? move = some h := by
  have hcommitted : Commit.loaded h ∈ commits id (s.step move).2 := by
    rw [(step_chronicle hhas move).commits]
    exact List.mem_filterMap.2 ⟨v, hv, Visit.commit?_eq_some_iff.2 hloads⟩
  rw [hhas.commits_step hs, Option.mem_toList] at hcommitted
  exact yields?_of_dueAt? hcommitted

/-- **What made a model tracked** is an answer of the implementation, and no unload of the model has
come to the enforcer since. -/
theorem Has.yielded_of_loadedIn (hhas : s.Has id reporter t) (hs : s.Threaded) {moves : List Move}
    (hloaded : LoadedIn h (visits id (s.run moves).2)) :
    ∃ front move rest, moves = front ++ move :: rest ∧ (s.run front).1.yields? move = some h ∧
      ∀ v ∈ visits id ((s.run (front ++ [move])).1.run rest).2, ¬ v.Unloads h := by
  induction moves using List.reverseRecOn with
  | nil =>
    obtain ⟨_, hnil, -⟩ := hloaded
    exact absurd hnil not_afterLast_nil
  | append_singleton moves move ih =>
    have hbefore := run_chronicle hhas moves
    rw [run_append, visits_append, run_cons, run_nil, List.append_nil] at hloaded
    by_cases hlast : ∃ v ∈ visits id ((s.run moves).1.step move).2, v.Loads h
    · obtain ⟨v, hv, hloads⟩ := hlast
      refine ⟨moves, move, [], rfl, hbefore.2.yields?_of_loads (hs.run moves) hv hloads, ?_⟩
      exact fun v hv => absurd hv List.not_mem_nil
    · obtain ⟨hloaded, hkept⟩ := loadedIn_of_append hloaded fun v hv hloads =>
        hlast ⟨v, hv, hloads⟩
      obtain ⟨front, first, rest, rfl, hyields, hrest⟩ := ih hloaded
      refine ⟨front, first, rest ++ [move], by simp, hyields, fun v hv => ?_⟩
      have hreached : ((s.run (front ++ [first])).1.run rest).1 =
          (s.run (front ++ first :: rest)).1 := by
        simp only [run_append, run_cons, run_nil]
      rw [run_append, visits_append, run_cons, run_nil, List.append_nil, hreached] at hv
      exact (List.mem_append.1 hv).elim (hrest v) (hkept v)

/-- The implementation answers no load with a handle that it has answered another with before,
unless the enforcer has seen that model unloaded in between. -/
def GivesOutFree (s : Stack) (id : Nat) (moves : List Move) : Prop :=
  ∀ front first between second rest h, moves = front ++ first :: (between ++ second :: rest) →
    (s.run front).1.yields? first = some h →
    (s.run (front ++ first :: between)).1.yields? second = some h →
    ∃ v ∈ visits id ((s.run (front ++ [first])).1.run between).2, v.Unloads h

/-- **No warning without a handle that is given out twice.** If there were one, the model would
still be tracked because of an earlier load, so the handle would have been given out before and not
been unloaded since. -/
theorem Has.not_reload_of_givesOutFree (hhas : s.Has id reporter {}) (hs : s.Threaded)
    {moves : List Move} (hfree : s.GivesOutFree id moves) {m : Moment} (hm : m ∈ (s.run moves).2) :
    m.what ≠ .logs id (Enforcer.reloadRecord h) := by
  intro hwhat
  obtain ⟨before, after, hsplit⟩ := List.append_of_mem hm
  obtain ⟨front, move, rest, sofar, later, rfl, -, hstep⟩ := exists_step_of_run hsplit
  have hfront := run_chronicle hhas front
  have hnow := step_chronicle hfront.2 move
  obtain ⟨earlier, v, cell, hsofar, -, hmem⟩ :=
    hnow.mem_sequel hstep (by rw [hwhat]; rfl) (by rw [hwhat]; rfl)
  rw [hwhat] at hmem
  obtain ⟨hloads, htracked⟩ := Visit.loads_of_reload hmem
  have hvisits : visits id ((s.run front).1.step move).2 =
      earlier ++ v :: visits id (m :: later) := by
    rw [hstep, visits_append, hsofar, List.append_assoc, List.singleton_append]
  have hyields := hfront.2.yields?_of_loads (hs.run front)
    (hvisits ▸ List.mem_append_right earlier List.mem_cons_self) hloads
  -- The move calls for one commit, so nothing has changed between its beginning and the load.
  have hnothing : earlier.filterMap Visit.commit? = [] := by
    have hcommits := hfront.2.commits_step (hs.run front) move
    rw [hnow.commits, hvisits, List.filterMap_append, List.filterMap_cons_some
      ((Visit.commit?_eq_some_iff (c := .loaded h)).2 hloads)] at hcommits
    cases hdue : (s.run front).1.dueAt? id move with
    | none => simp [hdue] at hcommits
    | some c =>
      rw [hdue, Option.toList_some] at hcommits
      obtain ⟨hnothing, -⟩ | ⟨-, hcons⟩ := List.append_eq_singleton_iff.1 hcommits
      · exact hnothing
      · cases hcons
  rw [Visit.afterAll_eq_commitAll _ earlier, hnothing, ModelTable.commitAll_nil] at htracked
  have hloaded := (Visit.tells_afterAll _ h).1.1 htracked
  obtain ⟨front, first, between, rfl, hfirst, hkept⟩ := hhas.yielded_of_loadedIn hs hloaded
  obtain ⟨w, hw, hunloads⟩ := hfree front first between move rest h (by simp) hfirst hyields
  exact hkept w hw hunloads

/-- **An enforcer warns about a load if the model that came back is tracked, and never otherwise,**
for any layers around it and whatever the client and the implementation do.  When a load comes back
to it with a handle, the warning comes next, if there has to be one, and then the commit, when the
model is idle.  When there is a warning, such a load has come back just before.  So there is
none at all if the implementation gives out no handle twice without an unload in between. -/
theorem reload_warned (outer : List LayerPlan) (plan : EnforcerPlan) (inner : List LayerPlan)
    (moves : List Move) :
    let s := fresh (layersOf (outer ++ .enforcer plan :: inner)).1
    let out := s.run moves
    let id := inner.length
    (∀ before m after model cookie h, out.2 = before ++ m :: after →
      m.what = .returns id (.load model () cookie) (.handle h) →
      ∃ t u later, m.cell? id = some { table := t } ∧ u.get? h = some .idle ∧
        account id after =
          (if t.get? h ≠ none then
            [(.logs id (Enforcer.reloadRecord h), some { table := u, hold := .exclusive })]
          else []) ++ (.commits id (.loaded h), some { table := u }) :: later) ∧
    (∀ before m after h, out.2 = before ++ m :: after →
      m.what = .logs id (Enforcer.reloadRecord h) →
      ∃ earlier model cookie t, t.get? h ≠ none ∧
        account id before =
          earlier ++ [(.returns id (.load model () cookie) (.handle h), some { table := t })]) ∧
    (s.GivesOutFree id moves → ∀ m ∈ out.2, ∀ h, m.what ≠ .logs id (Enforcer.reloadRecord h)) := by
  intro s out id
  have hhas : s.Has id plan.reporter {} := has_fresh outer plan inner
  have hout := run_chronicle hhas moves
  refine ⟨?_, ?_, ?_⟩
  · intro before m after model cookie h hsplit hwhat
    have hlayer : m.what.layer? = some id := hwhat ▸ rfl
    have hvisit : m.what.visit? = some (.reply (.load model () cookie) (.handle h)) := hwhat ▸ rfl
    obtain ⟨-, hcell⟩ := hout.eq_opening hsplit hlayer hvisit
    obtain ⟨later, hafter⟩ := hout.account_after hsplit hlayer hvisit
    generalize afterAll {} (visits id before) = t at hcell hafter
    refine ⟨t, t.commit (.loaded h), told later, hcell, ?_, ?_⟩
    · simp [ModelTable.get?_commit, Commit.effect]
    · have hloads : (Visit.reply (.load model () cookie) (.handle h)).Loads h := rfl
      rw [hafter, Visit.sequel_of_loads hloads]
      by_cases htracked : t.get? h = none <;> simp [htracked, Option.isSome_iff_ne_none]
  · intro before m after h hsplit hwhat
    obtain ⟨pre, cell, post, hchronicle, -, hbefore⟩ := hout.split hsplit (hwhat ▸ rfl)
    rw [hwhat] at hchronicle
    obtain ⟨earlier, model, cookie, t, htracked, rfl⟩ := reload_of_chronicle hchronicle
    exact ⟨told earlier, model, cookie, t, htracked, by rw [hbefore, told_append]; rfl⟩
  · exact fun hfree m hm h =>
      hhas.not_reload_of_givesOutFree (threaded_fresh _) hfree hm

/-- A model that is armed is loaded once more, and the enforcer warns; it does not if the model was
unloaded before. -/
theorem reload_warned_armed :
    let s := fresh (layersOf [.enforcer {}]).1
    let load : List Move := [.call (.load (.generic {}) "client" 0), .reply (.handle 1)]
    let again := load ++ [.call (.start 1 {} "client" 0), .reply .done] ++ load
    let freed := load ++ [.call (.unload 1), .reply .done] ++ load
    (∃ before m after t u later, (s.run again).2 = before ++ m :: after ∧
      m.what = .returns 0 (.load (.generic {}) () 0) (.handle 1) ∧
      m.cell? 0 = some { table := t } ∧ t.get? 1 = some .armed ∧ u.get? 1 = some .idle ∧
      account 0 after =
        (.logs 0 (Enforcer.reloadRecord 1), some { table := u, hold := .exclusive }) ::
          (.commits 0 (.loaded 1), some { table := u }) :: later) ∧
    s.GivesOutFree 0 freed ∧
    ∀ m ∈ (s.run freed).2, ∀ h, m.what ≠ .logs 0 (Enforcer.reloadRecord h) := by
  intro s load again freed
  have hfree : s.GivesOutFree 0 freed := by
    intro front first between second rest h hmoves hfirst hsecond
    obtain rfl := eq_of_yields? hfirst
    obtain rfl := eq_of_yields? hsecond
    have honly : front = [.call (.load (.generic {}) "client" 0)] ∧ h = 1 ∧ between =
        [.call (.unload 1), .reply .done, .call (.load (.generic {}) "client" 0)] ∧
        h = 1 ∧ rest = [] := by
      simpa [freed, load, List.cons_eq_append_iff, List.append_eq_cons_iff] using hmoves
    obtain ⟨rfl, rfl, rfl, -⟩ := honly
    exact ⟨.reply (.unload 1) .done, by decide, rfl⟩
  let out := s.run again
  have hsplit : out.2 = out.2.take 12 ++ out.2.get ⟨12, by decide⟩ :: out.2.drop 13 := by decide
  have hwhat : (out.2.get ⟨12, by decide⟩).what =
      .returns 0 (.load (.generic {}) () 0) (.handle 1) := by decide
  have harmed : (out.2.get ⟨12, by decide⟩).cell? 0 =
      some { table := ModelTable.insert {} 1 .armed } := by decide
  obtain ⟨t, u, later, hcell, hidle, hafter⟩ :=
    (reload_warned [] {} [] again).1 _ _ _ _ _ _ hsplit hwhat
  obtain rfl : ModelTable.insert {} 1 .armed = t :=
    congrArg Cell.table (Option.some.inj (harmed.symm.trans hcell))
  rw [if_pos (by decide)] at hafter
  exact ⟨⟨_, _, _, _, u, later, hsplit, hwhat, harmed, by decide, hidle, hafter⟩, hfree,
    (reload_warned [] {} [] freed).2.2 hfree⟩

end Stack
end TriggerWatch
