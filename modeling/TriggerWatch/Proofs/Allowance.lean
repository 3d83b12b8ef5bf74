/-
# One start allows one event

A start of a model allows one event that ends its recognition to pass without a report.  So however
the client and the implementation behave, an enforcer lets no more such events pass unreported than
starts of the model were answered well, and one less as long as the model is armed: being armed is
what is left of a start.  `Stack.allowance` says so for every instant of every run.

`unreported` reads off the moments what an enforcer lets pass.  `Visit.letThrough` is the same for a
single visit, and the balance of a visit is `Visit.balance`.
-/

import TriggerWatch.Proofs.Arrival
import TriggerWatch.Proofs.Due
import TriggerWatch.Proofs.History

namespace TriggerWatch

open Visit (afterAll commitAccount reportAccount)

/-- The events among some happenings that are handed on without a report since they came.  The flag
tells whether the present one has been reported. -/
def letPass (reported : Bool) : List Happening → List Event
  | [] => []
  | .arrives _ _ _ :: rest => letPass false rest
  | .reports _ _ _ :: rest => letPass true rest
  | .hands _ event _ :: rest => (if reported then [] else [event]) ++ letPass false rest
  | _ :: rest => letPass reported rest

/-- The events that a layer lets pass unreported during some moments. -/
def unreported (id : Nat) (moments : List Moment) : List Event :=
  letPass false ((account id moments).map Prod.fst)

/-- An event ends the recognition of a model. -/
def Event.Ends (h : ModelHandle) (event : Event) : Prop :=
  event.model = h ∧ event.status ≠ .forced

instance (h : ModelHandle) : DecidablePred (Event.Ends h) :=
  fun event => inferInstanceAs (Decidable (event.model = h ∧ event.status ≠ .forced))

/-- Where no event is handed on, none is let through. -/
theorem letPass_of_ne_hands {reported : Bool} {whats : List Happening}
    (h : ∀ what ∈ whats, ∀ layer e cookie, what ≠ .hands layer e cookie) :
    letPass reported whats = [] := by
  induction whats generalizing reported with
  | nil => rfl
  | cons what whats ih =>
    have hrest := fun other hother => h other (List.mem_cons_of_mem what hother)
    cases what with
    | hands layer e cookie => exact absurd rfl (h _ List.mem_cons_self layer e cookie)
    | _ => exact ih hrest

/-- One if a model is armed, and otherwise none. -/
def ModelTable.armedCount (t : ModelTable) (h : ModelHandle) : Nat :=
  if t.get? h = some .armed then 1 else 0

/-- Only a start arms a model. -/
theorem Commit.eq_started_of_effect {h : ModelHandle} {c : Commit} {old : Option ModelState}
    (hold : old ≠ some .armed) (heffect : c.effect h old = some .armed) : c = .started h := by
  have hidle : old.map (fun _ => .idle) ≠ some ModelState.armed := by cases old <;> simp
  cases c with
  | started k =>
    by_cases hk : h = k
    · rw [hk]
    · simp [effect, hk, hold] at heffect
  | stoppedAll => exact absurd heffect hidle
  | loaded k | unloaded k | stopped k | event k status =>
    simp only [effect] at heffect
    split at heffect
    · first | cases heffect | exact absurd heffect hidle
    · exact absurd heffect hold

/-- A model that is armed after some commits was armed before or has been started by one of them. -/
theorem ModelTable.started_mem_of_commitAll {t : ModelTable} {h : ModelHandle} {cs : List Commit}
    (hold : t.get? h ≠ some .armed) (harmed : (t.commitAll cs).get? h = some .armed) :
    .started h ∈ cs := by
  induction cs generalizing t with
  | nil => exact absurd harmed hold
  | cons c cs ih =>
    by_cases hc : (t.commit c).get? h = some .armed
    · rw [get?_commit] at hc
      exact Commit.eq_started_of_effect hold hc ▸ List.mem_cons_self
    · exact List.mem_cons_of_mem _ (ih hc harmed)

namespace Visit

variable {id : Nat} {reporter : Reporter} {t : ModelTable} {h : ModelHandle}

/-- A visit that starts a model is known by its commit, so it can be counted. -/
theorem starts_iff {v : Visit} : v.Starts h ↔ v.commit? = some (.started h) :=
  (commit?_eq_some_iff (c := .started h)).symm

instance (h : ModelHandle) : DecidablePred (Starts h) :=
  fun v => decidable_of_iff (v.commit? = some (.started h)) starts_iff.symm

/-- The event that an enforcer lets pass unreported because of a visit, if there is one. -/
def letThrough (t : ModelTable) : Visit → List Event
  | .event e _ => if t.get? e.model = some .armed then [e] else []
  | .call _ | .reply _ _ | .look _ => []

/-- The events that an enforcer lets pass unreported because of some visits. -/
def allLetThrough (t : ModelTable) : List Visit → List Event
  | [] => []
  | v :: vs => v.letThrough t ++ allLetThrough (v.after t) vs

/-- **What one visit lets through** can be read off the table it finds, and afterwards the count
starts afresh: no report is left waiting for its event. -/
theorem letPass_account (v : Visit) (id : Nat) (reporter : Reporter) (t : ModelTable)
    (rest : List Happening) :
    letPass false ((v.account id reporter t).map Prod.fst ++ rest) =
      v.letThrough t ++ letPass false rest := by
  cases v with
  | call | look => rfl
  | reply request given =>
    cases hcommit : request.commit? given with
    | none => simp [account, opening, sequel, hcommit, letPass, letThrough]
    | some c =>
      cases hrecord : Enforcer.commitRecord? t c <;>
        simp [account, opening, sequel, hcommit, commitAccount, hrecord, letPass, letThrough]
  | event e cookie =>
    by_cases harmed : t.get? e.model = some .armed
    · simp [account, opening, sequel, Enforcer.judge, harmed, commitAccount,
        Enforcer.commitRecord?, letPass, letThrough]
    · cases hrecord : reporter.record?
          { kind := e.kind, model := e.model, observed := t.get? e.model, status := e.status } <;>
        simp [account, opening, sequel, Enforcer.judge, harmed, reportAccount, hrecord,
          commitAccount, Enforcer.commitRecord?, letPass, letThrough]

/-- What several visits let through, one after the other, each at the table that the ones before
have left behind. -/
theorem letPass_chronicle (id : Nat) (reporter : Reporter) (t : ModelTable) (vs : List Visit)
    (rest : List Happening) :
    letPass false ((chronicle id reporter t vs).map Prod.fst ++ rest) =
      allLetThrough t vs ++ letPass false rest := by
  induction vs generalizing t with
  | nil => rfl
  | cons v vs ih =>
    rw [chronicle, List.map_append, List.append_assoc, letPass_account, ih, allLetThrough,
      List.append_assoc]

/-! ### The balance -/

/-- A visit arms a model only if it starts it. -/
theorem armedCount_after_le (v : Visit) :
    (v.after t).armedCount h ≤ [v].countP (Starts h) + t.armedCount h := by
  by_cases hafter : (v.after t).get? h = some .armed
  · by_cases ht : t.get? h = some .armed
    · simp [ModelTable.armedCount, hafter, ht]
    · have hstarts : v.Starts h := by
        cases hc : v.commit? with
        | none =>
          rw [after, hc] at hafter
          exact absurd hafter ht
        | some c =>
          rw [get?_after hc] at hafter
          rw [starts_iff, hc, Commit.eq_started_of_effect ht hafter]
      simp [ModelTable.armedCount, hafter, hstarts]
  · simp [ModelTable.armedCount, hafter]

/-- **What a visit lets through and what it leaves is covered** by what it finds and what it
adds. -/
theorem balance (v : Visit) :
    (v.letThrough t).countP (Event.Ends h) + (v.after t).armedCount h ≤
      [v].countP (Starts h) + t.armedCount h := by
  have hafter := armedCount_after_le (t := t) (h := h) v
  by_cases hnone : (v.letThrough t).countP (Event.Ends h) = 0
  · omega
  obtain ⟨e, hmem, hends⟩ := List.countP_pos_iff.1 (Nat.pos_of_ne_zero hnone)
  cases v with
  | call | reply | look => exact absurd hmem List.not_mem_nil
  | event e' cookie =>
    simp only [letThrough] at hmem
    split at hmem
    · next harmed =>
      obtain rfl := List.mem_singleton.1 hmem
      have hends : e.Ends h := by simpa using hends
      have hspent := get?_after_of_disarms (t := t) (v := .event e cookie) (.inr (.inr hends))
      rw [hends.1] at harmed
      simp [letThrough, hends, hends.1, ModelTable.armedCount, hspent, harmed]
    · exact absurd hmem List.not_mem_nil

/-- The balance of some visits. -/
theorem balance_all (vs : List Visit) :
    (allLetThrough t vs).countP (Event.Ends h) + (afterAll t vs).armedCount h ≤
      vs.countP (Starts h) + t.armedCount h := by
  induction vs generalizing t with
  | nil => simp [allLetThrough, afterAll]
  | cons v vs ih =>
    have hnow := v.balance (t := t) (h := h)
    have hlater := ih (t := v.after t)
    have hcount : (v :: vs).countP (Starts h) = [v].countP (Starts h) + vs.countP (Starts h) := by
      rw [← List.countP_append, List.singleton_append]
    rw [allLetThrough, List.countP_append, hcount,
      show afterAll t (v :: vs) = afterAll (v.after t) vs from rfl]
    omega

/-! ### The balance at every instant -/

/-- No event is handed on while a commit is written. -/
theorem ne_hands_of_mem_commitAccount {c : Commit} {entry : Happening × Cell}
    (hentry : entry ∈ commitAccount id t c) (layer : Nat) (e : Event) (cookie : Int32) :
    entry.1 ≠ .hands layer e cookie := by
  obtain ⟨what, cell⟩ := entry
  rcases mem_commitAccount hentry with ⟨_, rfl, -⟩ | ⟨rfl, -⟩ <;> exact Happening.noConfusion

/-- No event is handed on while a violation is reported. -/
theorem ne_hands_of_mem_reportAccount {v : Violation} {entry : Happening × Cell}
    (hentry : entry ∈ reportAccount id reporter t v) (layer : Nat) (e : Event) (cookie : Int32) :
    entry.1 ≠ .hands layer e cookie := by
  obtain ⟨what, cell⟩ := entry
  rcases mem_reportAccount hentry with ⟨rfl, -⟩ | ⟨_, rfl, -⟩ <;> exact Happening.noConfusion

/-- An event is handed on at the end of its visit, when the table is what it is to be. -/
theorem account_eq_concat (id : Nat) (reporter : Reporter) (t : ModelTable) (v : Visit) :
    ∃ front last, v.account id reporter t = front ++ [last] ∧ last.2.table = v.after t ∧
      ∀ entry ∈ front, ∀ layer e cookie, entry.1 ≠ .hands layer e cookie := by
  cases v with
  | call request =>
    exact ⟨[], (.enters id request, { table := t }), rfl, rfl,
      fun _ hentry => absurd hentry List.not_mem_nil⟩
  | look k =>
    exact ⟨[], (.looks id k (t.get? k), { table := t }), rfl, rfl,
      fun _ hentry => absurd hentry List.not_mem_nil⟩
  | reply request given =>
    cases hcommit : request.commit? given with
    | none =>
      exact ⟨[], (.returns id request given, { table := t }),
        by simp [account, opening, sequel, hcommit], by simp [after, commit?, hcommit],
        fun _ hentry => absurd hentry List.not_mem_nil⟩
    | some c =>
      refine ⟨(.returns id request given, { table := t }) :: (commitAccount id t c).dropLast,
        (.commits id c, { table := t.commit c }),
        by simp [account, opening, sequel, hcommit, commitAccount],
        by simp [after, commit?, hcommit], fun entry hentry => ?_⟩
      rcases List.mem_cons.1 hentry with rfl | hentry
      · intro layer e cookie heq
        cases heq
      · exact ne_hands_of_mem_commitAccount (List.dropLast_subset _ hentry)
  | event e cookie =>
    refine ⟨(.arrives id e cookie, { table := t }) ::
        ((Visit.event e cookie).sequel id reporter t).dropLast,
      (.hands id e cookie, { table := t.commit (.event e.model e.status) }),
      by simp [account, opening, sequel], rfl, fun entry hentry => ?_⟩
    rcases List.mem_cons.1 hentry with rfl | hentry
    · intro layer e' cookie' heq
      cases heq
    · rw [sequel, List.dropLast_concat, List.mem_append] at hentry
      rcases hentry with hentry | hentry
      · split at hentry
        · exact ne_hands_of_mem_reportAccount hentry
        · exact absurd hentry List.not_mem_nil
      · exact ne_hands_of_mem_commitAccount hentry

/-- The table is changed once in a visit. -/
theorem table_of_mem_account {v : Visit} {entry : Happening × Cell}
    (hentry : entry ∈ v.account id reporter t) :
    entry.2.table = t ∨ entry.2.table = v.after t := by
  obtain ⟨what, cell⟩ := entry
  rcases List.mem_cons.1 hentry with heq | hmem
  · exact .inl (congrArg Cell.table (Prod.mk.inj heq).2)
  · rcases mem_sequel hmem with
      ⟨_, _, _, -, -, -, rfl⟩ | ⟨_, -, rfl | rfl⟩ | ⟨_, -, -, rfl⟩ | ⟨_, _, -, -, rfl⟩
    · exact .inl rfl
    · exact .inl rfl
    · exact .inr rfl
    · exact .inr rfl
    · exact .inr rfl

/-- A visit is there from its first instant on. -/
theorem visit?_of_account {v : Visit} {pre post : List (Happening × Cell)}
    {entry : Happening × Cell}
    (hsplit : v.account id reporter t = pre ++ entry :: post) :
    (pre ++ [entry]).filterMap (fun entry => entry.1.visit?) = [v] := by
  cases pre with
  | nil =>
    obtain ⟨rfl, -⟩ := List.cons.inj hsplit
    simp
  | cons first pre =>
    obtain ⟨rfl, hsequel⟩ := List.cons.inj hsplit
    have hsequel : v.sequel id reporter t = pre ++ [entry] ++ post :=
      hsequel.trans (List.append_cons pre entry post)
    have hnone : (pre ++ [entry]).filterMap (fun entry => entry.1.visit?) = [] :=
      List.filterMap_eq_nil_iff.2 fun _ hother =>
        visit?_of_mem_sequel (hsequel ▸ List.mem_append_left _ hother)
    rw [List.cons_append, List.filterMap_cons, visit?_opening, hnone]

/-- **The balance holds at every instant of a visit.** Until its event is handed on, the visit has
let nothing pass; from then on the balance is that of the whole visit. -/
theorem balance_account {v : Visit} {pre post : List (Happening × Cell)}
    {entry : Happening × Cell}
    (hsplit : v.account id reporter t = pre ++ entry :: post) :
    (letPass false ((pre ++ [entry]).map Prod.fst)).countP (Event.Ends h) +
        entry.2.table.armedCount h ≤ [v].countP (Starts h) + t.armedCount h := by
  obtain ⟨front, last, haccount, hlast, hfront⟩ := account_eq_concat id reporter t v
  rcases List.eq_nil_or_concat post with rfl | ⟨mid, x, rfl⟩
  · -- the visit is over
    have hwhole := v.letPass_account id reporter t []
    rw [hsplit, List.append_nil] at hwhole
    obtain ⟨-, hentry⟩ := List.append_inj' (hsplit.symm.trans haccount) rfl
    obtain rfl : entry = last := by simpa using hentry
    rw [hwhole, letPass, List.append_nil, hlast]
    exact v.balance
  · -- nothing has been handed on yet
    rw [List.concat_eq_append, ← List.cons_append, ← List.append_assoc] at hsplit
    obtain ⟨hpre, -⟩ := List.append_inj' (hsplit.symm.trans haccount) rfl
    rw [List.append_cons] at hpre
    have hnothing : letPass false ((pre ++ [entry]).map Prod.fst) = [] := by
      refine letPass_of_ne_hands fun what hwhat => ?_
      obtain ⟨other, hother, rfl⟩ := List.mem_map.1 hwhat
      exact hfront other (hpre ▸ List.mem_append_left _ hother)
    have hentry : entry ∈ v.account id reporter t := by rw [hsplit]; simp
    rw [hnothing, List.countP_nil, Nat.zero_add]
    rcases table_of_mem_account hentry with htable | htable
    · rw [htable]
      exact Nat.le_add_left _ _
    · rw [htable]
      exact v.armedCount_after_le

end Visit

/-- The unreported events of the moments that tell of one visit. -/
theorem unreported_of_told {id : Nat} {reporter : Reporter} {t : ModelTable} {moments : List Moment}
    {v : Visit} (h : account id moments = told (v.account id reporter t)) :
    unreported id moments = v.letThrough t := by
  have hwhole := v.letPass_account id reporter t []
  rw [List.append_nil, letPass, List.append_nil] at hwhole
  rw [unreported, h, map_fst_told, hwhole]

namespace Stack

variable {id : Nat} {reporter : Reporter} {t : ModelTable} {h : ModelHandle}
  {s : Stack} {out : Stack × List Moment}

/-- The unreported events of a whole run, read off the visits of the run. -/
theorem Chronicles.unreported (hout : Chronicles id reporter t out) :
    unreported id out.2 = Visit.allLetThrough t (visits id out.2) := by
  have hwhole := Visit.letPass_chronicle id reporter t (visits id out.2) []
  rw [List.append_nil, letPass, List.append_nil] at hwhole
  rw [TriggerWatch.unreported, hout.1, map_fst_told, hwhole]

/-- The balance of an enforcer at an instant. -/
theorem Chronicles.balance (hout : Chronicles id reporter t out) {before after : List Moment}
    {m : Moment} (hsplit : out.2 = before ++ m :: after) (hlayer : m.what.layer? = some id) :
    ∃ u, m.table? id = some u ∧
      (TriggerWatch.unreported id (before ++ [m])).countP (Event.Ends h) + u.armedCount h ≤
        (visits id (before ++ [m])).countP (Visit.Starts h) + t.armedCount h := by
  obtain ⟨pre, cell, post, hchronicle, hcell, hbefore⟩ := hout.split hsplit hlayer
  obtain ⟨earlier, v, later, pre', post', -, rfl, hv⟩ := chronicle_eq_append_cons hchronicle
  have haccount : account id (before ++ [m]) =
      told (chronicle id reporter t earlier ++ (pre' ++ [(m.what, cell)])) := by
    rw [account_append, hbefore, account_cons_of_layer hlayer, hcell, ← List.append_assoc]
    simp
  have hunreported : TriggerWatch.unreported id (before ++ [m]) =
      Visit.allLetThrough t earlier ++
        letPass false ((pre' ++ [(m.what, cell)]).map Prod.fst) := by
    rw [TriggerWatch.unreported, haccount, map_fst_told, List.map_append,
      Visit.letPass_chronicle]
  have hvisits : visits id (before ++ [m]) = earlier ++ [v] := by
    rw [visits_of_account haccount, List.filterMap_append, visits_chronicle,
      Visit.visit?_of_account hv]
  have hearlier := Visit.balance_all (t := t) (h := h) earlier
  have hnow := Visit.balance_account (h := h) hv
  dsimp only at hnow
  refine ⟨cell.table, by rw [Moment.table?, hcell]; rfl, ?_⟩
  rw [hunreported, hvisits, List.countP_append, List.countP_append]
  omega

/-- What is let pass unreported of an event that an enforcer looks at once. -/
theorem Has.unreported_event (hs : s.Has id reporter t) {ticket : Nat} {callback : Callback}
    (hcallback : s.issued[ticket]? = some callback) {below above : List Nat}
    (hwatchers : callback.watchers = below ++ id :: above) (hbelow : id ∉ below)
    (habove : id ∉ above) (event : Event) (cookie : Int32) :
    TriggerWatch.unreported id (s.step (.event ticket event cookie)).2 =
      if t.get? event.model = some .armed then [event] else [] :=
  unreported_of_told (hs.event hcallback hwatchers hbelow habove event cookie).1

/-- An event that an enforcer lets pass unreported has found its model armed. -/
theorem Has.armed_of_unreported (hs : s.Has id reporter t)
    (hwatch : ∀ callback ∈ s.issued, ∃ below above,
      callback.watchers = below ++ id :: above ∧ id ∉ below ∧ id ∉ above)
    {ticket : Nat} {event : Event} {cookie : Int32}
    (hpass : event ∈ TriggerWatch.unreported id (s.step (.event ticket event cookie)).2) :
    t.get? event.model = some .armed := by
  cases hissued : s.issued[ticket]? with
  | none => simp [step, onEvent, hissued, TriggerWatch.unreported, letPass] at hpass
  | some callback =>
    obtain ⟨below, above, hwatchers, hbelow, habove⟩ :=
      hwatch callback (List.mem_of_getElem? hissued)
    rw [hs.unreported_event hissued hwatchers hbelow habove event cookie] at hpass
    split at hpass
    · next harmed => exact harmed
    · exact absurd hpass List.not_mem_nil

/-- After an event that ends the recognition of a model, the model is not armed, whether or not it
was before. -/
theorem Has.not_armed_of_ends (hs : s.Has id reporter t) {ticket : Nat} {callback : Callback}
    (hcallback : s.issued[ticket]? = some callback) {below above : List Nat}
    (hwatchers : callback.watchers = below ++ id :: above) (hbelow : id ∉ below)
    (habove : id ∉ above) {event : Event} (hends : event.Ends h) (cookie : Int32) {u : ModelTable}
    (hu : (s.step (.event ticket event cookie)).1.Has id reporter u) :
    u.get? h ≠ some .armed := by
  obtain ⟨-, htable, -⟩ := hs.event hcallback hwatchers hbelow habove event cookie
  rw [Option.some.inj (hu.table?.symm.trans htable), ModelTable.get?_commit]
  obtain ⟨rfl, hstatus⟩ := hends
  cases t.get? event.model <;> simp [Commit.effect, Status.isForced, hstatus]

/-- A model that is armed after some moves was armed before or has been started by one of them. -/
theorem Has.started_mem_commits (hs : s.Has id reporter t) (hidle : t.get? h ≠ some .armed)
    {moves : List Move} {u : ModelTable} (hu : (s.run moves).1.Has id reporter u)
    (harmed : u.get? h = some .armed) : .started h ∈ commits id (s.run moves).2 := by
  have hafter := (run_chronicle hs moves).has
  obtain rfl : t.commitAll (commits id (s.run moves).2) = u :=
    Option.some.inj (hafter.table?.symm.trans hu.table?)
  exact ModelTable.started_mem_of_commitAll hidle harmed

/-- **One start allows one event,** at every instant of every run, for any layers around the
enforcer and whatever the client and the implementation do.  The events that end the recognition of
a model and were let pass unreported, and one more if the model is armed, are no more than the
starts that were answered well.  And once such an event has come, reported or not, no event of the
model is let pass unreported before another start has been committed. -/
theorem allowance (outer : List LayerPlan) (plan : EnforcerPlan) (inner : List LayerPlan)
    (moves : List Move) (h : ModelHandle) :
    let out := (fresh (layersOf (outer ++ .enforcer plan :: inner)).1).run moves
    let id := inner.length
    (∀ before m after, out.2 = before ++ m :: after → m.what.layer? = some id →
      ∃ t, m.table? id = some t ∧
        (unreported id (before ++ [m])).countP (Event.Ends h) + t.armedCount h ≤
          (visits id (before ++ [m])).countP (Visit.Starts h)) ∧
    (∃ t, out.1.table? id = some t ∧
      (unreported id out.2).countP (Event.Ends h) + t.armedCount h ≤
        (visits id out.2).countP (Visit.Starts h)) ∧
    ∀ ticket callback event cookie, out.1.issued[ticket]? = some callback → event.Ends h →
      ∀ between ticket' event' cookie', event'.model = h →
        let mid := (out.1.step (.event ticket event cookie)).1.run between
        event' ∈ unreported id (mid.1.step (.event ticket' event' cookie')).2 →
          .started h ∈ commits id mid.2 := by
  intro out id
  have hout : Chronicles id plan.reporter {} out := run_chronicle (has_fresh outer plan inner) moves
  refine ⟨fun before m after hsplit hlayer => ?_, ⟨_, hout.2.table?, ?_⟩, ?_⟩
  · obtain ⟨t, ht, hbalance⟩ := hout.balance (h := h) hsplit hlayer
    exact ⟨t, ht, hbalance⟩
  · rw [hout.unreported]
    exact Visit.balance_all (visits id out.2)
  · intro ticket callback event cookie hcallback hends between ticket' event' cookie' hmodel mid
      hpass
    have hspent := (step_chronicle hout.2 (.event ticket event cookie)).2
    have hmid := (run_chronicle hspent between).2
    have hrun : mid.1 = ((fresh (layersOf (outer ++ .enforcer plan :: inner)).1).run
        (moves ++ .event ticket event cookie :: between)).1 := by
      rw [run_append, run_cons]
    obtain ⟨below, above, hwatchers, hbelow, habove⟩ :=
      watchers_split outer plan inner moves (List.mem_of_getElem? hcallback)
    have hdisarmed := hout.2.not_armed_of_ends hcallback hwatchers hbelow habove hends cookie hspent
    have harmed := hmid.armed_of_unreported (fun callback' hissued =>
      watchers_split outer plan inner (moves ++ .event ticket event cookie :: between)
        (hrun ▸ hissued)) hpass
    -- The model was not armed after the first event and is armed before the second one.
    exact hspent.started_mem_commits hdisarmed hmid (hmodel ▸ harmed)

/-- A model is started, spent and started again: at the instant at which its first event is handed
on, one event was let pass and one start answered well, and the second event is let pass because of
the second start. -/
theorem allowance_restart :
    let event : Event := .generic { model := 1 } []
    let out := (fresh (layersOf [.enforcer {}]).1).run
      [.call (.load (.generic {}) "client" 0), .reply (.handle 1),
        .call (.start 1 {} "client" 0), .reply .done, .event 1 event 7]
    let between : List Move := [.finish, .call (.start 1 {} "client" 0), .reply .done]
    let mid := (out.1.step (.event 1 event 8)).1.run between
    (∃ before m after t, out.2 = before ++ m :: after ∧ m.what = .hands 0 event 7 ∧
      m.table? 0 = some t ∧ unreported 0 (before ++ [m]) = [event] ∧
      (unreported 0 (before ++ [m])).countP (Event.Ends 1) + t.armedCount 1 ≤
        (visits 0 (before ++ [m])).countP (Visit.Starts 1)) ∧
    event ∈ unreported 0 (mid.1.step (.event 2 event 9)).2 ∧ .started 1 ∈ commits 0 mid.2 := by
  intro event out between mid
  obtain ⟨hinstant, -, hbetween⟩ := allowance [] {} []
    [.call (.load (.generic {}) "client" 0), .reply (.handle 1),
      .call (.start 1 {} "client" 0), .reply .done, .event 1 event 7] 1
  have hsplit : out.2 = out.2.take 12 ++ out.2.get ⟨12, by decide⟩ :: out.2.drop 13 := by decide
  have hwhat : (out.2.get ⟨12, by decide⟩).what = .hands 0 event 7 := by decide
  obtain ⟨t, ht, hbalance⟩ := hinstant _ _ _ hsplit (by rw [hwhat]; rfl)
  have hissued : out.1.issued[1]? = some { client := "client", watchers := [0] } := by decide
  have hpass : event ∈ unreported 0 (mid.1.step (.event 2 event 9)).2 := by decide
  exact ⟨⟨_, _, _, t, hsplit, hwhat, ht, by decide, hbalance⟩, hpass,
    hbetween 1 _ event 8 hissued (by decide) between 2 event 9 rfl hpass⟩

end Stack
end TriggerWatch
