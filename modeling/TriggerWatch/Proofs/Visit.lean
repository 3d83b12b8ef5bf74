/-
# What comes to an enforcer, and what it makes of it

Seen from one layer a run is a list of visits: calls from above, replies and events from below, and
questions about a model.  `chronicle` is an enforcer standing by itself: it takes a list of visits,
and says what happens at each of them and what the cell is at that instant.  Nothing in it mentions
other layers, tickets, frames or callbacks.

`account` and `visits` read the same two things off the moments of a stack.  That the two sides
agree, for every enforcer of every stack in every run, is the subject of `Stack.run_chronicle` in
`TriggerWatch.Proofs.Chronicle`; here is what can be said about `chronicle` alone.
-/

import TriggerWatch.Stack.Basic

namespace TriggerWatch

/-- A violation is not worded like a warning about a load. -/
theorem Config.record_ne_reloadRecord (config : Config) (v : Violation) (h : ModelHandle) :
    config.record v ≠ Enforcer.reloadRecord h := by
  intro heq
  have hrecord : (config.record v).text.toList.head? = some 'U' := by
    simp only [record, String.toList_ofList]
    rfl
  have hreload : (Enforcer.reloadRecord h).text.toList.head? = some 'M' := by
    simp only [Enforcer.reloadRecord, String.toList_append]
    rfl
  rw [heq, hreload] at hrecord
  exact absurd hrecord (by decide)

/-- The layer at which something happens, if it happens at one. -/
def Happening.layer? : Happening → Option Nat
  | .enters layer _ | .swallows layer _ _ | .returns layer _ _ | .arrives layer _ _
  | .reports layer _ _ | .logs layer _ | .commits layer _ | .hands layer _ _
  | .looks layer _ _ => some layer
  | .calls _ | .notifies _ _ _ | .answers _ => none

/-- What comes to a layer. -/
inductive Visit where
  /-- A call, on its way down. -/
  | call (call : Request Unit)
  /-- The reply to a call that the layer has passed on. -/
  | reply (call : Request Unit) (reply : Reply)
  /-- An event, on its way up. -/
  | event (event : Event) (cookie : Int32)
  /-- A question about a model. -/
  | look (h : ModelHandle)
  deriving DecidableEq

/-- The visit that begins with a happening, if one begins with it. -/
def Happening.visit? : Happening → Option Visit
  | .enters _ call => some (.call call)
  | .returns _ call reply => some (.reply call reply)
  | .arrives _ event cookie => some (.event event cookie)
  | .looks _ h _ => some (.look h)
  | _ => none

/-- The commit that a happening is, if it is one. -/
def Happening.commit? : Happening → Option Commit
  | .commits _ c => some c
  | _ => none

/-- The cell of the enforcer with a number, at an instant. -/
def Moment.cell? (m : Moment) (id : Nat) : Option Cell :=
  (m.cells.find? fun entry => entry.1 = id).map Prod.snd

/-- The table of the enforcer with a number, at an instant. -/
def Moment.table? (m : Moment) (id : Nat) : Option ModelTable := (m.cell? id).map Cell.table

/-- What happens at a layer during some moments, each with its cell at that instant. -/
def account (id : Nat) (moments : List Moment) : List (Happening × Option Cell) :=
  (moments.filter fun m => m.what.layer? = some id).map fun m => (m.what, m.cell? id)

/-- What comes to a layer during some moments. -/
def visits (id : Nat) (moments : List Moment) : List Visit :=
  (account id moments).filterMap fun entry => entry.1.visit?

/-- The commits of a layer during some moments. -/
def commits (id : Nat) (moments : List Moment) : List Commit :=
  (account id moments).filterMap fun entry => entry.1.commit?

namespace Visit

/-- What an enforcer writes down because of a visit. -/
def commit? : Visit → Option Commit
  | .reply request given => request.commit? given
  | .event e _ => some (.event e.model e.status)
  | .call _ | .look _ => none

/-- The table after a visit. -/
def after (t : ModelTable) (v : Visit) : ModelTable :=
  match v.commit? with
  | some c => t.commit c
  | none => t

/-- The table after some visits. -/
def afterAll (t : ModelTable) (vs : List Visit) : ModelTable := vs.foldl after t

/-- What happens while a commit is written. -/
def commitAccount (id : Nat) (t : ModelTable) (c : Commit) : List (Happening × Cell) :=
  ((Enforcer.commitRecord? t c).toList.map fun record =>
    (.logs id record, { table := t.commit c, hold := .exclusive })) ++
  [(.commits id c, { table := t.commit c })]

/-- What happens while a violation is reported. -/
def reportAccount (id : Nat) (reporter : Reporter) (t : ModelTable) (v : Violation) :
    List (Happening × Cell) :=
  (.reports id reporter v, { table := t }) ::
    (reporter.record? v).toList.map fun record => (.logs id record, { table := t })

/-- The happening with which a visit begins. -/
def opening (id : Nat) (t : ModelTable) : Visit → Happening
  | .call request => .enters id request
  | .reply request given => .returns id request given
  | .event e cookie => .arrives id e cookie
  | .look h => .looks id h (t.get? h)

/-- What happens next. -/
def sequel (id : Nat) (reporter : Reporter) (t : ModelTable) : Visit → List (Happening × Cell)
  | .call _ | .look _ => []
  | .reply request given =>
    match request.commit? given with
    | some c => commitAccount id t c
    | none => []
  | .event e cookie =>
    (match Enforcer.judge e (t.get? e.model) with
      | some v => reportAccount id reporter t v
      | none => []) ++
    commitAccount id t (.event e.model e.status) ++
    [(.hands id e cookie, { table := t.commit (.event e.model e.status) })]

/-- All that happens because of a visit. -/
def account (id : Nat) (reporter : Reporter) (t : ModelTable) (v : Visit) :
    List (Happening × Cell) :=
  (v.opening id t, { table := t }) :: v.sequel id reporter t

end Visit

open Visit (afterAll)

/-- What happens at an enforcer that stands by itself, and what its cell is at each instant. -/
def chronicle (id : Nat) (reporter : Reporter) (t : ModelTable) :
    List Visit → List (Happening × Cell)
  | [] => []
  | v :: vs => v.account id reporter t ++ chronicle id reporter (v.after t) vs

variable {id : Nat} {reporter : Reporter} {t : ModelTable}

/-- Nothing happens at a layer in no time. -/
@[simp] theorem account_nil : account id [] = [] := rfl

/-- What happens at a layer is told in the order in which it happens. -/
@[simp] theorem account_append (ms ns : List Moment) :
    account id (ms ++ ns) = account id ms ++ account id ns := by
  simp [account]

/-- Nothing comes to a layer in no time. -/
@[simp] theorem visits_nil : visits id [] = [] := rfl

/-- The visits of a layer during two stretches, one after the other. -/
@[simp] theorem visits_append (ms ns : List Moment) :
    visits id (ms ++ ns) = visits id ms ++ visits id ns := by
  simp [visits]

/-- The commits of a layer during two stretches, one after the other. -/
@[simp] theorem commits_append (ms ns : List Moment) :
    commits id (ms ++ ns) = commits id ms ++ commits id ns := by
  simp [commits]

/-- A moment at a layer is the next entry of its account. -/
theorem account_cons_of_layer {m : Moment} (hm : m.what.layer? = some id) (ms : List Moment) :
    account id (m :: ms) = (m.what, m.cell? id) :: account id ms := by
  simp [account, hm]

/-- A moment at which something comes to a layer is its next visit. -/
theorem visits_cons_of_visit {m : Moment} {v : Visit} (hlayer : m.what.layer? = some id)
    (hvisit : m.what.visit? = some v) (ms : List Moment) :
    visits id (m :: ms) = v :: visits id ms := by
  simp only [visits, account_cons_of_layer hlayer, List.filterMap_cons, hvisit]

/-- What is told of a layer has happened. -/
theorem exists_split_of_mem_account {entry : Happening × Option Cell} {ms : List Moment}
    (h : entry ∈ account id ms) :
    ∃ before m after, ms = before ++ m :: after ∧ m.what.layer? = some id ∧
      entry = (m.what, m.cell? id) := by
  obtain ⟨m, hm, rfl⟩ := List.mem_map.1 h
  obtain ⟨hmem, hlayer⟩ := List.mem_filter.1 hm
  obtain ⟨before, after, hsplit⟩ := List.append_of_mem hmem
  exact ⟨before, m, after, hsplit, by simpa using hlayer, rfl⟩

/-- The table after two lists of visits. -/
@[simp] theorem Visit.afterAll_append (vs ws : List Visit) :
    afterAll t (vs ++ ws) = afterAll (afterAll t vs) ws := by
  simp [afterAll]

/-- The table after one more visit. -/
theorem Visit.afterAll_concat (vs : List Visit) (v : Visit) :
    afterAll t (vs ++ [v]) = v.after (afterAll t vs) := by
  rw [Visit.afterAll_append]
  rfl

/-- The chronicle of two lists of visits: the second goes on from the table that the first leaves
behind. -/
theorem chronicle_append (vs ws : List Visit) :
    chronicle id reporter t (vs ++ ws) =
      chronicle id reporter t vs ++ chronicle id reporter (afterAll t vs) ws := by
  induction vs generalizing t with
  | nil => rfl
  | cons v vs ih =>
    rw [List.cons_append, chronicle, chronicle, ih, List.append_assoc]
    rfl

/-- The first entry about a visit tells what the visit is. -/
@[simp] theorem Visit.visit?_opening (v : Visit) : (v.opening id t).visit? = some v := by
  cases v <;> rfl

/-- While a commit is written, the table is held, and changed already; a warning may be logged then.
Once it is written, the table is free. -/
theorem Visit.mem_commitAccount {c : Commit} {what : Happening} {cell : Cell}
    (h : (what, cell) ∈ commitAccount id t c) :
    (∃ record, what = .logs id record ∧ cell = { table := t.commit c, hold := .exclusive }) ∨
      (what = .commits id c ∧ cell = { table := t.commit c }) := by
  rw [commitAccount, List.mem_append, List.mem_map, List.mem_singleton] at h
  rcases h with ⟨record, -, heq⟩ | heq
  · obtain ⟨rfl, rfl⟩ := Prod.mk.inj heq
    exact .inl ⟨record, rfl, rfl⟩
  · exact .inr (Prod.mk.inj heq)

/-- A report is made, and logged if it goes to the log, while the table is free and has not been
changed yet. -/
theorem Visit.mem_reportAccount {v : Violation} {what : Happening} {cell : Cell}
    (h : (what, cell) ∈ reportAccount id reporter t v) :
    (what = .reports id reporter v ∧ cell = { table := t }) ∨
      (∃ record, what = .logs id record ∧ cell = { table := t }) := by
  rw [reportAccount, List.mem_cons, List.mem_map] at h
  rcases h with heq | ⟨record, -, heq⟩
  · exact .inl (Prod.mk.inj heq)
  · obtain ⟨rfl, rfl⟩ := Prod.mk.inj heq
    exact .inr ⟨record, rfl, rfl⟩

/-- **All that can happen because of a visit,** and what the cell is at that instant. -/
theorem Visit.mem_sequel {v : Visit} {what : Happening} {cell : Cell}
    (h : (what, cell) ∈ v.sequel id reporter t) :
    (∃ e cookie violation, v = .event e cookie ∧
        Enforcer.judge e (t.get? e.model) = some violation ∧
        what = .reports id reporter violation ∧ cell = { table := t }) ∨
      (∃ record, what = .logs id record ∧
        (cell = { table := t } ∨ cell = { table := v.after t, hold := .exclusive })) ∨
      (∃ c, v.commit? = some c ∧ what = .commits id c ∧ cell = { table := v.after t }) ∨
      (∃ e cookie, v = .event e cookie ∧ what = .hands id e cookie ∧
        cell = { table := v.after t }) := by
  have hcommit : ∀ c, v.commit? = some c → (what, cell) ∈ commitAccount id t c →
      (∃ record, what = .logs id record ∧ cell = { table := v.after t, hold := .exclusive }) ∨
      (∃ c, v.commit? = some c ∧ what = .commits id c ∧ cell = { table := v.after t }) := by
    intro c hc hmem
    have hafter : v.after t = t.commit c := by rw [after, hc]
    rw [hafter]
    exact (mem_commitAccount hmem).imp_right fun hmem => ⟨c, hc, hmem⟩
  cases v with
  | call | look => exact absurd h List.not_mem_nil
  | reply request given =>
    simp only [sequel] at h
    split at h
    · next c hc =>
      rcases hcommit c hc h with ⟨record, hwhat, hcell⟩ | hcommits
      · exact .inr (.inl ⟨record, hwhat, .inr hcell⟩)
      · exact .inr (.inr (.inl hcommits))
    · exact absurd h List.not_mem_nil
  | event e cookie =>
    rw [sequel, List.mem_append, List.mem_append, List.mem_singleton] at h
    rcases h with (h | h) | h
    · split at h
      · next violation hjudge =>
        rcases mem_reportAccount h with hreports | ⟨record, hwhat, hcell⟩
        · exact .inl ⟨e, cookie, violation, rfl, hjudge, hreports⟩
        · exact .inr (.inl ⟨record, hwhat, .inl hcell⟩)
      · exact absurd h List.not_mem_nil
    · rcases hcommit _ rfl h with ⟨record, hwhat, hcell⟩ | hcommits
      · exact .inr (.inl ⟨record, hwhat, .inr hcell⟩)
      · exact .inr (.inr (.inl hcommits))
    · exact .inr (.inr (.inr ⟨e, cookie, rfl, Prod.mk.inj h⟩))

/-- **A visit begins once.**  Nothing that happens because of it begins another. -/
theorem Visit.visit?_of_mem_sequel {v : Visit} {entry : Happening × Cell}
    (h : entry ∈ v.sequel id reporter t) : entry.1.visit? = none := by
  obtain ⟨what, cell⟩ := entry
  rcases mem_sequel h with
    ⟨_, _, _, -, -, rfl, -⟩ | ⟨_, rfl, -⟩ | ⟨_, -, rfl, -⟩ | ⟨_, _, -, rfl, -⟩ <;> rfl

/-- The visits can be read off what happens. -/
theorem visits_chronicle (vs : List Visit) :
    (chronicle id reporter t vs).filterMap (fun entry => entry.1.visit?) = vs := by
  induction vs generalizing t with
  | nil => rfl
  | cons v vs ih =>
    have hs : (v.sequel id reporter t).filterMap (fun entry => entry.1.visit?) = [] :=
      List.filterMap_eq_nil_iff.2 fun _ h => Visit.visit?_of_mem_sequel h
    simp [chronicle, Visit.account, hs, ih]

/-- **A visit commits what it calls for,** and nothing else is committed. -/
theorem Visit.commits_account (v : Visit) :
    (v.account id reporter t).filterMap (fun entry => entry.1.commit?) = v.commit?.toList := by
  have hc : ∀ c, (commitAccount id t c).filterMap (fun entry => entry.1.commit?) = [c] := by
    intro c
    cases hrecord : Enforcer.commitRecord? t c <;> simp [commitAccount, hrecord, Happening.commit?]
  have hr : ∀ v, (reportAccount id reporter t v).filterMap (fun entry => entry.1.commit?) = [] := by
    intro v
    cases hrecord : reporter.record? v <;> simp [reportAccount, hrecord, Happening.commit?]
  have hopening : (v.opening id t).commit? = none := by cases v <;> rfl
  simp only [account, List.filterMap_cons, hopening]
  cases v with
  | call | look => rfl
  | reply request given =>
    cases hcommit : request.commit? given with
    | none => simp [sequel, commit?, hcommit]
    | some c => simp [sequel, commit?, hcommit, hc]
  | event e cookie =>
    have hh : (Happening.hands id e cookie).commit? = none := rfl
    cases hjudge : Enforcer.judge e (t.get? e.model) with
    | none => simp [sequel, commit?, hjudge, hc, hh]
    | some violation => simp [sequel, commit?, hjudge, hc, hr, hh]

/-- The commits of a chronicle are those that the visits call for, in their order. -/
theorem commits_chronicle (vs : List Visit) :
    (chronicle id reporter t vs).filterMap (fun entry => entry.1.commit?) =
      vs.filterMap Visit.commit? := by
  induction vs generalizing t with
  | nil => rfl
  | cons v vs ih =>
    rw [chronicle, List.filterMap_append, Visit.commits_account, ih]
    cases hv : v.commit? <;> simp [hv]

/-- Whatever happens, happens during one visit, which finds the table as the visits before it have
left it. -/
theorem chronicle_eq_append_cons {vs : List Visit} {pre post : List (Happening × Cell)}
    {entry : Happening × Cell} (h : chronicle id reporter t vs = pre ++ entry :: post) :
    ∃ earlier v later pre' post', vs = earlier ++ v :: later ∧
      pre = chronicle id reporter t earlier ++ pre' ∧
      v.account id reporter (afterAll t earlier) = pre' ++ entry :: post' := by
  induction vs generalizing t pre with
  | nil => simp [chronicle] at h
  | cons v vs ih =>
    rw [chronicle] at h
    rcases List.append_eq_append_iff.1 h with ⟨mid, hpre, hrest⟩ | ⟨mid, hvisit, hrest⟩
    · obtain ⟨earlier, w, later, pre', post', rfl, hmid, hw⟩ := ih hrest
      refine ⟨v :: earlier, w, later, pre', post', rfl, ?_, hw⟩
      rw [hpre, hmid, chronicle, List.append_assoc]
    · cases mid with
      | nil =>
        have hfirst : chronicle id reporter (v.after t) vs = [] ++ entry :: post := hrest.symm
        obtain ⟨earlier, w, later, pre', post', rfl, hmid, hw⟩ := ih hfirst
        refine ⟨v :: earlier, w, later, pre', post', rfl, ?_, hw⟩
        rw [List.append_nil] at hvisit
        rw [chronicle, hvisit, List.append_assoc, ← hmid, List.append_nil]
      | cons e mid =>
        obtain ⟨rfl, -⟩ := List.cons.inj hrest
        exact ⟨[], v, vs, pre, mid, rfl, rfl, hvisit⟩

/-- **What does not begin a visit belongs to the last one that has begun,** and that visit has found
the table as the visits before it have left it. -/
theorem mem_sequel_of_chronicle {vs : List Visit} {pre post : List (Happening × Cell)}
    {entry : Happening × Cell} (h : chronicle id reporter t vs = pre ++ entry :: post)
    (hentry : entry.1.visit? = none) :
    ∃ earlier v, pre.filterMap (fun entry => entry.1.visit?) = earlier ++ [v] ∧
      entry ∈ v.sequel id reporter (afterAll t earlier) := by
  obtain ⟨earlier, v, later, pre', post', -, rfl, hv⟩ := chronicle_eq_append_cons h
  cases pre' with
  | nil =>
    obtain ⟨rfl, -⟩ := List.cons.inj hv
    rw [Visit.visit?_opening] at hentry
    cases hentry
  | cons first pre' =>
    obtain ⟨rfl, hsequel⟩ := List.cons.inj hv
    have hsequel : v.sequel id reporter (afterAll t earlier) = pre' ++ entry :: post' := hsequel
    have hnone : pre'.filterMap (fun entry => entry.1.visit?) = [] :=
      List.filterMap_eq_nil_iff.2 fun e he =>
        Visit.visit?_of_mem_sequel (hsequel ▸ List.mem_append_left _ he)
    refine ⟨earlier, v, by simp [visits_chronicle, hnone], ?_⟩
    rw [hsequel]
    exact List.mem_append_right _ List.mem_cons_self

/-- What begins a visit finds the table as the visits before it have left it, and the rest of the
visit comes next. -/
theorem opening_of_chronicle {vs : List Visit} {pre post : List (Happening × Cell)}
    {entry : Happening × Cell} {v : Visit} (h : chronicle id reporter t vs = pre ++ entry :: post)
    (hentry : entry.1.visit? = some v) :
    let found := afterAll t (pre.filterMap fun entry => entry.1.visit?)
    entry = (v.opening id found, { table := found }) ∧
      ∃ later, post = v.sequel id reporter found ++ later := by
  intro found
  obtain ⟨earlier, w, later, pre', post', hvs, rfl, hw⟩ := chronicle_eq_append_cons h
  cases pre' with
  | nil =>
    obtain ⟨rfl, -⟩ := List.cons.inj hw
    obtain rfl : w = v := by simpa using hentry
    have hfound : found = afterAll t earlier := by
      simp only [found, List.append_nil, visits_chronicle]
    refine ⟨by rw [hfound], chronicle id reporter (w.after (afterAll t earlier)) later, ?_⟩
    rw [hvs, chronicle_append, chronicle, Visit.account, List.append_nil] at h
    rw [hfound]
    exact (List.cons.inj (List.append_cancel_left h)).2.symm
  | cons first pre' =>
    obtain ⟨-, hsequel⟩ := List.cons.inj hw
    have hsequel : w.sequel id reporter (afterAll t earlier) = pre' ++ entry :: post' := hsequel
    have hnone : entry.1.visit? = none :=
      Visit.visit?_of_mem_sequel (hsequel ▸ List.mem_append_right _ List.mem_cons_self)
    rw [hnone] at hentry
    cases hentry

/-- A commit is the one that the visit calls for. -/
theorem Visit.commits_mem_sequel {v : Visit} {c : Commit} {cell : Cell}
    (h : (.commits id c, cell) ∈ v.sequel id reporter t) :
    v.commit? = some c ∧ cell = { table := v.after t } := by
  rcases mem_sequel h with
    ⟨_, _, _, -, -, heq, -⟩ | ⟨_, heq, -⟩ | ⟨c', hc, heq, hcell⟩ | ⟨_, _, -, heq, -⟩
  · cases heq
  · cases heq
  · obtain ⟨-, rfl⟩ := Happening.commits.inj heq
    exact ⟨hc, hcell⟩
  · cases heq

/-- A report is about an event that was judged a violation. -/
theorem Visit.reports_mem_sequel {v : Visit} {layer : Nat} {told : Reporter} {violation : Violation}
    {cell : Cell} (h : (.reports layer told violation, cell) ∈ v.sequel id reporter t) :
    ∃ e cookie, v = .event e cookie ∧
      Enforcer.judge e (t.get? e.model) = some violation := by
  rcases mem_sequel h with
    ⟨e, cookie, _, hv, hjudge, heq, -⟩ | ⟨_, heq, -⟩ | ⟨_, -, heq, -⟩ | ⟨_, _, -, heq, -⟩
  · obtain ⟨-, -, rfl⟩ := Happening.reports.inj heq
    exact ⟨e, cookie, hv, hjudge⟩
  · cases heq
  · cases heq
  · cases heq

end TriggerWatch
