/-
# Every enforcer of a stack keeps its chronicle

The moves of a stack are spread over layers, passages and frames.  Here they are taken apart again:
in every run, what happens at an enforcer is `chronicle` of what comes to it, and its table is
`afterAll` of the same visits (`Stack.run_chronicle`).  So a fact about one enforcer in one stack is
a fact about a list of visits.

`Passage.Shows` says what a passage shows of one enforcer.  Each operation on passages has one lemma
about the enforcer whose turn it is, and one about all the others, for which nothing changes.
-/

import TriggerWatch.Code
import TriggerWatch.Proofs.Visit
import TriggerWatch.Proofs.Wiring

namespace TriggerWatch

open Visit (afterAll commitAccount reportAccount)

/-- The part that the layer with a number plays among some layers. -/
def roleAt? (layers : List Layer) (id : Nat) : Option Role :=
  (layers.find? fun layer => layer.id = id).map Layer.role

/-- Each of some layers is found by its number, if no number is given twice. -/
theorem roleAt?_of_mem {layers : List Layer} (hnodup : (layers.map Layer.id).Nodup) {layer : Layer}
    (h : layer ∈ layers) : roleAt? layers layer.id = some layer.role := by
  have hinj : ∀ a ∈ layers, ∀ b ∈ layers, a.id = b.id → a = b := fun _ ha _ hb =>
    List.inj_on_of_nodup_map hnodup ha hb
  rw [roleAt?, (find?_key_eq_some_iff hinj).2 ⟨h, rfl⟩, Option.map_some]

/-- What is told of an enforcer, as it can be read off moments. -/
def told (entries : List (Happening × Cell)) : List (Happening × Option Cell) :=
  entries.map fun entry => (entry.1, some entry.2)

/-- Entries are told in their order. -/
@[simp] theorem told_append (xs ys : List (Happening × Cell)) :
    told (xs ++ ys) = told xs ++ told ys := by
  simp [told]

/-- An entry that is told has its cell. -/
@[simp] theorem told_cons (what : Happening) (cell : Cell) (xs : List (Happening × Cell)) :
    told ((what, cell) :: xs) = (what, some cell) :: told xs := rfl

/-- There is nothing to tell about nothing. -/
@[simp] theorem told_nil : told [] = [] := rfl

/-- To be told changes nothing about what happens. -/
theorem filterMap_told {α : Type} (f : Happening → Option α) (entries : List (Happening × Cell)) :
    (told entries).filterMap (fun entry => f entry.1) =
      entries.filterMap fun entry => f entry.1 := by
  rw [told, List.filterMap_map]
  rfl

/-- What happens is told as it is. -/
theorem map_fst_told (entries : List (Happening × Cell)) :
    (told entries).map Prod.fst = entries.map Prod.fst := by
  rw [told, List.map_map]
  rfl

/-- The cell of an enforcer can be found among the cells. -/
theorem find?_cellsOf {layers : List Layer} {id : Nat} {e : Enforcer}
    (h : roleAt? layers id = some (.enforcer e)) :
    ((cellsOf layers).find? fun entry => entry.1 = id).map Prod.snd = some e.cell := by
  induction layers with
  | nil => simp [roleAt?] at h
  | cons layer layers ih =>
    obtain ⟨k, role⟩ := layer
    by_cases hk : k = id
    · obtain rfl : role = .enforcer e := by simpa [roleAt?, hk] using h
      simp [cellsOf, Layer.cell?, hk]
    · have htail : roleAt? layers id = some (.enforcer e) := by simpa [roleAt?, hk] using h
      cases role with
      | enforcer e' => simpa [cellsOf, Layer.cell?, hk] using ih htail
      | relay r => simpa [cellsOf, Layer.cell?] using ih htail

/-- What is written down about a call is known from the call alone. -/
theorem Request.commit?_bare {κ : Type} (request : Request κ) (reply : Reply) :
    request.bare.commit? reply = request.commit? reply :=
  Request.commit?_map _ request reply

namespace Passage

/-- The part of a layer is looked up among the layers of the passage. -/
theorem role?_eq (p : Passage) (id : Nat) : p.role? id = roleAt? p.layers id := rfl

/-- A change of one part leaves all other parts alone. -/
theorem role?_modifyRole (p : Passage) (k id : Nat) (f : Role → Role) :
    (p.modifyRole k f).role? id = if id = k then (p.role? id).map f else p.role? id := by
  obtain ⟨layers, moments⟩ := p
  simp only [role?, modifyRole, List.find?_map]
  have hid : ((fun layer : Layer => decide (layer.id = id)) ∘ fun layer =>
      if layer.id = k then { layer with role := f layer.role } else layer) =
      fun layer => decide (layer.id = id) := by
    funext layer
    by_cases hk : layer.id = k <;> simp [hk]
  rw [hid]
  cases hfind : layers.find? fun layer => layer.id = id with
  | none => simp
  | some layer =>
    obtain rfl : layer.id = id := by simpa using List.find?_some hfind
    by_cases hk : layer.id = k <;> simp [hk]

/-- What a passage shows of an enforcer: the enforcer as it is by now, and what has happened at it
so far. -/
structure Shows (p : Passage) (id : Nat) (e : Enforcer)
    (entries : List (Happening × Option Cell)) : Prop where
  role : p.role? id = some (.enforcer e)
  account : account id p.moments = entries

namespace Shows

variable {p : Passage} {id k : Nat} {e : Enforcer} {reporter : Reporter} {t : ModelTable}
variable {entries : List (Happening × Option Cell)}

/-- What happens at the layer is the next entry of its account, with its cell as it is now. -/
theorem note_own (h : p.Shows id e entries) (what : Happening) (hw : what.layer? = some id) :
    (p.note what).Shows id e (entries ++ [(what, some e.cell)]) := by
  refine ⟨h.role, ?_⟩
  have hcell := find?_cellsOf (p.role?_eq id ▸ h.role)
  simp [note, TriggerWatch.account, hw, ← h.account, Moment.cell?, hcell]

/-- What happens elsewhere is not in the account. -/
theorem note_other (h : p.Shows id e entries) (what : Happening) (hw : what.layer? ≠ some id) :
    (p.note what).Shows id e entries := by
  refine ⟨h.role, ?_⟩
  simp [note, TriggerWatch.account, hw, ← h.account]

/-- A change of another layer is not in the account. -/
theorem modifyRole_other (h : p.Shows id e entries) (hk : k ≠ id) (f : Role → Role) :
    (p.modifyRole k f).Shows id e entries :=
  ⟨by rw [role?_modifyRole, if_neg hk.symm, h.role], h.account⟩

/-- A change of the layer's own cell is not in the account yet: the next entry will show it. -/
theorem modifyCell_own (h : p.Shows id e entries) (f : Cell → Cell) :
    (p.modifyCell id f).Shows id { e with cell := f e.cell } entries :=
  ⟨by rw [modifyCell, role?_modifyRole, if_pos rfl, h.role]; rfl, h.account⟩

/-- A commit of the enforcer itself. -/
theorem commit_own (h : p.Shows id { reporter, cell := { table := t } } entries) (c : Commit) :
    (p.commit id { reporter, cell := { table := t } } c).Shows id
      { reporter, cell := { table := t.commit c } } (entries ++ told (commitAccount id t c)) := by
  unfold commit
  cases hc : c.writes with
  | false =>
    obtain ⟨hcommit, hrecord⟩ : t.commit c = t ∧ Enforcer.commitRecord? t c = none := by
      cases c <;> simp_all [Commit.writes, ModelTable.commit, Enforcer.commitRecord?]
    simpa [commitAccount, hcommit, hrecord] using h.note_own (.commits id c) rfl
  | true =>
    have hwritten := h.modifyCell_own fun cell => cell.write c
    cases hrecord : Enforcer.commitRecord? t c with
    | none =>
      have hdone := (hwritten.modifyCell_own Cell.release).note_own (.commits id c) rfl
      simpa [commitAccount, hrecord, Cell.write, Cell.claim, Cell.release] using hdone
    | some record =>
      have hlogged := hwritten.note_own (.logs id record) rfl
      have hdone := (hlogged.modifyCell_own Cell.release).note_own (.commits id c) rfl
      simpa [commitAccount, hrecord, Cell.write, Cell.claim, Cell.release] using hdone

/-- A commit of another enforcer. -/
theorem commit_other (h : p.Shows id e entries) (hk : k ≠ id) (e' : Enforcer) (c : Commit) :
    (p.commit k e' c).Shows id e entries := by
  have hne : some k ≠ some id := fun heq => hk (Option.some.inj heq)
  unfold commit
  split
  · have hwritten := h.modifyRole_other hk
    split
    · exact (((hwritten _).note_other (.logs k _) hne).modifyRole_other hk _).note_other
        (.commits k c) hne
    · exact ((hwritten _).modifyRole_other hk _).note_other (.commits k c) hne
  · exact h.note_other (.commits k c) hne

/-- A report by the layer makes the entries of `reportAccount`. -/
theorem report_own (h : p.Shows id { reporter, cell := { table := t } } entries) (v : Violation) :
    (p.report id reporter v).Shows id { reporter, cell := { table := t } }
      (entries ++ told (reportAccount id reporter t v)) := by
  have hreported := h.note_own (.reports id reporter v) rfl
  unfold report
  cases hrecord : reporter.record? v with
  | none => simpa [reportAccount, hrecord] using hreported
  | some record =>
    simpa [reportAccount, hrecord] using hreported.note_own (.logs id record) rfl

/-- A report by another layer is not in the account. -/
theorem report_other (h : p.Shows id e entries) (hk : k ≠ id) (r : Reporter) (v : Violation) :
    (p.report k r v).Shows id e entries := by
  have hne : some k ≠ some id := fun heq => hk (Option.some.inj heq)
  unfold report
  split
  · exact (h.note_other (.reports k r v) hne).note_other (.logs k _) hne
  · exact h.note_other (.reports k r v) hne

/-- **An event passes the enforcer.**  It looks, reports, commits and hands on, in this order. -/
theorem watch_own (h : p.Shows id { reporter, cell := { table := t } } entries) (event : Event)
    (cookie : Int32) :
    (p.watch id { reporter, cell := { table := t } } event cookie).Shows id
      { reporter, cell := { table := (Visit.event event cookie).after t } }
      (entries ++ told ((Visit.event event cookie).account id reporter t)) := by
  have hlook := Cell.look_of_atRest
    (show ({ table := t } : Cell).AtRest from ⟨rfl, rfl⟩) event.model
  have harrived := h.note_own (.arrives id event cookie) rfl
  have hlooked := harrived.modifyCell_own fun cell => (cell.look event.model).2
  simp only [hlook] at hlooked
  unfold watch
  simp only [hlook]
  cases hjudge : Enforcer.judge event (t.get? event.model) with
  | none =>
    have hdone := (hlooked.commit_own (.event event.model event.status)).note_own
      (.hands id event cookie) rfl
    simpa [Visit.account, Visit.opening, Visit.sequel, Visit.after, Visit.commit?, hjudge]
      using hdone
  | some v =>
    have hdone := ((hlooked.report_own v).commit_own (.event event.model event.status)).note_own
      (.hands id event cookie) rfl
    simpa [Visit.account, Visit.opening, Visit.sequel, Visit.after, Visit.commit?, hjudge]
      using hdone

/-- An event that passes another enforcer is not in the account. -/
theorem watch_other (h : p.Shows id e entries) (hk : k ≠ id) (e' : Enforcer) (event : Event)
    (cookie : Int32) : (p.watch k e' event cookie).Shows id e entries := by
  have hne : some k ≠ some id := fun heq => hk (Option.some.inj heq)
  have hlooked := (h.note_other (.arrives k event cookie) hne).modifyRole_other hk
  unfold watch
  split
  · exact (((hlooked _).report_other hk _ _).commit_other hk _ _).note_other
      (.hands k event cookie) hne
  · exact ((hlooked _).commit_other hk _ _).note_other (.hands k event cookie) hne

/-- An event that passes the layer makes the entries of a visit. -/
theorem rise_own (h : p.Shows id { reporter, cell := { table := t } } entries) (event : Event)
    (cookie : Int32) :
    (rise event cookie p id).Shows id
      { reporter, cell := { table := (Visit.event event cookie).after t } }
      (entries ++ told ((Visit.event event cookie).account id reporter t)) := by
  rw [rise, h.role]
  exact h.watch_own event cookie

/-- An event that passes another layer is not in the account. -/
theorem rise_other (h : p.Shows id e entries) (hk : k ≠ id) (event : Event) (cookie : Int32) :
    (rise event cookie p k).Shows id e entries := by
  unfold rise
  split
  · exact h.watch_other hk _ event cookie
  · exact h

/-- An event that does not pass the layer is not in its account. -/
theorem foldl_rise_other (event : Event) (cookie : Int32) {watchers : List Nat}
    (hid : id ∉ watchers) (h : p.Shows id e entries) :
    (watchers.foldl (rise event cookie) p).Shows id e entries := by
  induction watchers generalizing p with
  | nil => exact h
  | cons k watchers ih =>
    obtain ⟨hk, hrest⟩ := List.ne_and_not_mem_of_not_mem_cons hid
    exact ih hrest (h.rise_other hk.symm event cookie)

/-- **A reply passes the enforcer.** The account grows by that of the visit, and the table is what
the visit makes of it. -/
theorem settle_own {κ : Type} (h : p.Shows id { reporter, cell := { table := t } } entries)
    (request : Request κ) (reply : Reply) :
    (settle request (p, reply) id).1.Shows id
      { reporter, cell := { table := (Visit.reply request.bare reply).after t } }
      (entries ++ told ((Visit.reply request.bare reply).account id reporter t)) := by
  have hreturned := h.note_own (.returns id request.bare reply) rfl
  unfold settle
  simp only [h.role]
  cases hc : request.commit? reply with
  | none =>
    have hb := (request.commit?_bare reply).trans hc
    simpa [Visit.account, Visit.opening, Visit.sequel, Visit.after, Visit.commit?, hb]
      using hreturned
  | some c =>
    have hb := (request.commit?_bare reply).trans hc
    simpa [Visit.account, Visit.opening, Visit.sequel, Visit.after, Visit.commit?, hb]
      using hreturned.commit_own c

/-- A reply that passes another layer is not in the account. -/
theorem settle_other {κ : Type} (h : p.Shows id e entries) (hk : k ≠ id) (request : Request κ)
    (reply : Reply) : (settle request (p, reply) k).1.Shows id e entries := by
  have hne : some k ≠ some id := fun heq => hk (Option.some.inj heq)
  have hreturned := h.note_other (.returns k request.bare reply) hne
  unfold settle
  dsimp only
  split
  · split
    · exact hreturned.commit_other hk _ _
    · exact hreturned
  · exact hreturned
  · exact h

end Shows
/-- The passage has kept the chronicle of an enforcer from its beginning on, when the table was
`t`. -/
def Keeps (p : Passage) (id : Nat) (reporter : Reporter) (t : ModelTable) : Prop :=
  ∃ vs, p.Shows id { reporter, cell := { table := afterAll t vs } }
    (told (chronicle id reporter t vs))

namespace Keeps

variable {p : Passage} {id : Nat} {reporter : Reporter} {t : ModelTable}

/-- One more visit. -/
theorem visit {p' : Passage} (v : Visit) (vs : List Visit)
    (h : p'.Shows id { reporter, cell := { table := v.after (afterAll t vs) } }
      (told (chronicle id reporter t vs) ++ told (v.account id reporter (afterAll t vs)))) :
    p'.Keeps id reporter t := by
  refine ⟨vs ++ [v], ?_⟩
  rw [chronicle_append, told_append, Visit.afterAll_append]
  simpa [chronicle, afterAll] using h

/-- What happens elsewhere is not in the account. -/
theorem note_other (h : p.Keeps id reporter t) (what : Happening) (hw : what.layer? ≠ some id) :
    (p.note what).Keeps id reporter t :=
  h.imp fun _ hp => hp.note_other what hw

/-- An event that passes some layer is kept up with, whichever layer that is. -/
theorem rise (h : p.Keeps id reporter t) (event : Event) (cookie : Int32) (k : Nat) :
    (Passage.rise event cookie p k).Keeps id reporter t := by
  obtain ⟨vs, hp⟩ := h
  by_cases hk : k = id
  · subst hk
    exact visit _ vs (hp.rise_own event cookie)
  · exact ⟨vs, hp.rise_other hk event cookie⟩

/-- The way of an event up is kept up with. -/
theorem foldl_rise (event : Event) (cookie : Int32) (watchers : List Nat)
    (h : p.Keeps id reporter t) :
    (watchers.foldl (Passage.rise event cookie) p).Keeps id reporter t := by
  induction watchers generalizing p with
  | nil => exact h
  | cons k watchers ih => exact ih (h.rise event cookie k)

/-- A reply that passes some layer is kept up with, whichever layer that is. -/
theorem settle {κ : Type} (request : Request κ) {pr : Passage × Reply}
    (h : pr.1.Keeps id reporter t) (k : Nat) :
    (Passage.settle request pr k).1.Keeps id reporter t := by
  obtain ⟨vs, hp⟩ := h
  by_cases hk : k = id
  · subst hk
    exact visit _ vs (hp.settle_own request pr.2)
  · exact ⟨vs, hp.settle_other hk request pr.2⟩

/-- The way of a reply up is kept up with.  What the caller gets happens at no layer. -/
theorem climb {κ : Type} (request : Request κ) (reply : Reply) (passed : List Nat)
    (h : p.Keeps id reporter t) : (p.climb request reply passed).Keeps id reporter t := by
  have hfold : ∀ (ids : List Nat) (pr : Passage × Reply), pr.1.Keeps id reporter t →
      (ids.foldl (Passage.settle request) pr).1.Keeps id reporter t := by
    intro ids
    induction ids with
    | nil => exact fun _ hpr => hpr
    | cons k ids ih => exact fun pr hpr => ih _ (hpr.settle request k)
  exact (hfold passed (p, reply) h).note_other (.answers _) (by simp [Happening.layer?])

/-- Somebody asks an enforcer about a model. -/
theorem look (h : p.Keeps id reporter t) {k : Nat} {e : Enforcer}
    (hrole : p.role? k = some (.enforcer e)) (model : ModelHandle) :
    ((p.modifyCell k fun cell => (cell.look model).2).note
      (.looks k model (e.cell.look model).1)).Keeps id reporter t := by
  obtain ⟨vs, hp⟩ := h
  by_cases hk : k = id
  · subst hk
    obtain rfl : e = { reporter, cell := { table := afterAll t vs } } := by
      simpa [hp.role] using hrole.symm
    have hlook := Cell.look_of_atRest
      (show ({ table := afterAll t vs } : Cell).AtRest from ⟨rfl, rfl⟩) model
    have hlooked := (hp.modifyCell_own fun cell => (cell.look model).2).note_own
      (.looks k model ((afterAll t vs).get? model)) rfl
    refine visit (.look model) vs ?_
    simpa [hlook, Visit.after, Visit.commit?, Visit.account, Visit.opening, Visit.sequel]
      using hlooked
  · exact ⟨vs, (hp.modifyRole_other hk _).note_other (.looks k model _) fun heq =>
      hk (Option.some.inj heq)⟩

/-- A call comes to a layer. -/
theorem enter {d : Descent} (h : d.passage.Keeps id reporter t) {layer : Layer}
    (hid : layer.id = id → layer.role.isEnforcer = true) :
    (d.enter layer).passage.Keeps id reporter t := by
  obtain ⟨vs, hp⟩ := h
  have hentered : (d.passage.note (.enters layer.id d.request.bare)).Keeps id reporter t := by
    by_cases hk : layer.id = id
    · exact visit (.call d.request.bare) vs (by
        simpa [hk, Visit.after, Visit.commit?, Visit.account, Visit.opening, Visit.sequel]
          using hp.note_own (.enters layer.id d.request.bare) (congrArg some hk))
    · exact ⟨vs, hp.note_other _ fun heq => hk (Option.some.inj heq)⟩
  unfold Descent.enter
  split
  · exact ⟨vs, hp⟩
  · cases hrole : layer.role with
    | enforcer e => exact hentered
    | relay r =>
      have hk : layer.id ≠ id := fun heq => by simpa [hrole, Role.isEnforcer] using hid heq
      have hcounted := hentered.imp fun ws hw => hw.modifyRole_other hk Role.countCall
      dsimp only
      split
      · exact note_other hcounted (.swallows layer.id r.tag _) fun heq => hk (Option.some.inj heq)
      · exact hcounted

/-- The way of a call down is kept up with. -/
theorem descend {layers : List Layer} (request : Request String)
    (hid : (id, false) ∉ kindsOf layers)
    (hrole : roleAt? layers id = some (.enforcer { reporter, cell := { table := t } })) :
    (TriggerWatch.descend layers request).passage.Keeps id reporter t := by
  have hfold : ∀ (front : List Layer) (d : Descent), (∀ layer ∈ front, layer ∈ layers) →
      d.passage.Keeps id reporter t →
      (front.foldl Descent.enter d).passage.Keeps id reporter t := by
    intro front
    induction front with
    | nil => exact fun _ _ hd => hd
    | cons layer front ih =>
      refine fun d hfront hd => ih _ (fun l hl => hfront l (List.mem_cons_of_mem _ hl)) ?_
      refine hd.enter fun hlayer => ?_
      cases henf : layer.role.isEnforcer with
      | true => rfl
      | false =>
        refine absurd (List.mem_map.2 ⟨layer, hfront layer List.mem_cons_self, ?_⟩) hid
        rw [hlayer, henf]
  exact hfold layers _ (fun _ h => h) ⟨[], hrole, rfl⟩

end Keeps
end Passage

namespace Stack

variable {s : Stack} {id : Nat} {reporter : Reporter} {t : ModelTable}

/-- The stack has an enforcer with a number, whose table is `t` and not held by anybody. -/
structure Has (s : Stack) (id : Nat) (reporter : Reporter) (t : ModelTable) : Prop where
  role : roleAt? s.layers id = some (.enforcer { reporter, cell := { table := t } })
  alone : (id, false) ∉ kindsOf s.layers

/-- The table of an enforcer is the one in its part. -/
theorem table?_of_role {e : Enforcer} (h : roleAt? s.layers id = some (.enforcer e)) :
    s.table? id = some e.cell.table := by
  have hcell := find?_cellsOf h
  rw [Option.map_eq_some_iff] at hcell
  obtain ⟨entry, hfind, hcell⟩ := hcell
  rw [Stack.table?, cells, hfind, Option.map_some, hcell]

/-- An enforcer that is there has its table. -/
theorem Has.table? (h : s.Has id reporter t) : s.table? id = some t :=
  table?_of_role h.role

/-- What the stack makes of a move is the chronicle of the visits that the move leads to. -/
def Chronicles (id : Nat) (reporter : Reporter) (t : ModelTable) (out : Stack × List Moment) :
    Prop :=
  account id out.2 = told (chronicle id reporter t (visits id out.2)) ∧
    out.1.Has id reporter (afterAll t (visits id out.2))

/-- A passage that is kept up with ends in a stack that is. -/
theorem chronicles_of_keeps {p : Passage} (h : p.Keeps id reporter t) (s : Stack)
    (hlayers : s.layers = p.layers) (hid : (id, false) ∉ kindsOf p.layers) :
    Chronicles id reporter t (s, p.moments) := by
  obtain ⟨vs, hrole, haccount⟩ := h
  have hvisits : visits id p.moments = vs := by
    rw [visits, haccount, filterMap_told Happening.visit?, visits_chronicle]
  refine ⟨by rw [hvisits]; exact haccount, ?_, ?_⟩
  · rw [hvisits, hlayers]
    exact hrole
  · rw [hlayers]
    exact hid

/-- Where nothing has happened, nothing is in the chronicle. -/
theorem chronicles_nil (h : s.Has id reporter t) : Chronicles id reporter t (s, []) :=
  ⟨rfl, h⟩

/-- **One move is a chronicle.** On its way up or down it passes the layers in turn; the account of
the enforcer grows where it passes the enforcer itself, and nowhere else. -/
theorem step_chronicle (h : s.Has id reporter t) (move : Move) :
    Chronicles id reporter t (s.step move) := by
  have hstart : ({ layers := s.layers } : Passage).Keeps id reporter t := ⟨[], h.role, rfl⟩
  -- What comes out of the stack happens at no layer, so it is in no account.
  have hnone : ∀ what : Happening, what.layer? = none → what.layer? ≠ some id :=
    fun what hw => by rw [hw]; exact Option.some_ne_none id ∘ Eq.symm
  cases move with
  | call request =>
    have hdown := Passage.Keeps.descend request h.alone h.role
    simp only [step, onCall]
    split
    · exact chronicles_nil h
    · split
      · exact chronicles_of_keeps (hdown.climb _ _ _) _ rfl (by simpa using h.alone)
      · exact chronicles_of_keeps (hdown.note_other (.calls _) (hnone _ rfl)) _ rfl
          (by simpa using h.alone)
  | reply reply =>
    simp only [step, onReply]
    split
    · split
      · exact chronicles_of_keeps (hstart.climb _ _ _) _ rfl (by simpa using h.alone)
      · exact chronicles_nil h
    · exact chronicles_nil h
  | event ticket event cookie =>
    simp only [step, onEvent]
    split
    · exact chronicles_of_keeps
        ((hstart.foldl_rise event cookie _).note_other (.notifies _ event cookie) (hnone _ rfl))
        _ rfl (by simpa using h.alone)
    · exact chronicles_nil h
  | finish =>
    simp only [step, onFinish]
    split
    · exact ⟨rfl, h.role, h.alone⟩
    · exact chronicles_nil h
  | look k model =>
    simp only [step, onLook]
    split
    · next e hrole =>
      exact chronicles_of_keeps (hstart.look hrole model) _ rfl (by simpa using h.alone)
    · exact chronicles_nil h

/-- **Every run is a chronicle,** seen from any of its enforcers. -/
theorem run_chronicle (h : s.Has id reporter t) (moves : List Move) :
    Chronicles id reporter t (s.run moves) := by
  induction moves generalizing s t with
  | nil => exact chronicles_nil h
  | cons move moves ih =>
    obtain ⟨hnow, hnext⟩ := step_chronicle h move
    obtain ⟨hlater, hlast⟩ := ih hnext
    rw [run_cons]
    refine ⟨?_, by simpa using hlast⟩
    rw [account_append, visits_append, chronicle_append, told_append, ← hnow, ← hlater]

/-- What is committed in a run is what its visits call for. -/
theorem Chronicles.commits {out : Stack × List Moment} (h : Chronicles id reporter t out) :
    commits id out.2 = (visits id out.2).filterMap Visit.commit? := by
  rw [TriggerWatch.commits, h.1, filterMap_told Happening.commit?, commits_chronicle]

/-- The visits are among the entries of the account. -/
theorem visits_of_account {before : List Moment} {pre : List (Happening × Cell)}
    (h : account id before = told pre) :
    visits id before = pre.filterMap fun entry => entry.1.visit? := by
  rw [visits, h, filterMap_told Happening.visit?]

/-- What happens at an enforcer, in its chronicle. -/
theorem Chronicles.split {out : Stack × List Moment} (h : Chronicles id reporter t out)
    {before after : List Moment} {m : Moment} (hsplit : out.2 = before ++ m :: after)
    (hlayer : m.what.layer? = some id) :
    ∃ pre cell post, chronicle id reporter t (visits id out.2) = pre ++ (m.what, cell) :: post ∧
      m.cell? id = some cell ∧ account id before = told pre := by
  have haccount := h.1
  rw [congrArg (account id) hsplit, account_append, account_cons_of_layer hlayer] at haccount
  obtain ⟨pre, rest, hchronicle, hpre, hrest⟩ := List.map_eq_append_iff.1 haccount.symm
  obtain ⟨⟨what, cell⟩, post, rfl, hentry, -⟩ := List.map_eq_cons_iff.1 hrest
  obtain ⟨rfl, hcell⟩ := Prod.mk.inj hentry
  exact ⟨pre, cell, post, hchronicle, hcell.symm, hpre.symm⟩

/-- **What happens at an enforcer belongs to its last visit,** and that visit has found the table as
the visits before it have left it. -/
theorem Chronicles.mem_sequel {out : Stack × List Moment} (h : Chronicles id reporter t out)
    {before after : List Moment} {m : Moment} (hsplit : out.2 = before ++ m :: after)
    (hlayer : m.what.layer? = some id) (hvisit : m.what.visit? = none) :
    ∃ earlier v cell, visits id before = earlier ++ [v] ∧ m.cell? id = some cell ∧
      (m.what, cell) ∈ v.sequel id reporter (afterAll t earlier) := by
  obtain ⟨pre, cell, post, hchronicle, hcell, hbefore⟩ := h.split hsplit hlayer
  obtain ⟨earlier, v, hearlier, hmem⟩ := mem_sequel_of_chronicle hchronicle hvisit
  exact ⟨earlier, v, cell, (visits_of_account hbefore).trans hearlier, hcell, hmem⟩

/-- What begins a visit finds the table as the visits before it have left it. -/
theorem Chronicles.eq_opening {out : Stack × List Moment} (h : Chronicles id reporter t out)
    {before after : List Moment} {m : Moment} {v : Visit} (hsplit : out.2 = before ++ m :: after)
    (hlayer : m.what.layer? = some id) (hvisit : m.what.visit? = some v) :
    m.what = v.opening id (afterAll t (visits id before)) ∧
      m.cell? id = some { table := afterAll t (visits id before) } := by
  obtain ⟨pre, cell, post, hchronicle, hcell, hbefore⟩ := h.split hsplit hlayer
  obtain ⟨hwhat, rfl⟩ := Prod.mk.inj (opening_of_chronicle hchronicle hvisit).1
  rw [visits_of_account hbefore]
  exact ⟨hwhat, hcell⟩

/-- The rest of a visit comes next. -/
theorem Chronicles.account_after {out : Stack × List Moment} (h : Chronicles id reporter t out)
    {before after : List Moment} {m : Moment} {v : Visit} (hsplit : out.2 = before ++ m :: after)
    (hlayer : m.what.layer? = some id) (hvisit : m.what.visit? = some v) :
    ∃ later, account id after =
      told (v.sequel id reporter (afterAll t (visits id before)) ++ later) := by
  obtain ⟨pre, cell, post, hchronicle, hcell, hbefore⟩ := h.split hsplit hlayer
  obtain ⟨-, later, hpost⟩ := opening_of_chronicle hchronicle hvisit
  have haccount := h.1
  rw [congrArg (account id) hsplit, account_append, account_cons_of_layer hlayer, hchronicle,
    told_append, hbefore] at haccount
  have hrest := (List.cons.inj (List.append_cancel_left haccount)).2
  refine ⟨later, ?_⟩
  rw [visits_of_account hbefore, ← hpost]
  exact hrest

/-- A fresh stack has each enforcer that was planned, with an empty table. -/
theorem has_fresh (outer : List LayerPlan) (plan : EnforcerPlan) (inner : List LayerPlan) :
    (fresh (layersOf (outer ++ .enforcer plan :: inner)).1).Has inner.length plan.reporter {} := by
  induction outer with
  | nil =>
    refine ⟨?_, fun h => ?_⟩
    · simp [fresh, roleAt?, layersOf_cons, LayerPlan.role]
    · obtain ⟨layer, hmem, hkind⟩ := List.mem_map.1 h
      simp only [fresh, List.nil_append, layersOf_cons, List.mem_cons] at hmem
      obtain ⟨hid, hrole⟩ := Prod.mk.inj hkind
      rcases hmem with rfl | hmem
      · simp [LayerPlan.role, Role.isEnforcer] at hrole
      · have := lt_of_mem_layersOf hmem
        omega
  | cons other outer ih =>
    have hother : outer.length + (inner.length + 1) ≠ inner.length := by omega
    refine ⟨?_, fun h => ih.alone ?_⟩
    · have hrole := ih.role
      simpa [fresh, roleAt?, layersOf_cons, hother] using hrole
    · simpa [fresh, kindsOf, layersOf_cons, hother.symm] using h

end Stack
end TriggerWatch
