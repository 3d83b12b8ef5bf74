/-
# Turn by turn

Whatever passes the layers of a stack does so in small turns: something happens and is written down,
a table is looked at, a commit is written, a relay counts a call.  `Passage.Turn` lists them, and
`Stack.turns_step` says that every move is made of them.  So a fact that survives each turn is a
fact about every instant of every run.

An enforcer commits in one kind of turn only.  What comes of that for a whole passage is said for
events by `Passage.commits_foldl_rise`, and for replies by `Passage.commits_foldl_settle`.
-/

import Mathlib.Logic.Relation
import TriggerWatch.Proofs.Chronicle

namespace TriggerWatch

/-- What happens is that a layer warns about a load: it is in the middle of writing that commit. -/
def Happening.Warns (id : Nat) (what : Happening) : Prop :=
  ∃ h, what = .logs id (Enforcer.reloadRecord h)

/-- What is not logged is no warning. -/
theorem Happening.not_warns {id : Nat} {what : Happening}
    (h : ∀ layer record, what ≠ .logs layer record) : ¬ what.Warns id := by
  rintro ⟨k, rfl⟩
  exact h _ _ rfl

/-- What is logged while a commit is written is a warning about a load. -/
theorem warns_of_commitRecord? {t : ModelTable} {c : Commit} {record : LogRecord}
    (h : Enforcer.commitRecord? t c = some record) (id : Nat) :
    (Happening.logs id record).Warns id := by
  cases c with
  | loaded k =>
    simp only [Enforcer.commitRecord?, Option.ite_none_right_eq_some, Option.some.injEq] at h
    exact ⟨k, congrArg (Happening.logs id) h.2.symm⟩
  | _ => cases h

/-- A relay changes descriptions only, and nothing is written down about those. -/
theorem Request.commit?_tagReply {κ : Type} (request : Request κ) (r : Relay) (reply : Reply) :
    request.commit? (r.tagReply reply) = request.commit? reply := by
  cases reply with
  | properties p => cases request <;> rfl
  | _ => rfl

/-- To look at a table does not change it. -/
theorem Cell.table_look (cell : Cell) (h : ModelHandle) : (cell.look h).2.table = cell.table := by
  obtain ⟨table, hold, clashed⟩ := cell
  rcases hold with _ | more | _
  · rfl
  · rfl
  · rfl

namespace Passage

/-- What can happen in one turn. -/
inductive Turn : Passage → Passage → Prop where
  /-- Something happens that concerns no table. -/
  | note {p : Passage} {what : Happening} :
      what.commit? = none → (∀ id, ¬ what.Warns id) → Turn p (p.note what)
  | look {p : Passage} (id : Nat) (h : ModelHandle) :
      Turn p (p.modifyCell id fun cell => (cell.look h).2)
  /-- An enforcer writes a commit to its table, and may have to warn about it. -/
  | commit {p : Passage} {id : Nat} {e : Enforcer} (c : Commit) :
      p.role? id = some (.enforcer e) → Turn p (p.commit id e c)
  | count {p : Passage} (id : Nat) : Turn p (p.modifyRole id Role.countCall)

/-- What can happen in some turns, one after the other. -/
abbrev Turns : Passage → Passage → Prop := Relation.ReflTransGen Turn

/-- What survives each turn survives them all. -/
theorem Turns.invariant {P : Passage → Prop} (hturn : ∀ {p p' : Passage}, Turn p p' → P p → P p')
    {p p' : Passage} (h : p.Turns p') (hp : P p) : P p' := by
  induction h with
  | refl => exact hp
  | tail _ hstep ih => exact hturn hstep ih

/-! ### Every move is made of turns -/

/-- That something happens which is neither a commit nor logged is a turn. -/
theorem turns_note (p : Passage) (what : Happening) (hcommit : what.commit? = none)
    (hlogs : ∀ layer record, what ≠ .logs layer record) : p.Turns (p.note what) :=
  .single (.note hcommit fun _ => Happening.not_warns hlogs)

/-- A commit depends on the enforcer's table only. -/
theorem commit_congr (p : Passage) (id : Nat) {e e' : Enforcer}
    (h : e'.cell.table = e.cell.table) (c : Commit) : p.commit id e' c = p.commit id e c := by
  rw [commit, commit, h]

/-- A report is made in one turn, and logged in another.  The record about a violation is never
mistaken for a warning about a load. -/
theorem turns_report (p : Passage) (id : Nat) (reporter : Reporter) (v : Violation) :
    p.Turns (p.report id reporter v) := by
  have htold := turns_note p (.reports id reporter v) rfl (by simp)
  cases reporter with
  | recorder name => exact htold
  | journal config =>
    refine htold.tail (.note rfl ?_)
    rintro layer ⟨h, heq⟩
    exact config.record_ne_reloadRecord v h (Happening.logs.inj heq).2

/-- A report leaves the parts of all layers alone. -/
theorem role?_report (p : Passage) (id k : Nat) (reporter : Reporter) (v : Violation) :
    (p.report k reporter v).role? id = p.role? id := by
  unfold report
  split <;> rfl

/-- An event passes an enforcer in turns: it arrives, the table is looked at, a violation may be
reported, the event is committed, and it is handed on.  A look may leave its mark on the cell but
not on the table, so the commit is the one of the enforcer as it was. -/
theorem turns_watch {p : Passage} {id : Nat} {e : Enforcer}
    (hrole : p.role? id = some (.enforcer e)) (event : Event) (cookie : Int32) :
    p.Turns (p.watch id e event cookie) := by
  let looked := (p.note (.arrives id event cookie)).modifyCell id fun cell =>
    (cell.look event.model).2
  have hlooked : p.Turns looked :=
    (turns_note p (.arrives id event cookie) rfl (by simp)).tail (.look id event.model)
  have hown : looked.role? id =
      some (.enforcer { e with cell := (e.cell.look event.model).2 }) := by
    have hnoted : (p.note (.arrives id event cookie)).role? id = some (.enforcer e) := hrole
    simp only [looked, modifyCell]
    rw [role?_modifyRole, if_pos rfl, hnoted]
    rfl
  have htable : (e.cell.look event.model).2.table = e.cell.table := e.cell.table_look event.model
  let c : Commit := .event event.model event.status
  have hrest : ∀ q : Passage, p.Turns q → q.role? id = looked.role? id →
      p.Turns ((q.commit id e c).note (.hands id event cookie)) := by
    intro q hq hsame
    let e' : Enforcer := { e with cell := (e.cell.look event.model).2 }
    have hsamecommit : q.commit id e' c = q.commit id e c := commit_congr q id htable c
    have hcommitted : p.Turns (q.commit id e c) :=
      hsamecommit ▸ hq.tail (.commit c (hsame.trans hown))
    exact hcommitted.trans (turns_note _ (.hands id event cookie) rfl (by simp))
  unfold watch
  cases Enforcer.judge event (e.cell.look event.model).1 with
  | none => exact hrest looked hlooked rfl
  | some v =>
    exact hrest _ (hlooked.trans (turns_report looked id e.reporter v))
      (role?_report looked id id e.reporter v)

/-- The way of an event up is made of turns. -/
theorem turns_foldl_rise (event : Event) (cookie : Int32) (watchers : List Nat) (p : Passage) :
    p.Turns (watchers.foldl (rise event cookie) p) :=
  foldl_rise_invariant (P := p.Turns)
    (fun _ _ _ hrole hq => hq.trans (turns_watch hrole event cookie)) watchers .refl

/-- The way of a reply up is made of turns. -/
theorem turns_foldl_settle {κ : Type} (request : Request κ) (ids : List Nat)
    (pr : Passage × Reply) : pr.1.Turns (ids.foldl (settle request) pr).1 :=
  foldl_settle_invariant (P := pr.1.Turns)
    (fun q id reply hq => hq.trans (q.turns_note (.returns id request.bare reply) rfl (by simp)))
    (fun _ _ _ c hrole hq => hq.tail (.commit c hrole)) ids .refl

/-- The way of a reply up to the caller is made of turns. -/
theorem turns_climb {κ : Type} (p : Passage) (request : Request κ) (reply : Reply)
    (ids : List Nat) : p.Turns (p.climb request reply ids) :=
  (turns_foldl_settle request ids (p, reply)).trans (turns_note _ (.answers _) rfl (by simp))

end Passage

/-- The way of a call down is made of turns. -/
theorem turns_descend (layers : List Layer) (request : Request String) :
    ({ layers } : Passage).Turns (descend layers request).passage :=
  descend_invariant (P := ({ layers } : Passage).Turns)
    (fun q id call hq => hq.trans (q.turns_note (.enters id call) rfl (by simp)))
    (fun q id tag call hq => hq.trans (q.turns_note (.swallows id tag call) rfl (by simp)))
    (fun _ id hq => hq.tail (.count id)) .refl request

namespace Stack

/-- **Every move is made of turns.** The ways up and down are, and what is left of a move is one
more thing that happens. -/
theorem turns_step (s : Stack) (move : Move) :
    ({ layers := s.layers } : Passage).Turns
      { layers := (s.step move).1.layers, moments := (s.step move).2 } := by
  cases move with
  | call request =>
    have hdown := turns_descend s.layers request
    simp only [step, onCall]
    split
    · exact .refl
    · split
      · exact hdown.trans (Passage.turns_climb _ _ _ _)
      · exact hdown.trans (Passage.turns_note _ (.calls _) rfl (by simp))
  | reply reply =>
    simp only [step, onReply]
    split
    · split
      · exact Passage.turns_climb _ _ _ _
      · exact .refl
    · exact .refl
  | event ticket event cookie =>
    simp only [step, onEvent]
    split
    · exact (Passage.turns_foldl_rise event cookie _ _).trans
        (Passage.turns_note _ (.notifies _ event cookie) rfl (by simp))
    · exact .refl
  | finish =>
    simp only [step, onFinish]
    split <;> exact .refl
  | look id h =>
    simp only [step, onLook]
    split
    · exact (Relation.ReflTransGen.single (.look id h)).trans
        (Passage.turns_note _ (.looks id h _) rfl (by simp))
    · exact .refl

end Stack

/-! ### What is written down in passing -/

namespace Passage

/-- A commit is noted last, after a warning at most. -/
theorem commit_eq_note (p : Passage) (id : Nat) (e : Enforcer) (c : Commit) :
    ∃ q : Passage, p.commit id e c = q.note (.commits id c) ∧
      (q.moments = p.moments ∨
        ∃ m : Moment, m.what.Warns id ∧ q.moments = p.moments ++ [m]) := by
  unfold commit
  split
  · cases hrecord : Enforcer.commitRecord? e.cell.table c with
    | none => exact ⟨_, rfl, .inl rfl⟩
    | some record =>
      exact ⟨_, rfl, .inr ⟨_, warns_of_commitRecord? hrecord id, rfl⟩⟩
  · exact ⟨p, rfl, .inl rfl⟩

/-- A turn adds moments, and takes none back. -/
theorem Turn.isPrefix_moments {p p' : Passage} (h : p.Turn p') : p.moments <+: p'.moments := by
  cases h with
  | note => exact List.prefix_append _ _
  | look | count => exact List.prefix_rfl
  | @commit id e c =>
    obtain ⟨q, hq, hmoments⟩ := p.commit_eq_note id e c
    rw [hq]
    refine List.IsPrefix.trans ?_ (List.prefix_append q.moments _)
    rcases hmoments with hmoments | ⟨m, -, hmoments⟩
    · exact hmoments ▸ List.prefix_rfl
    · exact hmoments ▸ List.prefix_append p.moments [m]

/-- What has happened has happened. -/
theorem Turns.isPrefix_moments {p p' : Passage} (h : p.Turns p') : p.moments <+: p'.moments :=
  h.invariant (P := fun q => p.moments <+: q.moments)
    (fun hturn hp => hp.trans hturn.isPrefix_moments) List.prefix_rfl

/-- The layer with a number is an enforcer. -/
def Enforces (p : Passage) (id : Nat) : Prop := ∃ e, p.role? id = some (.enforcer e)

/-- An enforcer is still one if no change turns an enforcer into a relay. -/
theorem Enforces.modifyRole {p : Passage} {id : Nat} (h : p.Enforces id) (k : Nat) {f : Role → Role}
    (hf : ∀ role : Role, (f role).isEnforcer = role.isEnforcer) :
    (p.modifyRole k f).Enforces id := by
  obtain ⟨e, hrole⟩ := h
  unfold Enforces
  rw [role?_modifyRole, hrole]
  split
  · cases hfe : f (.enforcer e) with
    | enforcer e' => exact ⟨e', congrArg some hfe⟩
    | relay r => cases hfe ▸ hf (.enforcer e)
  · exact ⟨e, rfl⟩

/-- An enforcer is still one after a turn. -/
theorem Turn.enforces {p p' : Passage} {id : Nat} (hturn : p.Turn p') (h : p.Enforces id) :
    p'.Enforces id := by
  have hcell : ∀ {q : Passage}, q.Enforces id → ∀ (k : Nat) (f : Cell → Cell),
      (q.modifyCell k f).Enforces id := fun hq k f =>
    hq.modifyRole k fun role => by cases role <;> rfl
  have hnote : ∀ {q : Passage} (what : Happening), q.Enforces id → (q.note what).Enforces id :=
    fun _ hq => hq
  cases hturn with
  | note => exact h
  | look k model => exact hcell h k _
  | @commit k e c =>
    unfold Passage.commit
    split
    · have hwritten := hcell h k fun cell => cell.write c
      split
      · exact hcell (hnote (.logs k _) hwritten) k Cell.release
      · exact hcell hwritten k Cell.release
    · exact h
  | count k => exact h.modifyRole k fun role => by cases role <;> rfl

/-- An enforcer is still one after some turns. -/
theorem Turns.enforces {p p' : Passage} {id : Nat} (h : p.Turns p') (hp : p.Enforces id) :
    p'.Enforces id :=
  h.invariant Turn.enforces hp

/-- What is no commit adds none. -/
theorem commits_note_of_none {what : Happening} (h : what.commit? = none) (id : Nat)
    (p : Passage) : commits id (p.note what).moments = commits id p.moments := by
  by_cases hlayer : what.layer? = some id <;> simp [commits, Passage.note, account, hlayer, h]

/-- A commit is one of the enforcer that it is written by, and of no other. -/
theorem commits_commit (p : Passage) (k id : Nat) (e : Enforcer) (c : Commit) :
    commits id (p.commit k e c).moments = commits id p.moments ++ if k = id then [c] else [] := by
  obtain ⟨q, hq, hmoments⟩ := p.commit_eq_note k e c
  have hsame : commits id q.moments = commits id p.moments := by
    rcases hmoments with hmoments | ⟨m, ⟨h, hm⟩, hmoments⟩
    · rw [hmoments]
    · by_cases hk : k = id <;>
        simp [hmoments, commits, account, hm, Happening.layer?, Happening.commit?, hk]
  rw [hq, ← hsame]
  by_cases hk : k = id <;> simp [note, commits, account, Happening.layer?, Happening.commit?, hk]

/-- A report adds no commit. -/
theorem commits_report (p : Passage) (k id : Nat) (reporter : Reporter) (v : Violation) :
    commits id (p.report k reporter v).moments = commits id p.moments := by
  have htold : commits id (p.note (.reports k reporter v)).moments = commits id p.moments :=
    commits_note_of_none rfl id p
  unfold report
  split
  · exact (commits_note_of_none rfl id _).trans htold
  · exact htold

/-- An enforcer that an event passes writes it down. -/
theorem commits_rise {p : Passage} {id : Nat} (h : p.Enforces id) (event : Event) (cookie : Int32)
    (k : Nat) :
    commits id (rise event cookie p k).moments =
      commits id p.moments ++ if k = id then [.event event.model event.status] else [] := by
  unfold rise
  split
  · next e hrole =>
    have harrived : commits id (p.note (.arrives k event cookie)).moments = commits id p.moments :=
      commits_note_of_none rfl id p
    unfold watch
    rw [commits_note_of_none rfl, commits_commit]
    refine congrArg (· ++ _) ?_
    split
    · exact (commits_report _ k id _ _).trans harrived
    · exact harrived
  · next hrole =>
    have hk : k ≠ id := by
      rintro rfl
      obtain ⟨e, he⟩ := h
      exact hrole e he
    rw [if_neg hk, List.append_nil]

/-- **An enforcer writes an event down once if it is among the watchers,** and not at all if it is
not.  By induction on the watchers, none of which comes twice. -/
theorem commits_foldl_rise {id : Nat} (event : Event) (cookie : Int32) {watchers : List Nat}
    (hnodup : watchers.Nodup) {p : Passage} (h : p.Enforces id) :
    commits id (watchers.foldl (rise event cookie) p).moments =
      commits id p.moments ++
        if id ∈ watchers then [.event event.model event.status] else [] := by
  induction watchers generalizing p with
  | nil => simp
  | cons k watchers ih =>
    obtain ⟨hk, hnodup⟩ := List.nodup_cons.1 hnodup
    have hrisen : (rise event cookie p k).Enforces id :=
      (turns_foldl_rise event cookie [k] p).enforces h
    rw [List.foldl_cons, ih hnodup hrisen, commits_rise h]
    by_cases hid : k = id
    · subst hid
      simp [hk]
    · simp [hid, Ne.symm hid]

/-- A relay may change what a reply says, but not what is to be written down because of it. -/
theorem commit?_settle {κ : Type} (request : Request κ) (pr : Passage × Reply) (id : Nat) :
    request.commit? (settle request pr id).2 = request.commit? pr.2 := by
  unfold settle
  dsimp only
  split
  · split <;> rfl
  · exact request.commit?_tagReply _ _
  · rfl

/-- An enforcer that a reply passes writes down what the reply calls for. -/
theorem commits_settle {κ : Type} (request : Request κ) {pr : Passage × Reply} {id : Nat}
    (h : pr.1.Enforces id) (k : Nat) :
    commits id (settle request pr k).1.moments =
      commits id pr.1.moments ++ if k = id then (request.commit? pr.2).toList else [] := by
  have hreturned : commits id (pr.1.note (.returns k request.bare pr.2)).moments =
      commits id pr.1.moments := commits_note_of_none rfl id pr.1
  have hother : (∀ e, pr.1.role? k ≠ some (.enforcer e)) → k ≠ id := by
    rintro hrole rfl
    obtain ⟨e, he⟩ := h
    exact hrole e he
  unfold settle
  dsimp only
  split
  · split
    · next c hc => rw [commits_commit, hreturned, hc, Option.toList_some]
    · next hc => simp [hreturned, hc]
  · next r hrole => rw [if_neg (hother (by simp [hrole])), List.append_nil, hreturned]
  · next hrole => rw [if_neg (hother (by simp [hrole])), List.append_nil]

/-- **An enforcer writes down once what a reply calls for if the reply passes it,** and nothing if
it does not.  The relays that come before may change the reply, but not what it calls for. -/
theorem commits_foldl_settle {κ : Type} (request : Request κ) {id : Nat} {ids : List Nat}
    (hnodup : ids.Nodup) (pr : Passage × Reply) (h : pr.1.Enforces id) :
    commits id (ids.foldl (settle request) pr).1.moments =
      commits id pr.1.moments ++ if id ∈ ids then (request.commit? pr.2).toList else [] := by
  induction ids generalizing pr with
  | nil => simp
  | cons k ids ih =>
    obtain ⟨hk, hnodup⟩ := List.nodup_cons.1 hnodup
    have hsettled : (settle request pr k).1.Enforces id :=
      (turns_foldl_settle request [k] pr).enforces h
    rw [List.foldl_cons, ih hnodup _ hsettled, commits_settle request h, commit?_settle]
    by_cases hid : k = id
    · subst hid
      simp [hk]
    · simp [hid, Ne.symm hid]

end Passage

/-- Nothing is written down because a call passes. -/
theorem commits_descend (id : Nat) (layers : List Layer) (request : Request String) :
    commits id (descend layers request).passage.moments = [] :=
  descend_invariant (P := fun q => commits id q.moments = [])
    (fun q _ _ hq => (Passage.commits_note_of_none rfl id q).trans hq)
    (fun q _ _ _ hq => (Passage.commits_note_of_none rfl id q).trans hq)
    (fun _ _ hq => hq) rfl request

end TriggerWatch
