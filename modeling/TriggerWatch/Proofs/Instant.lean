/-
# The table at every instant

What an enforcer has committed by an instant of a run makes its table at that instant of the one it
had, whichever layer has its turn then, unless the enforcer is in the middle of writing
(`Stack.Has.cell?_of_run`).
-/

import TriggerWatch.Proofs.Due

namespace TriggerWatch
namespace Passage

/-- The enforcer with a number has the table that its commits have made of `t`, and it had the
table that its commits by then had made of `t` whenever it was not in the middle of writing. -/
structure Recounts (p : Passage) (id : Nat) (reporter : Reporter) (t : ModelTable) : Prop where
  role : p.role? id = some (.enforcer
    { reporter, cell := { table := t.commitAll (commits id p.moments) } })
  past : ∀ sofar m, sofar ++ [m] <+: p.moments → ¬ m.what.Warns id →
    m.cell? id = some { table := t.commitAll (commits id (sofar ++ [m])) }

namespace Recounts

variable {p : Passage} {id : Nat} {reporter : Reporter} {t : ModelTable}

/-- One more moment, at which the enforcer has just the cell that it has to have. -/
theorem note_of_role {what : Happening}
    (hpast : ∀ sofar m, sofar ++ [m] <+: p.moments → ¬ m.what.Warns id →
      m.cell? id = some { table := t.commitAll (commits id (sofar ++ [m])) })
    (hrole : p.role? id = some (.enforcer
      { reporter, cell := { table := t.commitAll (commits id (p.note what).moments) } })) :
    (p.note what).Recounts id reporter t := by
  refine ⟨hrole, fun sofar m hinit hwarns => ?_⟩
  rcases List.prefix_concat_iff.1 hinit with heq | hinit
  · obtain ⟨rfl, hm⟩ := List.append_inj' heq rfl
    obtain rfl := (List.cons.inj hm).1
    exact find?_cellsOf hrole
  · exact hpast sofar m hinit hwarns

/-- Writing down a happening that commits nothing to the table keeps the account of it. -/
theorem note (h : p.Recounts id reporter t) {what : Happening}
    (hsame : commits id (p.note what).moments = commits id p.moments) :
    (p.note what).Recounts id reporter t :=
  note_of_role h.past (hsame ▸ h.role)

/-- The account of an enforcer is about its own part and the moments so far, and nothing else. -/
theorem of_role (h : p.Recounts id reporter t) {p' : Passage} (hmoments : p'.moments = p.moments)
    (hrole : p'.role? id = p.role? id) : p'.Recounts id reporter t :=
  ⟨by rw [hrole, hmoments]; exact h.role, by rw [hmoments]; exact h.past⟩

/-- The enforcer's own commit: the table and the account of it grow by the same commit.  A commit
that does not write is still noted, and has no effect on the table. -/
theorem commit_own (h : p.Recounts id reporter t) {e : Enforcer}
    (hrole : p.role? id = some (.enforcer e)) (c : Commit) :
    (p.commit id e c).Recounts id reporter t := by
  obtain rfl : { reporter, cell := { table := t.commitAll (commits id p.moments) } } = e :=
    Role.enforcer.inj (Option.some.inj (h.role.symm.trans hrole))
  have hshows : p.Shows id { reporter, cell := { table := t.commitAll (commits id p.moments) } }
      (account id p.moments) := ⟨h.role, rfl⟩
  have hdone := (hshows.commit_own c).role
  obtain ⟨q, hq, hmoments⟩ := p.commit_eq_note id _ c
  rw [hq] at hdone ⊢
  have hcommits : commits id (q.note (.commits id c)).moments = commits id p.moments ++ [c] := by
    rw [← hq, commits_commit, if_pos rfl]
  refine note_of_role (fun sofar m hinit hwarns => ?_) ?_
  · rcases hmoments with hmoments | ⟨warning, hwarning, hmoments⟩
    · exact h.past sofar m (hmoments ▸ hinit) hwarns
    · rw [hmoments] at hinit
      rcases List.prefix_concat_iff.1 hinit with heq | hinit
      · obtain ⟨-, hm⟩ := List.append_inj' heq rfl
        obtain rfl := (List.cons.inj hm).1
        exact absurd hwarning hwarns
      · exact h.past sofar m hinit hwarns
  · rw [hcommits, ModelTable.commitAll, List.foldl_append]
    exact hdone

/-- A commit of another enforcer changes neither the table nor the account of it. -/
theorem commit_other (h : p.Recounts id reporter t) {k : Nat} (hk : k ≠ id) (e : Enforcer)
    (c : Commit) : (p.commit k e c).Recounts id reporter t := by
  have hmodify : ∀ {q : Passage}, q.Recounts id reporter t → ∀ f : Cell → Cell,
      (q.modifyCell k f).Recounts id reporter t := fun hq f =>
    hq.of_role rfl (by rw [modifyCell, role?_modifyRole, if_neg hk.symm])
  have hnote : ∀ {q : Passage}, q.Recounts id reporter t → ∀ what : Happening,
      what.layer? = some k → (q.note what).Recounts id reporter t := by
    intro q hq what hwhat
    refine hq.note ?_
    simp [commits, account, Passage.note, hwhat, hk]
  unfold commit
  split
  · have hwritten := hmodify h fun cell => cell.write c
    split
    · exact hnote (hmodify (hnote hwritten (.logs k _) rfl) Cell.release) (.commits k c) rfl
    · exact hnote (hmodify hwritten Cell.release) (.commits k c) rfl
  · exact hnote h (.commits k c) rfl

/-- **A turn leaves the account of an enforcer's table in order.** -/
theorem turn {p' : Passage} (hturn : p.Turn p') (h : p.Recounts id reporter t) :
    p'.Recounts id reporter t := by
  cases hturn with
  | note hcommit => exact h.note (commits_note_of_none hcommit id p)
  | look k model =>
    refine h.of_role rfl ?_
    rw [modifyCell, role?_modifyRole]
    split
    · next hk =>
      rw [h.role]
      rfl
    · rfl
  | @commit k e c hrole =>
    by_cases hk : k = id
    · subst hk
      exact h.commit_own hrole c
    · exact h.commit_other hk e c
  | count k =>
    refine h.of_role rfl ?_
    rw [role?_modifyRole]
    split
    · rw [h.role]
      rfl
    · rfl

end Recounts
end Passage

namespace Stack

variable {s : Stack} {id : Nat} {reporter : Reporter} {t : ModelTable}

/-- A run is made of moves. -/
theorem exists_step_of_run {moves : List Move} {before after : List Moment} {m : Moment}
    (hsplit : (s.run moves).2 = before ++ m :: after) :
    ∃ front move rest sofar later, moves = front ++ move :: rest ∧
      before = (s.run front).2 ++ sofar ∧
      ((s.run front).1.step move).2 = sofar ++ m :: later := by
  induction moves generalizing s before with
  | nil => simp at hsplit
  | cons move moves ih =>
    rw [run_cons] at hsplit
    rcases List.append_eq_append_iff.1 hsplit with ⟨mid, rfl, hlater⟩ | ⟨mid, hnow, hlater⟩
    · obtain ⟨front, move', rest, sofar, later, rfl, rfl, hstep⟩ := ih hlater
      refine ⟨move :: front, move', rest, sofar, later, rfl, ?_, ?_⟩
      · simp [run_cons]
      · simpa [run_cons] using hstep
    · cases mid with
      | nil =>
        rw [List.append_nil] at hnow
        have hfirst : (((s.step move).1).run moves).2 = [] ++ m :: after := hlater.symm
        obtain ⟨front, move', rest, sofar, later, rfl, hbefore, hstep⟩ := ih hfirst
        refine ⟨move :: front, move', rest, sofar, later, rfl, ?_, ?_⟩
        · simp [run_cons, hnow, ← hbefore]
        · simpa [run_cons] using hstep
      | cons first mid =>
        obtain ⟨rfl, -⟩ := List.cons.inj hlater
        exact ⟨[], move, moves, before, mid, rfl, rfl, hnow⟩

/-- **At each instant within a move,** the cell is at rest and its table is what the commits noted
so far make of the table at the start.  The one exception is the instant of the reload warning,
which is logged while the table is being written. -/
theorem Has.cell?_of_step (h : s.Has id reporter t) {move : Move} {sofar later : List Moment}
    {m : Moment} (hsplit : (s.step move).2 = sofar ++ m :: later) (hwarns : ¬ m.what.Warns id) :
    m.cell? id = some { table := t.commitAll (commits id (sofar ++ [m])) } := by
  have hstart : ({ layers := s.layers } : Passage).Recounts id reporter t :=
    ⟨h.role, fun sofar m hinit => by simp at hinit⟩
  refine ((s.turns_step move).invariant Passage.Recounts.turn hstart).past sofar m ?_ hwarns
  exact ⟨later, by simp [hsplit]⟩

/-- **The table at every instant of a run** is what the commits of the enforcer by then have made
of the one it had, unless it is in the middle of writing. -/
theorem Has.cell?_of_run (h : s.Has id reporter t) {moves : List Move}
    {before after : List Moment} {m : Moment} (hsplit : (s.run moves).2 = before ++ m :: after)
    (hwarns : ¬ m.what.Warns id) :
    m.cell? id = some { table := t.commitAll (commits id (before ++ [m])) } := by
  obtain ⟨front, move, rest, sofar, later, rfl, rfl, hstep⟩ := exists_step_of_run hsplit
  have hfront := run_chronicle h front
  rw [hfront.2.cell?_of_step hstep hwarns, Visit.afterAll_eq_commitAll, ← hfront.commits,
    List.append_assoc]
  simp [commits, ModelTable.commitAll]

end Stack
end TriggerWatch
