/-
# The table is what the history says

A table is changed bit by bit, commit after commit.  `ModelTable.Tells` says without any table what
its entries ought to be: a model is tracked if it has been loaded and not been unloaded since, and
armed if it has moreover been started since that load, and nothing has ended that recognition yet.

`Visit.tells_afterAll` is the agreement for a list of visits, by induction on it from its end, where
the last visit is either the last relevant one or irrelevant.  `Stack.tells_run` carries it over to
every enforcer of every stack, at the end of each run and after each commit within it.
-/

import Mathlib.Data.List.Induction
import TriggerWatch.Proofs.Chronicle

namespace TriggerWatch

namespace Visit

variable {h : ModelHandle}

/-- A load, of either kind of model, was answered with the handle `h`. -/
def Loads (h : ModelHandle) : Visit → Prop
  | .reply (.load _ _ _) (.handle k) => k = h
  | _ => False

/-- An unload of the model was answered well. -/
def Unloads (h : ModelHandle) : Visit → Prop
  | .reply (.unload k) .done => k = h
  | _ => False

/-- A start of the model was answered well. -/
def Starts (h : ModelHandle) : Visit → Prop
  | .reply (.start k _ _ _) .done => k = h
  | _ => False

/-- A stop of the model was answered well. -/
def Stops (h : ModelHandle) : Visit → Prop
  | .reply (.stop k) .done => k = h
  | _ => False

/-- A stop of all models was answered well. -/
def StopsAll : Visit → Prop
  | .reply .stopAll .done => True
  | _ => False

/-- An event of the model came that was not forced. -/
def Spends (h : ModelHandle) : Visit → Prop
  | .event e _ => e.model = h ∧ e.status ≠ .forced
  | _ => False

/-- The recognition of the model was ended. -/
def Disarms (h : ModelHandle) (v : Visit) : Prop := v.Stops h ∨ v.StopsAll ∨ v.Spends h

end Visit

/-- What comes after the last element with a property. -/
def AfterLast {α : Type} (p : α → Prop) (xs rest : List α) : Prop :=
  ∃ front x, xs = front ++ x :: rest ∧ p x ∧ ∀ y ∈ rest, ¬ p y

/-- The model has been loaded, and not been unloaded since. -/
def LoadedIn (h : ModelHandle) (history : List Visit) : Prop :=
  ∃ sinceLoad, AfterLast (Visit.Loads h) history sinceLoad ∧ ∀ v ∈ sinceLoad, ¬ v.Unloads h

/-- The model has been loaded and not been unloaded since, and after that load it has been started,
and its recognition has not been ended since. -/
def ArmedIn (h : ModelHandle) (history : List Visit) : Prop :=
  ∃ sinceLoad, AfterLast (Visit.Loads h) history sinceLoad ∧ (∀ v ∈ sinceLoad, ¬ v.Unloads h) ∧
    ∃ sinceStart, AfterLast (Visit.Starts h) sinceLoad sinceStart ∧
      ∀ v ∈ sinceStart, ¬ v.Disarms h

/-- A table has the entries that a history asks for. -/
def ModelTable.Tells (t : ModelTable) (history : List Visit) : Prop :=
  ∀ h, (t.get? h ≠ none ↔ LoadedIn h history) ∧
    (t.get? h = some .armed ↔ ArmedIn h history) ∧
    (t.get? h = some .idle ↔ LoadedIn h history ∧ ¬ ArmedIn h history)

/-! ### One more visit -/

/-- In an empty list nothing has a last occurrence. -/
theorem not_afterLast_nil {α : Type} {p : α → Prop} {rest : List α} : ¬ AfterLast p [] rest := by
  rintro ⟨front, x, hnil, -⟩
  simp at hnil

/-- One more element at the end is the last occurrence itself, or it comes after it. -/
theorem afterLast_concat {α : Type} {p : α → Prop} {xs rest : List α} {x : α} :
    AfterLast p (xs ++ [x]) rest ↔
      (p x ∧ rest = []) ∨ (¬ p x ∧ ∃ mid, rest = mid ++ [x] ∧ AfterLast p xs mid) := by
  constructor
  · rintro ⟨front, y, hxs, hy, hrest⟩
    rcases List.eq_nil_or_concat rest with rfl | ⟨mid, z, rfl⟩
    · obtain ⟨-, hxy⟩ := List.append_inj' hxs rfl
      obtain rfl : x = y := by simpa using hxy
      exact .inl ⟨hy, rfl⟩
    · rw [List.concat_eq_append] at hxs hrest ⊢
      have hlast : xs ++ [x] = (front ++ y :: mid) ++ [z] := by simpa using hxs
      obtain ⟨rfl, hxz⟩ := List.append_inj' hlast rfl
      obtain rfl : x = z := by simpa using hxz
      exact .inr ⟨hrest x (by simp), mid, rfl, front, y, rfl, hy,
        fun w hw => hrest w (by simp [hw])⟩
  · rintro (⟨hx, rfl⟩ | ⟨hx, mid, rfl, front, y, rfl, hy, hmid⟩)
    · exact ⟨xs, x, rfl, hx, by simp⟩
    · refine ⟨front, y, by simp, hy, fun w hw => ?_⟩
      rcases List.mem_append.1 hw with hw | hw
      · exact hmid w hw
      · rwa [List.mem_singleton.1 hw]

/-- **One more visit, and loadedness.** A model is loaded after it if the visit loads it, or if it
was loaded before and the visit does not unload it. -/
theorem loadedIn_concat {h : ModelHandle} {history : List Visit} {v : Visit} :
    LoadedIn h (history ++ [v]) ↔
      v.Loads h ∨ (¬ v.Loads h ∧ ¬ v.Unloads h ∧ LoadedIn h history) := by
  simp only [LoadedIn, afterLast_concat]
  constructor
  · rintro ⟨sinceLoad, ⟨hv, -⟩ | ⟨hv, mid, rfl, hmid⟩, hno⟩
    · exact .inl hv
    · exact .inr ⟨hv, hno v (by simp), mid, hmid, fun w hw => hno w (by simp [hw])⟩
  · rintro (hv | ⟨hv, hu, mid, hmid, hno⟩)
    · exact ⟨[], .inl ⟨hv, rfl⟩, by simp⟩
    · refine ⟨mid ++ [v], .inr ⟨hv, mid, rfl, hmid⟩, fun w hw => ?_⟩
      rcases List.mem_append.1 hw with hw | hw
      · exact hno w hw
      · rwa [List.mem_singleton.1 hw]

/-- **One more visit, and being armed.** A model is armed after it if the visit starts it while it
is loaded, or if it was armed before and nothing in the visit disarms it.  A visit that loads it
anew or unloads it leaves it not armed in any case. -/
theorem armedIn_concat {h : ModelHandle} {history : List Visit} {v : Visit} :
    ArmedIn h (history ++ [v]) ↔ ¬ v.Loads h ∧ ¬ v.Unloads h ∧
      ((v.Starts h ∧ LoadedIn h history) ∨
        (¬ v.Starts h ∧ ¬ v.Disarms h ∧ ArmedIn h history)) := by
  simp only [ArmedIn, LoadedIn, afterLast_concat]
  constructor
  · rintro ⟨sinceLoad, ⟨-, rfl⟩ | ⟨hv, mid, rfl, hmid⟩, hno, sinceStart, hstart, hend⟩
    · exact absurd hstart not_afterLast_nil
    · have hno' : ∀ w ∈ mid, ¬ w.Unloads h := fun w hw => hno w (by simp [hw])
      refine ⟨hv, hno v (by simp), ?_⟩
      rcases afterLast_concat.1 hstart with ⟨hs, -⟩ | ⟨hs, mid', rfl, hmid'⟩
      · exact .inl ⟨hs, mid, hmid, hno'⟩
      · exact .inr ⟨hs, hend v (by simp), mid, hmid, hno', mid', hmid',
          fun w hw => hend w (by simp [hw])⟩
  · rintro ⟨hv, hu, ⟨hs, mid, hmid, hno⟩ | ⟨hs, hd, mid, hmid, hno, mid', hmid', hend⟩⟩
    all_goals
      have hno' : ∀ w ∈ mid ++ [v], ¬ w.Unloads h := fun w hw =>
        (List.mem_append.1 hw).elim (hno w) fun hw => by rwa [List.mem_singleton.1 hw]
    · exact ⟨mid ++ [v], .inr ⟨hv, mid, rfl, hmid⟩, hno', [],
        afterLast_concat.2 (.inl ⟨hs, rfl⟩), by simp⟩
    · exact ⟨mid ++ [v], .inr ⟨hv, mid, rfl, hmid⟩, hno', mid' ++ [v],
        afterLast_concat.2 (.inr ⟨hs, mid', rfl, hmid'⟩), fun w hw =>
          (List.mem_append.1 hw).elim (hend w) fun hw => by rwa [List.mem_singleton.1 hw]⟩

namespace Visit

variable {t : ModelTable} {h : ModelHandle} {v : Visit} {c : Commit}

/-! ### The entry of a model after a visit -/

/-- What a visit must be to call for a commit. -/
def CallsFor (v : Visit) : Commit → Prop
  | .loaded k => v.Loads k
  | .unloaded k => v.Unloads k
  | .started k => v.Starts k
  | .stopped k => v.Stops k
  | .stoppedAll => v.StopsAll
  | .event model status => ∃ e cookie, v = .event e cookie ∧ e.model = model ∧ e.status = status

/-- **The commit of a visit is the one that it calls for.**  On the left is what the code does with
the visit, on the right what the visit is. -/
theorem commit?_eq_some_iff : v.commit? = some c ↔ v.CallsFor c := by
  constructor
  · intro hc
    cases v with
    | call | look => cases hc
    | event e cookie =>
      obtain rfl := Option.some.inj hc
      exact ⟨e, cookie, rfl, rfl, rfl⟩
    | reply request given =>
      cases request <;> cases given <;> cases hc <;> first | rfl | trivial
  · intro hcalls
    cases c with
    | event model status =>
      obtain ⟨e, cookie, rfl, rfl, rfl⟩ := hcalls
      rfl
    | stoppedAll =>
      simp only [CallsFor, StopsAll] at hcalls
      split at hcalls
      · rfl
      · exact hcalls.elim
    | _ =>
      -- the visit is the one reply that the commit is about, for the same model
      simp only [CallsFor, Loads, Unloads, Starts, Stops] at hcalls
      split at hcalls
      · subst hcalls
        rfl
      · exact hcalls.elim

/-- An event that was not forced is committed as such. -/
theorem commit?_of_spends (hv : v.Spends h) :
    ∃ status, status ≠ .forced ∧ v.commit? = some (.event h status) := by
  unfold Spends at hv
  split at hv
  next e cookie =>
    exact ⟨e.status, hv.2, commit?_eq_some_iff.2 ⟨e, cookie, rfl, hv.1, rfl⟩⟩
  next => exact hv.elim

/-- The entry of a model after a visit with a commit. -/
theorem get?_after (hc : v.commit? = some c) : (v.after t).get? h = c.effect h (t.get? h) := by
  rw [after, hc, ModelTable.get?_commit]

/-- A model that has just been loaded is idle, whatever was known of its handle before. -/
theorem get?_after_of_loads (hv : v.Loads h) : (v.after t).get? h = some .idle := by
  have hc : v.commit? = some (.loaded h) := commit?_eq_some_iff.2 hv
  simp [get?_after hc, Commit.effect]

/-- A model that has just been unloaded is not tracked. -/
theorem get?_after_of_unloads (hv : v.Unloads h) : (v.after t).get? h = none := by
  have hc : v.commit? = some (.unloaded h) := commit?_eq_some_iff.2 hv
  simp [get?_after hc, Commit.effect]

/-- A start arms a model that is tracked, and no other. -/
theorem get?_after_of_starts (hv : v.Starts h) :
    (v.after t).get? h = (t.get? h).map fun _ => .armed := by
  have hc : v.commit? = some (.started h) := commit?_eq_some_iff.2 hv
  simp [get?_after hc, Commit.effect]

/-- Whatever ends a recognition leaves its model idle, if it is tracked. -/
theorem get?_after_of_disarms (hv : v.Disarms h) :
    (v.after t).get? h = (t.get? h).map fun _ => .idle := by
  rcases hv with hv | hv | hv
  · have hc : v.commit? = some (.stopped h) := commit?_eq_some_iff.2 hv
    simp [get?_after hc, Commit.effect]
  · have hc : v.commit? = some .stoppedAll := commit?_eq_some_iff.2 hv
    simp [get?_after hc, Commit.effect]
  · obtain ⟨status, hstatus, hc⟩ := commit?_of_spends hv
    simp [get?_after hc, Commit.effect, Status.isForced, hstatus]

/-- Nothing else touches the entry of a model: a commit that is called for is about another model,
or is that of a forced event. -/
theorem get?_after_of_none (hl : ¬ v.Loads h) (hu : ¬ v.Unloads h) (hs : ¬ v.Starts h)
    (hd : ¬ v.Disarms h) : (v.after t).get? h = t.get? h := by
  simp only [Disarms, not_or] at hd
  obtain ⟨hstop, hstopAll, hspend⟩ := hd
  cases hc : v.commit? with
  | none => rw [after, hc]
  | some c =>
    have hcalls := commit?_eq_some_iff.1 hc
    rw [get?_after hc]
    cases c with
    | stoppedAll => exact absurd hcalls hstopAll
    | event model status =>
      obtain ⟨e, cookie, rfl, rfl, rfl⟩ := hcalls
      have hkeep : ¬ (h = e.model ∧ e.status.isForced = false) := by
        rintro ⟨rfl, hforced⟩
        exact hspend ⟨rfl, by simpa [Status.isForced] using hforced⟩
      simp [Commit.effect, hkeep]
    | _ k =>
      have hne : h ≠ k := by
        rintro rfl
        first | exact hl hcalls | exact hu hcalls | exact hs hcalls | exact hstop hcalls
      simp [Commit.effect, hne]

/-- **The table agrees with the history.** By induction on the visits from the last one back: what
the last visit does to a model shows in the table at once, and a model that it does nothing to is as
it was. -/
theorem tells_afterAll (history : List Visit) : (afterAll {} history).Tells history := by
  have hidle : ∀ state : Option ModelState,
      state = some .idle ↔ state ≠ none ∧ state ≠ some .armed := by
    rintro (_ | _ | _) <;> simp
  intro h
  suffices hboth : ((afterAll {} history).get? h ≠ none ↔ LoadedIn h history) ∧
      ((afterAll {} history).get? h = some .armed ↔ ArmedIn h history) from
    ⟨hboth.1, hboth.2, by rw [hidle, Ne, Ne, hboth.2, ← hboth.1]⟩
  induction history using List.reverseRecOn with
  | nil => simp [afterAll, LoadedIn, ArmedIn, not_afterLast_nil]
  | append_singleton history v ih =>
    obtain ⟨hloaded, harmed⟩ := ih
    rw [afterAll_concat, loadedIn_concat, armedIn_concat]
    by_cases hl : v.Loads h
    · simp [get?_after_of_loads hl, hl]
    by_cases hu : v.Unloads h
    · simp [get?_after_of_unloads hu, hl, hu]
    by_cases hs : v.Starts h
    · rw [get?_after_of_starts hs, ← hloaded]
      simp [hl, hu, hs, Option.ne_none_iff_exists']
    by_cases hd : v.Disarms h
    · rw [get?_after_of_disarms hd, ← hloaded]
      simp [hl, hu, hs, hd]
    · rw [get?_after_of_none hl hu hs hd, ← hloaded, ← harmed]
      simp [hl, hu, hs, hd]

end Visit

/-- **The table of every enforcer agrees with its history,** for any layers around it and whatever
the client and the implementation do: at the end of a run, after each commit within it, and whenever
somebody asks for the state of a model.  The commits are those that the history calls for, and only
one that loads or unloads a model changes whether it is tracked. -/
theorem Stack.tells_run (outer : List LayerPlan) (plan : EnforcerPlan) (inner : List LayerPlan)
    (moves : List Move) :
    let out := (fresh (layersOf (outer ++ .enforcer plan :: inner)).1).run moves
    let id := inner.length
    (∃ t, out.1.table? id = some t ∧ t.Tells (visits id out.2)) ∧
    commits id out.2 = (visits id out.2).filterMap Visit.commit? ∧
    (∀ before m after c, out.2 = before ++ m :: after → m.what = .commits id c →
      ∃ t earlier v, m.table? id = some t ∧ t.Tells (visits id before) ∧
        visits id before = earlier ++ [v] ∧ v.commit? = some c ∧
        ∀ h, c ≠ .loaded h → c ≠ .unloaded h → (t.get? h ≠ none ↔ LoadedIn h earlier)) ∧
    (∀ before m after h state, out.2 = before ++ m :: after → m.what = .looks id h state →
      ∃ t, m.table? id = some t ∧ t.Tells (visits id before) ∧ state = t.get? h) := by
  intro out id
  have hout : Chronicles id plan.reporter {} out := run_chronicle (has_fresh outer plan inner) moves
  refine ⟨⟨_, hout.2.table?, Visit.tells_afterAll _⟩, hout.commits, ?_, ?_⟩
  · intro before m after c hsplit hwhat
    obtain ⟨earlier, v, cell, hbefore, hcell, hmem⟩ :=
      hout.mem_sequel hsplit (by rw [hwhat]; rfl) (by rw [hwhat]; rfl)
    rw [hwhat] at hmem
    obtain ⟨hcommit, rfl⟩ := Visit.commits_mem_sequel hmem
    have htells := Visit.tells_afterAll (earlier ++ [v])
    rw [Visit.afterAll_concat] at htells
    refine ⟨v.after (Visit.afterAll {} earlier), earlier, v, ?_, hbefore ▸ htells, hbefore, hcommit,
      fun h hloaded hunloaded => ?_⟩
    · rw [Moment.table?, hcell]
      rfl
    · have hl : ¬ v.Loads h := fun hv =>
        hloaded (Option.some.inj (hcommit.symm.trans (Visit.commit?_eq_some_iff.2 hv)))
      have hu : ¬ v.Unloads h := fun hv =>
        hunloaded (Option.some.inj (hcommit.symm.trans (Visit.commit?_eq_some_iff.2 hv)))
      rw [(htells h).1, loadedIn_concat]
      simp [hl, hu]
  · intro before m after h state hsplit hwhat
    obtain ⟨hopening, hcell⟩ := hout.eq_opening hsplit (by rw [hwhat]; rfl) (by rw [hwhat]; rfl)
    refine ⟨_, by rw [Moment.table?, hcell]; rfl, Visit.tells_afterAll _, ?_⟩
    rw [hwhat] at hopening
    simpa [Visit.opening] using hopening

/-- The start of a model during which an event came is committed, and then the table agrees with
the history. -/
theorem Stack.tells_run_started :
    let out := (Stack.fresh (layersOf [.enforcer {}]).1).run
      [.call (.load (.generic {}) "client" 0), .reply (.handle 1), .call (.start 1 {} "client" 0),
        .event 0 (.generic { model := 1 } []) 0, .finish, .reply .done]
    ∃ before m after, out.2 = before ++ m :: after ∧ m.what = .commits 0 (.started 1) ∧
      ∃ t, m.table? 0 = some t ∧ t.Tells (visits 0 before) := by
  intro out
  have hsplit : out.2 = out.2.take 14 ++ out.2.get ⟨14, by decide⟩ :: out.2.drop 15 := by decide
  have hwhat : (out.2.get ⟨14, by decide⟩).what = .commits 0 (.started 1) := by decide
  obtain ⟨t, -, -, ht, htells, -⟩ := (Stack.tells_run [] {} []
    [.call (.load (.generic {}) "client" 0), .reply (.handle 1), .call (.start 1 {} "client" 0),
      .event 0 (.generic { model := 1 } []) 0, .finish, .reply .done]).2.2.1 _ _ _ _ hsplit hwhat
  exact ⟨_, _, _, hsplit, hwhat, t, ht, htells⟩

end TriggerWatch
