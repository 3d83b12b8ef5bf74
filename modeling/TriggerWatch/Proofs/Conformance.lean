/-
# An implementation that keeps to the rules

The rules of the interface, as far as handles and recognitions go: a load returns a handle that is
not loaded, only loaded models are started, and an event comes only for a model that is armed, which
it is until one event that is not forced has come, or until it is stopped or unloaded.  Events may
come from within calls.  `Conforms` says of what comes to an enforcer that it keeps to these rules.
An implementation takes a call at some instant between its arrival and the reply, and that is when
the call takes effect below.

An enforcer writes down what a call did when the call returns.  For a stop or an unload that is no
harm: the table says armed for a while longer than is true, and no event finds it so.  For a start
it is a defect.  The model is armed below as soon as the start is accepted, so an event that comes
before the start returns keeps to the rules; but it finds the model idle in the table, and is
reported (`Stack.not_quiet_on_acceptance`).  This is the only gap: there is no false alarm where no
model is armed before its start returns (`Stack.quiet_on_return`).  The invariant is that the table
has at least what is loaded and armed below (`Ledger.Agrees`), and each rule keeps it.
-/

import Mathlib.Data.Finset.Erase
import Mathlib.Data.Finset.Insert
import TriggerWatch.Proofs.Chronicle

namespace TriggerWatch

/-- When a model that is being started becomes armed below: as the interface has it, as soon as the
start is accepted, or only as late as the table has it. -/
inductive Arming where
  | onAcceptance
  | onReturn
  deriving DecidableEq

/-- What an implementation has loaded and armed, and what it is working on. -/
structure Ledger where
  loaded : Finset ModelHandle := ∅
  armed : Finset ModelHandle := ∅
  /-- The call under way, if it is one that does not only read, and whether it has been accepted. -/
  underway : Option (Request Unit × Bool) := none

namespace Ledger

/-- The implementation accepts a call. -/
def accept (arming : Arming) (l : Ledger) (request : Request Unit) : Ledger :=
  let working := { l with underway := some (request, true) }
  match request with
  | .start h _ _ _ =>
    if arming = .onAcceptance then { working with armed := insert h l.armed } else working
  | .stop h => { working with armed := l.armed.erase h }
  | .stopAll => { working with armed := ∅ }
  | .unload h => { working with loaded := l.loaded.erase h, armed := l.armed.erase h }
  | _ => working

/-- A call that was accepted gets its reply. -/
def complete (arming : Arming) (l : Ledger) (request : Request Unit) (reply : Reply) : Ledger :=
  let done := { l with underway := none }
  match request, reply with
  | .load _ _ _, .handle h => { done with loaded := insert h l.loaded }
  | .start h _ _ _, .done =>
    if arming = .onReturn then { done with armed := insert h l.armed } else done
  | _, _ => done

/-- An event is sent. -/
def send (l : Ledger) (event : Event) : Ledger :=
  if event.status = .forced then l else { l with armed := l.armed.erase event.model }

end Ledger

/-- **What comes to an enforcer keeps to the rules.** The visits come one after the other, and along
with them goes the ledger of what is true below.  Calls that only read may come at any time; of the
others one is under way at a time, and is accepted or refused before its reply.  A load that is done
returns a handle that is not loaded, only what is loaded is started, and an event is sent only for a
model that is armed. -/
inductive Conforms (arming : Arming) : Ledger → List Visit → Prop where
  | nil {l : Ledger} : Conforms arming l []
  | look {l : Ledger} {h : ModelHandle} {vs : List Visit} :
      Conforms arming l vs → Conforms arming l (.look h :: vs)
  | readCall {l : Ledger} {request : Request Unit} {vs : List Visit} :
      request.reads = true → Conforms arming l vs → Conforms arming l (.call request :: vs)
  | readReply {l : Ledger} {request : Request Unit} {reply : Reply} {vs : List Visit} :
      request.reads = true → Conforms arming l vs →
      Conforms arming l (.reply request reply :: vs)
  /-- Only what is loaded is started. -/
  | call {l : Ledger} {request : Request Unit} {vs : List Visit} :
      request.reads = false →
      (∀ h, request.commit? .done = some (.started h) → h ∈ l.loaded) →
      Conforms arming { l with underway := some (request, false) } vs →
      Conforms arming l (.call request :: vs)
  /-- Nothing comes to the enforcer when a call is accepted. -/
  | accept {l : Ledger} {request : Request Unit} {vs : List Visit} :
      l.underway = some (request, false) → Conforms arming (l.accept arming request) vs →
      Conforms arming l vs
  | refuse {l : Ledger} {request : Request Unit} {error : CallError} {vs : List Visit} :
      l.underway = some (request, false) → Conforms arming { l with underway := none } vs →
      Conforms arming l (.reply request (.failed error) :: vs)
  /-- What is returned by a load is not loaded already. -/
  | complete {l : Ledger} {request : Request Unit} {reply : Reply} {vs : List Visit} :
      l.underway = some (request, true) → (∀ error, reply ≠ .failed error) →
      (∀ h, request.commit? reply = some (.loaded h) → h ∉ l.loaded) →
      Conforms arming (l.complete arming request reply) vs →
      Conforms arming l (.reply request reply :: vs)
  /-- An event comes only for a model that is armed. -/
  | event {l : Ledger} {e : Event} {cookie : Int32} {vs : List Visit} :
      e.model ∈ l.armed → Conforms arming (l.send e) vs →
      Conforms arming l (.event e cookie :: vs)

/-- An event finds its model armed; anything else may come at any time. -/
def Visit.Expected (t : ModelTable) : Visit → Prop
  | .event e _ => t.get? e.model = some .armed
  | .call _ | .reply _ _ | .look _ => True

/-- Every event among the visits finds its model armed. -/
def AllExpected (t : ModelTable) : List Visit → Prop
  | [] => True
  | v :: vs => v.Expected t ∧ AllExpected (v.after t) vs

/-- Two lists of visits one after the other: the second is judged by the table that the first leaves
behind. -/
theorem allExpected_append {t : ModelTable} {vs ws : List Visit} :
    AllExpected t (vs ++ ws) ↔ AllExpected t vs ∧ AllExpected (Visit.afterAll t vs) ws := by
  induction vs generalizing t with
  | nil => exact ⟨fun h => ⟨trivial, h⟩, fun h => h.2⟩
  | cons v vs ih =>
    rw [List.cons_append, AllExpected, AllExpected, ih, and_assoc]
    rfl

/-- What is expected is not reported. -/
theorem ne_reports_of_allExpected {id : Nat} {reporter : Reporter} {t : ModelTable}
    {vs : List Visit} (h : AllExpected t vs) :
    ∀ entry ∈ chronicle id reporter t vs, ∀ layer told v, entry.1 ≠ .reports layer told v := by
  induction vs generalizing t with
  | nil => exact fun entry hentry => absurd hentry List.not_mem_nil
  | cons v vs ih =>
    obtain ⟨hv, hvs⟩ := h
    rintro ⟨what, cell⟩ hentry layer told violation rfl
    rw [chronicle, List.mem_append, Visit.account, List.mem_cons] at hentry
    rcases hentry with (hopening | hsequel) | hlater
    · obtain ⟨hopening, -⟩ := Prod.mk.inj hopening
      cases v <;> cases hopening
    · obtain ⟨e, cookie, rfl, hjudge⟩ := Visit.reports_mem_sequel hsequel
      have hnone : Enforcer.judge e (t.get? e.model) = none := if_pos hv
      rw [hnone] at hjudge
      cases hjudge
    · exact ih hvs _ hlater layer told violation rfl

namespace Ledger

/-- What the call under way has come to: a model that is being started is loaded, and what was
stopped or unloaded is gone once that was accepted. -/
def Suits (l : Ledger) (accepted : Bool) : Request Unit → Prop
  | .start h _ _ _ => h ∈ l.loaded
  | .stop h => accepted = true → h ∉ l.armed
  | .stopAll => accepted = true → l.armed = ∅
  | .unload h => accepted = true → h ∉ l.loaded
  | _ => True

/-- A table has at least what the implementation has. -/
structure Agrees (l : Ledger) (t : ModelTable) : Prop where
  tracked : ∀ h ∈ l.loaded, t.get? h ≠ none
  armed : ∀ h ∈ l.armed, t.get? h = some .armed
  armed_subset : l.armed ⊆ l.loaded
  suits : ∀ request accepted, l.underway = some (request, accepted) → l.Suits accepted request

variable {l : Ledger} {t : ModelTable} {request : Request Unit}

/-- A call that is done with, and has changed nothing. -/
theorem Agrees.idle (h : l.Agrees t) : ({ l with underway := none } : Ledger).Agrees t :=
  ⟨h.tracked, h.armed, h.armed_subset, nofun⟩

/-- A call arrives.  What it needs is kept in mind until it is accepted. -/
theorem Agrees.call (h : l.Agrees t)
    (hstart : ∀ h, request.commit? .done = some (.started h) → h ∈ l.loaded) :
    ({ l with underway := some (request, false) } : Ledger).Agrees t := by
  refine ⟨h.tracked, h.armed, h.armed_subset, fun given accepted heq => ?_⟩
  obtain ⟨rfl, rfl⟩ : request = given ∧ false = accepted := by simpa using heq
  cases request with
  | start k config callback cookie => exact hstart k rfl
  | stop | stopAll | unload => exact nofun
  | _ => trivial

/-- A call is accepted.  A stop or an unload takes models away below, which the table may still
have. -/
theorem Agrees.accept (h : l.Agrees t) (hunderway : l.underway = some (request, false)) :
    (l.accept .onReturn request).Agrees t := by
  have hbefore := h.suits request false hunderway
  have haccepted : (l.accept .onReturn request).underway = some (request, true) := by
    cases request <;> rfl
  have hafter : (l.accept .onReturn request).Suits true request := by
    cases request with
    | start => exact hbefore
    | stop k => exact fun _ => Finset.notMem_erase k l.armed
    | stopAll => exact fun _ => rfl
    | unload k => exact fun _ => Finset.notMem_erase k l.loaded
    | _ => trivial
  have hsuits : ∀ given accepted, (l.accept .onReturn request).underway = some (given, accepted) →
      (l.accept .onReturn request).Suits accepted given := by
    intro given accepted heq
    obtain ⟨rfl, rfl⟩ : request = given ∧ true = accepted := by simpa [haccepted] using heq
    exact hafter
  cases request with
  | stop k =>
    exact ⟨h.tracked, fun m hm => h.armed m (Finset.mem_of_mem_erase hm),
      (Finset.erase_subset _ _).trans h.armed_subset, hsuits⟩
  | stopAll =>
    exact ⟨h.tracked, fun m hm => absurd hm (Finset.notMem_empty m), Finset.empty_subset _, hsuits⟩
  | unload k =>
    exact ⟨fun m hm => h.tracked m (Finset.mem_of_mem_erase hm),
      fun m hm => h.armed m (Finset.mem_of_mem_erase hm),
      Finset.erase_subset_erase k h.armed_subset, hsuits⟩
  | _ => exact ⟨h.tracked, h.armed, h.armed_subset, hsuits⟩

/-- An event is sent.  It disarms its model on both sides, or on neither if it is forced. -/
theorem Agrees.send {e : Event} {cookie : Int32} (h : l.Agrees t) :
    (l.send e).Agrees ((Visit.event e cookie).after t) := by
  have hget : ∀ m, ((Visit.event e cookie).after t).get? m =
      if m = e.model ∧ e.status.isForced = false then (t.get? m).map fun _ => .idle
      else t.get? m := fun m => t.get?_commit (.event e.model e.status) m
  have hloaded : (l.send e).loaded = l.loaded := by
    unfold Ledger.send
    split <;> rfl
  have hunderway : (l.send e).underway = l.underway := by
    unfold Ledger.send
    split <;> rfl
  -- What is still armed below was armed before, and is not the model whose recognition has ended.
  have harmed : ∀ m ∈ (l.send e).armed,
      m ∈ l.armed ∧ ¬ (m = e.model ∧ e.status.isForced = false) := by
    intro m hm
    unfold Ledger.send at hm
    split at hm
    · next hforced => exact ⟨hm, by simp [hforced, Status.isForced]⟩
    · exact ⟨Finset.mem_of_mem_erase hm, fun heq => Finset.ne_of_mem_erase hm heq.1⟩
  refine ⟨fun m hm => ?_, fun m hm => ?_, fun m hm => ?_, fun given accepted heq => ?_⟩
  · rw [hget]
    split
    · simpa using h.tracked m (hloaded ▸ hm)
    · exact h.tracked m (hloaded ▸ hm)
  · rw [hget, if_neg (harmed m hm).2]
    exact h.armed m (harmed m hm).1
  · rw [hloaded]
    exact h.armed_subset (harmed m hm).1
  · have hsuits := h.suits given accepted (hunderway ▸ heq)
    cases given with
    | start k config callback cookie =>
      show k ∈ (l.send e).loaded
      rw [hloaded]
      exact hsuits
    | stop k => exact fun ha hk => hsuits ha (harmed k hk).1
    | stopAll =>
      refine fun ha => Finset.eq_empty_of_forall_notMem fun m hm => ?_
      exact Finset.notMem_empty m (hsuits ha ▸ (harmed m hm).1)
    | unload k => exact fun ha hk => hsuits ha (hloaded ▸ hk)
    | _ => trivial

/-! ### The commits of calls

Each of these is a call that was accepted, when its reply comes and the table catches up. -/

/-- A new handle is tracked.  It was not loaded, so no armed model is made idle. -/
theorem Agrees.loaded {k : ModelHandle} (h : l.Agrees t) (hk : k ∉ l.loaded) :
    Agrees { l with loaded := insert k l.loaded, underway := none } (t.commit (.loaded k)) := by
  refine ⟨fun m hm => ?_, fun m hm => ?_,
    h.armed_subset.trans (Finset.subset_insert k l.loaded), nofun⟩
  · rw [ModelTable.get?_commit]
    rcases Finset.mem_insert.1 hm with rfl | hm
    · simp [Commit.effect]
    · have hne : m ≠ k := fun heq => hk (heq ▸ hm)
      simpa [Commit.effect, hne] using h.tracked m hm
  · have hne : m ≠ k := fun heq => hk (heq ▸ h.armed_subset hm)
    rw [ModelTable.get?_commit]
    simpa [Commit.effect, hne] using h.armed m hm

/-- A model is armed on both sides, since it was loaded when the start arrived. -/
theorem Agrees.started {k : ModelHandle} (h : l.Agrees t) (hk : k ∈ l.loaded) :
    Agrees { l with armed := insert k l.armed, underway := none } (t.commit (.started k)) := by
  refine ⟨fun m hm => ?_, fun m hm => ?_, Finset.insert_subset hk h.armed_subset, nofun⟩
  · rw [ModelTable.get?_commit]
    by_cases hmk : m = k <;> simpa [Commit.effect, hmk] using h.tracked m hm
  · rw [ModelTable.get?_commit]
    rcases Finset.mem_insert.1 hm with rfl | hm
    · obtain ⟨state, hstate⟩ := Option.ne_none_iff_exists'.1 (h.tracked m hk)
      simp [Commit.effect, hstate]
    · rw [h.armed m hm]
      simp [Commit.effect]

/-- A model is made idle in the table that has been disarmed below before. -/
theorem Agrees.stopped {k : ModelHandle} (h : l.Agrees t) (hk : k ∉ l.armed) :
    Agrees { l with underway := none } (t.commit (.stopped k)) := by
  refine ⟨fun m hm => ?_, fun m hm => ?_, h.armed_subset, nofun⟩
  · rw [ModelTable.get?_commit]
    by_cases hmk : m = k <;> simpa [Commit.effect, hmk] using h.tracked m hm
  · have hne : m ≠ k := fun heq => hk (heq ▸ hm)
    rw [ModelTable.get?_commit]
    simpa [Commit.effect, hne] using h.armed m hm

/-- All models are made idle in the table, where none is armed below any more. -/
theorem Agrees.stoppedAll (h : l.Agrees t) (harmed : l.armed = ∅) :
    Agrees { l with underway := none } (t.commit .stoppedAll) := by
  refine ⟨fun m hm => ?_, fun m hm => ?_, h.armed_subset, nofun⟩
  · rw [ModelTable.get?_commit]
    simpa [Commit.effect] using h.tracked m hm
  · exact absurd (harmed ▸ hm) (Finset.notMem_empty m)

/-- A model is forgotten that has been unloaded below before. -/
theorem Agrees.unloaded {k : ModelHandle} (h : l.Agrees t) (hk : k ∉ l.loaded) :
    Agrees { l with underway := none } (t.commit (.unloaded k)) := by
  have hne : ∀ m ∈ l.loaded, m ≠ k := fun m hm heq => hk (heq ▸ hm)
  refine ⟨fun m hm => ?_, fun m hm => ?_, h.armed_subset, nofun⟩
  · rw [ModelTable.get?_commit]
    simpa [Commit.effect, hne m hm] using h.tracked m hm
  · rw [ModelTable.get?_commit]
    simpa [Commit.effect, hne m (h.armed_subset hm)] using h.armed m hm

/-- **A reply keeps the agreement,** whatever call it is to. -/
theorem Agrees.complete {reply : Reply} (h : l.Agrees t)
    (hunderway : l.underway = some (request, true))
    (hload : ∀ h, request.commit? reply = some (.loaded h) → h ∉ l.loaded) :
    (l.complete .onReturn request reply).Agrees ((Visit.reply request reply).after t) := by
  have hsuits := h.suits request true hunderway
  cases request with
  | load model callback cookie =>
    cases reply with
    | handle k => exact h.loaded (hload k rfl)
    | _ => exact h.idle
  | start k config callback cookie =>
    cases reply with
    | done => exact h.started hsuits
    | _ => exact h.idle
  | stop k =>
    cases reply with
    | done => exact h.stopped (hsuits rfl)
    | _ => exact h.idle
  | stopAll =>
    cases reply with
    | done => exact h.stoppedAll (hsuits rfl)
    | _ => exact h.idle
  | unload k =>
    cases reply with
    | done => exact h.unloaded (hsuits rfl)
    | _ => exact h.idle
  | _ => exact h.idle

end Ledger

/-- **Where the rules are kept, every event is expected,** if no model is armed before its start
returns.  By induction on the visits, with the agreement as the invariant. -/
theorem Conforms.allExpected {l : Ledger} {vs : List Visit} (h : Conforms .onReturn l vs)
    {t : ModelTable} (hagrees : l.Agrees t) : AllExpected t vs := by
  induction h generalizing t with
  | nil => trivial
  | look _ ih => exact ⟨trivial, ih hagrees⟩
  | readCall _ _ ih => exact ⟨trivial, ih hagrees⟩
  | @readReply l request reply vs hreads _ ih =>
    have hcommit : request.commit? reply = none := by
      cases request <;> first | rfl | cases hreads
    refine ⟨trivial, ?_⟩
    rw [Visit.after, Visit.commit?, hcommit]
    exact ih hagrees
  | call _ hstart _ ih => exact ⟨trivial, ih (hagrees.call hstart)⟩
  | accept hunderway _ ih => exact ih (hagrees.accept hunderway)
  | @refuse l request error vs _ _ ih =>
    have hcommit : request.commit? (.failed error) = none := by
      cases request <;> rfl
    refine ⟨trivial, ?_⟩
    rw [Visit.after, Visit.commit?, hcommit]
    exact ih hagrees.idle
  | complete hunderway _ hload _ ih =>
    exact ⟨trivial, ih (hagrees.complete hunderway hload)⟩
  | event hmodel _ ih => exact ⟨hagrees.armed _ hmodel, ih hagrees.send⟩

namespace Stack

/-- **An implementation that keeps to the rules is not accused,** by any enforcer, in any run, as
long as no model is armed below before the start of it has returned.  No violation is reported, and
each event finds its model armed on arrival.  Events from within calls are covered, those from
within the start of a model that is armed already among them; what is left out are the events of a
model from within the very start that arms it, which the table is too late for. -/
theorem quiet_on_return (outer : List LayerPlan) (plan : EnforcerPlan) (inner : List LayerPlan)
    (moves : List Move)
    (h : Conforms .onReturn {} (visits inner.length
      ((fresh (layersOf (outer ++ .enforcer plan :: inner)).1).run moves).2)) :
    ∀ m ∈ ((fresh (layersOf (outer ++ .enforcer plan :: inner)).1).run moves).2,
      (∀ reporter v, m.what ≠ .reports inner.length reporter v) ∧
      ∀ e cookie, m.what = .arrives inner.length e cookie →
        ∃ t, m.table? inner.length = some t ∧ t.get? e.model = some .armed := by
  have hagrees : ({} : Ledger).Agrees {} :=
    ⟨by simp, by simp, Finset.empty_subset _, nofun⟩
  have hexpected := h.allExpected hagrees
  have hrun := run_chronicle (has_fresh outer plan inner) moves
  intro m hm
  obtain ⟨before, after, hsplit⟩ := List.append_of_mem hm
  refine ⟨fun reporter v hreports => ?_, fun e cookie harrives => ?_⟩
  · obtain ⟨pre, cell, post, hchronicle, -⟩ := hrun.split hsplit (by rw [hreports]; rfl)
    have hmem : (m.what, cell) ∈ pre ++ (m.what, cell) :: post :=
      List.mem_append_right pre List.mem_cons_self
    rw [← hchronicle] at hmem
    exact ne_reports_of_allExpected hexpected _ hmem inner.length reporter v hreports
  · have hlayer : m.what.layer? = some inner.length := by rw [harrives]; rfl
    have hvisit : m.what.visit? = some (.event e cookie) := by rw [harrives]; rfl
    obtain ⟨-, hcell⟩ := hrun.eq_opening hsplit hlayer hvisit
    rw [hsplit, visits_append, visits_cons_of_visit hlayer hvisit, allExpected_append] at hexpected
    exact ⟨_, by rw [Moment.table?, hcell]; rfl, hexpected.2.1⟩

/-- The last event of a model comes while it is being stopped. -/
theorem quiet_on_return_stop :
    let out := (fresh (layersOf [.enforcer {}]).1).run
      [.call (.load (.generic {}) "client" 0), .reply (.handle 1), .call (.start 1 {} "client" 0),
        .reply .done, .call (.stop 1), .event 0 (.generic { model := 1 } []) 0, .finish,
        .reply .done]
    Conforms .onReturn {} (visits 0 out.2) ∧
      ∀ m ∈ out.2, (∀ reporter v, m.what ≠ .reports 0 reporter v) ∧
        ∀ e cookie, m.what = .arrives 0 e cookie →
          ∃ t, m.table? 0 = some t ∧ t.get? e.model = some .armed := by
  intro out
  have hvisits : visits 0 out.2 =
      [.call (.load (.generic {}) () 0), .reply (.load (.generic {}) () 0) (.handle 1),
        .call (.start 1 {} () 0), .reply (.start 1 {} () 0) .done, .call (.stop 1),
        .event (.generic { model := 1 } []) 0, .reply (.stop 1) .done] := by decide
  have hconforms : Conforms .onReturn {} (visits 0 out.2) := by
    rw [hvisits]
    refine .call rfl nofun (.accept rfl (.complete rfl nofun (fun k _ => Finset.notMem_empty k) ?_))
    refine .call rfl (fun k hk => ?_) (.accept rfl (.complete rfl nofun nofun ?_))
    · obtain rfl : 1 = k := by simpa [Request.commit?] using hk
      decide
    · exact .call rfl nofun (.event (by decide) (.accept rfl (.complete rfl nofun nofun .nil)))
  exact ⟨hconforms, quiet_on_return [] {} [] _ hconforms⟩

/-- **A recognition that comes from within the start of its model is reported,** though the model is
armed as soon as the start is accepted.  So it is not true that an implementation that keeps to the
rules of the interface is never accused.  (The run is a load that returns 1, and a start of 1 during
which the recognition comes.) -/
theorem not_quiet_on_acceptance :
    ¬ ∀ (outer : List LayerPlan) (plan : EnforcerPlan) (inner : List LayerPlan) (moves : List Move),
      Conforms .onAcceptance {} (visits inner.length
        ((fresh (layersOf (outer ++ .enforcer plan :: inner)).1).run moves).2) →
      ∀ m ∈ ((fresh (layersOf (outer ++ .enforcer plan :: inner)).1).run moves).2,
        ∀ reporter v, m.what ≠ .reports inner.length reporter v := by
  intro hquiet
  let moves : List Move :=
    [.call (.load (.generic {}) "client" 0), .reply (.handle 1), .call (.start 1 {} "client" 0),
      .event 1 (.generic { model := 1 } []) 0, .finish, .reply .done]
  let out := (fresh (layersOf [.enforcer {}]).1).run moves
  have hvisits : visits 0 out.2 =
      [.call (.load (.generic {}) () 0), .reply (.load (.generic {}) () 0) (.handle 1),
        .call (.start 1 {} () 0), .event (.generic { model := 1 } []) 0,
        .reply (.start 1 {} () 0) .done] := by decide
  have hconforms : Conforms .onAcceptance {} (visits 0 out.2) := by
    rw [hvisits]
    refine .call rfl nofun (.accept rfl (.complete rfl nofun (fun k _ => Finset.notMem_empty k) ?_))
    refine .call rfl (fun k hk => ?_) (.accept rfl (.event (by decide) ?_))
    · obtain rfl : 1 = k := by simpa [Request.commit?] using hk
      decide
    · exact .complete rfl nofun nofun .nil
  have hreported : ∃ m ∈ out.2, m.what = .reports 0 (.journal {})
      { kind := .recognition, model := 1, observed := some .idle, status := .success } := by decide
  obtain ⟨m, hm, hwhat⟩ := hreported
  exact hquiet [] {} [] moves hconforms m hm _ _ hwhat

end Stack
end TriggerWatch
