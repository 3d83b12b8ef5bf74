/-
# What comes of an event

Whatever happens because of a move is about the event that the move is, if it is about an event at
all: `Stack.about_step`.  So an event is reported as what it is (`Stack.reportsAsSent`), and it is
the one that the client gets, once, whichever callback it is sent through (`Stack.notices_run`).
-/

import TriggerWatch.Proofs.Lockstep
import TriggerWatch.Proofs.Transparency

namespace TriggerWatch

/-- The event that a move is, if it is one. -/
def Move.event? : Move → Option Event
  | .event _ e _ => some e
  | _ => none

/-- What happens is about the given event, if it is about an event at all. -/
def Happening.About (event? : Option Event) : Happening → Prop
  | .arrives _ event _ | .hands _ event _ | .notifies _ event _ => event? = some event
  | .reports _ _ v =>
    ∃ event observed, event? = some event ∧ Enforcer.judge event observed = some v
  | .enters _ _ | .swallows _ _ _ | .calls _ | .returns _ _ _ | .logs _ _ | .commits _ _
  | .answers _ | .looks _ _ _ => True

/-- So is all that has happened so far. -/
def Passage.About (event? : Option Event) (p : Passage) : Prop :=
  ∀ m ∈ p.moments, m.what.About event?

namespace Passage.About

variable {event? : Option Event} {p : Passage}

/-- One more thing happens that is about the event. -/
theorem note (h : p.About event?) {what : Happening} (hwhat : what.About event?) :
    (p.note what).About event? := by
  intro m hm
  rcases List.mem_append.1 hm with hm | hm
  · exact h m hm
  · exact List.mem_singleton.1 hm ▸ hwhat

/-- A commit is not about an event, nor is a warning about a load. -/
theorem commit (h : p.About event?) (id : Nat) (e : Enforcer) (c : Commit) :
    (p.commit id e c).About event? := by
  have hcell : ∀ {q : Passage} (f : Cell → Cell), q.About event? →
      (q.modifyCell id f).About event? := fun _ hq => hq
  have hlogs : ∀ {q : Passage} (record : LogRecord), q.About event? →
      (q.note (.logs id record)).About event? := fun _ hq => hq.note trivial
  unfold Passage.commit
  split
  · refine (hcell _ ?_).note trivial
    split
    · exact hlogs _ (hcell _ h)
    · exact hcell _ h
  · exact h.note trivial

/-- All that an enforcer does when an event passes it is about that event, its report included. -/
theorem watch {event : Event} (h : p.About (some event)) (id : Nat) (e : Enforcer)
    (cookie : Int32) : (p.watch id e event cookie).About (some event) := by
  have hlooked : ((p.note (.arrives id event cookie)).modifyCell id fun cell =>
      (cell.look event.model).2).About (some event) := h.note rfl
  unfold Passage.watch
  refine (commit ?_ id e _).note rfl
  split
  · next v hjudge =>
    have hreports : (Happening.reports id e.reporter v).About (some event) :=
      ⟨event, _, rfl, hjudge⟩
    have htold := hlooked.note hreports
    unfold report
    split
    · exact htold.note trivial
    · exact htold
  · exact hlooked

/-- All that happens on the way of an event up is about that event. -/
theorem foldl_rise {event : Event} (h : p.About (some event)) (cookie : Int32)
    (watchers : List Nat) : (watchers.foldl (rise event cookie) p).About (some event) :=
  foldl_rise_invariant (P := Passage.About (some event))
    (fun _ id e _ hq => hq.watch id e cookie) watchers h

/-- Nothing that happens on the way of a reply up is about an event. -/
theorem climb (h : p.About event?) {κ : Type} (request : Request κ) (reply : Reply)
    (ids : List Nat) : (p.climb request reply ids).About event? := by
  have harrived : (ids.foldl (settle request) (p, reply)).1.About event? :=
    foldl_settle_invariant (P := Passage.About event?) (fun _ _ _ hq => hq.note trivial)
      (fun _ id e c _ hq => hq.commit id e c) ids h
  exact harrived.note trivial

end Passage.About

/-- Nothing that happens to a call on its way down is about an event. -/
theorem about_descend (event? : Option Event) (layers : List Layer) (request : Request String) :
    (descend layers request).passage.About event? :=
  descend_invariant (P := Passage.About event?) (fun _ _ _ hq => hq.note trivial)
    (fun _ _ _ _ hq => hq.note trivial) (fun _ _ hq => hq)
    (fun _ hm => absurd hm List.not_mem_nil) request

namespace Stack

/-- **What happens because of a move is about the event that the move is.** -/
theorem about_step (s : Stack) (move : Move) :
    ∀ m ∈ (s.step move).2, m.what.About move.event? := by
  have hnone : ∀ m ∈ ([] : List Moment), m.what.About move.event? :=
    fun _ hm => absurd hm List.not_mem_nil
  have hstart : ({ layers := s.layers } : Passage).About move.event? := hnone
  cases move with
  | call request =>
    have hdown := about_descend none s.layers request
    simp only [step, onCall]
    split
    · exact hnone
    · split
      · exact hdown.climb _ .done _
      · exact hdown.note trivial
  | reply reply =>
    simp only [step, onReply]
    split
    · split
      · exact hstart.climb _ reply _
      · exact hnone
    · exact hnone
  | event ticket event cookie =>
    simp only [step, onEvent]
    split
    · next callback _ =>
      have hrisen : (callback.watchers.foldl (Passage.rise event cookie)
          { layers := s.layers }).About (some event) := Passage.About.foldl_rise hstart cookie _
      exact hrisen.note rfl
    · exact hnone
  | finish =>
    simp only [step, onFinish]
    split <;> exact hnone
  | look id k =>
    simp only [step, onLook]
    split
    · have hlooked : (({ layers := s.layers } : Passage).modifyCell id fun cell =>
          (cell.look k).2).About none := hstart
      exact hlooked.note trivial
    · exact hnone

end Stack

/-! ### What clients get -/

/-- The event that a client gets, if one gets an event. -/
def Happening.notice? : Happening → Option (String × Event × Int32)
  | .notifies client event cookie => some (client, event, cookie)
  | _ => none

/-- The events that clients get during some moments, each with its client and the client's
cookie. -/
def notices (moments : List Moment) : List (String × Event × Int32) :=
  moments.filterMap fun m => m.what.notice?

/-- What clients get during two stretches, one after the other. -/
theorem notices_append (ms ns : List Moment) : notices (ms ++ ns) = notices ms ++ notices ns :=
  List.filterMap_append

/-- What a client gets comes out of the stack. -/
theorem notices_eq_outward (moments : List Moment) :
    notices moments = (outward moments).filterMap Happening.notice? := by
  rw [notices, outward, List.filterMap_filter, List.filterMap_map]
  congr 1
  funext m
  cases hwhat : m.what <;> simp [Happening.notice?, Happening.layer?, hwhat]

namespace Stack

/-- The event that comes to a client because of a move: one that is sent through a callback that was
given out. -/
def delivers (s : Stack) : Move → List (String × Event × Int32)
  | .event ticket e cookie =>
    (s.issued[ticket]?.map fun callback => (callback.client, e, cookie)).toList
  | _ => []

/-- The events that come to clients because of some moves. -/
def deliversAll (s : Stack) : List Move → List (String × Event × Int32)
  | [] => []
  | move :: moves => s.delivers move ++ (s.step move).1.deliversAll moves

/-- **A client gets an event if and only if it is sent through a callback that was given out,** and
gets it once and as it is. -/
theorem notices_step (s : Stack) (move : Move) : notices (s.step move).2 = s.delivers move := by
  have hother : move.event? = none → notices (s.step move).2 = [] := by
    intro hmove
    refine List.filterMap_eq_nil_iff.2 fun m hm => ?_
    have habout := s.about_step move m hm
    rw [hmove] at habout
    cases hwhat : m.what with
    | notifies client event cookie =>
      rw [hwhat] at habout
      cases habout
    | _ => rfl
  cases move with
  | event ticket event cookie =>
    rw [notices_eq_outward, outward_event, delivers]
    cases s.issued[ticket]? <;> rfl
  | _ => exact hother rfl

/-- **Every event comes to its client once, and as it is.** The events that clients get in a run are
those that were sent through callbacks given out, in the order in which they were sent. -/
theorem notices_run (s : Stack) (moves : List Move) :
    notices (s.run moves).2 = s.deliversAll moves := by
  induction moves generalizing s with
  | nil => rfl
  | cons move moves ih => rw [run_cons, notices_append, notices_step, ih, deliversAll]

/-- What is reported because of a move is reported of the event that the move is. -/
def ReportsAsSent (s : Stack) (move : Move) : Prop :=
  ∀ report ∈ violations (s.step move).2, ∃ event, move.event? = some event ∧
    report.2.kind = event.kind ∧ report.2.model = event.model ∧ report.2.status = event.status

/-- **An event is reported as what it is,** a phrase event as one, and others as others. -/
theorem reportsAsSent (s : Stack) (move : Move) : s.ReportsAsSent move := by
  intro report hreport
  obtain ⟨m, hm, hwhat⟩ := List.mem_filterMap.1 hreport
  have habout := s.about_step move m hm
  cases hreports : m.what with
  | reports id reporter v =>
    rw [hreports] at habout hwhat
    obtain rfl : (id, v) = report := Option.some.inj hwhat
    obtain ⟨event, observed, hmove, hjudge⟩ := habout
    unfold Enforcer.judge at hjudge
    split at hjudge
    · cases hjudge
    · obtain rfl := Option.some.inj hjudge
      exact ⟨event, hmove, rfl, rfl, rfl⟩
  | _ =>
    rw [hreports] at hwhat
    cases hwhat

end Stack
end TriggerWatch
