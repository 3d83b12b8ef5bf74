/-
# Calls that fail

A call that fails leaves no trace in the tables of the enforcers it has passed, on its way down or
on its way up.  But it may take a while, and events may be sent from within it: these have their
effect all the same, one after the other.  `Stack.failed_call` says so, and that the stack is then
as if only those events had been sent.

While a call is under way, all other calls that come are such that only read, so they change nothing
either: that is `Stack.run_within_call`.  And a stack of enforcers is known once it is known whom
they tell about violations, and what their tables are, `Stack.Even.layers_eq`.
-/

import TriggerWatch.Proofs.Enclosure
import TriggerWatch.Proofs.Lockstep
import TriggerWatch.Proofs.Reload
import TriggerWatch.Proofs.Transparency

namespace TriggerWatch

/-- Tells whether a reply says that the call has failed. -/
def Reply.fails : Reply → Bool
  | .failed _ | .flag false => true
  | _ => false

/-- Of a call that has failed, nothing is written down. -/
theorem Request.commit?_of_fails {κ : Type} (request : Request κ) {reply : Reply}
    (h : reply.fails = true) : request.commit? reply = none := by
  cases reply with
  | failed error => cases request <;> rfl
  | flag yes => cases request <;> rfl
  | _ => cases h

/-- Of a call that only reads, nothing is written down. -/
theorem Request.commit?_of_reads {κ : Type} {request : Request κ} (h : request.reads = true)
    (reply : Reply) : request.commit? reply = none := by
  cases request <;> first | rfl | cases h

/-- A call that only reads brings no callback. -/
theorem Request.callback?_of_reads {κ : Type} {request : Request κ} (h : request.reads = true) :
    request.callback? = none := by
  cases request <;> first | rfl | cases h

/-- Whether a call only reads does not depend on its callback. -/
theorem Request.reads_map {κ κ' : Type} (f : κ → κ') (request : Request κ) :
    (request.map f).reads = request.reads := by
  cases request <;> rfl

/-- Whom a layer tells about violations, if it is an enforcer. -/
def Role.reporter? : Role → Option Reporter
  | .enforcer e => some e.reporter
  | .relay _ => none

/-- Whom an enforcer tells about violations never changes. -/
theorem lasting_reporter? : Lasting Role.reporter? :=
  ⟨fun _ _ => rfl, fun role => by cases role <;> rfl⟩

/-! ### Events that are sent -/

/-- An event, and the ticket of the callback through which it is sent. -/
structure Dispatch where
  ticket : Nat
  event : Event
  cookie : Int32
  deriving DecidableEq

/-- What every enforcer writes down because of a dispatch. -/
def Dispatch.commit (d : Dispatch) : Commit := .event d.event.model d.event.status

/-- A dispatch by itself: the event is sent, and the client returns. -/
def Dispatch.moves (d : Dispatch) : List Move := [.event d.ticket d.event d.cookie, .finish]

/-- The event that is sent by a move, if so many callbacks are out. -/
def dispatch? (issued : Nat) : Move → Option Dispatch
  | .event ticket event cookie =>
    if ticket < issued then some { ticket, event, cookie } else none
  | .call _ | .reply _ | .finish | .look _ _ => none

/-- The events that are sent during some moves, if so many callbacks are out. -/
def dispatches (issued : Nat) (moves : List Move) : List Dispatch :=
  moves.filterMap (dispatch? issued)

/-- Events are sent through callbacks that have been given out. -/
theorem ticket_lt_of_mem_dispatches {issued : Nat} {moves : List Move} {d : Dispatch}
    (h : d ∈ dispatches issued moves) : d.ticket < issued := by
  obtain ⟨move, -, hmove⟩ := List.mem_filterMap.1 h
  cases move with
  | event ticket event cookie =>
    simp only [dispatch?] at hmove
    split at hmove
    · next hlt =>
      obtain rfl := Option.some.inj hmove
      exact hlt
    · cases hmove
  | _ => cases hmove

attribute [ext] Stack

namespace Stack

variable {s : Stack} {t : ModelTable}

/-- A reply gives no callback out. -/
theorem issued_reply (s : Stack) (reply : Reply) : (s.step (.reply reply)).1.issued = s.issued := by
  simp only [step, onReply]
  split
  · split <;> rfl
  · rfl

/-- An event gives no callback out. -/
theorem issued_event (s : Stack) (ticket : Nat) (event : Event) (cookie : Int32) :
    (s.step (.event ticket event cookie)).1.issued = s.issued := by
  simp only [step, onEvent]
  split <;> rfl

/-- **Events that are sent one by one** leave nothing under way, and make the enforcers write down
just what they are. -/
theorem run_dispatches {ds : List Dispatch} (h : ∀ d ∈ ds, d.ticket < s.issued.length) :
    (s.run (ds.flatMap Dispatch.moves)).1.frames = s.frames ∧
      (s.run (ds.flatMap Dispatch.moves)).1.issued = s.issued ∧
      s.due (ds.flatMap Dispatch.moves) = ds.map Dispatch.commit := by
  induction ds generalizing s with
  | nil => exact ⟨rfl, rfl, rfl⟩
  | cons d ds ih =>
    have hlt := h d List.mem_cons_self
    have hframes := frames_event (List.getElem?_eq_getElem hlt) d.event d.cookie
    have hmoves : (s.run d.moves).1 =
        { (s.step (.event d.ticket d.event d.cookie)).1 with frames := s.frames } := by
      simp only [Dispatch.moves, run_cons, run_nil, step_finish hframes]
    have hissued : (s.run d.moves).1.issued = s.issued := by
      rw [hmoves]
      exact issued_event s d.ticket d.event d.cookie
    have hdue : s.due d.moves = [d.commit] := by
      simp [Dispatch.moves, Dispatch.commit, due, due?, hlt]
    obtain ⟨hframes', hissued', hdue'⟩ := ih (s := (s.run d.moves).1) fun other hother => by
      rw [hissued]
      exact h other (List.mem_cons_of_mem _ hother)
    rw [List.flatMap_cons, run_append, due_append, hdue, hdue']
    exact ⟨hframes'.trans (by rw [hmoves]), hissued'.trans hissued, rfl⟩

/-! ### While a call is under way -/

/-- What is under way: a call, and within it nothing but callbacks and calls that only read. -/
def Within (frames : List Frame) (outer : List Frame) : Prop :=
  ∃ inner, frames = inner ++ outer ∧
    ∀ request passed, .call request passed ∈ inner → request.reads = true

/-- One more frame within the call, if it is not a call that does more than read. -/
theorem Within.push {frames outer : List Frame} (h : Within frames outer) {frame : Frame}
    (hframe : ∀ request passed, frame = .call request passed → request.reads = true) :
    Within (frame :: frames) outer := by
  obtain ⟨inner, rfl, hinner⟩ := h
  refine ⟨frame :: inner, rfl, fun request passed hmem => ?_⟩
  rcases List.mem_cons.1 hmem with heq | hmem
  · exact hframe request passed heq.symm
  · exact hinner request passed hmem

/-- One frame less within the call, as long as the call itself is under way. -/
theorem Within.pop {frame : Frame} {frames outer : List Frame} (h : Within (frame :: frames) outer)
    (hstays : outer <:+ frames) :
    Within frames outer ∧
      ∀ request passed, frame = .call request passed → request.reads = true := by
  obtain ⟨inner, hsplit, hinner⟩ := h
  cases inner with
  | nil =>
    have hlength := hstays.length_le
    rw [← List.nil_append outer, ← hsplit, List.length_cons] at hlength
    omega
  | cons first inner =>
    obtain ⟨rfl, rfl⟩ := List.cons.inj hsplit
    exact ⟨⟨inner, rfl, fun request passed hmem =>
      hinner request passed (List.mem_cons_of_mem _ hmem)⟩, fun request passed heq =>
      hinner request passed (heq ▸ List.mem_cons_self)⟩

/-- A reply is taken, or else it is nothing. -/
theorem step_reply_cases (s : Stack) (reply : Reply) :
    (s.step (.reply reply) = (s, []) ∧ s.due? (.reply reply) = none) ∨
      ∃ request passed frames, s.frames = .call request passed :: frames ∧
        request.accepts reply = true := by
  cases hframes : s.frames with
  | nil => exact .inl ⟨by simp [step, onReply, hframes], by simp [due?, hframes]⟩
  | cons frame frames =>
    cases frame with
    | callback client => exact .inl ⟨by simp [step, onReply, hframes], by simp [due?, hframes]⟩
    | call request passed =>
      cases haccepts : request.accepts reply with
      | false =>
        exact .inl ⟨by simp [step, onReply, hframes, haccepts],
          by simp [due?, hframes, commit?_of_not_accepts haccepts]⟩
      | true => exact .inr ⟨request, passed, frames, rfl, haccepts⟩

/-- A return ends a callback, or else it is nothing. -/
theorem step_finish_cases (s : Stack) :
    s.step .finish = (s, []) ∨ ∃ client frames, s.frames = .callback client :: frames := by
  cases hframes : s.frames with
  | nil => exact .inl (by simp [step, onFinish, hframes])
  | cons frame frames =>
    cases frame with
    | call request passed => exact .inl (by simp [step, onFinish, hframes])
    | callback client => exact .inr ⟨client, frames, rfl⟩

/-- What may be called while a call is under way only reads. -/
theorem reads_of_admits {request : Request String} (hadmits : s.admits request = true)
    {given : Request Nat} {passed : List Nat} (hcall : .call given passed ∈ s.frames) :
    request.reads = true := by
  unfold admits at hadmits
  split at hadmits
  · cases hadmits
  · have hboth := List.all_eq_true.1 hadmits _ hcall
    exact ((Bool.and_eq_true _ _).mp hboth).2

/-- A move within a call gives no callback out, nothing is due because of it but an event, and what
is under way after it is again such as may be under way within the call. -/
structure StepsWithin (s : Stack) (outer : List Frame) (move : Move) : Prop where
  issued : (s.step move).1.issued = s.issued
  due : s.due? move = (dispatch? s.issued.length move).map Dispatch.commit
  within : Within (s.step move).1.frames outer

/-- A call that comes while another one is under way only reads, so it brings no callback. -/
theorem call_within_call (hs : s.Orderly) {given : Request Nat} {passed : List Nat}
    {outer : List Frame} (hwithin : Within s.frames (.call given passed :: outer))
    (request : Request String) :
    s.StepsWithin (.call given passed :: outer) (.call request) := by
  cases hadmits : s.admits request with
  | false =>
    have hnothing : s.step (.call request) = (s, []) := by simp [step, onCall, hadmits]
    exact ⟨by rw [hnothing], rfl, by rw [hnothing]; exact hwithin⟩
  | true =>
    have hreads : request.reads = true := by
      obtain ⟨inner, hframes, -⟩ := hwithin
      have hcall : .call given passed ∈ s.frames := by simp [hframes]
      exact reads_of_admits hadmits hcall
    have hstep := hs.step_call hadmits
    refine ⟨?_, rfl, ?_⟩
    · simp [hstep, Request.callback?_of_reads hreads]
    · rw [hstep]
      refine hwithin.push fun _ _ heq => ?_
      obtain ⟨rfl, -⟩ := Frame.call.inj heq
      rw [Request.reads_map, hreads]

/-- A reply that comes before the call itself is over answers a call that only reads, so nothing is
written down because of it. -/
theorem reply_within_call {outer : List Frame} (hwithin : Within s.frames outer) {reply : Reply}
    (hstays : outer <:+ (s.step (.reply reply)).1.frames) :
    s.StepsWithin outer (.reply reply) := by
  rcases step_reply_cases s reply with
    ⟨hnothing, hdue⟩ | ⟨request, ids, frames, hframes, haccepts⟩
  · exact ⟨by rw [hnothing], hdue, by rw [hnothing]; exact hwithin⟩
  · have hafter := frames_reply hframes haccepts
    rw [hafter] at hstays
    rw [hframes] at hwithin
    obtain ⟨hrest, hreads⟩ := hwithin.pop hstays
    refine ⟨issued_reply s reply, ?_, by rw [hafter]; exact hrest⟩
    simp [due?, hframes, dispatch?, Request.commit?_of_reads (hreads request ids rfl)]

/-- **While a call is under way, nothing but an event makes the enforcers write anything down,** and
no callback is given out. -/
theorem step_within_call (hs : s.Orderly) {given : Request Nat} {passed : List Nat}
    {outer : List Frame} (hwithin : Within s.frames (.call given passed :: outer)) (move : Move)
    (hstays : .call given passed :: outer <:+ (s.step move).1.frames) :
    s.StepsWithin (.call given passed :: outer) move := by
  cases move with
  | call request => exact call_within_call hs hwithin request
  | reply reply => exact reply_within_call hwithin hstays
  | event ticket event cookie =>
    refine ⟨issued_event s ticket event cookie, ?_, ?_⟩
    · simp only [due?, dispatch?]
      split <;> rfl
    · cases hcallback : s.issued[ticket]? with
      | none => simpa [step, onEvent, hcallback] using hwithin
      | some callback =>
        rw [frames_event hcallback event cookie]
        exact hwithin.push fun _ _ heq => by cases heq
  | finish =>
    rcases step_finish_cases s with hnothing | ⟨client, frames, hframes⟩
    · exact ⟨by rw [hnothing], rfl, by rw [hnothing]; exact hwithin⟩
    · rw [step_finish hframes] at hstays
      rw [hframes] at hwithin
      exact ⟨by rw [step_finish hframes], rfl,
        by rw [step_finish hframes]; exact (hwithin.pop hstays).1⟩
  | look id h =>
    have hframes : (s.step (.look id h)).1.frames = s.frames := by
      simp only [step, onLook]
      split <;> rfl
    have hissued : (s.step (.look id h)).1.issued = s.issued := by
      simp only [step, onLook]
      split <;> rfl
    exact ⟨hissued, rfl, hframes ▸ hwithin⟩

/-- **While a call is under way, nothing but events is written down,** and no callback is given out.
By induction on the moves: each of them keeps to what may be within a call. -/
theorem run_within_call (hs : s.Orderly) {given : Request Nat} {passed : List Nat}
    {outer : List Frame} (hwithin : Within s.frames (.call given passed :: outer))
    {moves : List Move} (hstays : s.Stays (.call given passed :: outer) moves) :
    (s.run moves).1.issued = s.issued ∧
      s.due moves = (dispatches s.issued.length moves).map Dispatch.commit := by
  induction moves generalizing s with
  | nil => exact ⟨rfl, rfl⟩
  | cons move moves ih =>
    have hmove := step_within_call hs hwithin move hstays.2.suffix
    obtain ⟨hissued, hdue⟩ := ih (hs.step move) hmove.within hstays.2
    refine ⟨hissued.trans hmove.issued, ?_⟩
    rw [due, hmove.due, hdue, hmove.issued]
    cases hsent : dispatch? s.issued.length move <;> simp [dispatches, hsent]

/-! ### The layers of a stack of enforcers -/

/-- **A stack of enforcers is known by its reporters and its table.** -/
theorem Even.layers_eq (h : s.Even t) (hs : s.Orderly)
    (hkinds : ∀ id, (id, false) ∉ kindsOf s.layers) :
    s.layers = (viewOf Role.reporter? s.layers).filterMap fun entry =>
      entry.2.map fun reporter =>
        { id := entry.1, role := .enforcer { reporter, cell := { table := t } } } := by
  rw [viewOf, List.filterMap_map]
  refine List.filterMap_some.symm.trans (List.filterMap_congr fun layer hlayer => ?_)
  obtain ⟨id, role⟩ := layer
  cases role with
  | relay r => exact absurd (List.mem_map.2 ⟨_, hlayer, rfl⟩) (hkinds id)
  | enforcer e =>
    obtain ⟨reporter, hrole⟩ := h.role? (mem_enforcersOf.2 (List.mem_map.2 ⟨_, hlayer, rfl⟩))
    have hown := roleAt?_of_mem hs.nodup hlayer
    obtain rfl : e = { reporter, cell := { table := t } } :=
      Role.enforcer.inj (Option.some.inj (hown.symm.trans hrole))
    rfl

/-- **What is due says what becomes of the layers** of a stack of enforcers. -/
theorem Even.layers_run_congr {s' : Stack} (h : s.Even t) (hs : s.Orderly) (hs' : s'.Orderly)
    (hkinds : ∀ id, (id, false) ∉ kindsOf s.layers) (hlayers : s'.layers = s.layers)
    {moves moves' : List Move} (hdue : s'.due moves' = s.due moves) :
    (s'.run moves').1.layers = (s.run moves).1.layers := by
  have h' : s'.Even t := fun id hid =>
    (h id (hlayers ▸ hid)).imp fun _ hhas => ⟨hlayers ▸ hhas.role, hlayers ▸ hhas.alone⟩
  have hafter := h.run hs moves
  have hafter' := h'.run hs' moves'
  rw [hdue] at hafter'
  rw [hafter.layers_eq (hs.run moves) fun id => kindsOf_run s moves ▸ hkinds id,
    hafter'.layers_eq (hs'.run moves') fun id => kindsOf_run s' moves' ▸ hlayers ▸ hkinds id,
    viewOf_run lasting_reporter?, viewOf_run lasting_reporter?, hlayers]

end Stack

/-! ### Warnings -/

/-- A record is logged at some moment. -/
theorem mem_logged {id : Nat} {record : LogRecord} {moments : List Moment} :
    (id, record) ∈ logged moments ↔ ∃ m ∈ moments, m.what = .logs id record := by
  simp only [logged, List.mem_filterMap]
  refine exists_congr fun m => and_congr_right fun _ => ?_
  cases m.what <;> simp [Happening.record?]

namespace Stack

variable {s : Stack} {t : ModelTable}

/-- **No enforcer warns about a load unless it writes one down.** -/
theorem Has.reload_not_mem_logged {id : Nat} {reporter : Reporter} (hs : s.Has id reporter t)
    {moves : List Move} (h : ∀ c ∈ commits id (s.run moves).2, ∀ k, c ≠ .loaded k)
    (k : ModelHandle) : (id, Enforcer.reloadRecord k) ∉ logged (s.run moves).2 := by
  intro hmem
  have hrun := run_chronicle hs moves
  obtain ⟨m, hm, hwhat⟩ := mem_logged.1 hmem
  obtain ⟨before, after, hsplit⟩ := List.append_of_mem hm
  obtain ⟨earlier, v, cell, hbefore, -, hsequel⟩ :=
    hrun.mem_sequel hsplit (by rw [hwhat]; rfl) (by rw [hwhat]; rfl)
  rw [hwhat] at hsequel
  have hcommit : v.commit? = some (.loaded k) :=
    Visit.commit?_eq_some_iff.2 (Visit.loads_of_reload hsequel).1
  refine h (.loaded k) ?_ k rfl
  rw [hrun.commits, hsplit, visits_append, hbefore]
  simp [hcommit]

/-- There is no relay among the layers of enforcers. -/
theorem not_mem_kindsOf_enforcers (plans : List EnforcerPlan) (id : Nat) :
    (id, false) ∉ kindsOf (layersOf (plans.map .enforcer)).1 := by
  induction plans with
  | nil => exact List.not_mem_nil
  | cons plan plans ih =>
    rw [List.map_cons, layersOf_cons, kindsOf, List.map_cons]
    refine List.not_mem_cons_of_ne_of_not_mem (fun heq => ?_) ih
    exact Bool.false_ne_true (Prod.mk.inj heq).2

/-! ### A call from its beginning to its end -/

section

variable {request : Request String} {within : List Move} {reply : Reply}

/-- A call, what happens within it, and its reply. -/
def attempt (request : Request String) (within : List Move) (reply : Reply) : List Move :=
  .call request :: within ++ [.reply reply]

/-- A call with its reply, as one run. -/
theorem run_attempt (s : Stack) (request : Request String) (within : List Move) (reply : Reply) :
    let called := s.step (.call request)
    let inside := called.1.run within
    let out := inside.1.step (.reply reply)
    s.run (attempt request within reply) = (out.1, called.2 ++ inside.2 ++ out.2) := by
  rw [attempt, run_append, run_cons]
  simp [run_cons]

/-- What is known when the reply to a call comes: the call is under way, no callback has been given
out since it arrived, and nothing but events has been written down. -/
theorem Orderly.within_call (hs : s.Orderly) (hadmits : s.admits request = true)
    (hcontains : (s.step (.call request)).1.Contains within) :
    let called := (s.step (.call request)).1
    (called.run within).1.frames = .call (request.map fun _ => s.issued.length)
        (s.layers.map Layer.id).reverse :: s.frames ∧
      (called.run within).1.issued = called.issued ∧
      called.due within = (dispatches called.issued.length within).map Dispatch.commit := by
  intro called
  have hcalled : called.frames = .call (request.map fun _ => s.issued.length)
      (s.layers.map Layer.id).reverse :: s.frames :=
    congrArg (fun out => out.1.frames) (hs.step_call hadmits)
  obtain ⟨hstays, hframes⟩ := hcontains
  have hwithin : Within called.frames called.frames :=
    ⟨[], rfl, fun _ _ hmem => absurd hmem List.not_mem_nil⟩
  refine ⟨hframes.trans hcalled, run_within_call (hs.step (.call request)) ?_ (hcalled ▸ hstays)⟩
  exact hcalled ▸ hwithin

/-- A stack stays orderly if it is given the callbacks that a move has given out, and nothing else
of what the move has done. -/
theorem Orderly.issue (hs : s.Orderly) (move : Move) :
    ({ s with issued := (s.step move).1.issued } : Stack).Orderly where
  nodup := hs.nodup
  forwards := hs.forwards
  routed := hs.routed
  wired callback hcallback := by
    rw [(hs.step move).wired callback hcallback]
    exact enforcersOf_congr (kindsOf_step s move)

/-- **Nothing is due because of a call that fails,** other than for the events that are sent from
within it. -/
theorem Orderly.due_attempt (hs : s.Orderly) (hadmits : s.admits request = true)
    (hcontains : (s.step (.call request)).1.Contains within) (hfails : reply.fails = true) :
    s.due (attempt request within reply) =
      (dispatches (s.step (.call request)).1.issued.length within).map Dispatch.commit := by
  obtain ⟨hframes, -, hdue⟩ := hs.within_call hadmits hcontains
  have hlast : ((s.step (.call request)).1.run within).1.due [.reply reply] = [] := by
    simp [due, due?, hframes, Request.commit?_of_fails _ hfails]
  rw [attempt, List.cons_append, due, due_append, hdue, hlast, List.append_nil]
  rfl

end

/-- **A call that fails leaves no trace,** whatever it is and in whatever state of a stack of
enforcers, and the events that were sent from within it have their effect.  The caller gets the
failure as it is, no enforcer warns about a load, and the table of each is what the events have made
of it, one after the other.  The whole stack is then as if only these had been sent, so that is how
it will behave. -/
theorem failed_call (plans : List EnforcerPlan) (moves : List Move) (request : Request String)
    (within : List Move) (reply : Reply) :
    let layers := (layersOf (plans.map .enforcer)).1
    let s := ((fresh layers).run moves).1
    let called := s.step (.call request)
    let inside := called.1.run within
    let out := inside.1.step (.reply reply)
    let sent := dispatches called.1.issued.length within
    s.admits request = true → called.1.Contains within → request.accepts reply = true →
      reply.fails = true →
      outward out.2 = [.answers reply] ∧
      (∀ id ∈ enforcersOf layers, ∀ h,
        (id, Enforcer.reloadRecord h) ∉ logged (called.2 ++ inside.2 ++ out.2)) ∧
      (∃ t, ∀ id ∈ enforcersOf layers, s.table? id = some t ∧
        out.1.table? id = some (t.commitAll (sent.map Dispatch.commit))) ∧
      out.1 = (({ s with issued := called.1.issued } : Stack).run
        (sent.flatMap Dispatch.moves)).1 := by
  intro layers s called inside out sent hadmits hcontains haccepts hfails
  obtain ⟨hs, henforcers, t, heven⟩ := exists_even (forwards_enforcers plans) moves
  change enforcersOf s.layers = enforcersOf layers at henforcers
  have hkinds : ∀ id, (id, false) ∉ kindsOf s.layers := fun id => by
    rw [kindsOf_run]
    exact not_mem_kindsOf_enforcers plans id
  obtain ⟨hinside, hissued, -⟩ := hs.within_call hadmits hcontains
  have haccepts' := (Request.accepts_map (fun _ => s.issued.length) request reply).trans haccepts
  have hrun : s.run (attempt request within reply) = (out.1, called.2 ++ inside.2 ++ out.2) :=
    run_attempt s request within reply
  have hdue : s.due (attempt request within reply) = sent.map Dispatch.commit :=
    hs.due_attempt hadmits hcontains hfails
  refine ⟨outward_reply ?_ hinside haccepts', fun id hid h => ?_, ⟨t, fun id hid => ⟨?_, ?_⟩⟩, ?_⟩
  · rw [kindsOf_run, kindsOf_step]
    exact hkinds
  · obtain ⟨reporter, hhas⟩ := heven id (henforcers ▸ hid)
    have hloads : ∀ c ∈ commits id (s.run (attempt request within reply)).2,
        ∀ k, c ≠ .loaded k := by
      intro c hc k
      rw [(hhas.run_due hs _).1, hdue] at hc
      obtain ⟨d, -, rfl⟩ := List.mem_map.1 hc
      intro heq
      cases heq
    have hlogged := hhas.reload_not_mem_logged hloads h
    rwa [hrun] at hlogged
  · exact heven.table? (henforcers ▸ hid)
  · have hafter := heven.run hs (attempt request within reply)
    have hmem : id ∈ enforcersOf (s.run (attempt request within reply)).1.layers := by
      rw [enforcersOf_run, henforcers]
      exact hid
    have htable := hafter.table? hmem
    rwa [hrun, hdue] at htable
  · -- The stack to which only the events are sent.  It has the callbacks that were given out by the
    -- call, since some of the events may have come through the callback of the call itself.
    let s' : Stack := { s with issued := called.1.issued }
    have hs' : s'.Orderly := hs.issue (.call request)
    have htickets : ∀ d ∈ sent, d.ticket < s'.issued.length :=
      fun d hd => ticket_lt_of_mem_dispatches hd
    obtain ⟨hframes, hissued', hdue'⟩ := run_dispatches htickets
    have hlayers : (s'.run (sent.flatMap Dispatch.moves)).1.layers = out.1.layers := by
      rw [heven.layers_run_congr hs hs' hkinds rfl (hdue'.trans hdue.symm), hrun]
    exact Stack.ext hlayers.symm
      (((issued_reply _ reply).trans hissued).trans hissued'.symm)
      ((frames_reply hinside haccepts').trans hframes.symm)

/-- Two enforcers: a stop fails, but the event that came from within it has ended the recognition.
The model was armed in both tables before the call and is idle in both after it, and neither
enforcer reports the event, which was expected. -/
theorem failed_call_stop :
    let plans : List EnforcerPlan := [{ recorder := some "outer" }, {}]
    let s := ((fresh (layersOf (plans.map .enforcer)).1).run
      [.call (.load (.generic {}) "client" 0), .reply (.handle 1),
        .call (.start 1 {} "client" 0), .reply .done]).1
    let event : Event := .generic { model := 1 } []
    let within : List Move := [.event 1 event 7, .finish]
    let called := s.step (.call (.stop 1))
    let out := (called.1.run within).1.step (.reply (.failed .deadObject))
    let sent := dispatches called.1.issued.length within
    s.admits (.stop 1) = true ∧ called.1.Contains within ∧
      sent = [{ ticket := 1, event, cookie := 7 }] ∧
      outward out.2 = [.answers (.failed .deadObject)] ∧
      out.1 = (({ s with issued := called.1.issued } : Stack).run
        (sent.flatMap Dispatch.moves)).1 ∧
      (∀ id ∈ [0, 1], (s.table? id).bind (·.get? 1) = some .armed ∧
        (out.1.table? id).bind (·.get? 1) = some .idle) ∧
      violations (called.1.run within).2 = [] := by
  intro plans s event within called out sent
  have hadmits : s.admits (.stop 1) = true := by decide
  have hcontains : called.1.Contains within := by decide
  have hsent : sent = [{ ticket := 1, event, cookie := 7 }] := by decide
  have htables : ∀ id ∈ [0, 1], (s.table? id).bind (·.get? 1) = some .armed ∧
      (out.1.table? id).bind (·.get? 1) = some .idle := by decide
  have hquiet : violations (called.1.run within).2 = [] := by decide
  obtain ⟨hanswer, -, -, hstate⟩ := failed_call plans
    [.call (.load (.generic {}) "client" 0), .reply (.handle 1),
      .call (.start 1 {} "client" 0), .reply .done] (.stop 1) within (.failed .deadObject)
    hadmits hcontains rfl rfl
  subst out sent called s
  exact ⟨hadmits, hcontains, hsent, hanswer, hstate, htables, hquiet⟩

end Stack
end TriggerWatch
