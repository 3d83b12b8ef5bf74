/-
# Generic and phrase models are treated alike

Two runs are alike if they consist of the same moves but for the models that are loaded and for all
that an event says beside its header, its kind included.  `Move.Alike` and `Happening.Alike` say so
of moves and of what comes of them.  Every operation on passages takes likes to likes and leaves the
layers the same, so it is with every move (`Stack.Alike.step`) and every run (`Stack.Alike.run`).

What differs is the kind, and that follows the event: it is reported as what it is, and the client
gets it as it is.  `Stack.kinds_alike` puts this together.
-/

import Mathlib.Data.List.Forall2
import TriggerWatch.Proofs.Delivery

namespace TriggerWatch

/-! ### Likes -/

/-- Two calls that differ in the model to be loaded at most. -/
inductive Request.Alike {κ : Type} : Request κ → Request κ → Prop where
  | same (request : Request κ) : Alike request request
  | load (model model' : Model) (callback : κ) (cookie : Int32) :
      Alike (.load model callback cookie) (.load model' callback cookie)

/-- Two events with the same header. -/
def Event.Alike (event event' : Event) : Prop := event'.header = event.header

/-- Two violations that differ in their kind at most. -/
def Violation.Alike (v v' : Violation) : Prop := v' = { v with kind := v'.kind }

/-- Two moves that differ in the model to be loaded, or in what an event says beside its header, at
most. -/
inductive Move.Alike : Move → Move → Prop where
  | same (move : Move) : Alike move move
  | call {request request' : Request String} :
      request.Alike request' → Alike (.call request) (.call request')
  | event {event event' : Event} (ticket : Nat) (cookie : Int32) :
      event.Alike event' → Alike (.event ticket event cookie) (.event ticket event' cookie)

/-- What can happen with moves that are alike. -/
inductive Happening.Alike : Happening → Happening → Prop where
  | same (what : Happening) : Alike what what
  | enters {call call' : Request Unit} (layer : Nat) :
      call.Alike call' → Alike (.enters layer call) (.enters layer call')
  | calls {request request' : Request Nat} :
      request.Alike request' → Alike (.calls request) (.calls request')
  | returns {call call' : Request Unit} (layer : Nat) (reply : Reply) :
      call.Alike call' → Alike (.returns layer call reply) (.returns layer call' reply)
  | arrives {event event' : Event} (layer : Nat) (cookie : Int32) :
      event.Alike event' → Alike (.arrives layer event cookie) (.arrives layer event' cookie)
  | reports {v v' : Violation} (layer : Nat) (reporter : Reporter) :
      v.Alike v' → Alike (.reports layer reporter v) (.reports layer reporter v')
  | logs {v v' : Violation} (layer : Nat) (config : Config) :
      v.Alike v' → Alike (.logs layer (config.record v)) (.logs layer (config.record v'))
  | hands {event event' : Event} (layer : Nat) (cookie : Int32) :
      event.Alike event' → Alike (.hands layer event cookie) (.hands layer event' cookie)
  | notifies {event event' : Event} (client : String) (cookie : Int32) :
      event.Alike event' → Alike (.notifies client event cookie) (.notifies client event' cookie)

/-- Two moments at which the cells are the same. -/
structure Moment.Alike (m m' : Moment) : Prop where
  what : m.what.Alike m'.what
  cells : m'.cells = m.cells

/-- Two frames that differ in the model to be loaded at most. -/
inductive Frame.Alike : Frame → Frame → Prop where
  | call {request request' : Request Nat} (passed : List Nat) :
      request.Alike request' → Alike (.call request passed) (.call request' passed)
  | callback (client : String) : Alike (.callback client) (.callback client)

/-- Two passages with the same layers. -/
structure Passage.Alike (p p' : Passage) : Prop where
  layers : p'.layers = p.layers
  moments : List.Forall₂ Moment.Alike p.moments p'.moments

/-- Two calls on their way down that have come equally far. -/
structure Descent.Alike (d d' : Descent) : Prop where
  passage : d.passage.Alike d'.passage
  request : d.request.Alike d'.request
  passed : d'.passed = d.passed
  swallowed : d'.swallowed = d.swallowed

/-- Two stacks with the same layers, which have given out the same callbacks. -/
structure Stack.Alike (s s' : Stack) : Prop where
  layers : s'.layers = s.layers
  issued : s'.issued = s.issued
  frames : List.Forall₂ Frame.Alike s.frames s'.frames

namespace Request.Alike

variable {κ κ' : Type} {request request' : Request κ}

/-- Calls are alike under any names for their callbacks. -/
theorem map (h : request.Alike request') (f : κ → κ') :
    (request.map f).Alike (request'.map f) := by
  cases h with
  | same => exact .same _
  | load => exact .load ..

/-- Calls that are alike make calls that are alike. -/
theorem bare (h : request.Alike request') : request.bare.Alike request'.bare := h.map _

/-- Calls that are alike bring the same callback. -/
theorem callback?_eq (h : request.Alike request') : request'.callback? = request.callback? := by
  cases h <;> rfl

/-- Of two calls that are alike, both only read or neither does. -/
theorem reads_eq (h : request.Alike request') : request'.reads = request.reads := by
  cases h <;> rfl

/-- Calls that are alike are written down in the same way: of a load, only the handle that comes
back. -/
theorem commit?_eq (h : request.Alike request') : request'.commit? = request.commit? := by
  funext reply
  cases h with
  | same => rfl
  | load => cases reply <;> rfl

/-- The same replies fit calls that are alike. -/
theorem accepts_eq (h : request.Alike request') : request'.accepts = request.accepts := by
  funext reply
  cases h with
  | same => rfl
  | load => cases reply <;> rfl

/-- A relay answers both of two calls that are alike, or neither. -/
theorem swallowed?_eq (h : request.Alike request') (r : Relay) :
    r.swallowed? request' = r.swallowed? request := by
  cases h <;> rfl

end Request.Alike

namespace Event.Alike

variable {event event' : Event}

/-- Events that are alike are about the same model. -/
theorem model_eq (h : event.Alike event') : event'.model = event.model :=
  congrArg EventHeader.model h

/-- Events that are alike have the same status. -/
theorem status_eq (h : event.Alike event') : event'.status = event.status :=
  congrArg EventHeader.status h

/-- Whether an event is a violation is not a matter of its kind. -/
theorem judge (h : event.Alike event') (observed : Option ModelState) :
    Option.Rel Violation.Alike (Enforcer.judge event observed)
      (Enforcer.judge event' observed) := by
  unfold Enforcer.judge
  rw [h.model_eq, h.status_eq]
  split
  · exact .none
  · exact .some rfl

end Event.Alike

/-- A warning about a load is not like anything but itself. -/
theorem Happening.Alike.eq_of_warns {what what' : Happening} (h : what.Alike what') {id : Nat}
    (hwarns : what.Warns id ∨ what'.Warns id) : what' = what := by
  cases h with
  | same => rfl
  | logs layer config hv =>
    -- the record of a violation is never that of a load
    rcases hwarns with ⟨k, heq⟩ | ⟨k, heq⟩ <;>
      exact absurd (Happening.logs.inj heq).2 (config.record_ne_reloadRecord _ k)
  | _ => rcases hwarns with ⟨k, heq⟩ | ⟨k, heq⟩ <;> cases heq

/-! ### Passages -/

namespace Passage.Alike

variable {p p' : Passage}

/-- Two passages that begin with the same layers. -/
theorem refl (layers : List Layer) : ({ layers } : Passage).Alike { layers } := ⟨rfl, .nil⟩

/-- The parts of the layers are the same. -/
theorem role?_eq (h : p.Alike p') (id : Nat) : p'.role? id = p.role? id := by
  rw [role?, role?, h.layers]

/-- What happens in one is like what happens in the other. -/
theorem note (h : p.Alike p') {what what' : Happening} (hwhat : what.Alike what') :
    (p.note what).Alike (p'.note what') where
  layers := h.layers
  moments := List.rel_append h.moments (.cons ⟨hwhat, congrArg cellsOf h.layers⟩ .nil)

/-- The part of the same layer is changed in the same way. -/
theorem modifyRole (h : p.Alike p') (id : Nat) (f : Role → Role) :
    (p.modifyRole id f).Alike (p'.modifyRole id f) where
  layers := congrArg (List.map _) h.layers
  moments := h.moments

/-- The cell of the same enforcer is changed in the same way. -/
theorem modifyCell (h : p.Alike p') (id : Nat) (f : Cell → Cell) :
    (p.modifyCell id f).Alike (p'.modifyCell id f) := h.modifyRole id _

/-- The same commit is written, with the same warning. -/
theorem commit (h : p.Alike p') (id : Nat) (e : Enforcer) (c : Commit) :
    (p.commit id e c).Alike (p'.commit id e c) := by
  have hwritten := h.modifyCell id fun cell => cell.write c
  unfold Passage.commit
  split
  · cases Enforcer.commitRecord? e.cell.table c with
    | none => exact (hwritten.modifyCell id _).note (.same _)
    | some record => exact ((hwritten.note (.same _)).modifyCell id _).note (.same _)
  · exact h.note (.same _)

/-- Violations that are alike go to the same reporter, and are logged with the same settings. -/
theorem report (h : p.Alike p') (id : Nat) (reporter : Reporter) {v v' : Violation}
    (hv : v.Alike v') : (p.report id reporter v).Alike (p'.report id reporter v') := by
  have htold := h.note (.reports id reporter hv)
  cases reporter with
  | journal config => exact htold.note (.logs id config hv)
  | recorder name => exact htold

/-- Events that are alike pass an enforcer in like ways: it is the header that is judged, so both
are violations or neither is. -/
theorem watch (h : p.Alike p') (id : Nat) (e : Enforcer) {event event' : Event}
    (hevent : event.Alike event') (cookie : Int32) :
    (p.watch id e event cookie).Alike (p'.watch id e event' cookie) := by
  have hlooked := (h.note (.arrives id cookie hevent)).modifyCell id fun cell =>
    (cell.look event.model).2
  unfold Passage.watch
  rw [hevent.model_eq, hevent.status_eq]
  refine (commit ?_ id e _).note (.hands id cookie hevent)
  -- both events are reported or neither is, so one case split does for the two passages
  have hjudge := hevent.judge (e.cell.look event.model).1
  revert hjudge
  generalize Enforcer.judge event _ = v
  generalize Enforcer.judge event' _ = v'
  rintro (hv | _)
  · exact hlooked.report id e.reporter hv
  · exact hlooked

/-- Events that are alike pass a layer in like ways. -/
theorem rise (h : p.Alike p') {event event' : Event} (hevent : event.Alike event')
    (cookie : Int32) (id : Nat) :
    (Passage.rise event cookie p id).Alike (Passage.rise event' cookie p' id) := by
  unfold Passage.rise
  rw [h.role?_eq]
  split
  · exact h.watch id _ hevent cookie
  · exact h

/-- **Events that are alike have like ways up.** By induction on the layers that look at them, each
of which does alike with what is alike. -/
theorem foldl_rise (h : p.Alike p') {event event' : Event} (hevent : event.Alike event')
    (cookie : Int32) (watchers : List Nat) :
    (watchers.foldl (Passage.rise event cookie) p).Alike
      (watchers.foldl (Passage.rise event' cookie) p') := by
  induction watchers generalizing p p' with
  | nil => exact h
  | cons id watchers ih => exact ih (h.rise hevent cookie id)

variable {κ : Type} {request request' : Request κ}

/-- A reply is taken in the same way, and is passed on as the same. -/
theorem settle (h : p.Alike p') (hrequest : request.Alike request') (reply : Reply) (id : Nat) :
    (Passage.settle request (p, reply) id).1.Alike (Passage.settle request' (p', reply) id).1 ∧
      (Passage.settle request' (p', reply) id).2 = (Passage.settle request (p, reply) id).2 := by
  have hreturned := h.note (.returns id reply hrequest.bare)
  unfold Passage.settle
  simp only [h.role?_eq, hrequest.commit?_eq]
  split
  · split
    · exact ⟨hreturned.commit id _ _, rfl⟩
    · exact ⟨hreturned, rfl⟩
  · exact ⟨hreturned, rfl⟩
  · exact ⟨h, rfl⟩

/-- **A reply to calls that are alike has like ways up,** and comes out the same. -/
theorem foldl_settle (h : p.Alike p') (hrequest : request.Alike request') (reply : Reply)
    (ids : List Nat) :
    (ids.foldl (Passage.settle request) (p, reply)).1.Alike
        (ids.foldl (Passage.settle request') (p', reply)).1 ∧
      (ids.foldl (Passage.settle request') (p', reply)).2 =
        (ids.foldl (Passage.settle request) (p, reply)).2 := by
  induction ids generalizing p p' reply with
  | nil => exact ⟨h, rfl⟩
  | cons id ids ih =>
    obtain ⟨hsettled, hreply⟩ := h.settle hrequest reply id
    -- the next layer gets one reply in both passages, whatever it has become on the way
    have hpair : Passage.settle request' (p', reply) id =
        ((Passage.settle request' (p', reply) id).1, (Passage.settle request (p, reply) id).2) :=
      Prod.ext rfl hreply
    rw [List.foldl_cons, List.foldl_cons, hpair]
    exact ih hsettled _

/-- The callers get the same reply. -/
theorem climb (h : p.Alike p') (hrequest : request.Alike request') (reply : Reply)
    (ids : List Nat) : (p.climb request reply ids).Alike (p'.climb request' reply ids) := by
  obtain ⟨harrived, hgiven⟩ := h.foldl_settle hrequest reply ids
  unfold Passage.climb
  dsimp only
  rw [hgiven]
  exact harrived.note (.same _)

end Passage.Alike

/-! ### Calls on their way down -/

namespace Descent.Alike

variable {d d' : Descent}

/-- Calls that are alike come to a layer in like ways. -/
theorem enter (h : d.Alike d') (layer : Layer) : (d.enter layer).Alike (d'.enter layer) := by
  have hentered := h.passage.note (.enters layer.id h.request.bare)
  have hcounted := hentered.modifyRole layer.id Role.countCall
  have hpassed : layer.id :: d'.passed = layer.id :: d.passed := congrArg _ h.passed
  unfold Descent.enter
  rw [h.swallowed]
  split
  · exact h
  · cases layer.role with
    | enforcer e => exact ⟨hentered, h.request.map _, hpassed, rfl⟩
    | relay r =>
      dsimp only
      rw [h.request.swallowed?_eq r]
      cases r.swallowed? d.request with
      | some call => exact ⟨hcounted.note (.same _), h.request, h.passed, rfl⟩
      | none => exact ⟨hcounted, h.request, hpassed, rfl⟩

/-- **Calls that are alike have like ways down.** By induction on the layers, with the likeness of
what has come of the two calls so far as the invariant. -/
theorem foldl_enter (h : d.Alike d') (layers : List Layer) :
    (layers.foldl Descent.enter d).Alike (layers.foldl Descent.enter d') := by
  induction layers generalizing d d' with
  | nil => exact h
  | cons layer layers ih => exact ih (h.enter layer)

end Descent.Alike

/-- **Calls that are alike go down alike,** whatever the layers are. -/
theorem Request.Alike.descend {request request' : Request String} (h : request.Alike request')
    (layers : List Layer) :
    (TriggerWatch.descend layers request).Alike (TriggerWatch.descend layers request') := by
  have hstart : Descent.Alike
      { passage := { layers }, request := request.map fun client => { client } }
      { passage := { layers }, request := request'.map fun client => { client } } :=
    ⟨.refl layers, h.map _, rfl, rfl⟩
  exact hstart.foldl_enter layers

/-! ### Moves -/

namespace Stack.Alike

variable {s s' : Stack}

/-- A stack is like itself. -/
theorem refl (s : Stack) : s.Alike s := by
  refine ⟨rfl, rfl, List.forall₂_same.2 fun frame _ => ?_⟩
  cases frame with
  | call request passed => exact .call passed (.same request)
  | callback client => exact .callback client

/-- The next two stacks, and the moments of the two moves, are alike. -/
def Next (out out' : Stack × List Moment) : Prop :=
  out.1.Alike out'.1 ∧ List.Forall₂ Moment.Alike out.2 out'.2

/-- Where nothing happens in either stack, they stay alike. -/
theorem next_nil (h : s.Alike s') : Next (s, []) (s', []) := ⟨h, .nil⟩

/-- Whether a call is possible is the same for calls that are alike. -/
theorem admits_eq (h : s.Alike s') {request request' : Request String}
    (hrequest : request.Alike request') : s'.admits request' = s.admits request := by
  have hall : ∀ f : Frame → Bool,
      (∀ {frame frame' : Frame}, frame.Alike frame' → f frame' = f frame) →
      ∀ {frames frames' : List Frame}, List.Forall₂ Frame.Alike frames frames' →
        frames'.all f = frames.all f := by
    intro f hf frames frames' hframes
    induction hframes with
    | nil => rfl
    | cons hhead _ ih => rw [List.all_cons, List.all_cons, ih, hf hhead]
  obtain ⟨layers, issued, frames⟩ := s
  obtain ⟨layers', issued', frames'⟩ := s'
  simp only [admits, hrequest.reads_eq]
  cases h.frames with
  | nil => rfl
  | cons hhead htail =>
    cases hhead with
    | call => rfl
    | callback client =>
      -- within a callback, a call must not clash with the calls that are under way further out
      refine hall _ (fun hframe => ?_) (.cons (.callback client) htail)
      cases hframe with
      | call passed hearlier => simp only [hearlier.reads_eq]
      | callback client => rfl

/-- The reactions to calls that are alike. -/
theorem onCall (h : s.Alike s') {request request' : Request String}
    (hrequest : request.Alike request') : Next (s.onCall request) (s'.onCall request') := by
  have hdown := hrequest.descend s.layers
  unfold Stack.onCall
  rw [h.admits_eq hrequest, h.layers]
  split
  · exact h.next_nil
  · dsimp only
    rw [hdown.swallowed, hdown.passed, h.issued, hdown.request.callback?_eq]
    split
    · have hclimbed :=
        hdown.passage.climb hdown.request .done (TriggerWatch.descend s.layers request).passed
      exact ⟨⟨hclimbed.layers, rfl, h.frames⟩, hclimbed.moments⟩
    · have hticketed := hdown.request.map fun _ => s.issued.length
      have hcalled := hdown.passage.note (.calls hticketed)
      exact ⟨⟨hcalled.layers, rfl, .cons (.call _ hticketed) h.frames⟩, hcalled.moments⟩

/-- The reactions to one reply. -/
theorem onReply (h : s.Alike s') (reply : Reply) : Next (s.onReply reply) (s'.onReply reply) := by
  obtain ⟨layers, issued, frames⟩ := s
  obtain ⟨layers', issued', frames'⟩ := s'
  obtain ⟨hlayers, hissued, hframes⟩ := h
  cases hframes with
  | nil => exact next_nil ⟨hlayers, hissued, .nil⟩
  | cons hhead htail =>
    cases hhead with
    | callback client => exact next_nil ⟨hlayers, hissued, .cons (.callback client) htail⟩
    | call passed hrequest =>
      have hclimbed := (Passage.Alike.refl layers).climb hrequest reply passed
      obtain rfl : layers' = layers := hlayers
      simp only [Stack.onReply, hrequest.accepts_eq]
      split
      · exact ⟨⟨hclimbed.layers, hissued, htail⟩, hclimbed.moments⟩
      · exact next_nil ⟨rfl, hissued, .cons (.call passed hrequest) htail⟩

/-- The reactions to events that are alike. -/
theorem onEvent (h : s.Alike s') (ticket : Nat) {event event' : Event}
    (hevent : event.Alike event') (cookie : Int32) :
    Next (s.onEvent ticket event cookie) (s'.onEvent ticket event' cookie) := by
  unfold Stack.onEvent
  rw [h.issued, h.layers]
  split
  · next callback _ =>
    have hrisen := (Passage.Alike.refl s.layers).foldl_rise hevent cookie callback.watchers
    have hnotified := hrisen.note (.notifies callback.client cookie hevent)
    exact ⟨⟨hnotified.layers, rfl, .cons (.callback _) h.frames⟩, hnotified.moments⟩
  · exact h.next_nil

/-- The reactions to a client's return. -/
theorem onFinish (h : s.Alike s') : Next s.onFinish s'.onFinish := by
  obtain ⟨layers, issued, frames⟩ := s
  obtain ⟨layers', issued', frames'⟩ := s'
  obtain ⟨hlayers, hissued, hframes⟩ := h
  cases hframes with
  | nil => exact next_nil ⟨hlayers, hissued, .nil⟩
  | cons hhead htail =>
    cases hhead with
    | call passed hrequest =>
      exact next_nil ⟨hlayers, hissued, .cons (.call passed hrequest) htail⟩
    | callback client => exact next_nil ⟨hlayers, hissued, htail⟩

/-- The reactions to a question about a model.  The answers are the same, since the tables are. -/
theorem onLook (h : s.Alike s') (id : Nat) (k : ModelHandle) :
    Next (s.onLook id k) (s'.onLook id k) := by
  unfold Stack.onLook
  rw [h.layers]
  dsimp only
  split
  · next e _ =>
    have hlooked := ((Passage.Alike.refl s.layers).modifyCell id fun cell => (cell.look k).2).note
      (.same (.looks id k (e.cell.look k).1))
    exact ⟨⟨hlooked.layers, h.issued, h.frames⟩, hlooked.moments⟩
  · exact h.next_nil

/-- **Moves that are alike have the same effect,** but for what makes them different. -/
theorem step (h : s.Alike s') {move move' : Move} (hmove : move.Alike move') :
    Next (s.step move) (s'.step move') := by
  cases hmove with
  | call hrequest => exact h.onCall hrequest
  | event ticket cookie hevent => exact h.onEvent ticket hevent cookie
  | same =>
    cases move with
    | call request => exact h.onCall (.same request)
    | reply reply => exact h.onReply reply
    | event ticket event cookie => exact h.onEvent ticket rfl cookie
    | finish => exact h.onFinish
    | look id k => exact h.onLook id k

/-- **So have runs that are alike.** By induction on the moves, with the likeness of the two stacks
as the invariant. -/
theorem run (h : s.Alike s') {moves moves' : List Move}
    (hmoves : List.Forall₂ Move.Alike moves moves') : Next (s.run moves) (s'.run moves') := by
  induction hmoves generalizing s s' with
  | nil => exact h.next_nil
  | cons hmove _ ih =>
    obtain ⟨hnext, hnow⟩ := h.step hmove
    obtain ⟨hlast, hlater⟩ := ih hnext
    exact ⟨hlast, List.rel_append hnow hlater⟩

end Stack.Alike

/-! ### What two runs show -/

/-- The reply that a caller gets, if one gets a reply. -/
def Happening.answer? : Happening → Option Reply
  | .answers reply => some reply
  | _ => none

/-- The replies that callers get during some moments. -/
def answers (moments : List Moment) : List Reply := moments.filterMap fun m => m.what.answer?

namespace Happening.Alike

variable {what what' : Happening}

/-- Where one caller gets an answer, the other gets the same. -/
theorem answer?_eq (h : what.Alike what') : what'.answer? = what.answer? := by
  cases h with
  | same => rfl
  | logs => simp only [Happening.answer?]
  | _ => rfl

/-- Where one layer reports a violation, the same layer reports one that is alike. -/
theorem violation? (h : what.Alike what') :
    Option.Rel (fun r r' : Nat × Violation => r'.1 = r.1 ∧ r.2.Alike r'.2)
      what.violation? what'.violation? := by
  cases h with
  | reports layer reporter hv => exact .some ⟨rfl, hv⟩
  | same =>
    cases what.violation? with
    | none => exact .none
    | some => exact .some ⟨rfl, rfl⟩
  | _ => exact .none

/-- Where one client gets an event, the same client gets one that is alike, with the same cookie. -/
theorem notice? (h : what.Alike what') :
    Option.Rel (fun n n' : String × Event × Int32 =>
      n'.1 = n.1 ∧ n.2.1.Alike n'.2.1 ∧ n'.2.2 = n.2.2) what.notice? what'.notice? := by
  cases h with
  | notifies client cookie hevent => exact .some ⟨rfl, hevent, rfl⟩
  | same =>
    cases what.notice? with
    | none => exact .none
    | some => exact .some ⟨rfl, rfl, rfl⟩
  | _ => exact .none

end Happening.Alike

namespace Stack

/-- **Generic and phrase models are treated alike.**  In two runs that differ in the models that are
loaded and in what events say beside their headers, the same happens at the same points, and the
cells of all enforcers are the same there.  So are the replies and the warnings about loads.  The
same events are reported by the same layers, as violations that differ in their kind at most.  In
either run that kind is the kind of the event, and each event comes to its client once and as it
is. -/
theorem kinds_alike (plans : List LayerPlan) {moves moves' : List Move}
    (h : List.Forall₂ Move.Alike moves moves') :
    let s := fresh (layersOf plans).1
    let run := s.run moves
    let run' := s.run moves'
    run.1.Alike run'.1 ∧ List.Forall₂ Moment.Alike run.2 run'.2 ∧
    answers run'.2 = answers run.2 ∧
    List.Forall₂ (fun m m' => ∀ id, m.what.Warns id ∨ m'.what.Warns id → m'.what = m.what)
      run.2 run'.2 ∧
    List.Forall₂ (fun r r' => r'.1 = r.1 ∧ r.2.Alike r'.2) (violations run.2) (violations run'.2) ∧
    List.Forall₂ (fun n n' => n'.1 = n.1 ∧ n.2.1.Alike n'.2.1 ∧ n'.2.2 = n.2.2)
      (notices run.2) (notices run'.2) ∧
    ∀ either ∈ [moves, moves'],
      notices (s.run either).2 = s.deliversAll either ∧
      ∀ before move after, either = before ++ move :: after →
        (s.run before).1.ReportsAsSent move := by
  intro s run run'
  obtain ⟨hstack, hmoments⟩ := (Alike.refl s).run h
  have hanswers : List.Forall₂ Eq (answers run.2) (answers run'.2) := by
    refine List.rel_filterMap (fun m m' hm => ?_) hmoments
    rw [hm.what.answer?_eq]
    cases m.what.answer? with
    | none => exact .none
    | some => exact .some rfl
  refine ⟨hstack, hmoments, (List.forall₂_eq_eq_eq ▸ hanswers).symm,
    hmoments.imp fun m m' hm id hwarns => hm.what.eq_of_warns hwarns,
    List.rel_filterMap (fun m m' hm => hm.what.violation?) hmoments,
    List.rel_filterMap (fun m m' hm => hm.what.notice?) hmoments, fun either _ =>
      ⟨notices_run s either, fun before move _ _ => reportsAsSent _ move⟩⟩

/-- A phrase model and an event of its phrase instead of a generic model and a generic event: the
event comes too early in both runs. -/
theorem kinds_alike_before_start :
    let s := fresh (layersOf [.enforcer {}]).1
    let run := s.run [.call (.load (.generic {}) "client" 0), .reply (.handle 1),
      .event 0 (.generic { model := 1 } []) 7]
    let run' := s.run [.call (.load (.phrase {}) "client" 0), .reply (.handle 1),
      .event 0 (.phrase { model := 1 } [] []) 7]
    List.Forall₂ Moment.Alike run.2 run'.2 ∧ answers run'.2 = answers run.2 ∧
      answers run.2 = [.handle 1] ∧
      violations run.2 = [(0, { kind := .recognition, model := 1, observed := some .idle,
                                status := .success })] ∧
      violations run'.2 = [(0, { kind := .phraseRecognition, model := 1, observed := some .idle,
                                 status := .success })] ∧
      notices run'.2 = [("client", .phrase { model := 1 } [] [], 7)] := by
  intro s run run'
  have halike : List.Forall₂ Move.Alike
      [.call (.load (.generic {}) "client" 0), .reply (.handle 1),
        .event 0 (.generic { model := 1 } []) 7]
      [.call (.load (.phrase {}) "client" 0), .reply (.handle 1),
        .event 0 (.phrase { model := 1 } [] []) 7] :=
    .cons (.call (.load _ _ _ _)) (.cons (.same _) (.cons (.event 0 7 rfl) .nil))
  obtain ⟨-, hmoments, hanswers, -, -, -, heither⟩ := kinds_alike [.enforcer {}] halike
  have hnotices := (heither _ (List.mem_cons_of_mem _ List.mem_cons_self)).1
  exact ⟨hmoments, hanswers, by decide, by decide, by decide, hnotices.trans (by decide)⟩

end Stack
end TriggerWatch
