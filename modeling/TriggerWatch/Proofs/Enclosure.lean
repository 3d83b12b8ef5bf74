/-
# Moves within a call or a callback

While a call is under way the implementation may send events, and while a callback is under way the
client may call.  `Stack.Contains` says of some moves that they happen within what is under way when
they begin: none of it ends before they are over, and all that they begin ends.

A callback that is under way is nothing that a stack would take notice of.  So moves within it do
what they would do after it, `Stack.run_finish_comm`.
-/

import TriggerWatch.Stack.Basic

namespace TriggerWatch
namespace Stack

/-- Some frames stay under way during some moves. -/
def Stays (s : Stack) (frames : List Frame) : List Move → Prop
  | [] => frames <:+ s.frames
  | move :: moves => frames <:+ s.frames ∧ (s.step move).1.Stays frames moves

/-- Some moves happen within what is under way when they begin. -/
def Contains (s : Stack) (moves : List Move) : Prop :=
  s.Stays s.frames moves ∧ (s.run moves).1.frames = s.frames

instance decidableStays (frames : List Frame) :
    ∀ (moves : List Move) (s : Stack), Decidable (s.Stays frames moves)
  | [], s => inferInstanceAs (Decidable (frames <:+ s.frames))
  | move :: moves, s =>
    have := decidableStays frames moves (s.step move).1
    inferInstanceAs (Decidable (frames <:+ s.frames ∧ (s.step move).1.Stays frames moves))

instance (s : Stack) (moves : List Move) : Decidable (s.Contains moves) :=
  have := decidableStays s.frames moves s
  inferInstanceAs (Decidable (s.Stays s.frames moves ∧ (s.run moves).1.frames = s.frames))

/-- What is under way further out is still under way at the start of moves that stay within it. -/
theorem Stays.suffix {s : Stack} {frames : List Frame} {moves : List Move}
    (h : s.Stays frames moves) : frames <:+ s.frames := by
  cases moves with
  | nil => exact h
  | cons move moves => exact h.1

/-- Two lists of moves that stay within the same frames do so one after the other. -/
theorem Stays.append {s : Stack} {frames : List Frame} {before after : List Move}
    (hbefore : s.Stays frames before) (hafter : (s.run before).1.Stays frames after) :
    s.Stays frames (before ++ after) := by
  induction before generalizing s with
  | nil => exact hafter
  | cons move moves ih => exact ⟨hbefore.1, ih hbefore.2 hafter⟩

/-- What happens within the same things one after the other happens within them. -/
theorem Contains.append {s : Stack} {before after : List Move} (hbefore : s.Contains before)
    (hafter : (s.run before).1.Contains after) : s.Contains (before ++ after) := by
  obtain ⟨hstays, hframes⟩ := hbefore
  obtain ⟨hstays', hframes'⟩ := hafter
  rw [hframes] at hstays' hframes'
  exact ⟨hstays.append hstays', by rw [run_append]; exact hframes'⟩

/-! ### What is under way after a move -/

/-- A reply that is accepted ends the innermost call, and nothing else. -/
theorem frames_reply {s : Stack} {request : Request Nat} {passed : List Nat} {frames : List Frame}
    (hframes : s.frames = .call request passed :: frames) {reply : Reply}
    (haccepts : request.accepts reply = true) : (s.step (.reply reply)).1.frames = frames := by
  simp [step, onReply, hframes, haccepts]

/-- An event through a callback that was issued puts the client's callback on top. -/
theorem frames_event {s : Stack} {ticket : Nat} {callback : Callback}
    (hcallback : s.issued[ticket]? = some callback) (event : Event) (cookie : Int32) :
    (s.step (.event ticket event cookie)).1.frames = .callback callback.client :: s.frames := by
  simp [step, onEvent, hcallback]

/-- The client's return takes its callback away, and nothing else happens. -/
theorem step_finish {s : Stack} {client : String} {frames : List Frame}
    (hframes : s.frames = .callback client :: frames) :
    s.step .finish = ({ s with frames }, []) := by
  simp [step, onFinish, hframes]

/-! ### A callback under way -/

variable {s : Stack} {inner outer : List Frame} {client : String}

/-- A stack is not busy when no call is among the things under way. -/
theorem not_busy_iff : s.busy = false ↔ ∀ request passed, .call request passed ∉ s.frames := by
  simp only [busy, List.any_eq_false]
  constructor
  · intro h request passed hmem
    exact absurd rfl (h _ hmem)
  · rintro h (⟨request, passed⟩ | client) hmem
    · exact absurd hmem (h request passed)
    · simp

/-- A client may call if no call is under way. -/
theorem admits_of_not_busy (h : s.busy = false) (request : Request String) :
    s.admits request = true := by
  have hcalls := not_busy_iff.1 h
  unfold admits
  split
  · next given passed frames hframes =>
    exact absurd (hframes ▸ List.mem_cons_self) (hcalls given passed)
  · refine List.all_eq_true.2 fun frame hframe => ?_
    cases frame with
    | call given passed => exact absurd hframe (hcalls given passed)
    | callback client => rfl

/-- The same stack with other things under way. -/
def withFrames (s : Stack) (frames : List Frame) : Stack := { s with frames }

/-- A callback under way, with no call around it, keeps nobody from calling. -/
theorem admits_past_callback (houter : ∀ request passed, .call request passed ∉ outer)
    (request : Request String) :
    (s.withFrames (inner ++ .callback client :: outer)).admits request =
      (s.withFrames (inner ++ outer)).admits request := by
  cases inner with
  | nil =>
    cases outer with
    | nil => rfl
    | cons frame outer =>
      cases frame with
      | call earlier passed => exact absurd List.mem_cons_self (houter earlier passed)
      | callback client' => simp [admits, withFrames]
  | cons frame inner =>
    cases frame with
    | call earlier passed => rfl
    | callback client' => simp [admits, withFrames]

/-- Two outcomes are the same, but for a callback that is still under way in the first of them, with
`outer` further out. -/
def SameButCallback (client : String) (outer : List Frame)
    (within without : Stack × List Moment) : Prop :=
  ∃ (inner : List Frame) (after : Stack) (moments : List Moment),
    within = (after.withFrames (inner ++ .callback client :: outer), moments) ∧
    without = (after.withFrames (inner ++ outer), moments)

/-- A call does the same within a callback as without it: it is admitted in both cases or in none,
and its way down does not depend on what is under way. -/
theorem call_past_callback (houter : ∀ request passed, .call request passed ∉ outer)
    (request : Request String) :
    SameButCallback client outer
      ((s.withFrames (inner ++ .callback client :: outer)).step (.call request))
      ((s.withFrames (inner ++ outer)).step (.call request)) := by
  have hadmits : (s.withFrames (inner ++ .callback client :: outer)).admits request =
      (s.withFrames (inner ++ outer)).admits request := admits_past_callback houter request
  cases hcan : (s.withFrames (inner ++ outer)).admits request with
  | false =>
    exact ⟨inner, s, [], by simp [step, onCall, hadmits, hcan], by simp [step, onCall, hcan]⟩
  | true =>
    rw [hcan] at hadmits
    simp only [step, onCall, hcan, hadmits, Bool.not_true, Bool.false_eq_true, if_false]
    cases hswallowed : (descend s.layers request).swallowed with
    | false =>
      simp only [withFrames, hswallowed, Bool.false_eq_true, if_false]
      exact ⟨.call _ _ :: inner, { s with layers := _, issued := _ }, _, rfl, rfl⟩
    | true =>
      simp only [withFrames, hswallowed, if_true]
      exact ⟨inner, { s with layers := _ }, _, rfl, rfl⟩

/-- A reply does the same within a callback as without it. -/
theorem reply_past_callback (houter : ∀ request passed, .call request passed ∉ outer)
    (reply : Reply) :
    SameButCallback client outer
      ((s.withFrames (inner ++ .callback client :: outer)).step (.reply reply))
      ((s.withFrames (inner ++ outer)).step (.reply reply)) := by
  cases inner with
  | nil =>
    -- No call has begun within the callback, and none is under way further out, so with or without
    -- the callback there is nothing to reply to.
    have hnone : (s.withFrames outer).step (.reply reply) = (s.withFrames outer, []) := by
      cases outer with
      | nil => rfl
      | cons frame outer =>
        cases frame with
        | call earlier passed => exact absurd List.mem_cons_self (houter earlier passed)
        | callback client' => rfl
    exact ⟨[], s, [], rfl, hnone⟩
  | cons frame inner =>
    cases frame with
    | call earlier passed =>
      cases haccepts : earlier.accepts reply with
      | false =>
        exact ⟨.call earlier passed :: inner, s, [],
          by simp [step, onReply, withFrames, haccepts],
          by simp [step, onReply, withFrames, haccepts]⟩
      | true =>
        simp only [step, onReply, withFrames, List.cons_append, haccepts, if_true]
        exact ⟨inner, { s with layers := _ }, _, rfl, rfl⟩
    | callback client' => exact ⟨.callback client' :: inner, s, [], rfl, rfl⟩

/-- An event does the same within a callback as without it. -/
theorem event_past_callback (ticket : Nat) (event : Event) (cookie : Int32) :
    SameButCallback client outer
      ((s.withFrames (inner ++ .callback client :: outer)).step (.event ticket event cookie))
      ((s.withFrames (inner ++ outer)).step (.event ticket event cookie)) := by
  cases hcallback : s.issued[ticket]? with
  | none =>
    exact ⟨inner, s, [], by simp [step, onEvent, withFrames, hcallback],
      by simp [step, onEvent, withFrames, hcallback]⟩
  | some callback =>
    simp only [step, onEvent, withFrames, hcallback]
    exact ⟨.callback callback.client :: inner, { s with layers := _ }, _, rfl, rfl⟩

/-- **A move that does not end a callback does the same within it as without it.** -/
theorem step_past_callback (houter : ∀ request passed, .call request passed ∉ outer) (move : Move)
    (h : .callback client :: outer <:+
      ((s.withFrames (inner ++ .callback client :: outer)).step move).1.frames) :
    SameButCallback client outer ((s.withFrames (inner ++ .callback client :: outer)).step move)
      ((s.withFrames (inner ++ outer)).step move) := by
  cases move with
  | call request => exact call_past_callback houter request
  | reply reply => exact reply_past_callback houter reply
  | event ticket event cookie => exact event_past_callback ticket event cookie
  | finish =>
    cases inner with
    | nil =>
      -- This would be the return from the callback itself, which then is under way no more.
      have hshort := h.length_le
      simp only [step, onFinish, withFrames, List.nil_append, List.length_cons] at hshort
      omega
    | cons frame inner =>
      cases frame with
      | call earlier passed => exact ⟨.call earlier passed :: inner, s, [], rfl, rfl⟩
      | callback client' => exact ⟨inner, s, [], rfl, rfl⟩
  | look id model =>
    simp only [step, onLook, withFrames]
    cases ({ layers := s.layers } : Passage).role? id with
    | none => exact ⟨inner, s, [], rfl, rfl⟩
    | some role =>
      cases role with
      | relay r => exact ⟨inner, s, [], rfl, rfl⟩
      | enforcer e => exact ⟨inner, { s with layers := _ }, _, rfl, rfl⟩

/-- Moves within a callback do the same without it.  By induction on the moves: what is under way
within the callback may change from one to the next, but the callback stays. -/
theorem run_past_callback (inner : List Frame)
    (houter : ∀ request passed, .call request passed ∉ outer) {moves : List Move}
    (h : (s.withFrames (inner ++ .callback client :: outer)).Stays (.callback client :: outer)
      moves) :
    SameButCallback client outer ((s.withFrames (inner ++ .callback client :: outer)).run moves)
      ((s.withFrames (inner ++ outer)).run moves) := by
  induction moves generalizing s inner with
  | nil => exact ⟨inner, s, [], rfl, rfl⟩
  | cons move moves ih =>
    obtain ⟨inner₁, s₁, now, hwith, hwithout⟩ := step_past_callback houter move h.2.suffix
    have hrest := h.2
    rw [hwith] at hrest
    obtain ⟨inner₂, s₂, later, hwith', hwithout'⟩ := ih inner₁ hrest
    exact ⟨inner₂, s₂, now ++ later, by rw [run_cons, hwith, hwith'],
      by rw [run_cons, hwithout, hwithout']⟩

/-- **What is done within a callback may as well be done after it,** if no call is under way around
it.  The stack is the same afterwards, and so is all that has happened. -/
theorem run_finish_comm (hbusy : s.busy = false) {session : List Move}
    (h : (s.withFrames (.callback client :: s.frames)).Contains session) :
    (s.withFrames (.callback client :: s.frames)).run (session ++ [.finish]) =
      (s.withFrames (.callback client :: s.frames)).run (.finish :: session) := by
  obtain ⟨inner, after, moments, hwith, hwithout⟩ :=
    run_past_callback [] (not_busy_iff.1 hbusy) h.1
  have hframes := h.2
  simp only [List.nil_append] at hwith hwithout
  rw [hwith] at hframes
  obtain rfl : inner = [] := List.append_left_eq_self.1 hframes
  have hwithin : (s.withFrames (.callback client :: s.frames)).run (session ++ [.finish]) =
      (after.withFrames s.frames, moments) := by
    rw [run_append, hwith]
    simp [run_cons, step, onFinish, withFrames]
  have hafter : (s.withFrames (.callback client :: s.frames)).run (.finish :: session) =
      (after.withFrames s.frames, moments) := by
    have hfinish : (s.withFrames (.callback client :: s.frames)).step .finish =
        (s.withFrames s.frames, []) := rfl
    rw [run_cons, hfinish, hwithout]
    rfl
  rw [hwithin, hafter]

end Stack
end TriggerWatch
