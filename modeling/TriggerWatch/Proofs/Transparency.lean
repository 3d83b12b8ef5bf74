/-
# An enforcer is not noticed

A client and an implementation that cannot look into the layers between them behave as if an
enforcer were not there.  `World` is any such pair: what it does next depends on all moves so far
and on what came out of the stack at each of them, that is, on the calls that arrived below, the
answers that the caller got, and the events that the clients got.  What a client or an
implementation knows is part of that, and other layers of any kind can be counted among them.

`World.play_without_enforcer` says that such a world plays the same game on a stack with an enforcer
and on the same stack without it.  The comparison goes through `Stack.thin`, which takes a layer out
of a stack in the middle of a run: one move of the full stack, thinned out, is the same move of the
thin one (`Stack.step_thin`), and so a whole game is (`World.play_thin`).

Nothing is assumed of a world but that it does not ask the enforcers what they know.
`World.restarting` is one of the awkward ones, with events from within calls and with calls from
within callbacks.
-/

import TriggerWatch.Proofs.Chronicle
import TriggerWatch.Proofs.Thinning

namespace TriggerWatch

/-- What comes out of a stack during some moments. -/
def outward (moments : List Moment) : List Happening :=
  (moments.map Moment.what).filter fun what => what.layer? = none

/-- The moves of a game, each with what came out of the stack. -/
abbrev Transcript := List (Move × List Happening)

/-- A client and an implementation. -/
structure World where
  /-- What they do next. -/
  next : Transcript → Move
  /-- They do not ask enforcers for the states of models. -/
  next_ne_look : ∀ seen id h, next seen ≠ .look id h

/-- A game in progress. -/
structure Game where
  stack : Stack
  seen : Transcript := []
  moments : List Moment := []

/-- So many moves of a world on a stack. -/
def World.play (world : World) (s : Stack) : Nat → Game
  | 0 => { stack := s }
  | n + 1 =>
    let game := world.play s n
    let move := world.next game.seen
    let out := game.stack.step move
    { stack := out.1
      seen := game.seen ++ [(move, outward out.2)]
      moments := game.moments ++ out.2 }

/-- What is left of a game. -/
def Game.thin (r : Thinning) (game : Game) : Game where
  stack := game.stack.thin r
  seen := game.seen
  moments := game.moments.filterMap (Moment.thin r)

/-! ### The stack without one of its enforcers -/

/-- The layers below the one that is dropped keep their numbers. -/
theorem filterMap_thin_of_lt {k : Nat} {layers : List Layer} (h : ∀ layer ∈ layers, layer.id < k) :
    layers.filterMap (Layer.thin (.dropping k)) = layers := by
  induction layers with
  | nil => rfl
  | cons layer layers ih =>
    have hhead : layer.thin (.dropping k) = some layer := by
      simp [Layer.thin, Thinning.dropping, h layer List.mem_cons_self]
    rw [List.filterMap_cons_some hhead, ih fun l hl => h l (List.mem_cons_of_mem _ hl)]

/-- A fresh stack without one of its enforcers is the stack that would have been put together
without it. -/
theorem layersOf_thin (outer : List LayerPlan) (plan : EnforcerPlan) (inner : List LayerPlan) :
    (layersOf (outer ++ .enforcer plan :: inner)).1.filterMap
      (Layer.thin (.dropping inner.length)) = (layersOf (outer ++ inner)).1 := by
  induction outer with
  | nil =>
    rw [List.nil_append, List.nil_append, layersOf_cons, List.filterMap_cons_none,
      filterMap_thin_of_lt fun layer hlayer => lt_of_mem_layersOf hlayer]
    simp [Layer.thin, Thinning.dropping]
  | cons other outer ih =>
    have hplace : (Thinning.dropping inner.length).place (outer.length + (inner.length + 1)) =
        some (outer.length + inner.length) := by
      have hlt : ¬ outer.length + (inner.length + 1) < inner.length := by omega
      have hne : outer.length + (inner.length + 1) ≠ inner.length := by omega
      simp only [Thinning.dropping, hlt, hne, if_false]
      rfl
    rw [List.cons_append, List.cons_append, layersOf_cons, layersOf_cons, List.filterMap_cons_some,
      ih]
    simp [Layer.thin, hplace]

/-- Only an enforcer is dropped, since no other layer has its number. -/
theorem spares_dropping (outer : List LayerPlan) (plan : EnforcerPlan) (inner : List LayerPlan) :
    (Thinning.dropping inner.length).Spares (layersOf (outer ++ .enforcer plan :: inner)).1 := by
  intro id hid
  have hk : id = inner.length := by
    simp only [Thinning.dropping] at hid
    split at hid
    · cases hid
    · split at hid
      · assumption
      · cases hid
  exact hk ▸ (Stack.has_fresh outer plan inner).alone

/-! ### What comes out -/

/-- What is taken out has never come out of the stack. -/
theorem Happening.filter_thin (r : Thinning) (what : Happening) :
    (what.thin r).filter (fun what => what.layer? = none) =
      (some what).filter fun what => what.layer? = none := by
  cases what with
  | calls | notifies | answers => rfl
  | enters id | swallows id | returns id | arrives id | reports id | logs id | commits id
  | hands id | looks id =>
    simp only [Happening.thin]
    cases r.place id <;> rfl

/-- What comes out at a moment comes out before all that follows. -/
theorem outward_cons (m : Moment) (moments : List Moment) :
    outward (m :: moments) =
      ((some m.what).filter fun what => what.layer? = none).toList ++ outward moments := by
  by_cases h : m.what.layer? = none <;> simp [outward, Option.filter, h]

/-- What comes out during two stretches, one after the other. -/
theorem outward_append (ms ns : List Moment) : outward (ms ++ ns) = outward ms ++ outward ns := by
  simp [outward]

/-- **What comes out does not depend on the layers that are gone.** Calls that arrive below, events
that clients get and answers of the caller happen at no layer. -/
theorem outward_thin (r : Thinning) (moments : List Moment) :
    outward (moments.filterMap (Moment.thin r)) = outward moments := by
  induction moments with
  | nil => rfl
  | cons m moments ih =>
    rw [outward_cons, ← Happening.filter_thin r]
    cases hw : m.what.thin r with
    | none => rw [List.filterMap_cons_none (by simp [Moment.thin, hw]), ih]; rfl
    | some what =>
      rw [List.filterMap_cons_some (by simp [Moment.thin, hw]; rfl), outward_cons, ih]

/-- Takes out all layers. -/
def Thinning.emptying : Thinning where
  place _ := none
  inj h := nomatch h

/-- **An event comes out once and as it is,** at the client whose callback it was sent through. -/
theorem outward_event (s : Stack) (ticket : Nat) (event : Event) (cookie : Int32) :
    outward (s.step (.event ticket event cookie)).2 =
      (s.issued[ticket]?.map fun callback =>
        Happening.notifies callback.client event cookie).toList := by
  simp only [Stack.step, Stack.onEvent]
  cases s.issued[ticket]? with
  | none => rfl
  | some callback =>
    have hrisen : outward (callback.watchers.foldl (Passage.rise event cookie)
        { layers := s.layers }).moments = [] := by
      have hgone := Passage.thin_foldl_rise (r := .emptying) event cookie callback.watchers
        { layers := s.layers }
      have hwatchers : callback.watchers.filterMap Thinning.emptying.place = [] :=
        List.filterMap_eq_nil_iff.2 fun _ _ => rfl
      rw [hwatchers] at hgone
      rw [← outward_thin .emptying]
      exact congrArg (fun p : Passage => outward p.moments) hgone
    simp only [Passage.note, outward_append, hrisen]
    rfl

/-- **The caller gets the reply as it is,** if all layers are enforcers. -/
theorem outward_reply {s : Stack} (h : ∀ id, (id, false) ∉ kindsOf s.layers) {request : Request Nat}
    {passed : List Nat} {frames : List Frame} (hframes : s.frames = .call request passed :: frames)
    {reply : Reply} (haccepts : request.accepts reply = true) :
    outward (s.step (.reply reply)).2 = [.answers reply] := by
  have hgone := Passage.thin_climb (r := .emptying) (p := { layers := s.layers }) request reply
    passed fun id _ => h id
  have hpassed : passed.filterMap Thinning.emptying.place = [] :=
    List.filterMap_eq_nil_iff.2 fun _ _ => rfl
  rw [hpassed] at hgone
  simp only [Stack.step, Stack.onReply, hframes, haccepts, if_true]
  rw [← outward_thin .emptying]
  exact congrArg (fun p : Passage => outward p.moments) hgone

/-! ### Games -/

/-- The kinds of the layers are the same after a game. -/
theorem World.kindsOf_play (world : World) (s : Stack) (n : Nat) :
    kindsOf (world.play s n).stack.layers = kindsOf s.layers := by
  induction n with
  | zero => rfl
  | succ n ih => exact (Stack.kindsOf_step _ _).trans ih

/-- **To take enforcers out before a game or after it is the same.** -/
theorem World.play_thin {r : Thinning} (world : World) {s : Stack} (h : r.Spares s.layers)
    (n : Nat) : world.play (s.thin r) n = (world.play s n).thin r := by
  induction n with
  | zero => rfl
  | succ n ih =>
    have hspares : r.Spares (world.play s n).stack.layers := by
      rw [Thinning.Spares, kindsOf_play]
      exact h
    have hstep := Stack.step_thin hspares (world.next_ne_look (world.play s n).seen)
    simp only [play, ih]
    simp [Game.thin, hstep, outward_thin]

/-- **An enforcer is not noticed.** Whatever the client and the implementation do, and wherever
among other layers the enforcer is, they see the same calls, answers and events as without it.  The
moments are the same too, but for those of the enforcer, and so is the state of every other layer.
An event that comes up to the client comes once, and as it is. -/
theorem World.play_without_enforcer (world : World) (outer : List LayerPlan) (plan : EnforcerPlan)
    (inner : List LayerPlan) (n : Nat) :
    let watched := world.play (Stack.fresh (layersOf (outer ++ .enforcer plan :: inner)).1) n
    let plain := world.play (Stack.fresh (layersOf (outer ++ inner)).1) n
    plain.seen = watched.seen ∧
    plain.moments = watched.moments.filterMap (Moment.thin (.dropping inner.length)) ∧
    plain.stack = watched.stack.thin (.dropping inner.length) ∧
    ∀ ticket event cookie, outward (watched.stack.step (.event ticket event cookie)).2 =
      (watched.stack.issued[ticket]?.map fun callback =>
        Happening.notifies callback.client event cookie).toList := by
  intro watched plain
  have hfresh : Stack.fresh (layersOf (outer ++ inner)).1 =
      (Stack.fresh (layersOf (outer ++ .enforcer plan :: inner)).1).thin
        (.dropping inner.length) := by
    rw [Stack.fresh, ← layersOf_thin outer plan inner]
    rfl
  have hplain : plain = watched.thin (.dropping inner.length) := by
    simp only [plain, hfresh]
    exact world.play_thin (spares_dropping outer plan inner) n
  rw [hplain]
  exact ⟨rfl, rfl, rfl, outward_event watched.stack⟩

/-- A client that starts what it has loaded, and starts it again from inside the callback that a
recognition comes to.  Below it an implementation that sends an event from within each start, and
the recognition itself after the first.  Either of them acts on what came out of the stack last. -/
def World.restarting : World where
  next seen :=
    match seen.getLast? with
    | none => .call (.load (.generic {}) "client" 7)
    | some (_, [.calls (.load _ _ _)]) => .reply (.handle 1)
    | some (_, [.answers (.handle h)]) => .call (.start h {} "client" 7)
    | some (_, [.calls (.start h _ ticket cookie)]) =>
      .event ticket (.generic { model := h, status := .forced } []) cookie
    | some (_, [.notifies client event cookie]) =>
      if event.status.isForced then .finish else .call (.start event.model {} client cookie)
    | some (.finish, _) => .reply .done
    | some (_, _) => .event 1 (.generic { model := 1 } []) 7
  next_ne_look seen id h := by
    split
    case h_5 => split <;> exact Move.noConfusion
    all_goals exact Move.noConfusion

/-- The enforcer between a relay and another enforcer is not noticed by a client that starts a model
again from inside a callback, nor by an implementation that sends events from within the starts.
What it reports about them is gone with it, and that is all. -/
theorem World.play_without_enforcer_restarting :
    let outer : List LayerPlan := [.relay { tag := "relay" }]
    let plan : EnforcerPlan := { recorder := some "recorder" }
    let inner : List LayerPlan := [.enforcer {}]
    let watched := restarting.play (Stack.fresh (layersOf (outer ++ .enforcer plan :: inner)).1) 11
    let plain := restarting.play (Stack.fresh (layersOf (outer ++ inner)).1) 11
    let loads : Request Nat := .load (.generic {}) 0 7
    let forced : Event := .generic { model := 1, status := .forced } []
    let success : Event := .generic { model := 1 } []
    let early : Violation :=
      { kind := .recognition, model := 1, observed := some .idle, status := .forced }
    plain.seen = watched.seen ∧
    plain.moments = watched.moments.filterMap (Moment.thin (.dropping 1)) ∧
    plain.stack = watched.stack.thin (.dropping 1) ∧
    plain.seen =
      [(.call (.load (.generic {}) "client" 7), [.calls loads]),
        (.reply (.handle 1), [.answers (.handle 1)]),
        (.call (.start 1 {} "client" 7), [.calls (.start 1 {} 1 7)]),
        (.event 1 forced 7, [.notifies "client" forced 7]), (.finish, []),
        (.reply .done, [.answers .done]),
        (.event 1 success 7, [.notifies "client" success 7]),
        (.call (.start 1 {} "client" 7), [.calls (.start 1 {} 2 7)]),
        (.event 2 forced 7, [.notifies "client" forced 7]), (.finish, []),
        (.reply .done, [.answers .done])] ∧
    (watched.moments.filter fun m =>
      m.what = .reports 1 (.recorder "recorder") early).length = 2 := by
  intro outer plan inner watched plain loads forced success early
  obtain ⟨hseen, hmoments, hstack, -⟩ := restarting.play_without_enforcer outer plan inner 11
  exact ⟨hseen, hmoments, hstack, by decide, by decide⟩

end TriggerWatch
