/-
# A relay that keeps calls to itself

Between two enforcers there may be layers that answer some calls without passing them on.  As long
as they pass all starts on, the inner enforcer misses only calls that withdraw something: unloads
and stops.  So its table may say more than that of the outer one, but never less.

`ModelTable.Covers` is the invariant, `Commit.effect_over` and `Commit.Withdraws.over` say that
commits keep it, and `Stack.Covered.covers_of_step` carries it through a move, in which the inner
enforcer commits first.  That gives `Stack.inner_covers_outer`: the inner table covers the outer one
whenever no commit is on its way from one to the other, and what the inner enforcer reports, the
outer one reports as well.
-/

import TriggerWatch.Proofs.Instant

namespace TriggerWatch

open scoped List

/-! ### What a table says at least -/

/-- A state says at least as much as another: that the model is tracked, or even armed. -/
def Over (a b : Option ModelState) : Prop :=
  (b ≠ none → a ≠ none) ∧ (b = some .armed → a = some .armed)

/-- A table has every model that another one has, and those that are armed there are armed. -/
def ModelTable.Covers (t u : ModelTable) : Prop := ∀ h, Over (t.get? h) (u.get? h)

/-- A state says as much as itself. -/
theorem Over.refl (a : Option ModelState) : Over a a := ⟨id, id⟩

/-- If both states are replaced, and neither where there is none, one still says at least as much as
the other. -/
theorem Over.map {a b : Option ModelState} (h : Over a b) (state : ModelState) :
    Over (a.map fun _ => state) (b.map fun _ => state) := by
  rcases a with _ | a <;> rcases b with _ | b
  · exact .refl _
  · exact absurd rfl (h.1 (Option.some_ne_none b))
  · exact ⟨fun hb => absurd rfl hb, nofun⟩
  · exact .refl _

/-- **What commits on both sides keep.** The same commit on both sides either overwrites both states
or leaves both alone. -/
theorem Commit.effect_over (c : Commit) (k : ModelHandle) {a b : Option ModelState}
    (h : Over a b) : Over (c.effect k a) (c.effect k b) := by
  cases c with
  | stoppedAll => exact h.map .idle
  | loaded | unloaded =>
    simp only [effect]
    split
    · exact .refl _
    · exact h
  | started | stopped | event =>
    simp only [effect]
    split
    · exact h.map _
    · exact h

/-- A commit takes something away from a table, if it changes it. -/
def Commit.Withdraws : Commit → Prop
  | .unloaded _ | .stopped _ | .stoppedAll => True
  | .loaded _ | .started _ | .event _ _ => False

/-- **What commits on one side keep,** if they take something away. -/
theorem Commit.Withdraws.over {c : Commit} (hc : c.Withdraws) (k : ModelHandle)
    {a b : Option ModelState} (h : Over a b) : Over a (c.effect k b) := by
  have hidle : Over a (b.map fun _ => .idle) := by
    refine ⟨fun hb => h.1 fun hnone => hb (by rw [hnone]; rfl), fun harmed => ?_⟩
    cases b <;> cases harmed
  cases c with
  | unloaded =>
    simp only [effect]
    split
    · exact ⟨fun hnone => absurd rfl hnone, fun harmed => by cases harmed⟩
    · exact h
  | stopped =>
    simp only [effect]
    split
    · exact hidle
    · exact h
  | stoppedAll => exact hidle
  | loaded | started | event => exact hc.elim

/-- A commit that is written to both tables keeps the cover. -/
theorem ModelTable.Covers.commit {t u : ModelTable} (h : t.Covers u) (c : Commit) :
    (t.commit c).Covers (u.commit c) := by
  intro k
  rw [get?_commit, get?_commit]
  exact c.effect_over k (h k)

/-- A commit that only takes away keeps the cover if it misses the inner table. -/
theorem ModelTable.Covers.withdraw {t u : ModelTable} (h : t.Covers u) {c : Commit}
    (hc : c.Withdraws) : t.Covers (u.commit c) := by
  intro k
  rw [get?_commit]
  exact hc.over k (h k)

/-! ### Layers between two enforcers -/

/-- A part that never answers a start by itself. -/
def Role.PassesStarts : Role → Prop
  | .enforcer _ => True
  | .relay r => ∀ seen, r.swallows seen .start = false

/-- A plan of a layer that never answers a start by itself. -/
def LayerPlan.PassesStarts (plan : LayerPlan) : Prop := plan.role.PassesStarts

/-- Whether a part passes starts on is a matter of its plan. -/
theorem lasting_passesStarts : Lasting Role.PassesStarts :=
  ⟨fun _ _ => rfl, fun role => by cases role <;> rfl⟩

/-- Two layers, the first further out, and between them none that answers a start by itself. -/
def Spans (layers : List Layer) (lower upper : Nat) : Prop :=
  ∃ above outer between inner below,
    layers = above ++ outer :: (between ++ inner :: below) ∧ outer.id = upper ∧ inner.id = lower ∧
      ∀ layer ∈ between, layer.role.PassesStarts

/-- Layers lie in the same way if their numbers, and what they do about starts, are the same. -/
theorem spans_congr {layers layers' : List Layer} {lower upper : Nat}
    (hview : viewOf Role.PassesStarts layers' = viewOf Role.PassesStarts layers)
    (h : Spans layers lower upper) : Spans layers' lower upper := by
  obtain ⟨above, outer, between, inner, below, rfl, rfl, rfl, hpass⟩ := h
  simp only [viewOf, List.map_append, List.map_cons] at hview
  obtain ⟨above', rest, rfl, -, hrest⟩ := List.map_eq_append_iff.1 hview
  obtain ⟨outer', rest, rfl, houter, hrest⟩ := List.map_eq_cons_iff.1 hrest
  obtain ⟨between', rest, rfl, hbetween, hrest⟩ := List.map_eq_append_iff.1 hrest
  obtain ⟨inner', below', rfl, hinner, -⟩ := List.map_eq_cons_iff.1 hrest
  refine ⟨above', outer', between', inner', below', rfl, (Prod.mk.inj houter).1,
    (Prod.mk.inj hinner).1, fun layer hlayer => ?_⟩
  have hmem : (layer.id, layer.role.PassesStarts) ∈
      between.map fun layer => (layer.id, layer.role.PassesStarts) :=
    hbetween ▸ List.mem_map_of_mem hlayer
  obtain ⟨before, hbefore, heq⟩ := List.mem_map.1 hmem
  exact (Prod.mk.inj heq).2 ▸ hpass before hbefore

/-- The outer layer comes before the inner one. -/
theorem Spans.exists_sublist {layers : List Layer} {lower upper : Nat}
    (h : Spans layers lower upper) :
    ∃ outer inner : Layer, outer.id = upper ∧ inner.id = lower ∧ [outer, inner] <+ layers := by
  obtain ⟨above, outer, between, inner, below, rfl, houter, hinner, -⟩ := h
  refine ⟨outer, inner, houter, hinner, List.cons_sublist_iff.2
    ⟨above ++ [outer], between ++ inner :: below, by simp, by simp, ?_⟩⟩
  exact List.singleton_sublist.2 (by simp)

/-- The layers of some plans lie as the plans do. -/
theorem spans_layersOf (above : List LayerPlan) (outer : EnforcerPlan) (between : List LayerPlan)
    (inner : EnforcerPlan) (below : List LayerPlan)
    (hbetween : ∀ plan ∈ between, plan.PassesStarts) :
    let innerPlans := .enforcer inner :: below
    Spans (layersOf (above ++ .enforcer outer :: (between ++ innerPlans))).1 below.length
      (between ++ innerPlans).length := by
  intro innerPlans
  obtain ⟨top, habove, -⟩ :=
    exists_layersOf_append above (.enforcer outer :: (between ++ innerPlans))
  obtain ⟨middle, hlayers, hroles⟩ := exists_layersOf_append between innerPlans
  have hlength : middle.length = between.length := by simpa using congrArg List.length hroles
  rw [habove, layersOf_cons, hlayers, layersOf_cons]
  refine ⟨top, _, middle, _, _, rfl, by simp [hlength, innerPlans], by simp,
    fun layer hlayer => ?_⟩
  have hrole : layer.role ∈ between.map LayerPlan.role := hroles ▸ List.mem_map_of_mem hlayer
  obtain ⟨plan, hplan, heq⟩ := List.mem_map.1 hrole
  exact heq ▸ hbetween plan hplan

/-- The outer layer comes first. -/
theorem Spans.sublist {layers : List Layer} {lower upper : Nat} (h : Spans layers lower upper) :
    [upper, lower] <+ layers.map Layer.id := by
  obtain ⟨outer, inner, rfl, rfl, hpair⟩ := h.exists_sublist
  exact hpair.map Layer.id

/-- An event that comes to both of two enforcers comes to the inner one first. -/
theorem Spans.sublist_enforcersOf {layers : List Layer} {lower upper : Nat}
    (h : Spans layers lower upper) (hnodup : (layers.map Layer.id).Nodup)
    (hlower : lower ∈ enforcersOf layers) (hupper : upper ∈ enforcersOf layers) :
    [lower, upper] <+ enforcersOf layers := by
  obtain ⟨outer, inner, rfl, rfl, hpair⟩ := h.exists_sublist
  have henforces : ∀ layer ∈ layers, layer.id ∈ enforcersOf layers →
      layer.role.isEnforcer = true := by
    intro layer hlayer hmem
    obtain ⟨other, hother, heq⟩ := List.mem_map.1 (mem_enforcersOf.1 hmem)
    obtain ⟨hid, hkind⟩ := Prod.mk.inj heq
    have hsame := roleAt?_of_mem hnodup hlayer
    rw [← hid, roleAt?_of_mem hnodup hother] at hsame
    rw [← Option.some.inj hsame, hkind]
  have houter := henforces outer (hpair.subset (by simp)) hupper
  have hinner := henforces inner (hpair.subset (by simp)) hlower
  have hkinds := ((hpair.map fun layer => (layer.id, layer.role.isEnforcer)).filter Prod.snd).map
    Prod.fst
  have hreversed := hkinds.reverse
  simp only [List.map_cons, List.map_nil, houter, hinner, List.filter_cons_of_pos,
    List.filter_nil, List.reverse_cons, List.reverse_nil, List.nil_append,
    List.singleton_append] at hreversed
  exact hreversed

/-- What a relay answers by itself, other than a start, is a call that withdraws something. -/
theorem Relay.withdraws_of_swallowed {κ : Type} {r : Relay} {request : Request κ}
    {call : Swallowable} (hpass : ∀ seen, r.swallows seen .start = false)
    (h : r.swallowed? request = some call) : ∀ c ∈ request.commit? .done, c.Withdraws := by
  cases request with
  | start => simp [swallowed?, Request.swallowable?, Option.filter, hpass] at h
  | unload | stop | stopAll =>
    intro c hc
    cases hc
    trivial
  | _ => exact fun c hc => nomatch hc

/-- **A call that comes past the outer enforcer and not past the inner one** withdraws something, if
it withdraws or grants anything at all. -/
theorem Spans.withdraws {layers front rest : List Layer} {answering : Layer} {lower upper : Nat}
    (h : Spans layers lower upper) (hnodup : (layers.map Layer.id).Nodup) {r : Relay}
    {e : Enforcer} (hsplit : layers = front ++ answering :: rest)
    (hanswering : answering.role = .relay r) (hinner : roleAt? layers lower = some (.enforcer e))
    {request : Request String} {call : Swallowable} (hcall : r.swallowed? request = some call)
    (hupper : upper ∈ front.map Layer.id) (hlower : lower ∉ front.map Layer.id) :
    ∀ c ∈ request.commit? .done, c.Withdraws := by
  obtain ⟨above, outer, between, inner, below, heq, rfl, rfl, hpass⟩ := h
  have hne : inner ≠ answering := by
    rintro rfl
    have hrole := roleAt?_of_mem hnodup (heq ▸ by simp : inner ∈ layers)
    rw [hinner, hanswering] at hrole
    cases hrole
  have habove : outer.id ∉ above.map Layer.id := by
    rw [heq, List.map_append, List.map_cons, List.nodup_middle, List.nodup_cons,
      List.mem_append, not_or] at hnodup
    exact hnodup.1.1
  -- The relay that answers comes after the outer layer, which is among those the call has passed,
  -- and before the inner one, which is not.
  have hpassed : answering ∈ between := by
    rw [hsplit] at heq
    rcases List.append_eq_append_iff.1 heq with ⟨mid, rfl, -⟩ | ⟨mid, rfl, hrest⟩
    · exact absurd (List.map_append ▸ List.mem_append_left _ hupper) habove
    rcases mid with _ | ⟨first, mid⟩
    · rw [List.append_nil] at hupper
      exact absurd hupper habove
    rcases List.append_eq_append_iff.1 (List.cons.inj hrest).2 with
      ⟨after, rfl, hafter⟩ | ⟨after, rfl, hafter⟩
    · rcases after with _ | ⟨next, after⟩
      · exact absurd (List.cons.inj hafter).1 hne
      · obtain rfl := (List.cons.inj hafter).1
        exact absurd (by simp) hlower
    · rcases after with _ | ⟨next, after⟩
      · exact absurd (List.cons.inj hafter).1.symm hne
      · obtain rfl := (List.cons.inj hafter).1
        simp
  have hanswered := hpass answering hpassed
  rw [hanswering] at hanswered
  exact Relay.withdraws_of_swallowed hanswered hcall

/-- A reply passes the inner layer before the outer one, if it passes the inner one at all. -/
theorem Spans.sublist_passed {layers : List Layer} {lower upper : Nat}
    (h : Spans layers lower upper) (hnodup : (layers.map Layer.id).Nodup) {request : Request String}
    (hlower : lower ∈ (descend layers request).passed) :
    [lower, upper] <+ (descend layers request).passed := by
  have horder := h.sublist
  cases hswallowed : (descend layers request).swallowed with
  | false =>
    rw [passed_descend hswallowed]
    exact horder.reverse
  | true =>
    obtain ⟨front, answering, rest, _, _, rfl, -, -, hpassed⟩ :=
      exists_of_swallowed_descend hswallowed
    rw [hpassed] at hlower ⊢
    rw [List.map_append] at hnodup horder
    have hrest : lower ∉ (answering :: rest).map Layer.id := fun hmem =>
      (List.nodup_append.1 hnodup).2.2 lower (List.mem_reverse.1 hlower) lower hmem rfl
    obtain ⟨before, after, hsplit, hbefore, hafter⟩ := List.sublist_append_iff.1 horder
    rcases List.eq_nil_or_concat after with rfl | ⟨after, last, rfl⟩
    · rw [List.append_nil] at hsplit
      exact (hsplit ▸ hbefore).reverse
    · have hpair : [upper] ++ [lower] = (before ++ after) ++ [last] := by simpa using hsplit
      obtain ⟨-, hlast⟩ := List.append_inj' hpair rfl
      obtain rfl : lower = last := by simpa using hlast
      exact absurd (hafter.subset (by simp)) hrest

/-- What a violation says of the event. -/
def Violation.subject (v : Violation) : EventKind × ModelHandle × Status :=
  (v.kind, v.model, v.status)

/-! ### Who writes first -/

/-- Each commit of the inner enforcer has been followed by one of the outer enforcer. -/
def Level (lower upper : Nat) (moments : List Moment) : Prop :=
  ∀ before m after c, moments = before ++ m :: after → m.what = .commits lower c →
    commits upper after ≠ []

/-- If what has happened by now is level, and the inner enforcer has written lately, so has the
outer one. -/
theorem Level.of_append {lower upper : Nat} {before now : List Moment}
    (h : Level lower upper (before ++ now)) (hsome : commits lower now ≠ []) :
    commits upper now ≠ [] := by
  obtain ⟨c, hc⟩ := List.exists_mem_of_ne_nil _ hsome
  obtain ⟨entry, hentry, hcommit⟩ := List.mem_filterMap.1 hc
  obtain ⟨first, m, rest, rfl, hlayer, rfl⟩ := exists_split_of_mem_account hentry
  have hwhat : m.what = .commits lower c := by
    generalize m.what = what at hlayer hcommit
    cases what <;> cases hcommit
    rw [Option.some.inj hlayer]
  have hafter := h (before ++ first) m rest c (by simp) hwhat
  rw [List.append_cons, commits_append]
  exact List.append_ne_nil_of_right_ne_nil _ hafter

/-- Two stretches that are level make one that is. -/
theorem Level.append {lower upper : Nat} {xs ys : List Moment} (hxs : Level lower upper xs)
    (hys : Level lower upper ys) : Level lower upper (xs ++ ys) := by
  intro before m after c hsplit hwhat
  rcases List.append_eq_append_iff.1 hsplit with ⟨mid, rfl, hrest⟩ | ⟨mid, rfl, hrest⟩
  · exact hys mid m after c hrest hwhat
  · rcases mid with _ | ⟨first, mid⟩
    · exact hys [] m after c hrest.symm hwhat
    · obtain rfl := (List.cons.inj hrest).1
      have hafter : after = mid ++ ys := (List.cons.inj hrest).2
      rw [hafter, commits_append]
      exact List.append_ne_nil_of_left_ne_nil (hxs before m mid c rfl hwhat) _

/-- One enforcer has written down all that it writes down before another one begins. -/
def Parted (lower upper : Nat) (moments : List Moment) : Prop :=
  ∃ first last, moments = first ++ last ∧ commits upper first = [] ∧ commits lower last = []

/-- What has happened is parted where the inner enforcer is done and the outer one has not begun. -/
theorem parted_of_isPrefix {lower upper : Nat} {first moments : List Moment}
    (hinit : first <+: moments) (hupper : commits upper first = [])
    (hlower : commits lower moments = commits lower first) : Parted lower upper moments := by
  obtain ⟨last, rfl⟩ := hinit
  exact ⟨first, last, rfl, hupper, by simpa using hlower⟩

/-- Where to part some layers that an event or a reply passes. -/
theorem exists_parting {lower upper : Nat} {ids : List Nat} (hnodup : ids.Nodup)
    (horder : [lower, upper] <+ ids) :
    ∃ below above, ids = below ++ above ∧ below.Nodup ∧ above.Nodup ∧ upper ∉ below ∧
      lower ∉ above := by
  obtain ⟨below, above, rfl, hbelow, habove⟩ := List.cons_sublist_iff.1 horder
  obtain ⟨hnodupBelow, hnodupAbove, hdisjoint⟩ := List.nodup_append.1 hnodup
  exact ⟨below, above, rfl, hnodupBelow, hnodupAbove,
    fun hmem => hdisjoint upper hmem upper (List.singleton_sublist.1 habove) rfl,
    fun hmem => hdisjoint lower hbelow lower hmem rfl⟩

namespace Passage

variable {p : Passage} {lower upper : Nat}

/-- The way of an event up is parted: it comes to the inner enforcer first. -/
theorem parted_foldl_rise (event : Event) (cookie : Int32) {watchers : List Nat}
    (hnodup : watchers.Nodup) (horder : [lower, upper] <+ watchers) (hlower : p.Enforces lower)
    (hupper : p.Enforces upper) (hnone : commits upper p.moments = []) :
    Parted lower upper (watchers.foldl (rise event cookie) p).moments := by
  obtain ⟨below, above, rfl, hbelow, habove, hnotBelow, hnotAbove⟩ := exists_parting hnodup horder
  have hhalf := (turns_foldl_rise event cookie below p).enforces hlower
  rw [List.foldl_append]
  refine parted_of_isPrefix (turns_foldl_rise event cookie above _).isPrefix_moments ?_ ?_
  · rw [commits_foldl_rise event cookie hbelow hupper, if_neg hnotBelow, hnone]
    rfl
  · rw [commits_foldl_rise event cookie habove hhalf, if_neg hnotAbove, List.append_nil]

/-- The way of a reply up is parted: it comes to the inner enforcer first. -/
theorem parted_foldl_settle {κ : Type} (request : Request κ) {ids : List Nat}
    (hnodup : ids.Nodup) (horder : [lower, upper] <+ ids) (pr : Passage × Reply)
    (hlower : pr.1.Enforces lower) (hupper : pr.1.Enforces upper)
    (hnone : commits upper pr.1.moments = []) :
    Parted lower upper (ids.foldl (settle request) pr).1.moments := by
  obtain ⟨below, above, rfl, hbelow, habove, hnotBelow, hnotAbove⟩ := exists_parting hnodup horder
  have hhalf := (turns_foldl_settle request below pr).enforces hlower
  rw [List.foldl_append]
  refine parted_of_isPrefix (turns_foldl_settle request above _).isPrefix_moments ?_ ?_
  · rw [commits_foldl_settle request hbelow pr hupper, if_neg hnotBelow, hnone]
    rfl
  · rw [commits_foldl_settle request habove _ hhalf, if_neg hnotAbove, List.append_nil]

end Passage

/-- What happens last, and writes nothing down, changes nothing about that. -/
theorem Parted.note {lower upper : Nat} {p : Passage} (h : Parted lower upper p.moments)
    {what : Happening} (hwhat : what.commit? = none) :
    Parted lower upper (p.note what).moments := by
  obtain ⟨first, last, hmoments, hupper, hlower⟩ := h
  have hnoted := Passage.commits_note_of_none hwhat lower p
  refine parted_of_isPrefix (List.IsPrefix.trans ⟨last, hmoments.symm⟩ (List.prefix_append _ _))
    hupper ?_
  rw [hnoted, hmoments, commits_append, hlower, List.append_nil]

namespace Stack

variable {s : Stack} {lower upper : Nat} {inner outer : Reporter} {t u : ModelTable}

/-- **The inner enforcer writes first,** if both of them write something down because of a move. -/
theorem Has.parted_step (hlower : s.Has lower inner t) (hupper : s.Has upper outer u)
    (hs : s.Threaded) (hspans : Spans s.layers lower upper) (move : Move) :
    Parted lower upper (s.step move).2 := by
  -- If one of the two writes nothing at all, the moments may be parted at one of their ends.
  by_cases hcommitsUpper : commits upper (s.step move).2 = []
  · exact ⟨_, [], (List.append_nil _).symm, hcommitsUpper, rfl⟩
  by_cases hcommitsLower : commits lower (s.step move).2 = []
  · exact ⟨[], _, rfl, rfl, hcommitsLower⟩
  rw [hlower.commits_step hs move] at hcommitsLower
  have hdue : ∃ c, s.dueAt? lower move = some c :=
    Option.ne_none_iff_exists'.1 fun hnone => hcommitsLower (by rw [hnone]; rfl)
  obtain ⟨c, hdue⟩ := hdue
  cases move with
  | call request =>
    have hdown := turns_descend s.layers request
    simp only [dueAt?, Option.ite_none_right_eq_some] at hdue
    obtain ⟨⟨hadmits, hswallowed, hpassed⟩, -⟩ := hdue
    simp only [step, onCall, hadmits, hswallowed, Bool.not_true, Bool.false_eq_true, if_false,
      if_true, Passage.climb]
    exact (Passage.parted_foldl_settle _ (nodup_passed_descend hs.nodup request)
      (hspans.sublist_passed hs.nodup hpassed) _ (hdown.enforces hlower.enforces)
      (hdown.enforces hupper.enforces) (commits_descend upper s.layers request)).note rfl
  | reply reply =>
    simp only [dueAt?, due?] at hdue
    split at hdue
    · next request passed frames hframes =>
      have hpassed := hs.routed request passed (hframes ▸ List.mem_cons_self)
      simp only [step, onReply, hframes, accepts_of_commit? hdue, if_true, Passage.climb]
      exact (Passage.parted_foldl_settle request (hpassed ▸ List.nodup_reverse.2 hs.nodup)
        (hpassed ▸ hspans.sublist.reverse) (_, reply) hlower.enforces hupper.enforces rfl).note rfl
    · cases hdue
  | event ticket event cookie =>
    simp only [dueAt?, due?, Option.ite_none_right_eq_some] at hdue
    have hcallback := List.getElem?_eq_getElem hdue.1
    have hwatchers := hs.wired _ (List.mem_of_getElem? hcallback)
    simp only [step, onEvent, hcallback]
    exact (Passage.parted_foldl_rise event cookie (hwatchers ▸ nodup_enforcersOf hs.nodup)
      (hwatchers ▸ hspans.sublist_enforcersOf hs.nodup hlower.mem_enforcersOf
        hupper.mem_enforcersOf) hlower.enforces hupper.enforces rfl).note rfl
  | finish | look => cases hdue

/-- **What is due to the inner enforcer is due to the outer one,** and there may be something to
withdraw for the outer one alone. -/
theorem Has.due_lower (hlower : s.Has lower inner t) (hs : s.Threaded)
    (hspans : Spans s.layers lower upper) (move : Move) :
    s.dueAt? lower move = s.dueAt? upper move ∨
      (s.dueAt? lower move = none ∧ ∀ c ∈ s.dueAt? upper move, c.Withdraws) := by
  cases move with
  | call request =>
    simp only [dueAt?]
    by_cases hpassed : lower ∈ (descend s.layers request).passed
    · have hupper := (hspans.sublist_passed hs.nodup hpassed).subset
        (List.mem_cons_of_mem lower List.mem_cons_self)
      simp [hpassed, hupper]
    · refine .inr ⟨by simp [hpassed], fun c hc => ?_⟩
      simp only [Option.mem_def, Option.ite_none_right_eq_some] at hc
      obtain ⟨⟨-, hswallowed, hupper⟩, hcommit⟩ := hc
      obtain ⟨front, answering, rest, r, call, hsplit, hrole, hcall, hfront⟩ :=
        exists_of_swallowed_descend hswallowed
      rw [hfront, List.mem_reverse] at hpassed hupper
      exact hspans.withdraws hs.nodup hsplit hrole hlower.role hcall hupper hpassed c hcommit
  | _ => exact .inl rfl

/-- A stack with two enforcers, the inner of which covers the outer one. -/
structure Covered (s : Stack) (lower upper : Nat) (inner outer : Reporter) (t u : ModelTable) :
    Prop where
  hasInner : s.Has lower inner t
  hasOuter : s.Has upper outer u
  threaded : s.Threaded
  spans : Spans s.layers lower upper
  covers : t.Covers u

/-- **The inner table covers the outer one within a move,** unless only the inner enforcer has
written something down by then. -/
theorem Covered.covers_of_step (h : s.Covered lower upper inner outer t u) {move : Move}
    {sofar later : List Moment} (hsplit : (s.step move).2 = sofar ++ later)
    (hlevel : commits lower sofar ≠ [] → commits upper sofar ≠ []) :
    (t.commitAll (commits lower sofar)).Covers (u.commitAll (commits upper sofar)) := by
  by_cases hsomeUpper : commits upper sofar = []
  · by_cases hsomeLower : commits lower sofar = []
    · rw [hsomeLower, hsomeUpper]
      exact h.covers
    · exact absurd hsomeUpper (hlevel hsomeLower)
  have hupperDone : commits upper sofar = (s.dueAt? upper move).toList := by
    have hall := h.hasOuter.commits_step h.threaded move
    rw [hsplit, commits_append] at hall
    cases hdue : s.dueAt? upper move with
    | none =>
      rw [hdue] at hall
      exact absurd (List.append_eq_nil_iff.1 hall).1 hsomeUpper
    | some c =>
      rw [hdue] at hall
      rcases List.append_eq_singleton_iff.1 hall with ⟨hnil, -⟩ | ⟨hone, -⟩
      · exact absurd hnil hsomeUpper
      · exact hone
  -- The outer enforcer has written, so the inner one has if it ever will.
  have hlowerDone : commits lower sofar = (s.dueAt? lower move).toList := by
    obtain ⟨first, last, hparted, hfirst, hlast⟩ :=
      h.hasInner.parted_step h.hasOuter h.threaded h.spans move
    have hall : commits lower first = (s.dueAt? lower move).toList := by
      rw [← h.hasInner.commits_step h.threaded move, hparted, commits_append, hlast,
        List.append_nil]
    rcases List.append_eq_append_iff.1 (hsplit.symm.trans hparted) with
      ⟨mid, rfl, -⟩ | ⟨mid, rfl, rfl⟩
    · rw [commits_append, List.append_eq_nil_iff] at hfirst
      exact absurd hfirst.1 hsomeUpper
    · rw [commits_append, List.append_eq_nil_iff] at hlast
      rw [commits_append, hlast.1, List.append_nil, hall]
  rw [hlowerDone, hupperDone]
  rcases h.hasInner.due_lower h.threaded h.spans move with hsame | ⟨hnone, hwithdraws⟩
  · rw [hsame]
    cases s.dueAt? upper move with
    | none => exact h.covers
    | some c => exact h.covers.commit c
  · rw [hnone]
    cases hdue : s.dueAt? upper move with
    | none => exact h.covers
    | some c => exact h.covers.withdraw (hwithdraws c hdue)

/-- No commit waits at the end of a move. -/
theorem Covered.level_step (h : s.Covered lower upper inner outer t u) (move : Move) :
    Level lower upper (s.step move).2 := by
  intro before m after c hsplit hwhat
  obtain ⟨first, last, hparted, hfirst, hlast⟩ :=
    h.hasInner.parted_step h.hasOuter h.threaded h.spans move
  have hm : commits lower [m] = [c] := by
    simp [commits, account, hwhat, Happening.layer?, Happening.commit?]
  have hcommitted : commits lower (s.step move).2 ≠ [] := by
    rw [hsplit, List.append_cons, commits_append, commits_append, hm]
    simp
  have hdue : commits upper (s.step move).2 ≠ [] := by
    rw [h.hasInner.commits_step h.threaded] at hcommitted
    rw [h.hasOuter.commits_step h.threaded]
    rcases h.hasInner.due_lower h.threaded h.spans move with hsame | ⟨hnone, -⟩
    · rwa [← hsame]
    · exact absurd (by rw [hnone]; rfl) hcommitted
  rw [hparted, commits_append, hfirst, List.nil_append] at hdue
  rw [List.append_cons] at hsplit
  rcases List.append_eq_append_iff.1 (hsplit.symm.trans hparted) with
    ⟨mid, -, rfl⟩ | ⟨mid, hbefore, rfl⟩
  · rw [commits_append]
    exact List.append_ne_nil_of_right_ne_nil _ hdue
  · rcases List.eq_nil_or_concat mid with rfl | ⟨mid, x, rfl⟩
    · exact hdue
    · rw [List.concat_eq_append, ← List.append_assoc] at hbefore
      obtain ⟨-, hx⟩ := List.append_inj' hbefore rfl
      rw [List.concat_eq_append, ← hx, commits_append, commits_append, hm] at hlast
      simp at hlast

/-- **A move keeps the cover.** What is level at its end was shown to be covered at every level
instant of it. -/
theorem Covered.step (h : s.Covered lower upper inner outer t u) (move : Move) :
    let now := (s.step move).2
    (s.step move).1.Covered lower upper inner outer (t.commitAll (commits lower now))
      (u.commitAll (commits upper now)) := by
  intro now
  have hnow : ∀ {id : Nat} {reporter : Reporter} {t : ModelTable}, s.Has id reporter t →
      (s.step move).1.Has id reporter (t.commitAll (commits id now)) :=
    fun hhas => (step_chronicle hhas move).has
  refine ⟨hnow h.hasInner, hnow h.hasOuter, h.threaded.step move,
    spans_congr (viewOf_step lasting_passesStarts s move) h.spans, ?_⟩
  have hlevel : Level lower upper ([] ++ now) := h.level_step move
  exact h.covers_of_step (List.append_nil _).symm hlevel.of_append

/-- So does a run. -/
theorem Covered.run (h : s.Covered lower upper inner outer t u) (moves : List Move) :
    let out := s.run moves
    out.1.Covered lower upper inner outer (t.commitAll (commits lower out.2))
      (u.commitAll (commits upper out.2)) := by
  induction moves generalizing s t u with
  | nil => exact h
  | cons move moves ih =>
    have hlast := ih (h.step move)
    simp only [run_cons, commits_append, ModelTable.commitAll, List.foldl_append]
    exact hlast

/-- No commit waits between two moves. -/
theorem Covered.level_run (h : s.Covered lower upper inner outer t u) (moves : List Move) :
    Level lower upper (s.run moves).2 := by
  induction moves generalizing s t u with
  | nil => exact fun before m after c hsplit => by simp at hsplit
  | cons move moves ih => exact (h.level_step move).append (ih (h.step move))

/-! ### Reports -/

/-- Nothing is reported because of a move unless an event is due. -/
theorem Has.reports_step_of_ne (h : s.Has lower inner t) (hs : s.Threaded) {move : Move}
    (hdue : ∀ model status, s.dueAt? lower move ≠ some (.event model status)) :
    reports lower (s.step move).2 = [] := by
  refine List.filterMap_eq_nil_iff.2 fun entry hentry => ?_
  obtain ⟨before, m, after, hsplit, hlayer, rfl⟩ := exists_split_of_mem_account hentry
  have hstep := step_chronicle h move
  dsimp only
  split
  · next layer told violation hwhat =>
    obtain ⟨earlier, v, cell, hearlier, -, hmem⟩ :=
      hstep.mem_sequel hsplit hlayer (by rw [hwhat]; rfl)
    rw [hwhat] at hmem
    obtain ⟨e, cookie, rfl, -⟩ := Visit.reports_mem_sequel hmem
    have hvisit : Visit.event e cookie ∈ visits lower (s.step move).2 := by
      rw [hsplit, visits_append, hearlier]
      simp
    have hcommitted : Commit.event e.model e.status ∈ commits lower (s.step move).2 := by
      rw [hstep.commits]
      exact List.mem_filterMap.2 ⟨_, hvisit, rfl⟩
    rw [h.commits_step hs, Option.mem_toList] at hcommitted
    exact absurd hcommitted (hdue _ _)
  · rfl

/-- An event is due only because of an event, and only if its callback was issued. -/
theorem exists_event_of_dueAt? {id : Nat} {move : Move} {model : ModelHandle} {status : Status}
    (hdue : s.dueAt? id move = some (.event model status)) :
    ∃ ticket event cookie callback, move = .event ticket event cookie ∧
      s.issued[ticket]? = some callback := by
  cases move with
  | call request =>
    simp only [dueAt?, Option.ite_none_right_eq_some] at hdue
    cases request <;> cases hdue.2
  | reply reply =>
    simp only [dueAt?, due?] at hdue
    split at hdue
    · next request passed frames _ => cases request <;> cases reply <;> cases hdue
    · cases hdue
  | finish | look => cases hdue
  | event ticket event cookie =>
    simp only [dueAt?, due?, Option.ite_none_right_eq_some] at hdue
    exact ⟨ticket, event, cookie, _, rfl, List.getElem?_eq_getElem hdue.1⟩

/-- **What the inner enforcer reports, the outer one reports as well.**  Only an event can bring a
report of the inner one.  It comes to both enforcers, and if it finds the model armed in the outer
table, then in the inner one too. -/
theorem Covered.reports_step (h : s.Covered lower upper inner outer t u) (move : Move) :
    let now := (s.step move).2
    (reports lower now).map (fun report => report.2.1.subject) <+
      (reports upper now).map fun report => report.2.1.subject := by
  intro now
  by_cases hdue : ∀ model status, s.dueAt? lower move ≠ some (.event model status)
  · rw [h.hasInner.reports_step_of_ne h.threaded hdue]
    exact List.nil_sublist _
  · push Not at hdue
    obtain ⟨model, status, hdue⟩ := hdue
    obtain ⟨ticket, event, cookie, callback, rfl, hcallback⟩ := exists_event_of_dueAt? hdue
    have hwatchers := h.threaded.wired callback (List.mem_of_getElem? hcallback)
    have hnodup := nodup_enforcersOf h.threaded.nodup
    obtain ⟨_, _, hlower, hbelow, habove⟩ :=
      exists_split_of_mem hnodup h.hasInner.mem_enforcersOf
    obtain ⟨hinner, -⟩ :=
      h.hasInner.event hcallback (hwatchers.trans hlower) hbelow habove event cookie
    obtain ⟨_, _, hupper, hbelow, habove⟩ :=
      exists_split_of_mem hnodup h.hasOuter.mem_enforcersOf
    obtain ⟨houter, -⟩ :=
      h.hasOuter.event hcallback (hwatchers.trans hupper) hbelow habove event cookie
    rw [reports_event hinner, reports_event houter]
    by_cases harmed : t.get? event.model = some .armed
    · rw [if_pos harmed]
      exact List.nil_sublist _
    · have hnot : u.get? event.model ≠ some .armed := fun hu =>
        harmed ((h.covers event.model).2 hu)
      rw [if_neg harmed, if_neg hnot]
      exact List.Sublist.refl _

/-- In a fresh stack both tables are empty, so one covers the other. -/
theorem covered_fresh (above : List LayerPlan) (outer : EnforcerPlan) (between : List LayerPlan)
    (inner : EnforcerPlan) (below : List LayerPlan)
    (hbetween : ∀ plan ∈ between, plan.PassesStarts) :
    let innerPlans := .enforcer inner :: below
    (fresh (layersOf (above ++ .enforcer outer :: (between ++ innerPlans))).1).Covered below.length
      (between ++ innerPlans).length inner.reporter outer.reporter {} {} where
  hasInner := by
    have hhas := has_fresh (above ++ .enforcer outer :: between) inner below
    rwa [List.append_assoc] at hhas
  hasOuter := has_fresh above outer (between ++ .enforcer inner :: below)
  threaded := threaded_fresh _
  spans := spans_layersOf above outer between inner below hbetween
  covers := fun _ => .refl _

/-- **Of two enforcers with layers between them that pass all starts on, the inner one covers the
outer one,** whatever lies above and below, and whatever the client and the implementation do.  It
is so whenever neither is in the middle of writing and no commit of the inner one waits to be
followed by one of the outer one.  So what the inner enforcer reports during a move, the outer one
reports during it as well. -/
theorem inner_covers_outer (above : List LayerPlan) (outer : EnforcerPlan)
    (between : List LayerPlan) (inner : EnforcerPlan) (below : List LayerPlan)
    (hbetween : ∀ plan ∈ between, plan.PassesStarts) (moves : List Move) :
    let innerPlans := .enforcer inner :: below
    let outerPlans := .enforcer outer :: (between ++ innerPlans)
    let s := fresh (layersOf (above ++ outerPlans)).1
    let out := s.run moves
    let lower := below.length
    let upper := (between ++ innerPlans).length
    (∃ t u, out.1.table? lower = some t ∧ out.1.table? upper = some u ∧ t.Covers u) ∧
    (∀ before m after, out.2 = before ++ m :: after → Level lower upper (before ++ [m]) →
      ¬ m.what.Warns lower → ¬ m.what.Warns upper →
      ∃ t u, m.table? lower = some t ∧ m.table? upper = some u ∧ t.Covers u) ∧
    ∀ front move rest, moves = front ++ move :: rest →
      let now := ((s.run front).1.step move).2
      (reports lower now).map (fun report => report.2.1.subject) <+
        (reports upper now).map fun report => report.2.1.subject := by
  intro innerPlans outerPlans s out lower upper
  have hfresh := covered_fresh above outer between inner below hbetween
  refine ⟨?_, ?_, ?_⟩
  · have hlast := hfresh.run moves
    exact ⟨_, _, hlast.hasInner.table?, hlast.hasOuter.table?, hlast.covers⟩
  · intro before m after hsplit hlevel hwarnsLower hwarnsUpper
    have hlower := hfresh.hasInner.cell?_of_run hsplit hwarnsLower
    have hupper := hfresh.hasOuter.cell?_of_run hsplit hwarnsUpper
    refine ⟨_, _, by rw [Moment.table?, hlower]; rfl, by rw [Moment.table?, hupper]; rfl, ?_⟩
    obtain ⟨front, move, rest, sofar, later, rfl, rfl, hstep⟩ := exists_step_of_run hsplit
    have hnow : ((s.run front).1.step move).2 = (sofar ++ [m]) ++ later := by
      rw [hstep, List.append_assoc, List.singleton_append]
    rw [List.append_assoc] at hlevel ⊢
    have hcovers := (hfresh.run front).covers_of_step hnow hlevel.of_append
    simpa only [commits_append, ModelTable.commitAll, List.foldl_append] using hcovers
  · exact fun front move rest _ => (hfresh.run front).reports_step move

/-- A stop that a relay answers makes a model idle for the outer enforcer only.  The first event to
come then is reported by that one alone, and the next one by both. -/
theorem inner_covers_outer_stop :
    let s := fresh (layersOf [.enforcer { recorder := some "outer" },
      .relay { tag := "relay", swallows := fun _ call => call = .stop },
      .enforcer { recorder := some "inner" }]).1
    let stopped : List Move :=
      [.call (.load (.generic {}) "client" 0), .reply (.handle 1), .call (.start 1 {} "client" 0),
        .reply .done, .call (.stop 1)]
    let send : Move := .event 0 (.generic { model := 1 } []) 0
    let now := ((s.run (stopped ++ [send])).1.step send).2
    ∃ before m after t u, (s.run (stopped ++ [send, send])).2 = before ++ m :: after ∧
      m.what = .answers .done ∧ Level 0 2 (before ++ [m]) ∧
      m.table? 0 = some t ∧ m.table? 2 = some u ∧ t.Covers u ∧
      t.get? 1 = some .armed ∧ u.get? 1 = some .idle ∧
      (.recognition, 1, .success) ∈ (reports 0 now).map (fun report => report.2.1.subject) ∧
      (.recognition, 1, .success) ∈ (reports 2 now).map fun report => report.2.1.subject := by
  intro s stopped send now
  have hpasses : ∀ plan ∈ [LayerPlan.relay
      { tag := "relay", swallows := fun _ call => call = .stop }], plan.PassesStarts := by
    intro plan hplan
    obtain rfl := List.mem_singleton.1 hplan
    exact fun _ => rfl
  let ms := (s.run (stopped ++ [send, send])).2
  have hsplit : ms = ms.take 25 ++ ms.get ⟨25, by decide⟩ :: ms.drop 26 := by decide
  have hanswers : (ms.get ⟨25, by decide⟩).what = .answers .done := by decide
  have hlevel : Level 0 2 (ms.take 25 ++ [ms.get ⟨25, by decide⟩]) := by
    have hstopped : ms.take 25 ++ [ms.get ⟨25, by decide⟩] = (s.run stopped).2 := by decide
    rw [hstopped]
    exact (covered_fresh [] { recorder := some "outer" } _ { recorder := some "inner" } []
      hpasses).level_run stopped
  have hnow : (.recognition, 1, .success) ∈
      (reports 0 now).map fun report => report.2.1.subject := by decide
  obtain ⟨-, hinstant, hreports⟩ := inner_covers_outer [] { recorder := some "outer" } _
    { recorder := some "inner" } [] hpasses (stopped ++ [send, send])
  have hwarns : ∀ id, ¬ (ms.get ⟨25, by decide⟩).what.Warns id := by
    rintro id ⟨h, hlogs⟩
    rw [hanswers] at hlogs
    cases hlogs
  obtain ⟨t, u, ht, hu, hcovers⟩ := hinstant _ _ _ hsplit hlevel (hwarns 0) (hwarns 2)
  have harmed : (ms.get ⟨25, by decide⟩).table? 0 = some (ModelTable.insert {} 1 .armed) := by
    decide
  have hidle : (ms.get ⟨25, by decide⟩).table? 2 = some (ModelTable.insert {} 1 .idle) := by
    decide
  obtain rfl := Option.some.inj (harmed.symm.trans ht)
  obtain rfl := Option.some.inj (hidle.symm.trans hu)
  exact ⟨_, _, _, _, _, hsplit, hanswers, hlevel, harmed, hidle, hcovers, by decide, by decide,
    hnow, (hreports (stopped ++ [send]) send [] rfl).subset hnow⟩

end Stack
end TriggerWatch
