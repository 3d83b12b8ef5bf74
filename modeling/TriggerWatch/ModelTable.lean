/-
# The table of tracked models

A `ModelTable` holds the state of each model that is tracked (`ModelStates`, the shadow of the
recognition states).  Its entries are kept in the order of the handles, so two tables that answer
alike are the same table (`ModelTable.ext_get?`).  In which order the models are kept cannot be seen
from outside: a state is always asked for by handle, and `reset_all` treats all entries alike.

For each operation there is one equation that says what `get?` answers afterwards: `insert` is what
`loaded` does, `erase` is `unloaded`, `replace` and `idleAll` are `replace` and `reset_all`.

A table changes only by commits: one for a call that was answered well, and one for each event that
passes.  `ModelTable.commit` says what a commit does to a table, and `Commit.effect` what it does to
the entry of a single model; `ModelTable.get?_commit` says that the two agree.  A commit is one line
of an enforcer, the one that borrows the table for writing: `loaded` after a load, `unloaded` after
an unload, `replace` after a start, a stop and an event, `reset_all` after all models were stopped.
-/

import TriggerWatch.Event.Basic

namespace TriggerWatch

/-- Whether an event of a model is expected (`RecognitionState`). -/
inductive ModelState where
  /-- Loaded, and no event is expected. -/
  | idle
  /-- Recognition was started, and one event that ends it is expected. -/
  | armed
  deriving DecidableEq

/-- The name of a state, as it is displayed. -/
def ModelState.name : ModelState → String
  | .idle => "idle"
  | .armed => "armed"

/-- A tracked model and its state. -/
abbrev TableEntry := ModelHandle × ModelState

/-- The states of the tracked models, in the order of their handles (`ModelStates`). -/
structure ModelTable where
  entries : List TableEntry := []
  sorted : entries.Pairwise (fun a b => a.1 < b.1) := by exact .nil
  deriving DecidableEq

namespace ModelTable

/-- The state that a list of entries has for a handle. -/
def lookup (h : ModelHandle) : List TableEntry → Option ModelState
  | [] => none
  | e :: es => if h = e.1 then some e.2 else lookup h es

/-- The state of a model, if it is tracked (`get`). -/
def get? (t : ModelTable) (h : ModelHandle) : Option ModelState := lookup h t.entries

/-- Puts an entry where it belongs, in place of the one with its handle if there is one. -/
def put (h : ModelHandle) (s : ModelState) : List TableEntry → List TableEntry
  | [] => [(h, s)]
  | e :: es =>
    if h < e.1 then (h, s) :: e :: es
    else if h = e.1 then (h, s) :: es
    else e :: put h s es

/-- Putting an entry in keeps a lower bound of the handles, if the new handle respects it too.
`pairwise_put` needs this where it goes on into the tail. -/
theorem lt_of_mem_put {h k : ModelHandle} {s : ModelState} {es : List TableEntry} (hk : k < h)
    (he : ∀ e ∈ es, k < e.1) : ∀ e ∈ put h s es, k < e.1 := by
  induction es with
  | nil => simpa [put] using hk
  | cons e es ih =>
    intro a ha
    unfold put at ha
    split at ha
    · rcases List.mem_cons.1 ha with rfl | ha
      · exact hk
      · exact he a ha
    · split at ha
      · rcases List.mem_cons.1 ha with rfl | ha
        · exact hk
        · exact he a (List.mem_cons_of_mem _ ha)
      · rcases List.mem_cons.1 ha with rfl | ha
        · exact he _ List.mem_cons_self
        · exact ih (fun b hb => he b (List.mem_cons_of_mem _ hb)) a ha

/-- Putting an entry in keeps the entries in the order of their handles. -/
theorem pairwise_put (h : ModelHandle) (s : ModelState) {es : List TableEntry}
    (hs : es.Pairwise fun a b => a.1 < b.1) : (put h s es).Pairwise fun a b => a.1 < b.1 := by
  induction es with
  | nil => simp [put]
  | cons e es ih =>
    obtain ⟨he, hes⟩ := List.pairwise_cons.1 hs
    unfold put
    split
    next hlt =>
      refine List.pairwise_cons.2 ⟨fun a ha => ?_, hs⟩
      rcases List.mem_cons.1 ha with rfl | ha
      · exact hlt
      · exact Int32.lt_trans hlt (he a ha)
    next hlt =>
      split
      next heq => subst heq; exact List.pairwise_cons.2 ⟨he, hes⟩
      next hne =>
        refine List.pairwise_cons.2 ⟨lt_of_mem_put ?_ he, ih hes⟩
        rw [Int32.lt_iff_toInt_lt] at hlt ⊢
        have := mt Int32.toInt_inj.1 hne
        omega

/-- Tracks a model in the given state, whether or not it was tracked before.  In `loaded` the state
is idle, and a model that was tracked before is warned about (`Enforcer.commitRecord?`). -/
def insert (t : ModelTable) (h : ModelHandle) (s : ModelState) : ModelTable where
  entries := put h s t.entries
  sorted := pairwise_put h s t.sorted

/-- Forgets a model (`unloaded`). -/
def erase (t : ModelTable) (h : ModelHandle) : ModelTable where
  entries := t.entries.filter fun e => e.1 ≠ h
  sorted := t.sorted.filter _

/-- Gives each tracked model the state that `f` says, and tracks no other. -/
def mapStates (t : ModelTable) (f : ModelHandle → ModelState → ModelState) : ModelTable where
  entries := t.entries.map fun e => (e.1, f e.1 e.2)
  sorted := by rw [List.pairwise_map]; exact t.sorted

/-- Changes the state of a model that is tracked (`replace`); one that is not stays untracked. -/
def replace (t : ModelTable) (h : ModelHandle) (s : ModelState) : ModelTable :=
  t.mapStates fun k old => if k = h then s else old

/-- Makes every tracked model idle (`reset_all`). -/
def idleAll (t : ModelTable) : ModelTable := t.mapStates fun _ _ => .idle

/-- The empty table tracks nothing. -/
@[simp] theorem get?_empty (h : ModelHandle) : ({} : ModelTable).get? h = none := rfl

/-- **After an insertion,** the handle has the new state, and every other handle the one it had. -/
@[simp] theorem get?_insert (t : ModelTable) (h k : ModelHandle) (s : ModelState) :
    (t.insert h s).get? k = if k = h then some s else t.get? k := by
  obtain ⟨es, hs⟩ := t
  simp only [get?, insert]
  clear hs
  induction es with
  | nil => simp [put, lookup]
  | cons e es ih =>
    unfold put
    split
    · simp [lookup]
    · split
      next heq => by_cases hk : k = e.1 <;> simp [lookup, heq, hk]
      next hne =>
        by_cases hk : k = e.1
        · subst hk; simp [lookup, Ne.symm hne]
        · simp [lookup, hk, ih]

/-- **After an erasure,** the handle is not tracked, and every other handle has the state it had. -/
@[simp] theorem get?_erase (t : ModelTable) (h k : ModelHandle) :
    (t.erase h).get? k = if k = h then none else t.get? k := by
  obtain ⟨es, hs⟩ := t
  simp only [get?, erase]
  clear hs
  induction es with
  | nil => simp [lookup]
  | cons e es ih =>
    by_cases he : e.1 = h
    · by_cases hk : k = h <;> simp_all [lookup]
    · by_cases hk : k = e.1
      · subst hk; simp [lookup, he]
      · simpa [lookup, he, hk] using ih

/-- **After a change of all states,** each tracked model has the state that `f` makes of its old
one, and the untracked ones are still untracked. -/
@[simp] theorem get?_mapStates (t : ModelTable) (f : ModelHandle → ModelState → ModelState)
    (k : ModelHandle) : (t.mapStates f).get? k = (t.get? k).map (f k) := by
  obtain ⟨es, hs⟩ := t
  simp only [get?, mapStates]
  clear hs
  induction es with
  | nil => rfl
  | cons e es ih =>
    by_cases hk : k = e.1
    · subst hk; simp [lookup]
    · simp [lookup, hk, ih]

/-- **After a replacement,** the handle has the new state if it was tracked; a handle that was not
tracked is none the wiser. -/
@[simp] theorem get?_replace (t : ModelTable) (h k : ModelHandle) (s : ModelState) :
    (t.replace h s).get? k = (t.get? k).map fun old => if k = h then s else old := by
  simp [replace]

/-- **After everything has been made idle,** the same models are tracked, and all are idle. -/
@[simp] theorem get?_idleAll (t : ModelTable) (k : ModelHandle) :
    t.idleAll.get? k = (t.get? k).map fun _ => .idle := by
  simp [idleAll]

/-- A handle below all entries is not among them. -/
theorem lookup_eq_none_of_lt {h : ModelHandle} {es : List TableEntry} (he : ∀ e ∈ es, h < e.1) :
    lookup h es = none := by
  induction es with
  | nil => rfl
  | cons e es ih =>
    have hne : h ≠ e.1 := fun heq => Int32.lt_irrefl (heq ▸ he e List.mem_cons_self)
    simpa [lookup, hne] using ih fun a ha => he a (List.mem_cons_of_mem _ ha)

/-- If two ordered lists answer alike, the first entry of the one does not come before the first of
the other, for then only the one would have an answer for it. -/
theorem not_lt_of_lookup_eq {a b : TableEntry} {as bs : List TableEntry}
    (hb : (b :: bs).Pairwise fun x y => x.1 < y.1)
    (h : ∀ k, lookup k (a :: as) = lookup k (b :: bs)) : ¬ a.1 < b.1 := by
  intro hlt
  have hnone : lookup a.1 (b :: bs) = none := by
    refine lookup_eq_none_of_lt fun e he => ?_
    rcases List.mem_cons.1 he with rfl | he
    · exact hlt
    · exact Int32.lt_trans hlt ((List.pairwise_cons.1 hb).1 e he)
  have hsome := h a.1
  rw [hnone] at hsome
  simp [lookup] at hsome

/-- Two ordered lists of entries that answer alike are equal.  By induction: the first entries have
the same handle, and after that the tails answer alike. -/
theorem eq_of_lookup_eq {as bs : List TableEntry} (ha : as.Pairwise fun a b => a.1 < b.1)
    (hb : bs.Pairwise fun a b => a.1 < b.1) (h : ∀ k, lookup k as = lookup k bs) : as = bs := by
  induction as generalizing bs with
  | nil =>
    cases bs with
    | nil => rfl
    | cons b bs => simpa [lookup] using h b.1
  | cons a as ih =>
    cases bs with
    | nil => simpa [lookup] using h a.1
    | cons b bs =>
      have hkey : a.1 = b.1 := by
        have hab := mt Int32.lt_iff_toInt_lt.2 (not_lt_of_lookup_eq hb h)
        have hba := mt Int32.lt_iff_toInt_lt.2 (not_lt_of_lookup_eq ha fun k => (h k).symm)
        exact Int32.toInt_inj.1 (by omega)
      have hstate : a.2 = b.2 := by
        have := h a.1
        simpa [lookup, hkey] using this
      obtain ⟨ha₁, ha₂⟩ := List.pairwise_cons.1 ha
      obtain ⟨hb₁, hb₂⟩ := List.pairwise_cons.1 hb
      have htail : ∀ k, lookup k as = lookup k bs := by
        intro k
        by_cases hk : k = a.1
        · subst hk
          rw [lookup_eq_none_of_lt ha₁, hkey, lookup_eq_none_of_lt hb₁]
        · have := h k
          simpa [lookup, hk, hkey ▸ hk] using this
      rw [ih ha₂ hb₂ htail, Prod.ext hkey hstate]

/-- **Tables that answer alike are equal.** This is what the order of the entries is kept for. -/
theorem ext_get? {t u : ModelTable} (h : ∀ k, t.get? k = u.get? k) : t = u := by
  obtain ⟨as, ha⟩ := t
  obtain ⟨bs, hb⟩ := u
  obtain rfl : as = bs := eq_of_lookup_eq ha hb h
  rfl

end ModelTable

/-! ### Commits -/

/-- What is written down after a call was answered, or when an event passes. -/
inductive Commit where
  | loaded (h : ModelHandle)
  | unloaded (h : ModelHandle)
  | started (h : ModelHandle)
  | stopped (h : ModelHandle)
  | stoppedAll
  | event (model : ModelHandle) (status : Status)
  deriving DecidableEq

/-- Tells whether a commit may change a table at all.  A forced event ends nothing, so `check` does
not touch the table after it. -/
def Commit.writes : Commit → Bool
  | .event _ status => !status.isForced
  | _ => true

/-- The table after a commit. Only a load makes a model tracked, and only an unload forgets one;
the others change the states of models that are tracked. -/
def ModelTable.commit (t : ModelTable) : Commit → ModelTable
  | .loaded h => t.insert h .idle
  | .unloaded h => t.erase h
  | .started h => t.replace h .armed
  | .stopped h => t.replace h .idle
  | .stoppedAll => t.idleAll
  | .event model status => if status.isForced then t else t.replace model .idle

/-- What a commit makes of the entry of the model `k`. -/
def Commit.effect (k : ModelHandle) : Commit → Option ModelState → Option ModelState
  | .loaded h, old => if k = h then some .idle else old
  | .unloaded h, old => if k = h then none else old
  | .started h, old => if k = h then old.map fun _ => .armed else old
  | .stopped h, old => if k = h then old.map fun _ => .idle else old
  | .stoppedAll, old => old.map fun _ => .idle
  | .event model status, old =>
    if k = model ∧ status.isForced = false then old.map fun _ => .idle else old

/-- **A commit acts on each entry by itself.** What becomes of a model is told by the commit and by
the model's own state before; no commit moves anything from one entry to another. -/
theorem ModelTable.get?_commit (t : ModelTable) (c : Commit) (k : ModelHandle) :
    (t.commit c).get? k = c.effect k (t.get? k) := by
  cases c with
  | event model status =>
    cases hf : status.isForced <;> by_cases hk : k = model <;>
      simp [ModelTable.commit, Commit.effect, hf, hk]
  | _ => simp only [ModelTable.commit, Commit.effect, get?_insert, get?_erase, get?_replace,
      get?_idleAll] <;> split <;> simp_all

end TriggerWatch
