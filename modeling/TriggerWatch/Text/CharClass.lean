/-
# Classes of characters, and trimming

A class of characters is written down as a list of ranges of code points, both ends included, the
way a character database lists a property.

`Text.blank` lists the 25 characters with the Unicode property `White_Space`. `Text.trim` takes
them off both ends of a text and leaves those inside alone, as `from_lookup` has it done with the
value of a variable, and the reader of a flag text with each piece.  What `trim` leaves is the core
of the text, that is, the one text without white space at either end that the other one is with
white space around it (`Text.core_iff`).  So white space around a text makes no difference
(`Text.Padded.trim_eq`).
-/

namespace TriggerWatch

/-- A set of characters, as ranges of code points with both ends included. -/
structure CharClass where
  ranges : List (Nat × Nat)

/-- Tells whether a character lies in one of the ranges. -/
def CharClass.has (k : CharClass) (c : Char) : Bool :=
  k.ranges.any fun r => r.1 ≤ c.toNat && c.toNat ≤ r.2

namespace Text

/-- The characters with the Unicode property `White_Space`. -/
def blank : CharClass where
  ranges := [(0x9, 0xd), (0x20, 0x20), (0x85, 0x85), (0xa0, 0xa0), (0x1680, 0x1680),
    (0x2000, 0x200a), (0x2028, 0x2029), (0x202f, 0x202f), (0x205f, 0x205f), (0x3000, 0x3000)]

/-- White space: what `trim` takes off. -/
def isBlank (c : Char) : Bool := blank.has c

/-- The text without the white space at its start. -/
def trimStart (s : List Char) : List Char := s.dropWhile isBlank

/-- The text without the white space at its end. -/
def trimEnd (s : List Char) : List Char := (s.reverse.dropWhile isBlank).reverse

/-- The text without the white space at either end. -/
def trim (s : List Char) : List Char := trimEnd (trimStart s)

/-- Nothing but white space. -/
def AllBlank (s : List Char) : Prop := ∀ c ∈ s, isBlank c = true

/-- The first text with white space around it is the second. -/
def Padded (s padded : List Char) : Prop :=
  ∃ front back, AllBlank front ∧ AllBlank back ∧ padded = front ++ s ++ back

/-- There is no white space at either end of the text. -/
def Bare (s : List Char) : Prop :=
  ∀ c, s.head? = some c ∨ s.getLast? = some c → isBlank c = false

/-- The first text has no white space at either end, and with white space around it is the
second.  This says without any reader what is to be left of a text that is trimmed. -/
def Core (core s : List Char) : Prop := Bare core ∧ Padded core s

/-- White space in front of a text does not get past `trimStart`. -/
theorem trimStart_append_left {front : List Char} (h : AllBlank front) (s : List Char) :
    trimStart (front ++ s) = trimStart s :=
  List.dropWhile_append_of_pos h

/-- White space behind a text does not get past `trimEnd`. -/
theorem trimEnd_append_right (s : List Char) {back : List Char} (h : AllBlank back) :
    trimEnd (s ++ back) = trimEnd s := by
  have hback : ∀ c ∈ back.reverse, isBlank c = true := fun c hc => h c (List.mem_reverse.1 hc)
  rw [trimEnd, List.reverse_append, List.dropWhile_append_of_pos hback, ← trimEnd]

/-- White space behind a text makes no difference to `trim`.  It is taken off from behind, unless
there is nothing else in the text: then it is gone before that. -/
theorem trim_append_right (s : List Char) {back : List Char} (h : AllBlank back) :
    trim (s ++ back) = trim s := by
  rw [trim, trim, trimStart, List.dropWhile_append]
  split
  next hnone =>
    -- all of `s` is white space, so all of `back` goes with it
    have hback : trimStart (back ++ []) = [] := trimStart_append_left h []
    rw [List.append_nil] at hback
    rw [show back.dropWhile isBlank = [] from hback, trimStart, List.isEmpty_iff.1 hnone]
  next => exact trimEnd_append_right _ h

/-- White space around a text is trimmed off with what the text has itself. -/
theorem Padded.trim_eq {s padded : List Char} (h : Padded s padded) : trim padded = trim s := by
  obtain ⟨front, back, hfront, hback, rfl⟩ := h
  rw [trim_append_right _ hback, trim, trimStart_append_left hfront, ← trim]

/-- `trimEnd` cuts white space off, and leaves what is in front of it alone. -/
theorem exists_trimEnd_append (s : List Char) : ∃ back, AllBlank back ∧ trimEnd s ++ back = s := by
  refine ⟨(s.reverse.takeWhile isBlank).reverse, fun c hc => ?_, ?_⟩
  · exact List.all_eq_true.1 List.all_takeWhile c (List.mem_reverse.1 hc)
  · rw [trimEnd, ← List.reverse_append, List.takeWhile_append_dropWhile, List.reverse_reverse]

/-- Only white space is trimmed off. -/
theorem padded_trim (s : List Char) : Padded (trim s) s := by
  obtain ⟨back, hback, hrest⟩ := exists_trimEnd_append (trimStart s)
  refine ⟨s.takeWhile isBlank, back, List.all_eq_true.1 List.all_takeWhile, hback, ?_⟩
  calc s = s.takeWhile isBlank ++ trimStart s := List.takeWhile_append_dropWhile.symm
    _ = s.takeWhile isBlank ++ (trim s ++ back) := by rw [trim, hrest]
    _ = s.takeWhile isBlank ++ trim s ++ back := (List.append_assoc ..).symm

/-- All white space at both ends is trimmed off. -/
theorem bare_trim (s : List Char) : Bare (trim s) := by
  have hfirst : ∀ {t : List Char} {c : Char}, (t.dropWhile isBlank).head? = some c →
      isBlank c = false := by
    intro t c hc
    have hhead := List.head?_dropWhile_not isBlank t
    rw [hc] at hhead
    exact hhead
  rintro c (hc | hc)
  · -- what `trimEnd` leaves begins as what it is given does
    obtain ⟨back, -, hrest⟩ := exists_trimEnd_append (trimStart s)
    have hstart : (trimStart s).head? = some c := by
      rw [← hrest, List.head?_append, show (trimEnd (trimStart s)).head? = some c from hc]
      rfl
    exact hfirst hstart
  · rw [trim, trimEnd, List.getLast?_reverse] at hc
    exact hfirst hc

/-- A text without white space at its ends stays as it is. -/
theorem Bare.trim_eq {s : List Char} (h : Bare s) : trim s = s := by
  have hstart : ∀ {t : List Char}, (∀ c, t.head? = some c → isBlank c = false) →
      t.dropWhile isBlank = t := by
    intro t ht
    cases t with
    | nil => rfl
    | cons c t => exact List.dropWhile_cons_of_neg (by simp [ht c rfl])
  have hend : s.reverse.dropWhile isBlank = s.reverse := hstart fun c hc =>
    h c (.inr (by rwa [List.head?_reverse] at hc))
  rw [trim, trimStart, hstart fun c hc => h c (.inl hc), trimEnd, hend, List.reverse_reverse]

/-- **What is left of a text when it is trimmed is its core,** and a text has no other core. -/
theorem core_iff {core s : List Char} : Core core s ↔ trim s = core := by
  refine ⟨fun ⟨hbare, hpadded⟩ => hpadded.trim_eq.trans hbare.trim_eq, ?_⟩
  rintro rfl
  exact ⟨bare_trim s, padded_trim s⟩

/-- A text without white space stays as it is. -/
theorem trim_eq_self {s : List Char} (h : ∀ c ∈ s, isBlank c = false) : trim s = s :=
  Bare.trim_eq fun c hc =>
    h c (hc.elim (fun hc => List.mem_of_mem_head? hc) fun hc => List.mem_of_getLast? hc)

/-- Nothing is left of a text of white space only. -/
theorem trim_eq_nil_iff {s : List Char} : trim s = [] ↔ AllBlank s := by
  constructor
  · intro h
    obtain ⟨front, back, hfront, hback, hs⟩ := h ▸ padded_trim s
    rw [hs, List.append_nil]
    exact fun c hc => (List.mem_append.1 hc).elim (hfront c) (hback c)
  · intro h
    have hpadded : Padded [] s := ⟨s, [], h, nofun, by simp⟩
    exact hpadded.trim_eq

/-- **A text is trimmed to a word if it is that word with white space around it,** and only then. -/
theorem trim_eq_iff {s word : List Char} (hword : trim word = word) :
    trim s = word ↔ Padded word s :=
  ⟨fun h => h ▸ padded_trim s, fun h => h.trim_eq.trans hword⟩

end Text

end TriggerWatch
