/-
# Flag sets are read back from their text

A flag text stands for a set whatever the order of its parts, however often each is there, and
whatever white space is around them (`Spelled`).  That no bit is lost between the writer and the
reader rests on two facts about a single part: what it is read as is in the set
(`FlagSet.exists_reading`), and each bit of the set is in what some part is read as
(`FlagSet.exists_part`).  The reader puts together what it reads, so nothing is left but to see that
it finds the parts again, between the bars and without the white space
(`Spelled.map_trim_splitOn`).  `FlagSet.flags_survive_text` is the result.
-/

import Mathlib.Data.List.Nodup
import TriggerWatch.Code
import TriggerWatch.Flag.Bits
import TriggerWatch.Flag.Text
import TriggerWatch.Sound

namespace TriggerWatch

/-- A text of at least one character, with no white space and no bar in it. -/
def Compact (part : List Char) : Prop :=
  part ≠ [] ∧ ∀ c ∈ part, Text.isBlank c = false ∧ c ≠ '|'

instance : DecidablePred Compact := fun part =>
  decidable_of_iff
    ((!part.isEmpty && part.all fun c => !Text.isBlank c && c != '|') = true) (by simp [Compact])

/-- Texts in which the parts stand one after the other, with a bar between any two and white space
around each. -/
inductive Spelled : List (List Char) → List Char → Prop
  | last {part s : List Char} : Text.Padded part s → Spelled [part] s
  | cons {part s rest : List Char} {parts : List (List Char)} :
    Text.Padded part s → Spelled parts rest → Spelled (part :: parts) (s ++ '|' :: rest)

/-- A family whose names are told apart from one another, and from numbers. -/
class FlagFamily.Legible (family : FlagFamily) : Prop where
  compact : ∀ flag ∈ family.flags, Compact flag.1.toList
  notNumber : ∀ flag ∈ family.flags, flag.1.toList.head? ≠ some '0'
  names : (family.flags.map Prod.fst).Nodup

/-! ### Parts and the texts in which they stand -/

namespace Text

variable {part s : List Char}

/-- White space around a compact part brings in no bar, so the padded part is not cut in two. -/
theorem Padded.bar_notMem (h : Padded part s) (hcompact : Compact part) : '|' ∉ s := by
  obtain ⟨front, back, hfront, hback, rfl⟩ := h
  have hblank : ∀ {s : List Char}, AllBlank s → '|' ∉ s := fun hs hbar =>
    absurd (hs '|' hbar) (by decide)
  have hpart : '|' ∉ part := fun hbar => (hcompact.2 '|' hbar).2 rfl
  simp [hblank hfront, hblank hback, hpart]

/-- Trimming takes the white space away again, since a compact part has none at its ends. -/
theorem Padded.trim_of_compact (h : Padded part s) (hcompact : Compact part) : trim s = part :=
  h.trim_eq.trans (trim_eq_self fun c hc => (hcompact.2 c hc).1)

end Text

namespace Spelled

variable {parts : List (List Char)} {s : List Char}

/-- More white space may stand in front. -/
theorem append_left (h : Spelled parts s) {front : List Char} (hfront : Text.AllBlank front) :
    Spelled parts (front ++ s) := by
  have hpadded : ∀ {part s : List Char}, Text.Padded part s → Text.Padded part (front ++ s) := by
    rintro part s ⟨front', back, hfront', hback, rfl⟩
    refine ⟨front ++ front', back, fun c hc => ?_, hback, by simp⟩
    exact (List.mem_append.1 hc).elim (hfront c) (hfront' c)
  cases h with
  | last hpart => exact .last (hpadded hpart)
  | cons hpart hrest =>
    rw [← List.append_assoc]
    exact .cons (hpadded hpart) hrest

/-- Parts that are joined by bars with a space on either side. -/
theorem intercalate (hparts : parts ≠ []) : Spelled parts ([' ', '|', ' '].intercalate parts) := by
  have hspace : Text.AllBlank [' '] := List.forall_mem_singleton.2 rfl
  induction parts with
  | nil => exact absurd rfl hparts
  | cons part parts ih =>
    cases parts with
    | nil =>
      rw [List.intercalate_singleton]
      exact .last ⟨[], [], nofun, nofun, by simp⟩
    | cons next parts =>
      have hpart : Text.Padded part (part ++ [' ']) := ⟨[], [' '], nofun, hspace, by simp⟩
      rw [List.intercalate_cons_cons]
      simpa using Spelled.cons hpart ((ih (by simp)).append_left hspace)

/-- **The parts are found again** between the bars, once the white space is off. -/
theorem map_trim_splitOn (h : Spelled parts s) (hcompact : ∀ part ∈ parts, Compact part) :
    (s.splitOn '|').map Text.trim = parts := by
  induction h with
  | last hpart =>
    have hlast := hcompact _ List.mem_cons_self
    rw [List.splitOn_eq_singleton (hpart.bar_notMem hlast), List.map_singleton,
      hpart.trim_of_compact hlast]
  | cons hpart hrest ih =>
    obtain ⟨hfirst, hothers⟩ := List.forall_mem_cons.1 hcompact
    rw [List.splitOn_append_cons_self_of_not_mem (hpart.bar_notMem hfirst), List.map_cons,
      hpart.trim_of_compact hfirst, ih hothers]

end Spelled

/-! ### What a part is read as -/

namespace FlagSet

variable {family : FlagFamily} {a : FlagSet family} {part : List Char}

/-- A number is written compactly: two characters of prefix, and digits. -/
theorem compact_numberText (bits : UInt32) : Compact (numberText bits) := by
  have hdigit : ∀ d < 16, Text.isBlank d.digitChar = false ∧ d.digitChar ≠ '|' := by decide
  refine ⟨List.cons_ne_nil _ _, fun c hc => ?_⟩
  rcases List.mem_cons.1 hc with rfl | hc
  · decide
  rcases List.mem_cons.1 hc with rfl | hc
  · decide
  obtain ⟨d, hd, rfl⟩ := Text.exists_digitChar_of_mem_hex hc
  exact hdigit d hd

/-- Digits without a plus sign are read as their value, if that is a word. -/
theorem word?_of_value {digits : List Char} {bits : UInt32} (hplus : '+' ∉ digits)
    (hvalue : Text.hexValue? digits = some bits.toNat) : word? digits = some bits := by
  unfold word?
  split
  next => exact absurd List.mem_cons_self hplus
  next => simp [hvalue, bits.toNat_lt]

/-- **A number is read as the word that it was written for.** -/
theorem parsePiece_numberText (bits : UInt32) :
    parsePiece family (numberText bits) = .ok ⟨bits⟩ := by
  have hword : word? (Text.hex bits.toNat) = some bits :=
    word?_of_value (Text.notMem_hex (by decide)) (Text.hexValue?_hex _)
  simp only [numberText, parsePiece, hword]

/-- A list of parts is read as all that its parts are read as, put together. -/
theorem parsePieces_eq_ok {pieces : List (List Char)}
    (h : ∀ piece ∈ pieces, ∃ x, parsePiece family (Text.trim piece) = .ok x) :
    ∃ b, parsePieces family pieces = .ok b ∧ ∀ i, i ∈ b ↔
      ∃ piece ∈ pieces, ∃ x, parsePiece family (Text.trim piece) = .ok x ∧ i ∈ x := by
  induction pieces with
  | nil => exact ⟨{}, rfl, by simp⟩
  | cons piece pieces ih =>
    obtain ⟨⟨x, hx⟩, hrest⟩ := List.forall_mem_cons.1 h
    obtain ⟨b, hb, hmem⟩ := ih hrest
    refine ⟨x.union b, ?_, fun i => ?_⟩
    · simp [parsePieces, hx, hb, bind, Except.bind, pure, Except.pure]
    · simp [hmem, hx]

/-! ### What the parts of a set are read as -/

/-- The parts of the text of a set. -/
def parts (a : FlagSet family) : List (List Char) :=
  if a.bits = 0 then [numberText 0] else a.pieceTexts

/-- The parts of a set that has any bits: the names of its flags, and its unnamed bits. -/
theorem mem_pieceTexts : part ∈ a.pieceTexts ↔
    (∃ flag ∈ a.named, part = flag.1.toList) ∨ a.unnamed ≠ 0 ∧ part = numberText a.unnamed := by
  unfold pieceTexts
  split
  next hzero => simp [hzero, eq_comm]
  next hnonzero => simp [hnonzero, eq_comm]

section

variable [family.Separate]

/-- A text has at least one part; that of the empty set is the empty part. -/
theorem parts_ne_nil (a : FlagSet family) : a.parts ≠ [] := by
  unfold parts
  split
  next => exact List.cons_ne_nil _ _
  next hnonzero =>
    intro hnil
    obtain ⟨hnamed, hunnamed⟩ := List.append_eq_nil_iff.1 hnil
    have hpieces : a.pieces = [] := by
      unfold pieces
      rw [List.map_eq_nil_iff.1 hnamed]
      split <;> simp_all
    exact hnonzero (congrArg bits (hpieces ▸ a.unite_pieces).symm)

/-- The text of a set is made of its parts. -/
theorem spelled_text (a : FlagSet family) : Spelled a.parts a.text := by
  have htext : a.text = [' ', '|', ' '].intercalate a.parts := by
    unfold text parts
    split <;> simp
  exact htext ▸ Spelled.intercalate a.parts_ne_nil

end

variable [family.Legible]

/-- **A name is read as the flag that has it.** It is not taken for a number, and no other flag has
the same name. -/
theorem parsePiece_name {flag : String × UInt32} (hflag : flag ∈ family.flags) :
    parsePiece family flag.1.toList = .ok ⟨flag.2⟩ := by
  have hinj : ∀ f ∈ family.flags, ∀ f' ∈ family.flags, f.1.toList = f'.1.toList → f = f' :=
    fun f hf f' hf' h =>
      List.inj_on_of_nodup_map FlagFamily.Legible.names hf hf' (String.toList_inj.1 h)
  have hfind := (find?_key_eq_some_iff hinj).2 ⟨hflag, rfl⟩
  have hnumber := FlagFamily.Legible.notNumber flag hflag
  have hne := (FlagFamily.Legible.compact flag hflag).1
  unfold parsePiece
  split
  next hnil => exact absurd hnil hne
  next hzero => exact absurd (by rw [hzero]; rfl) hnumber
  next => rw [hfind]

/-- **Each part of a text is compact,** be it a name or a number, so white space may be put around
it. -/
theorem compact_of_mem_parts (h : part ∈ a.parts) : Compact part := by
  unfold parts at h
  split at h
  · exact List.mem_singleton.1 h ▸ compact_numberText 0
  · rcases mem_pieceTexts.1 h with ⟨flag, hflag, rfl⟩ | ⟨-, rfl⟩
    · exact FlagFamily.Legible.compact flag (mem_named.1 hflag).1
    · exact compact_numberText _

variable [family.Separate]

/-- **What a part of a set is read as is in the set,** so the reader adds no bit. -/
theorem exists_reading (h : part ∈ a.parts) :
    ∃ x, parsePiece family part = .ok x ∧ ∀ i, i ∈ x → i ∈ a := by
  have hpiece : ∀ x ∈ a.pieces, ∀ i, i ∈ x → i ∈ a := fun x hx i hi =>
    a.unite_pieces ▸ mem_unite.2 ⟨x, hx, hi⟩
  unfold parts at h
  split at h
  next hzero =>
    obtain rfl := List.mem_singleton.1 h
    exact ⟨⟨0⟩, parsePiece_numberText 0, fun i hi => absurd hi notMem_empty⟩
  next hnonzero =>
    rcases mem_pieceTexts.1 h with ⟨flag, hflag, rfl⟩ | ⟨hunnamed, rfl⟩
    · exact ⟨_, parsePiece_name (mem_named.1 hflag).1,
        hpiece _ (mem_pieces.2 (.inl ⟨flag, hflag, rfl⟩))⟩
    · exact ⟨_, parsePiece_numberText _, hpiece _ (mem_pieces.2 (.inr ⟨hunnamed, rfl⟩))⟩

/-- **Each bit of a set is in what some part is read as,** so the reader loses no bit. -/
theorem exists_part {i : Nat} (h : i ∈ a) :
    ∃ part ∈ a.parts, ∃ x, parsePiece family part = .ok x ∧ i ∈ x := by
  have hnonzero : a.bits ≠ 0 := fun hzero => by simp [mem_def, hzero] at h
  rw [parts, if_neg hnonzero]
  obtain ⟨x, hx, hi⟩ := mem_unite.1 (a.unite_pieces.symm ▸ h)
  rcases mem_pieces.1 hx with ⟨flag, hflag, rfl⟩ | ⟨hunnamed, rfl⟩
  · have hread := parsePiece_name (mem_named.1 hflag).1
    exact ⟨_, mem_pieceTexts.2 (.inl ⟨flag, hflag, rfl⟩), _, hread, hi⟩
  · exact ⟨_, mem_pieceTexts.2 (.inr ⟨hunnamed, rfl⟩), _, parsePiece_numberText _, hi⟩

/-- **A text that is made of the parts of a set stands for the set.** -/
theorem parse_of_spelled {parts : List (List Char)} {s : List Char}
    (hparts : ∀ part, part ∈ parts ↔ part ∈ a.parts) (h : Spelled parts s) :
    parse family s = .ok a := by
  have hcompact : ∀ part ∈ parts, Compact part := fun part hpart =>
    compact_of_mem_parts ((hparts part).1 hpart)
  have hsplit := h.map_trim_splitOn hcompact
  have hmem : ∀ {piece}, piece ∈ s.splitOn '|' → Text.trim piece ∈ a.parts := fun hpiece =>
    (hparts _).1 (hsplit ▸ List.mem_map_of_mem hpiece)
  have hreads : ∀ piece ∈ s.splitOn '|', ∃ x, parsePiece family (Text.trim piece) = .ok x :=
    fun piece hpiece => (exists_reading (hmem hpiece)).imp fun _ hx => hx.1
  obtain ⟨b, hb, hbits⟩ := parsePieces_eq_ok hreads
  -- a bit comes from a part that is read as some of the set, and from one part at least
  have hsame : b = a := by
    refine ext_mem fun i => (hbits i).trans ⟨?_, fun hi => ?_⟩
    · rintro ⟨piece, hpiece, x, hx, hi⟩
      obtain ⟨x', hx', hsub⟩ := exists_reading (hmem hpiece)
      obtain rfl := Except.ok.inj (hx.symm.trans hx')
      exact hsub i hi
    · obtain ⟨part, hpart, x, hx, hplace⟩ := exists_part hi
      obtain ⟨piece, hpiece, rfl⟩ := List.mem_map.1 (hsplit.symm ▸ (hparts part).2 hpart)
      exact ⟨piece, hpiece, x, hx, hplace⟩
  -- a blank text stands for the empty set, but a text with parts in it is not blank
  have hnonblank : Text.trim s ≠ [] := fun hblank => by
    have hbar : '|' ∉ s := fun hbar => absurd (Text.trim_eq_nil_iff.1 hblank '|' hbar) (by decide)
    rw [List.splitOn_eq_singleton hbar] at hsplit
    exact (hcompact _ (hsplit ▸ List.mem_cons_self)).1 hblank
  rw [parse, if_neg hnonblank, hb, hsame]

end FlagSet

/-! ### The families of the interface -/

instance : recognitionModes.Separate where
  single := by decide
  distinct := by decide

instance : audioCapabilities.Separate where
  single := by decide
  distinct := by decide

instance : recognitionModes.Legible where
  compact := by decide
  notNumber := by decide
  names := by simp [recognitionModes]

instance : audioCapabilities.Legible where
  compact := by decide
  notNumber := by decide
  names := by simp [audioCapabilities]

namespace FlagSet

/-- **Flag sets survive their text form,** bits without a name included.  The pieces that a set is
taken apart into share no bit, and put together they are the set.  What stands between the
parentheses in the titled text of a set is read as that set, and so is every text that is made of
the same parts, in any order, with repetitions, and with any white space around them. -/
theorem flags_survive_text (family : FlagFamily)
    (hfamily : family ∈ [recognitionModes, audioCapabilities]) (a : FlagSet family) :
    a.pieces.Pairwise (fun x y => x.intersects y = false) ∧ unite a.pieces = a ∧
    (∀ s, a.titledText = family.title.toList ++ '(' :: (s ++ [')']) → parse family s = .ok a) ∧
    ∀ parts s, (∀ part, part ∈ parts ↔ part ∈ a.parts) → Spelled parts s →
      parse family s = .ok a := by
  have hlawful : family.Separate ∧ family.Legible := by
    rcases List.mem_pair.1 hfamily with rfl | rfl <;> exact ⟨inferInstance, inferInstance⟩
  obtain ⟨_, _⟩ := hlawful
  refine ⟨a.pairwise_pieces, a.unite_pieces, fun s hs => ?_, fun parts s => parse_of_spelled⟩
  have htext : a.text = s := by simpa [titledText] using hs
  exact htext ▸ parse_of_spelled (fun _ => Iff.rfl) a.spelled_text

/-- A set with an unnamed bit, its parts in another order, one of them twice. -/
theorem flags_survive_text_shuffled :
    let a : FlagSet recognitionModes := ⟨0x12⟩
    let s := "\t0x10|USER_IDENTIFICATION \n| 0x10\u3000".toList
    recognitionModes ∈ [recognitionModes, audioCapabilities] ∧
      a.titledText = "RecognitionModes(USER_IDENTIFICATION | 0x10)".toList ∧
      parse recognitionModes "USER_IDENTIFICATION | 0x10".toList = .ok a ∧
      Spelled ["0x10".toList, "USER_IDENTIFICATION".toList, "0x10".toList] s ∧
      parse recognitionModes s = .ok a := by
  intro a s
  have hfamily : recognitionModes ∈ [recognitionModes, audioCapabilities] := List.mem_cons_self
  obtain ⟨-, -, htitled, hspelled⟩ := flags_survive_text recognitionModes hfamily a
  have htext : a.titledText = "RecognitionModes(USER_IDENTIFICATION | 0x10)".toList := by decide
  have hparts : a.parts = ["USER_IDENTIFICATION".toList, "0x10".toList] := by decide
  have hs : Spelled ["0x10".toList, "USER_IDENTIFICATION".toList, "0x10".toList] s := by
    refine .cons (s := "\t0x10".toList) ⟨['\t'], [], ?_, nofun, by decide⟩ <|
      .cons (s := "USER_IDENTIFICATION \n".toList) ⟨[], [' ', '\n'], nofun, ?_, by decide⟩ <|
      .last ⟨[' '], ['\u3000'], ?_, ?_, by decide⟩
    all_goals exact List.all_eq_true.1 (by decide)
  refine ⟨hfamily, htext, htitled _ (htext.trans (by decide)), hs, hspelled _ s (fun part => ?_) hs⟩
  rw [hparts]
  grind

end FlagSet
end TriggerWatch
