/-
# What is logged about a value

A value that is not understood comes from outside and may hold anything, line breaks and text that
looks like an escape included.  It is logged between quotes.  Each of its characters can be read off
the front of the quoted text, whatever comes after it (`Text.unquoteChar?_quotedChar`), so a quoted
text is that of one value only (`Text.quoted_inj`), and no line break is left in it
(`Text.newline_notMem_quoted`).  `Config.complaints_legible` says what this means for the log.
-/

import Mathlib.Tactic.SplitIfs
import TriggerWatch.Proofs.Padding
import TriggerWatch.Proofs.Wording

namespace TriggerWatch
namespace Text

/-! ### Quoted text is read back -/

/-- The character that is written as a backslash and the given one. -/
def escaped? : Char → Option Char
  | 't' => some '\t'
  | 'n' => some '\n'
  | 'r' => some '\r'
  | '0' => some '\x00'
  | '"' => some '"'
  | '\\' => some '\\'
  | _ => none

/-- The character that the front of a text between quotes stands for, and the text after it. -/
def unquoteChar? : List Char → Option (Char × List Char)
  | '\\' :: 'u' :: '\x7b' :: rest =>
    (hexValue? (rest.takeWhile (· ≠ '\x7d'))).map fun n =>
      (Char.ofNat n, (rest.dropWhile (· ≠ '\x7d')).tail)
  | '\\' :: d :: rest => (escaped? d).map fun c => (c, rest)
  | c :: rest => some (c, rest)
  | [] => none

/-- A code point ends at the brace, since there is none among its digits. -/
theorem unquoteChar?_codePoint (c : Char) (rest : List Char) :
    unquoteChar? ('\\' :: 'u' :: '\x7b' :: (hex c.toNat ++ '\x7d' :: rest)) = some (c, rest) := by
  have hdigits : ∀ d ∈ hex c.toNat, decide (d ≠ '\x7d') = true := fun d hd =>
    decide_eq_true fun heq => notMem_hex (by decide) (heq ▸ hd)
  rw [unquoteChar?, List.takeWhile_append_of_pos hdigits, List.dropWhile_append_of_pos hdigits]
  simp [hexValue?_hex, Char.ofNat_toNat]

/-- **The first character can be read off a quoted text,** whatever comes after it. -/
theorem unquoteChar?_quotedChar (c : Char) (rest : List Char) :
    unquoteChar? (quotedChar c ++ rest) = some (c, rest) := by
  unfold quotedChar
  split_ifs with htab hline hreturn hnull hquote hbackslash hcode
  · subst htab; rfl
  · subst hline; rfl
  · subst hreturn; rfl
  · subst hnull; rfl
  · subst hquote; rfl
  · subst hbackslash; rfl
  · simpa using unquoteChar?_codePoint c rest
  · simp [unquoteChar?, hbackslash]

/-- **A quoted text is that of one value only.** So nothing that a value holds can pass for the end
of the value, or for another value. -/
theorem quoted_inj {s t : List Char} : quoted s = quoted t ↔ s = t := by
  refine ⟨fun h => ?_, fun h => h ▸ rfl⟩
  have hinner := List.append_cancel_right (List.tail_eq_of_cons_eq h)
  clear h
  -- one character after the other is read off both texts
  induction s generalizing t with
  | nil =>
    cases t with
    | nil => rfl
    | cons d t =>
      have hread := congrArg unquoteChar? hinner
      rw [List.flatMap_cons, unquoteChar?_quotedChar] at hread
      exact absurd hread (Option.some_ne_none _).symm
  | cons c s ih =>
    have hread := congrArg unquoteChar? hinner
    rw [List.flatMap_cons, unquoteChar?_quotedChar] at hread
    cases t with
    | nil => exact absurd hread (Option.some_ne_none _)
    | cons d t =>
      rw [List.flatMap_cons, unquoteChar?_quotedChar] at hread
      obtain ⟨rfl, hrest⟩ := Prod.mk.inj (Option.some.inj hread)
      rw [ih hrest]

/-- No character is written with a line break, not even the line break. -/
theorem newline_notMem_quotedChar (c : Char) : '\n' ∉ quotedChar c := by
  have hcode : '\n' ∉ hex c.toNat := notMem_hex (by decide)
  unfold quotedChar
  split_ifs with htab hline
  case neg => exact fun h => hline (List.mem_singleton.1 h).symm
  all_goals simp [hcode]

/-- A quoted text is a single line. -/
theorem newline_notMem_quoted (s : List Char) : '\n' ∉ quoted s := by
  simp [quoted, newline_notMem_quotedChar]

end Text

namespace Config

/-- A value is ignored for a variable: it is none of the words for it, with or without white space
around the word. -/
inductive Ignores : String → String → Prop
  | severity {value : String} :
    (∀ word ∈ ["error", "warn"], ¬ Text.Padded word.toList value.toList) →
    Ignores severityVariable value
  | captureStack {value : String} :
    (∀ word ∈ ["0", "1"], ¬ Text.Padded word.toList value.toList) →
    Ignores captureStackVariable value

/-- What is left of a trimmed value is none of some words if the value is none of them with white
space around it, as long as the words have none themselves. -/
theorem trim_notMem_iff {words : List String}
    (hwords : ∀ word ∈ words, Text.trim word.toList = word.toList) (value : List Char) :
    Text.trim value ∉ words.map String.toList ↔
      ∀ word ∈ words, ¬ Text.Padded word.toList value := by
  rw [List.mem_map, not_exists]
  refine forall_congr' fun word => ?_
  rw [not_and]
  refine forall_congr' fun hword => not_congr ?_
  rw [← Text.trim_eq_iff (hwords word hword), eq_comm]

/-- A variable is complained about if it is set to a value that is none of its words, and what the
record shows of the value is its core. -/
theorem mem_complaints {name : String} {words : List String}
    (hwords : ∀ word ∈ words, Text.trim word.toList = word.toList) {setting : Setting}
    {record : LogRecord} : record ∈ complaints name words setting ↔
      ∃ value core, setting = .text value ∧
        (∀ word ∈ words, ¬ Text.Padded word.toList value.toList) ∧
        Text.Core core value.toList ∧ record = ignored name core := by
  cases setting with
  | unset | undecodable => simp [complaints, Setting.unknown?]
  | text value =>
    have hunknown := trim_notMem_iff hwords value.toList
    simp only [complaints, Setting.unknown?, Setting.text.injEq, Text.core_iff]
    split
    next hknown =>
      simp only [Option.toList_none, List.map_nil, List.not_mem_nil, false_iff]
      rintro ⟨_, core, rfl, hnone, -, -⟩
      exact hunknown.2 hnone hknown
    next hnone =>
      simp only [Option.toList_some, List.map_cons, List.map_nil, List.mem_singleton]
      constructor
      · rintro rfl
        exact ⟨value, _, rfl, hunknown.1 hnone, rfl, rfl⟩
      · rintro ⟨_, core, rfl, -, rfl, rfl⟩
        rfl

/-- **The log mentions the values that are ignored,** and nothing else. -/
theorem mem_snd_read {environment : String → Setting} {record : LogRecord} :
    record ∈ (read environment).2 ↔ ∃ name value core, Ignores name value ∧
      environment name = .text value ∧ Text.Core core value.toList ∧
      record = ignored name core := by
  simp only [read, readWord_snd, List.mem_append]
  rw [mem_complaints (by decide), mem_complaints (by decide)]
  constructor
  · rintro (⟨value, core, hset, hnone, hcore, rfl⟩ | ⟨value, core, hset, hnone, hcore, rfl⟩)
    · exact ⟨_, value, core, .severity hnone, hset, hcore, rfl⟩
    · exact ⟨_, value, core, .captureStack hnone, hset, hcore, rfl⟩
  · rintro ⟨name, value, core, hnone | hnone, hset, hcore, rfl⟩
    · exact .inl ⟨value, core, hset, hnone, hcore, rfl⟩
    · exact .inr ⟨value, core, hset, hnone, hcore, rfl⟩

/-- The text of a record about a value, cut at the equals sign. -/
theorem toList_text_ignored (name : String) (core : List Char) : (ignored name core).text.toList =
    "Ignoring ".toList ++ (name.toList ++ '=' :: Text.quoted core) := by
  simp [ignored]

/-- The names of the variables have no equals sign in them, so the first one in a record ends the
name. -/
theorem Ignores.equals_notMem {name value : String} (h : Ignores name value) :
    '=' ∉ name.toList := by
  cases h <;> decide

/-- A record about a value is a single line: neither the name nor the quoted value breaks it. -/
theorem Ignores.newline_notMem {name value : String} (h : Ignores name value) (core : List Char) :
    '\n' ∉ (ignored name core).text.toList := by
  have hname : '\n' ∉ name.toList := by cases h <;> decide
  rw [toList_text_ignored]
  simp [hname, Text.newline_notMem_quoted]

/-- **The log cannot be forged through a value that is ignored.**

Every value has one core, that is, the text without white space at either end that it is with white
space around it.  What is logged while the environment is read are the records about the values that
are ignored, each of which shows the core of its value.  Whatever the value holds, the log shows the
record as a single line, with nothing after the text; and two such records have the same text if and
only if they are about the same variable and about values with the same core. -/
theorem complaints_legible :
    (∀ value : List Char, ∃! core, Text.Core core value) ∧
    (∀ (environment : String → Setting) (record : LogRecord), record ∈ (read environment).2 ↔
      ∃ name value core, Ignores name value ∧ environment name = .text value ∧
        Text.Core core value.toList ∧ record = ignored name core) ∧
    ∀ name value core, Ignores name value → Text.Core core value.toList →
      let record := ignored name core
      record.text = "Ignoring " ++ name ++ "=" ++ String.ofList (Text.quoted core) ∧
      '\n' ∉ record.text.toList ∧
      (∀ callStack, record.message callStack = record.text) ∧
      ∀ name' value' core', Ignores name' value' → Text.Core core' value'.toList →
        (record.text = (ignored name' core').text ↔
          name = name' ∧ ∃ word, Text.Core word value.toList ∧ Text.Core word value'.toList) := by
  refine ⟨fun value => ⟨_, Text.core_iff.2 rfl, fun core hcore => (Text.core_iff.1 hcore).symm⟩,
    fun _ _ => mem_snd_read, fun name value core h hcore => ⟨rfl, h.newline_notMem core,
    fun _ => rfl, fun name' value' core' h' hcore' => ⟨fun htext => ?_, ?_⟩⟩⟩
  · have hlist := congrArg String.toList htext
    rw [toList_text_ignored, toList_text_ignored] at hlist
    obtain ⟨hname, hquoted⟩ := (Text.append_cons_inj h.equals_notMem h'.equals_notMem).1
      (List.append_cancel_left hlist)
    obtain rfl := Text.quoted_inj.1 hquoted
    exact ⟨String.toList_inj.1 hname, core, hcore, hcore'⟩
  · rintro ⟨rfl, word, hword, hword'⟩
    have heq : core = core' := by
      rw [← Text.core_iff.1 hcore, ← Text.core_iff.1 hcore', Text.core_iff.1 hword,
        Text.core_iff.1 hword']
    rw [heq]

/-- A value with a line break and a backslash in it.  With white space around it, a wide space and
one that breaks the line among it, it is logged the same; the value that looks like its quoted form
is logged differently. -/
theorem complaints_legible_escape :
    let value := "warn\n\\"
    let padded := "\u3000warn\n\\ \n"
    let lookalike := "warn\\n\\\\"
    Ignores severityVariable value ∧ Ignores severityVariable padded ∧
      Ignores severityVariable lookalike ∧
      Text.Core value.toList value.toList ∧ Text.Core value.toList padded.toList ∧
      (∀ environment, environment severityVariable = .text padded →
        ignored severityVariable value.toList ∈ (read environment).2) ∧
      '\n' ∉ (ignored severityVariable value.toList).text.toList ∧
      (∀ core, Text.Core core padded.toList → (ignored severityVariable value.toList).text =
        (ignored severityVariable core).text) ∧
      ∀ core, Text.Core core lookalike.toList → (ignored severityVariable value.toList).text ≠
        (ignored severityVariable core).text := by
  intro value padded lookalike
  have hignores : ∀ {value : String},
      Text.trim value.toList ∉ ["error", "warn"].map String.toList →
        Ignores severityVariable value := fun h =>
    .severity ((trim_notMem_iff (by decide) _).1 h)
  have hvalue : Ignores severityVariable value := hignores (by decide)
  have hpadded : Ignores severityVariable padded := hignores (by decide)
  have hlookalike : Ignores severityVariable lookalike := hignores (by decide)
  have hcore : Text.Core value.toList value.toList := Text.core_iff.2 (by decide)
  have hcorePadded : Text.Core value.toList padded.toList := Text.core_iff.2 (by decide)
  obtain ⟨-, hlogged, htexts⟩ := complaints_legible
  obtain ⟨-, hline, -, hinj⟩ := htexts severityVariable value value.toList hvalue hcore
  refine ⟨hvalue, hpadded, hlookalike, hcore, hcorePadded, fun environment hset => ?_, hline,
    fun core hcore' => ?_, fun core hcore' htext => ?_⟩
  · exact (hlogged environment _).2 ⟨_, _, _, hpadded, hset, hcorePadded, rfl⟩
  · exact (hinj severityVariable padded core hpadded hcore').2 ⟨rfl, _, hcore, hcorePadded⟩
  · obtain ⟨-, word, hword, hword'⟩ :=
      (hinj severityVariable lookalike core hlookalike hcore').1 htext
    have hsame := (Text.core_iff.1 hword).trans (Text.core_iff.1 hword').symm
    exact absurd hsame (by decide)

end Config
end TriggerWatch
