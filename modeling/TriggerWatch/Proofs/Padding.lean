/-
# What the environment says

Each of the two variables is read by itself.  A word counts with any white space around it, the same
as without; a text that is none of the words of its variable leaves the default and is mentioned in
the log, and all else leaves the default without a word.  `Config.readWord_fst_eq_iff` and
`Config.readWord_snd` say so of a single variable, and `Config.read_words` of the configuration as a
whole.
-/

import TriggerWatch.Config

namespace TriggerWatch
namespace Setting

/-- The variable is set to a word, with or without white space around it. -/
def Says (word : String) : Setting → Prop
  | .text value => Text.Padded word.toList value.toList
  | .unset | .undecodable => False

/-- The text that a variable is set to, less the white space around it, if that is none of the given
words. -/
def unknown? (words : List String) : Setting → Option (List Char)
  | .text value =>
    let word := Text.trim value.toList
    if word ∈ words.map String.toList then none else some word
  | .unset | .undecodable => none

/-- Two settings with the same text, but for the white space around it. -/
inductive SameWord : Setting → Setting → Prop where
  | unset : SameWord .unset .unset
  | undecodable : SameWord .undecodable .undecodable
  | text {word : List Char} {value value' : String} :
      Text.Padded word value.toList → Text.Padded word value'.toList →
      SameWord (.text value) (.text value')

end Setting

namespace Config

/-- What is logged about a variable. -/
def complaints (name : String) (words : List String) (setting : Setting) : List LogRecord :=
  (setting.unknown? words).toList.map (ignored name)

section

variable {α : Type} {name : String} {words : List (String × α)} {fallback : α} {setting : Setting}

/-- White space around a value makes no difference. -/
theorem readWord_congr {setting' : Setting} (h : setting.SameWord setting') :
    readWord name words fallback setting = readWord name words fallback setting' := by
  cases h with
  | unset | undecodable => rfl
  | text hvalue hvalue' => simp only [readWord, hvalue.trim_eq, hvalue'.trim_eq]

/-- A variable is complained about if it is set to a text that is none of its words. -/
theorem readWord_snd :
    (readWord name words fallback setting).2 = complaints name (words.map Prod.fst) setting := by
  cases setting with
  | unset | undecodable => rfl
  | text value =>
    simp only [readWord, complaints, Setting.unknown?]
    cases hfind : words.find? fun entry => entry.1.toList = Text.trim value.toList with
    | none =>
      have hnone : Text.trim value.toList ∉ (words.map Prod.fst).map String.toList := by
        simpa using hfind
      rw [if_neg hnone]
      rfl
    | some entry =>
      have hentry : entry.1.toList = Text.trim value.toList := by
        simpa using List.find?_some hfind
      have hmem : Text.trim value.toList ∈ (words.map Prod.fst).map String.toList :=
        hentry ▸ List.mem_map_of_mem (List.mem_map_of_mem (List.mem_of_find?_eq_some hfind))
      rw [if_pos hmem]
      rfl

/-- A word whose meaning is neither that of another word nor the default is understood, with any
white space around it, and nothing else is taken for it. -/
theorem readWord_fst_eq_iff {word : String} {a : α}
    (hword : Text.trim word.toList = word.toList) (hmem : (word, a) ∈ words)
    (honly : ∀ entry ∈ words, entry.2 = a ↔ entry.1 = word) (hfallback : fallback ≠ a) :
    (readWord name words fallback setting).1 = a ↔ setting.Says word := by
  cases setting with
  | unset | undecodable => exact iff_of_false hfallback not_false
  | text value =>
    rw [Setting.Says, ← Text.trim_eq_iff hword]
    simp only [readWord]
    cases hfind : words.find? fun entry => entry.1.toList = Text.trim value.toList with
    | none =>
      have hnone : word.toList ≠ Text.trim value.toList := by
        simpa using List.find?_eq_none.1 hfind _ hmem
      exact iff_of_false hfallback hnone.symm
    | some entry =>
      have hentry : entry.1.toList = Text.trim value.toList := by
        simpa using List.find?_some hfind
      rw [← hentry]
      exact (honly entry (List.mem_of_find?_eq_some hfind)).trans String.toList_inj.symm

end

/-- A text of white space only is complained about: none of the words is left of it. -/
theorem complaints_of_allBlank {words : List String} (hwords : ∀ word ∈ words, word.toList ≠ [])
    {value : String} (h : Text.AllBlank value.toList) (name : String) :
    complaints name words (.text value) = [ignored name []] := by
  have hnone : ([] : List Char) ∉ words.map String.toList := by
    simpa using fun hmem => hwords "" hmem rfl
  simp [complaints, Setting.unknown?, Text.trim_eq_nil_iff.2 h, hnone]

/-- **What the configuration is, and what is logged about it,** in every environment.  Each field is
what its variable says, with any white space around the word, and else its default; the other
variable plays no part in it.  A warning is logged about each variable that is set to a text that is
none of its words, white space alone included, the severity first.  White space that is put around
the values, or taken off them, makes no difference to either. -/
theorem read_words (environment : String → Setting) :
    let severity := environment severityVariable
    let captureStack := environment captureStackVariable
    let out := read environment
    (out.1.severity = .warn ↔ severity.Says "warn") ∧
    (out.1.severity = .error ↔ ¬ severity.Says "warn") ∧
    (out.1.captureStack = false ↔ captureStack.Says "0") ∧
    (out.1.captureStack = true ↔ ¬ captureStack.Says "0") ∧
    out.2 = complaints severityVariable ["error", "warn"] severity ++
      complaints captureStackVariable ["0", "1"] captureStack ∧
    (∀ record ∈ out.2, record.severity = .warn) ∧
    (∀ value, Text.AllBlank value.toList →
      (severity = .text value → ignored severityVariable [] ∈ out.2) ∧
      (captureStack = .text value → ignored captureStackVariable [] ∈ out.2)) ∧
    ∀ environment' : String → Setting,
      let severity' := environment' severityVariable
      let captureStack' := environment' captureStackVariable
      let out' := read environment'
      (severity' = severity → out'.1.severity = out.1.severity) ∧
      (captureStack' = captureStack → out'.1.captureStack = out.1.captureStack) ∧
      (severity.SameWord severity' → captureStack.SameWord captureStack' → out' = out) := by
  intro severity captureStack out
  have hseverity : out.1.severity = .warn ↔ severity.Says "warn" :=
    readWord_fst_eq_iff (by decide) (by decide) (by decide) (by decide)
  have hcaptureStack : out.1.captureStack = false ↔ captureStack.Says "0" :=
    readWord_fst_eq_iff (by decide) (by decide) (by decide) (by decide)
  have hlogs : out.2 = complaints severityVariable ["error", "warn"] severity ++
      complaints captureStackVariable ["0", "1"] captureStack := by
    simp only [out, read]
    rw [readWord_snd, readWord_snd]
    rfl
  refine ⟨hseverity, ?_, hcaptureStack, ?_, hlogs, ?_, ?_, ?_⟩
  · rw [← hseverity]
    cases out.1.severity <;> simp
  · rw [← hcaptureStack]
    cases out.1.captureStack <;> simp
  · intro record hrecord
    rw [hlogs, List.mem_append] at hrecord
    rcases hrecord with hrecord | hrecord <;>
      · obtain ⟨_, -, rfl⟩ := List.mem_map.1 hrecord
        rfl
  · intro value hvalue
    refine ⟨fun hset => ?_, fun hset => ?_⟩
    · rw [hlogs, hset, complaints_of_allBlank (by decide) hvalue]
      exact List.mem_append_left _ List.mem_cons_self
    · rw [hlogs, hset, complaints_of_allBlank (by decide) hvalue]
      exact List.mem_append_right _ List.mem_cons_self
  · intro environment' severity' captureStack' out'
    refine ⟨fun hsame => ?_, fun hsame => ?_, fun hsame hsame' => ?_⟩
    · exact congrArg (fun setting => (readWord severityVariable severityWords .error setting).1)
        hsame
    · exact congrArg
        (fun setting => (readWord captureStackVariable captureStackWords true setting).1) hsame
    · simp only [out', out, read]
      rw [← readWord_congr hsame, ← readWord_congr hsame']

/-- A word between white space of several kinds is understood; a zero with an invisible character in
front of it is not, since that is no white space. -/
theorem read_words_padded :
    let environment : String → Setting := fun name =>
      if name = severityVariable then .text "\u3000warn\n" else .text "\u200b0 "
    let trimmed : String → Setting := fun name =>
      if name = severityVariable then .text "warn" else .text "\u200b0"
    (read environment).1 = { severity := .warn, captureStack := true } ∧
      (read environment).2 = [ignored captureStackVariable "\u200b0".toList] ∧
      read trimmed = read environment := by
  intro environment trimmed
  obtain ⟨hwarn, -, -, hstack, hlogs, -, -, hpadding⟩ := read_words environment
  have hpadded : Text.Padded "warn".toList "\u3000warn\n".toList :=
    ⟨['\u3000'], ['\n'], List.forall_mem_singleton.2 rfl, List.forall_mem_singleton.2 rfl,
      by decide⟩
  have hpaddedZero : Text.Padded "\u200b0".toList "\u200b0 ".toList :=
    ⟨[], [' '], nofun, List.forall_mem_singleton.2 rfl, by decide⟩
  have hseverity : (environment severityVariable).SameWord (trimmed severityVariable) :=
    .text hpadded ⟨[], [], nofun, nofun, by decide⟩
  have hcaptureStack : (environment captureStackVariable).SameWord (trimmed captureStackVariable) :=
    .text hpaddedZero ⟨[], [], nofun, nofun, by decide⟩
  have hnotZero : ¬ (environment captureStackVariable).Says "0" := fun hsays =>
    absurd ((Text.trim_eq_iff (by decide)).2 hsays) (by decide)
  have hknown : (environment severityVariable).unknown? ["error", "warn"] = none := by decide
  have hunknown : (environment captureStackVariable).unknown? ["0", "1"] = some "\u200b0".toList :=
    by decide
  refine ⟨?_, ?_, (hpadding trimmed).2.2 hseverity hcaptureStack⟩
  · rw [← hwarn.2 hpadded, ← hstack.2 hnotZero]
  · rw [hlogs, complaints, complaints, hknown, hunknown]
    rfl

end Config
end TriggerWatch
