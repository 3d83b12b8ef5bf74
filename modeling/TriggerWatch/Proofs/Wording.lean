/-
# The wording of a violation

The log shows a violation as a single line of text, perhaps with the call stack on the lines below.
The parts of that text that vary are each ended by a character that does not occur in them, the
number of the model by a blank and the names by a comma or a bracket, so the text is that of one
violation only (`Violation.text_inj`).  There is no line break in it either, so the first line of a
message is the whole text (`Config.headline_record`).
-/

import TriggerWatch.Proofs.Lockstep

namespace TriggerWatch

namespace Text

/-- The part of a text before the first of a character goes on as long as there is none. -/
theorem takeWhile_ne_append {c : Char} {s : List Char} (h : c ∉ s) (rest : List Char) :
    (s ++ rest).takeWhile (· ≠ c) = s ++ rest.takeWhile (· ≠ c) :=
  List.takeWhile_append_of_pos fun _ hd => decide_eq_true fun heq => h (heq ▸ hd)

/-- What comes before the first of a character can be read off. -/
theorem takeWhile_ne_append_cons {c : Char} {s : List Char} (h : c ∉ s) (rest : List Char) :
    (s ++ c :: rest).takeWhile (· ≠ c) = s := by
  rw [takeWhile_ne_append h, List.takeWhile_cons_of_neg (by simp), List.append_nil]

/-- A text can be cut in one way only at the first of a character. -/
theorem append_cons_inj {c : Char} {s t : List Char} (hs : c ∉ s) (ht : c ∉ t)
    {rest rest' : List Char} : s ++ c :: rest = t ++ c :: rest' ↔ s = t ∧ rest = rest' := by
  refine ⟨fun h => ?_, fun ⟨hst, hrest⟩ => hst ▸ hrest ▸ rfl⟩
  have hst : s = t := by
    rw [← takeWhile_ne_append_cons hs rest, h, takeWhile_ne_append_cons ht rest']
  subst hst
  exact ⟨rfl, List.tail_eq_of_cons_eq (List.append_cancel_left h)⟩

end Text

/-! ### The names -/

/-- The names of the states on arrival are different. -/
theorem observedName_inj {o o' : Option ModelState} (h : observedName o = observedName o') :
    o = o' := by
  revert h
  rcases o with _ | _ | _ <;> rcases o' with _ | _ | _ <;> decide

/-- The names of the statuses are different. -/
theorem Status.name_inj {s s' : Status} (h : Code.name s = Code.name s') : s = s' := by
  revert h
  cases s <;> cases s' <;> decide

/-- The names of the kinds of events are different. -/
theorem EventKind.name_inj {k k' : EventKind} (h : k.name = k'.name) : k = k' := by
  revert h
  cases k <;> cases k' <;> decide

namespace Violation

/-- The text, each of its varying parts with the character that ends it. -/
theorem text_eq (v : Violation) :
    v.text = "Unexpected recognition event for model: ".toList ++ (Text.decimal v.model.toInt ++
      ' ' :: ("(expected armed, observed ".toList ++ ((observedName v.observed).toList ++
      ',' :: (" status ".toList ++ ((Code.name v.status).toList ++
      ',' :: ' ' :: (v.kind.name.toList ++ [')'])))))) := by
  have hexpected (rest : List Char) : " (expected ".toList ++ (ModelState.armed.name.toList ++
      (", observed ".toList ++ rest)) = ' ' :: ("(expected armed, observed ".toList ++ rest) := rfl
  have hstatus : ", status ".toList = ',' :: " status ".toList := by decide
  have hkind : ", ".toList = [',', ' '] := by decide
  unfold text
  rw [hstatus, hkind]
  -- left as a literal, the opening would be unfolded to its characters again and again
  generalize "Unexpected recognition event for model: ".toList = opening
  simp only [List.append_assoc, List.cons_append, List.nil_append, hexpected]

/-- No name of a state has a comma, so the next comma of the text ends it. -/
theorem comma_notMem_observedName (o : Option ModelState) : ',' ∉ (observedName o).toList := by
  rcases o with _ | _ | _ <;> simp [observedName, ModelState.name]

/-- Nor has a name of a status. -/
theorem comma_notMem_statusName (s : Status) : ',' ∉ (Code.name s).toList := by
  cases s <;> simp [Code.name]

/-- **A text is that of one violation only.** The parts that vary are read off one after the other,
each up to the character that ends it. -/
theorem text_inj {v w : Violation} : v.text = w.text ↔ v = w := by
  refine ⟨fun h => ?_, fun h => h ▸ rfl⟩
  rw [text_eq, text_eq] at h
  obtain ⟨hmodel, h⟩ := (Text.append_cons_inj (Text.notMem_decimal (by decide) (by decide))
    (Text.notMem_decimal (by decide) (by decide))).1 (List.append_cancel_left h)
  obtain ⟨hobserved, h⟩ := (Text.append_cons_inj (comma_notMem_observedName _)
    (comma_notMem_observedName _)).1 (List.append_cancel_left h)
  obtain ⟨hstatus, h⟩ := (Text.append_cons_inj (comma_notMem_statusName _)
    (comma_notMem_statusName _)).1 (List.append_cancel_left h)
  have hkind := List.append_cancel_right (List.tail_eq_of_cons_eq h)
  cases v
  cases w
  congr
  · exact EventKind.name_inj (String.toList_inj.1 hkind)
  · exact Int32.toInt_inj.1 (Text.eq_of_decimal_eq hmodel)
  · exact observedName_inj (String.toList_inj.1 hobserved)
  · exact Status.name_inj (String.toList_inj.1 hstatus)

/-- A text is a single line. -/
theorem newline_notMem_text (v : Violation) : '\n' ∉ v.text := by
  have hmodel : '\n' ∉ Text.decimal v.model.toInt := Text.notMem_decimal (by decide) (by decide)
  have hobserved : '\n' ∉ (observedName v.observed).toList := by
    rcases v.observed with _ | _ | _ <;> simp [observedName, ModelState.name]
  have hstatus : '\n' ∉ (Code.name v.status).toList := by
    cases v.status <;> simp [Code.name]
  have hkind : '\n' ∉ v.kind.name.toList := by
    cases v.kind <;> simp [EventKind.name]
  rw [text_eq]
  simp [hmodel, hobserved, hstatus, hkind]

end Violation

/-! ### Messages -/

/-- What the log shows of a violation. -/
theorem Config.message_record (config : Config) (v : Violation) (callStack : String) :
    ((config.record v).message callStack).toList =
      v.text ++ if config.captureStack then '\n' :: callStack.toList else [] := by
  unfold LogRecord.message record
  cases config.captureStack <;> simp

/-- **The first line of a message about a violation is its text.** -/
theorem Config.headline_record (config : Config) (v : Violation) (callStack : String) :
    headline ((config.record v).message callStack) = v.text := by
  rw [headline, message_record, Text.takeWhile_ne_append v.newline_notMem_text]
  cases config.captureStack <;> simp

/-- A message about a violation has a second line if the call stack is asked for. -/
theorem Config.newline_mem_message_record (config : Config) (v : Violation) (callStack : String) :
    '\n' ∈ ((config.record v).message callStack).toList ↔ config.captureStack = true := by
  rw [message_record, List.mem_append, or_iff_right v.newline_notMem_text]
  cases config.captureStack <;> simp

/-! ### What a reporter writes -/

namespace Passage

/-- A report logs the record that the reporter writes, if it writes one. -/
theorem logged_report (p : Passage) (id : Nat) (reporter : Reporter) (v : Violation) :
    logged (p.report id reporter v).moments = logged p.moments ++
      (reporter.record? v).toList.map fun record => (id, record) := by
  unfold report
  cases reporter.record? v <;> simp [Happening.record?]

/-- A reporter that is told of one violation after another writes one record after another. -/
theorem logged_foldl_report (id : Nat) (reporter : Reporter) (vs : List Violation) (p : Passage) :
    logged (vs.foldl (fun p v => p.report id reporter v) p).moments = logged p.moments ++
      (vs.filterMap reporter.record?).map fun record => (id, record) := by
  induction vs generalizing p with
  | nil => simp
  | cons v vs ih =>
    rw [List.foldl_cons, ih, logged_report]
    cases hrecord : reporter.record? v <;> simp [hrecord]

end Passage

/-- **Violations can be read back from the log.**  The text of a violation is that of no other, and
is a single line.  A reporter that writes to the log writes one record for each violation that it is
told about, in that order and of the severity that it is configured to.  The first line of what the
log shows of a record is the text of the violation, whatever the configurations and call stacks are,
and a line break with the call stack comes after it exactly if call stacks are asked for. -/
theorem Config.violations_legible :
    (∀ v w : Violation, v.text = w.text ↔ v = w) ∧ (∀ v : Violation, '\n' ∉ v.text) ∧
    ∀ config : Config,
      (∀ (id : Nat) (vs : List Violation) (p : Passage),
        logged (vs.foldl (fun p v => p.report id (.journal config) v) p).moments =
          logged p.moments ++ vs.map fun v => (id, config.record v)) ∧
      ∀ (v : Violation) (callStack : String),
        let message := (config.record v).message callStack
        (config.record v).severity = config.severity ∧
        headline message = v.text ∧
        (∀ (config' : Config) (w : Violation) (callStack' : String),
          headline message = headline ((config'.record w).message callStack') ↔ v = w) ∧
        message.toList = v.text ++ (if config.captureStack then '\n' :: callStack.toList else []) ∧
        ('\n' ∈ message.toList ↔ config.captureStack = true) := by
  refine ⟨fun v w => Violation.text_inj, Violation.newline_notMem_text, fun config =>
    ⟨fun id vs p => ?_, fun v callStack => ?_⟩⟩
  · have hrecord : (Reporter.journal config).record? = some ∘ config.record := rfl
    rw [Passage.logged_foldl_report, hrecord, List.filterMap_eq_map, List.map_map]
    rfl
  · intro message
    have hhead : headline message = v.text := config.headline_record v callStack
    refine ⟨rfl, hhead, fun config' w callStack' => ?_, config.message_record v callStack,
      config.newline_mem_message_record v callStack⟩
    rw [hhead, config'.headline_record, Violation.text_inj]

end TriggerWatch
