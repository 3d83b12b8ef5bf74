/-
# Failures of a call, and numbered variants

A call into a sound trigger HAL fails for one of the six reasons of `HalError`.
`CallError.message` is the wording that people and logs get to see.

Some enumerations of the interface travel as plain numbers: `RecognitionStatus`, `SoundModelType`
and `ModelParameter`.  Here such an enumeration lists its variants with their numbers, and the
readers are made from that list:

- `Code.ofInt64?` is `from_i64`: a signed word stands for the variant with exactly that number;
- `Code.ofUInt64?` is `from_u64`, which goes through the signed word with the same bits;
- `Code.ofInt32` is `try_from`, for a number on its way in: one that stands for no variant is a bad
  value.
-/

import TriggerWatch.Text.Numeral

namespace TriggerWatch

/-! ### Failures -/

/-- Why a call failed (`HalError`). -/
inductive CallError where
  /-- The process behind the interface is gone. -/
  | deadObject
  /-- The call is not allowed in the present state. -/
  | invalidOperation
  /-- An argument is out of range, or names a model that is not there. -/
  | badValue
  /-- The implementation is not ready yet. -/
  | notInitialized
  /-- A number whose meaning the implementation defines. -/
  | serviceSpecific (code : Int32)
  /-- The call did not get through. -/
  | transport (text : String)
  deriving DecidableEq

/-- The wording of a failure, as it is displayed. -/
def CallError.message : CallError → String
  | .deadObject => "HAL process died"
  | .invalidOperation => "invalid operation"
  | .badValue => "bad value"
  | .notInitialized => "not initialized"
  | .serviceSpecific code => "service specific error " ++ String.ofList (Text.decimal code.toInt)
  | .transport text => "transport error: " ++ text

/-! ### Looking up by key -/

/-- **What is found for a key is the entry with that key,** if no two entries share theirs. -/
theorem find?_key_eq_some_iff {α κ : Type} [DecidableEq κ] {key : α → κ} {entries : List α}
    (hinj : ∀ a ∈ entries, ∀ b ∈ entries, key a = key b → a = b) {k : κ} {entry : α} :
    (entries.find? fun e => key e = k) = some entry ↔ entry ∈ entries ∧ key entry = k := by
  constructor
  · intro h
    exact ⟨List.mem_of_find?_eq_some h, by simpa using List.find?_some h⟩
  · rintro ⟨hentry, rfl⟩
    cases hfind : entries.find? fun e => key e = key entry with
    | none => simpa using List.find?_eq_none.1 hfind entry hentry
    | some found =>
      have hkey : key found = key entry := by simpa using List.find?_some hfind
      rw [hinj found (List.mem_of_find?_eq_some hfind) entry hentry hkey]

/-! ### Numbered variants -/

/-- An enumeration whose variants have a name and a number each.  The name is what the variant is
shown as when it is debugged. -/
class Code (α : Type) where
  /-- All variants, in the order of their declaration. -/
  variants : List α
  /-- The number that stands for a variant. -/
  code : α → Int32
  /-- The name of a variant. -/
  name : α → String

namespace Code

variable {α : Type} [Code α]

/-- The variant whose number is the given word, all 64 bits compared (`from_i64`). -/
def ofInt64? (raw : Int64) : Option α :=
  (variants : List α).find? fun v => (code v).toInt64 = raw

/-- The variant of an unsigned word, which is read through the signed word with the same bits
(`from_u64`). -/
def ofUInt64? (raw : UInt64) : Option α := ofInt64? raw.toInt64

/-- The variant whose number is given (`try_from`); any other number is a bad value. -/
def ofInt32 (raw : Int32) : Except CallError α :=
  match ofInt64? raw.toInt64 with
  | some v => .ok v
  | none => .error .badValue

end Code

end TriggerWatch
