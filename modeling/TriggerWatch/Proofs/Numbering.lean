/-
# Numbers and the variants they stand for

The numbers of an enumeration of the interface are distinct, so a signed word stands for one variant
at most, the one with that number (`Code.ofInt64?_eq_some_iff`), and each variant is read back from
its number.  `Code.signed_reading` says so of the three enumerations, and what it means for events:
the number that an event's status is read from tells whether the event leaves its model armed.

An unsigned word is read through the signed word with the same bits (`Code.toInt_toInt64`).  Below
half of the range that is the same number, but the greatest unsigned word has the bits of -1, and
one parameter of models has that number.  `Code.unsigned_reading` says that this is the only word
taken for a variant with another number.
-/

import Mathlib.Algebra.Group.Int.Defs
import Mathlib.Algebra.Group.Nat.Defs
import TriggerWatch.Code
import TriggerWatch.Proofs.Arrival

namespace TriggerWatch

/-- An enumeration whose list of variants is complete, and whose numbers are distinct. -/
class LawfulCode (α : Type) [Code α] : Prop where
  mem_variants : ∀ v : α, v ∈ (Code.variants : List α)
  code_inj : ∀ v w : α, Code.code v = Code.code w → v = w

instance : LawfulCode Status where
  mem_variants v := by cases v <;> decide
  code_inj v w := by cases v <;> cases w <;> decide

instance : LawfulCode ModelType where
  mem_variants v := by cases v <;> decide
  code_inj v w := by cases v <;> cases w <;> decide

instance : LawfulCode ModelParameter where
  mem_variants v := by cases v <;> decide
  code_inj v w := by cases v <;> cases w <;> decide

namespace Code

/-! ### Reading a number -/

section

variable {α : Type} [Code α] {v : α}

/-- Comparing all 64 bits is comparing the two numbers, since a variant's number keeps its value
when it is widened. -/
theorem toInt64_code_eq_iff {raw : Int64} :
    (code v).toInt64 = raw ↔ (code v).toInt = raw.toInt := by
  rw [← Int64.toInt_inj, Int32.toInt_toInt64]

/-- A number of 32 bits is read as the word of 64 bits with the same value. -/
theorem ofInt32_eq_ok_iff {n : Int32} :
    (ofInt32 n : Except CallError α) = .ok v ↔ ofInt64? n.toInt64 = some v := by
  unfold ofInt32
  cases (ofInt64? n.toInt64 : Option α) <;> simp

variable [LawfulCode α]

/-- **A signed word stands for the variant with exactly that number.** -/
theorem ofInt64?_eq_some_iff {raw : Int64} :
    ofInt64? raw = some v ↔ (code v).toInt = raw.toInt := by
  have hinj : ∀ w ∈ (variants : List α), ∀ w' ∈ (variants : List α),
      (code w).toInt64 = (code w').toInt64 → w = w' := fun w _ w' _ h => by
    rw [toInt64_code_eq_iff, Int32.toInt_toInt64, Int32.toInt_inj] at h
    exact LawfulCode.code_inj w w' h
  rw [ofInt64?, find?_key_eq_some_iff hinj, and_iff_right (LawfulCode.mem_variants v),
    toInt64_code_eq_iff]

/-- A number is read as a variant just if it is the number of that variant. -/
theorem ofInt32_eq_ok_iff_code {n : Int32} :
    (ofInt32 n : Except CallError α) = .ok v ↔ code v = n := by
  rw [ofInt32_eq_ok_iff, ofInt64?_eq_some_iff, Int32.toInt_toInt64, Int32.toInt_inj]

/-- A number that stands for no variant is a bad value. -/
theorem ofInt32_eq_badValue {n : Int32} (h : ∀ v : α, code v ≠ n) :
    (ofInt32 n : Except CallError α) = .error .badValue := by
  have hnone : (ofInt64? n.toInt64 : Option α) = none :=
    Option.eq_none_iff_forall_not_mem.2 fun v hv =>
      h v (ofInt32_eq_ok_iff_code.1 (ofInt32_eq_ok_iff.2 hv))
  rw [ofInt32, hnone]

end

/-! ### Signed words -/

/-- A signed word is read as the variant with exactly that number, so no two words are read as the
same variant, and each variant is read back from its number. -/
structure ReadsSigned (α : Type) [Code α] : Prop where
  exact : ∀ (raw : Int64) (v : α), ofInt64? raw = some v ↔ (code v).toInt = raw.toInt
  injective : ∀ (raw raw' : Int64) (v : α), ofInt64? raw = some v → ofInt64? raw' = some v →
    raw = raw'
  decodes : ∀ v : α, ofInt64? (code v).toInt64 = some v

/-- A number of 32 bits is read as the variant with that number, in agreement with the word of 64
bits of the same value, and is a bad value if there is none. -/
structure ReadsNumber (α : Type) [Code α] : Prop where
  exact : ∀ (n : Int32) (v : α), (ofInt32 n : Except CallError α) = .ok v ↔ code v = n
  bad : ∀ n : Int32, (∀ v : α, code v ≠ n) → (ofInt32 n : Except CallError α) = .error .badValue
  agrees : ∀ (n : Int32) (v : α),
    (ofInt32 n : Except CallError α) = .ok v ↔ ofInt64? n.toInt64 = some v

section

variable (α : Type) [Code α] [LawfulCode α]

/-- **The signed readers are exact,** for every enumeration whose variants have numbers of their
own. -/
theorem readsSigned : ReadsSigned α where
  exact _ _ := ofInt64?_eq_some_iff
  injective raw raw' v h h' := by
    rw [ofInt64?_eq_some_iff] at h h'
    exact Int64.toInt_inj.1 (h.symm.trans h')
  decodes v := by rw [ofInt64?_eq_some_iff, Int32.toInt_toInt64]

/-- **So are the readers on the way in,** and whatever they do not read is a bad value. -/
theorem readsNumber : ReadsNumber α where
  exact _ _ := ofInt32_eq_ok_iff_code
  bad _ h := ofInt32_eq_badValue h
  agrees _ _ := ofInt32_eq_ok_iff

end

end Code

/-- An event that meets its model armed leaves it armed if it is forced, and idle otherwise. -/
theorem ModelTable.get?_commit_event_of_armed {t : ModelTable} {h : ModelHandle} (status : Status)
    (harmed : t.get? h = some .armed) : (t.commit (.event h status)).get? h =
      some (if status = .forced then .armed else .idle) := by
  rw [ModelTable.get?_commit, harmed]
  by_cases hforced : status = .forced <;> simp [Commit.effect, Status.isForced, hforced]

namespace Code

/-- **Signed words are read exactly, and encode back.**  The status of an event that is read from a
number leaves an armed model armed exactly if the number is that of a forced event: in whatever way
the stack has come to be as it is, for each of its enforcers, and through whichever of its callbacks
the event comes. -/
theorem signed_reading :
    ReadsSigned Status ∧ ReadsSigned ModelType ∧ ReadsSigned ModelParameter ∧
    ReadsNumber Status ∧ ReadsNumber ModelParameter ∧
    ∀ (outer : List LayerPlan) (plan : EnforcerPlan) (inner : List LayerPlan) (moves : List Move),
      let s := ((Stack.fresh (layersOf (outer ++ .enforcer plan :: inner)).1).run moves).1
      let id := inner.length
      ∃ t, s.table? id = some t ∧ ∀ (raw : Int32) (event : Event),
        ofInt32 raw = .ok event.status → t.get? event.model = some .armed →
        ∀ ticket callback cookie, s.issued[ticket]? = some callback →
          ∃ t' state, (s.step (.event ticket event cookie)).1.table? id = some t' ∧
            t'.get? event.model = some state ∧ (state = .armed ↔ raw = code Status.forced) := by
  refine ⟨readsSigned _, readsSigned _, readsSigned _, readsNumber _, readsNumber _, ?_⟩
  intro outer plan inner moves s id
  have hhas := (Stack.run_chronicle (Stack.has_fresh outer plan inner) moves).2
  generalize Visit.afterAll {} _ = t at hhas
  refine ⟨t, hhas.table?, fun raw event hraw harmed ticket callback cookie hcallback => ?_⟩
  obtain ⟨below, above, hwatchers, hbelow, habove⟩ :=
    Stack.watchers_split outer plan inner moves (List.mem_of_getElem? hcallback)
  obtain ⟨-, htable, -⟩ := hhas.event hcallback hwatchers hbelow habove event cookie
  refine ⟨_, _, htable, ModelTable.get?_commit_event_of_armed event.status harmed, ?_⟩
  have hcode : code event.status = raw := ofInt32_eq_ok_iff_code.1 hraw
  have hforced : event.status = .forced ↔ raw = code Status.forced :=
    ⟨fun h => hcode ▸ congrArg code h, fun h => LawfulCode.code_inj _ _ (hcode.trans h)⟩
  rw [← hforced]
  by_cases h : event.status = .forced <;> simp [h]

/-- A model that was started stays armed if the status of its event is read from 3, and not if it is
read from 1. -/
theorem signed_reading_started :
    let s := ((Stack.fresh (layersOf [.enforcer {}]).1).run
      [.call (.load (.generic {}) "client" 0), .reply (.handle 1),
        .call (.start 1 {} "client" 0), .reply .done]).1
    let forced : Event := .generic { model := 1, status := .forced } []
    let aborted : Event := .generic { model := 1, status := .aborted } []
    let state (event : Event) : Option ModelState :=
      ((s.step (.event 1 event 7)).1.table? 0).bind fun t => t.get? 1
    (ofInt32 3 = .ok forced.status ∧ state forced = some .armed) ∧
      ofInt32 1 = .ok aborted.status ∧ state aborted ≠ some .armed := by
  intro s forced aborted state
  have htable : s.table? 0 = some (ModelTable.insert {} 1 .armed) := by decide
  have hissued : s.issued[1]? = some { client := "client", watchers := [0] } := by decide
  obtain ⟨t, ht, hevent⟩ := signed_reading.2.2.2.2.2 [] {} []
    [.call (.load (.generic {}) "client" 0), .reply (.handle 1),
      .call (.start 1 {} "client" 0), .reply .done]
  obtain rfl := Option.some.inj (htable.symm.trans ht)
  have hforced : (ofInt32 3 : Except CallError Status) = .ok forced.status := by decide
  have haborted : (ofInt32 1 : Except CallError Status) = .ok aborted.status := by decide
  obtain ⟨t', state', ht', hstate', hiff⟩ := hevent 3 forced hforced (by decide) 1 _ 7 hissued
  obtain ⟨t'', state'', ht'', hstate'', hiff'⟩ :=
    hevent 1 aborted haborted (by decide) 1 _ 7 hissued
  refine ⟨⟨hforced, ?_⟩, haborted, ?_⟩
  · rw [← hiff.2 (by decide), ← hstate']
    exact congrArg (fun o => Option.bind o fun t => t.get? 1) ht'
  · intro harmed
    have hstate : state aborted = some state'' := by
      rw [← hstate'']
      exact congrArg (fun o => Option.bind o fun t => t.get? 1) ht''
    exact absurd (hiff'.1 (Option.some.inj (hstate.symm.trans harmed))) (by decide)

/-! ### Unsigned words -/

/-- The signed word with the bits of an unsigned one: the same number in the lower half of the
range, and 2^64 less in the upper half. -/
theorem toInt_toInt64 (raw : UInt64) :
    raw.toInt64.toInt =
      if 2 * raw.toNat < 2 ^ 64 then (raw.toNat : Int) else raw.toNat - (2 ^ 64 : Nat) :=
  BitVec.toInt_eq_toNat_cond raw.toBitVec

/-- An unsigned word is read as the variant with exactly that number, so no word of more than 32
bits is read at all, and in agreement with the signed word of the same value, if there is one. -/
structure ReadsUnsigned (α : Type) [Code α] (raw : UInt64) : Prop where
  exact : ∀ v : α, ofUInt64? raw = some v ↔ (code v).toInt = raw.toNat
  large : 2 ^ 32 ≤ raw.toNat → (ofUInt64? raw : Option α) = none
  agrees : ∀ signed : Int64, signed.toInt = raw.toNat →
    (ofUInt64? raw : Option α) = ofInt64? signed

section

variable {α : Type} [Code α] [LawfulCode α] {raw : UInt64}

/-- **An unsigned word stands for the variant whose number it is, or is 2^64 more than.** -/
theorem ofUInt64?_eq_some_iff {v : α} : ofUInt64? raw = some v ↔
    (code v).toInt = raw.toNat ∨ (code v).toInt + 2 ^ 64 = raw.toNat := by
  -- a number of a variant has 32 bits, so its word is near one end of the range
  have hlow := (code v).le_toInt
  have hhigh := (code v).toInt_lt
  have hraw := raw.toNat_lt
  rw [ofUInt64?, ofInt64?_eq_some_iff, toInt_toInt64]
  split <;> omega

/-- A word that is not 2^64 more than any number of a variant is read exactly. -/
theorem readsUnsigned (h : ∀ v : α, (code v).toInt + 2 ^ 64 ≠ raw.toNat) : ReadsUnsigned α raw where
  exact v := by rw [ofUInt64?_eq_some_iff, or_iff_left (h v)]
  large hlarge := by
    refine Option.eq_none_iff_forall_ne_some.2 fun v hv => ?_
    have hcode := (ofUInt64?_eq_some_iff.1 hv).resolve_right (h v)
    have hhigh := (code v).toInt_lt
    omega
  agrees signed hsigned := by
    have hhigh := signed.toInt_lt
    have hsame : raw.toInt64 = signed := by
      rw [← Int64.toInt_inj, toInt_toInt64, hsigned]
      split <;> omega
    rw [ofUInt64?, hsame]

end

/-- **Unsigned words are read exactly, with one exception.**  No word is read as a status or as a
type of model that has another number.  Nor is a word read as a parameter of models that has another
number, except for the greatest word of all, which is read as the parameter with the number -1. -/
theorem unsigned_reading (raw : UInt64) :
    ReadsUnsigned Status raw ∧ ReadsUnsigned ModelType raw ∧
    (ReadsUnsigned ModelParameter raw ↔ raw.toNat ≠ 2 ^ 64 - 1) ∧
    (ofUInt64? raw = some ModelParameter.invalid ↔ raw.toNat = 2 ^ 64 - 1) := by
  have hraw := raw.toNat_lt
  have hinvalid : ofUInt64? raw = some ModelParameter.invalid ↔ raw.toNat = 2 ^ 64 - 1 := by
    have hcode : (code ModelParameter.invalid).toInt = -1 := by decide
    rw [ofUInt64?_eq_some_iff, hcode]
    omega
  refine ⟨readsUnsigned fun v => ?_, readsUnsigned fun v => ?_,
    ⟨fun h hmax => ?_, fun hne => readsUnsigned fun v => ?_⟩, hinvalid⟩
  · have hcode : 0 ≤ (code v).toInt := by cases v <;> decide
    omega
  · have hcode : 0 ≤ (code v).toInt := by cases v <;> decide
    omega
  · have hnone := h.large (by omega)
    exact absurd (hnone.symm.trans (hinvalid.2 hmax)) (Option.some_ne_none _).symm
  · have hcode : -1 ≤ (code v).toInt := by cases v <;> decide
    omega

/-- The greatest word is taken for a parameter of models, though it is not its number. -/
theorem not_readsUnsigned_max :
    ¬ ReadsUnsigned ModelParameter 18446744073709551615 ∧
      ofUInt64? 18446744073709551615 = some ModelParameter.invalid ∧
      (code ModelParameter.invalid).toInt ≠ (18446744073709551615 : UInt64).toNat := by
  have hread : ofUInt64? 18446744073709551615 = some ModelParameter.invalid := by decide
  have hcode : (code ModelParameter.invalid).toInt ≠ (18446744073709551615 : UInt64).toNat := by
    decide
  exact ⟨fun h => hcode ((h.exact _).1 hread), hread, hcode⟩

end Code
end TriggerWatch
