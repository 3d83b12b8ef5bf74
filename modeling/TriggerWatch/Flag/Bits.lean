/-
# The bits of a flag set

A flag set is looked at as the set of the places where its word has a one.  For each operation there
is one equivalence that says which places are in the result, and two sets with the same places are
the same set (`FlagSet.ext_mem`).

The pieces of a set are told apart this way: if every flag of the family is a bit of its own, no two
pieces share a place (`FlagSet.pairwise_pieces`), and together they have the places of the set
(`FlagSet.unite_pieces`).
-/

import TriggerWatch.Flag.Basic

namespace TriggerWatch
namespace FlagSet

variable {family : FlagFamily} {a b : FlagSet family} {i : Nat}

/-- The word of the set has a one at the place `i`. -/
instance : Membership Nat (FlagSet family) where
  mem a i := a.bits.toBitVec.getLsbD i = true

/-- Being a member is a matter of one bit of the word. -/
theorem mem_def : i ∈ a ↔ a.bits.toBitVec.getLsbD i = true := Iff.rfl

/-- Only the 32 bits of the word can be members. -/
theorem lt_of_mem (h : i ∈ a) : i < 32 := BitVec.lt_of_getLsbD h

/-- **Sets with the same places are the same.** A word is known by its bits, those without a name
among them, so this is equality of the words and not only of the flags. -/
theorem ext_mem (h : ∀ i, i ∈ a ↔ i ∈ b) : a = b := by
  have hbits : a.bits = b.bits := UInt32.toBitVec_inj.1 <|
    BitVec.eq_of_getLsbD_eq fun i _ => Bool.eq_iff_iff.2 (h i)
  cases a
  cases b
  exact congrArg FlagSet.mk hbits

/-- No bit is set in the empty set. -/
@[simp] theorem notMem_empty : i ∉ ({} : FlagSet family) := by simp [mem_def]

/-- The union sets the bits that either set has, known or unknown. -/
@[simp] theorem mem_union : i ∈ a.union b ↔ i ∈ a ∨ i ∈ b := by simp [mem_def, union]

/-- The intersection sets the bits that both sets have. -/
@[simp] theorem mem_inter : i ∈ a.inter b ↔ i ∈ a ∧ i ∈ b := by simp [mem_def, inter]

/-- `contains` compares words, and so says what one expects: each bit of the one set is set in the
other. -/
theorem contains_iff : a.contains b = true ↔ ∀ i, i ∈ b → i ∈ a := by
  have hinter : a.contains b = true ↔ a.inter b = b := by
    cases b
    simp [contains, inter]
  rw [hinter]
  refine ⟨fun h i hi => (mem_inter.1 (h.symm ▸ hi)).1, fun h => ext_mem fun i => ?_⟩
  rw [mem_inter, and_iff_right_of_imp (h i)]

/-- `intersects` is false just for two sets that have no bit in common. -/
theorem intersects_eq_false_iff : a.intersects b = false ↔ ∀ i, i ∈ a → i ∉ b := by
  have hinter : a.intersects b = false ↔ a.inter b = {} := by simp [intersects, inter]
  rw [hinter]
  refine ⟨fun h i ha hb => notMem_empty (h ▸ mem_inter.2 ⟨ha, hb⟩), fun h => ext_mem fun i => ?_⟩
  exact iff_of_false (fun hi => h i (mem_inter.1 hi).1 (mem_inter.1 hi).2) notMem_empty

/-- The named bits are those of the flags. -/
theorem mem_all : i ∈ (all : FlagSet family) ↔
    ∃ flag ∈ family.flags, i ∈ (⟨flag.2⟩ : FlagSet family) := by
  have hfold : ∀ (flags : List (String × UInt32)) (bits : UInt32),
      i ∈ (⟨flags.foldl (fun bits flag => bits ||| flag.2) bits⟩ : FlagSet family) ↔
        i ∈ (⟨bits⟩ : FlagSet family) ∨ ∃ flag ∈ flags, i ∈ (⟨flag.2⟩ : FlagSet family) := by
    intro flags
    induction flags with
    | nil => simp
    | cons flag flags ih =>
      intro bits
      rw [List.foldl_cons, ih, mem_def, UInt32.toBitVec_or, BitVec.getLsbD_or, Bool.or_eq_true]
      simp only [List.mem_cons, exists_eq_or_imp, or_assoc, mem_def]
  rw [all, FlagFamily.known, hfold]
  exact or_iff_right (by simp [mem_def])

/-- The unnamed bits of a set are those of no flag. -/
theorem mem_unnamed : i ∈ (⟨a.unnamed⟩ : FlagSet family) ↔ i ∈ a ∧ i ∉ (all : FlagSet family) := by
  refine ⟨fun h => ?_, fun h => ?_⟩
  · have hlt := lt_of_mem h
    simpa [mem_def, unnamed, all, hlt] using h
  · have hlt := lt_of_mem h.1
    simpa [mem_def, unnamed, all, hlt] using h

/-- The sets put together. -/
def unite (sets : List (FlagSet family)) : FlagSet family := sets.foldr union {}

/-- A bit is set in the union of a list of sets when it is set in one of them. -/
theorem mem_unite {sets : List (FlagSet family)} : i ∈ unite sets ↔ ∃ x ∈ sets, i ∈ x := by
  induction sets with
  | nil => simp [unite]
  | cons x sets ih =>
    rw [unite, List.foldr_cons, mem_union, ← unite, ih]
    simp only [List.mem_cons, exists_eq_or_imp]

end FlagSet

/-! ### The pieces of a set -/

/-- A family whose flags are single bits, no two the same. -/
class FlagFamily.Separate (family : FlagFamily) : Prop where
  single : ∀ flag ∈ family.flags, ∃ k < 32, flag.2.toBitVec = BitVec.twoPow 32 k
  distinct : family.flags.Pairwise fun flag flag' => flag.2 ≠ flag'.2

namespace FlagSet

variable {family : FlagFamily} {flag flag' : String × UInt32} {i j : Nat}

/-- The flags that a text names are those that are contained in the set. -/
theorem mem_named {a : FlagSet family} :
    flag ∈ a.named ↔ flag ∈ family.flags ∧ a.contains ⟨flag.2⟩ = true := List.mem_filter

/-- The pieces of a set are its named flags and, if any bits are left over, one more piece for all
of those together. -/
theorem mem_pieces {a x : FlagSet family} : x ∈ a.pieces ↔
    (∃ flag ∈ a.named, x = ⟨flag.2⟩) ∨ a.unnamed ≠ 0 ∧ x = ⟨a.unnamed⟩ := by
  unfold pieces
  split
  next hzero => simp [hzero, eq_comm]
  next hnonzero => simp [hnonzero, eq_comm]

variable [family.Separate]

/-- There is no more than one place in a flag. -/
theorem eq_of_mem_flag (hflag : flag ∈ family.flags) (hi : i ∈ (⟨flag.2⟩ : FlagSet family))
    (hj : j ∈ (⟨flag.2⟩ : FlagSet family)) : i = j := by
  obtain ⟨k, hk, hbits⟩ := FlagFamily.Separate.single flag hflag
  simp only [mem_def, hbits, BitVec.getLsbD_twoPow, Bool.and_eq_true, decide_eq_true_eq] at hi hj
  exact hi.2.symm.trans hj.2

/-- A place is in no more than one flag. -/
theorem flag_eq_of_mem (hflag : flag ∈ family.flags) (hflag' : flag' ∈ family.flags)
    (hi : i ∈ (⟨flag.2⟩ : FlagSet family)) (hi' : i ∈ (⟨flag'.2⟩ : FlagSet family)) :
    flag.2 = flag'.2 := by
  have hsame : (⟨flag.2⟩ : FlagSet family) = ⟨flag'.2⟩ := ext_mem fun j =>
    ⟨fun hj => eq_of_mem_flag hflag hi hj ▸ hi', fun hj => eq_of_mem_flag hflag' hi' hj ▸ hi⟩
  exact congrArg bits hsame

/-- A set has a flag if it has the place of the flag. -/
theorem contains_flag (a : FlagSet family) (hflag : flag ∈ family.flags)
    (hi : i ∈ (⟨flag.2⟩ : FlagSet family)) : a.contains ⟨flag.2⟩ = true ↔ i ∈ a := by
  rw [contains_iff]
  exact ⟨fun h => h i hi, fun h j hj => eq_of_mem_flag hflag hi hj ▸ h⟩

/-- **The pieces of a set put together are the set.** A bit of the set is in the piece of a flag if
it has a name, and in the last piece if it has none. -/
theorem unite_pieces (a : FlagSet family) : unite a.pieces = a := by
  refine ext_mem fun i => ?_
  rw [mem_unite]
  constructor
  · rintro ⟨x, hx, hi⟩
    rcases mem_pieces.1 hx with ⟨flag, hflag, rfl⟩ | ⟨-, rfl⟩
    · obtain ⟨hflag, hcontains⟩ := mem_named.1 hflag
      exact (contains_flag a hflag hi).1 hcontains
    · exact (mem_unnamed.1 hi).1
  · intro hi
    -- a named place is in the piece of its flag, and any other in the last piece
    by_cases hall : i ∈ (all : FlagSet family)
    · obtain ⟨flag, hflag, hplace⟩ := mem_all.1 hall
      have hnamed := mem_named.2 ⟨hflag, (contains_flag a hflag hplace).2 hi⟩
      exact ⟨_, mem_pieces.2 (.inl ⟨flag, hnamed, rfl⟩), hplace⟩
    · have hplace : i ∈ (⟨a.unnamed⟩ : FlagSet family) := mem_unnamed.2 ⟨hi, hall⟩
      have hnonzero : a.unnamed ≠ 0 := fun hzero => by simp [mem_def, hzero] at hplace
      exact ⟨_, mem_pieces.2 (.inr ⟨hnonzero, rfl⟩), hplace⟩

/-- **No two pieces of a set share a bit.** Flags that share a bit are the same flag, and the last
piece has no bit with a name. -/
theorem pairwise_pieces (a : FlagSet family) :
    a.pieces.Pairwise fun x y => x.intersects y = false := by
  unfold pieces
  rw [List.pairwise_append, List.pairwise_map]
  refine ⟨?_, by split <;> simp, ?_⟩
  · have hnamed : a.named.Pairwise fun flag flag' => flag.2 ≠ flag'.2 :=
      FlagFamily.Separate.distinct.sublist List.filter_sublist
    refine hnamed.imp_of_mem fun hflag hflag' hne => intersects_eq_false_iff.2 fun i hi hi' => ?_
    exact hne (flag_eq_of_mem (mem_named.1 hflag).1 (mem_named.1 hflag').1 hi hi')
  · intro x hx y hy
    obtain ⟨flag, hflag, rfl⟩ := List.mem_map.1 hx
    obtain rfl : y = ⟨a.unnamed⟩ := by
      split at hy <;> simp_all
    refine intersects_eq_false_iff.2 fun i hi hunnamed => ?_
    exact (mem_unnamed.1 hunnamed).2 (mem_all.2 ⟨flag, (mem_named.1 hflag).1, hi⟩)

end FlagSet
end TriggerWatch
