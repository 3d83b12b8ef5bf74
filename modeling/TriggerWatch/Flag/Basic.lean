/-
# Sets of named bits

A `FlagFamily` names some bits of a 32-bit word.  A `FlagSet` of the family is any such word: bits
without a name are kept, since a newer implementation may know more of them than we do.

The families of the interface are `RecognitionModes` and `AudioCapabilities`, and both get their
operations in the same way, so those are defined once, for any family.  They have their
usual names (`all`, `contains`, `intersects`, `union`, ...); `from_bits` is `ofBits?`,
`from_bits_truncate` is `ofBitsKnown`, `from_bits_retain` is the constructor, and the iterator over
the flags gives `pieces`.
-/

namespace TriggerWatch

/-- A family of named bits: its title, and its flags in the order of their declaration. -/
structure FlagFamily where
  title : String
  flags : List (String × UInt32)

/-- The named bits together. -/
def FlagFamily.known (family : FlagFamily) : UInt32 :=
  family.flags.foldl (fun bits flag => bits ||| flag.2) 0

/-- A set of bits of a family, those without a name included. -/
structure FlagSet (family : FlagFamily) where
  bits : UInt32 := 0
  deriving DecidableEq

namespace FlagSet

variable {family : FlagFamily}

instance : Inhabited (FlagSet family) := ⟨{}⟩

/-- All named bits. -/
def all : FlagSet family := ⟨family.known⟩

/-- The set of the given bits, unless one of them has no name (`from_bits`). -/
def ofBits? (bits : UInt32) : Option (FlagSet family) :=
  if bits &&& family.known = bits then some ⟨bits⟩ else none

/-- The set of the given bits, those without a name dropped (`from_bits_truncate`). -/
def ofBitsKnown (bits : UInt32) : FlagSet family := ⟨bits &&& family.known⟩

/-- No bit is in the set. -/
def isEmpty (a : FlagSet family) : Bool := a.bits = 0

/-- Every named bit is in the set. -/
def isAll (a : FlagSet family) : Bool := a.bits ||| family.known = a.bits

/-- The two sets share a bit. -/
def intersects (a b : FlagSet family) : Bool := a.bits &&& b.bits ≠ 0

/-- Every bit of the second set is in the first. -/
def contains (a b : FlagSet family) : Bool := a.bits &&& b.bits = b.bits

/-- The bits of both sets. -/
def union (a b : FlagSet family) : FlagSet family := ⟨a.bits ||| b.bits⟩

/-- The bits that the two sets share (`intersection`). -/
def inter (a b : FlagSet family) : FlagSet family := ⟨a.bits &&& b.bits⟩

/-- The bits of the first set that are not in the second (`difference`). -/
def diff (a b : FlagSet family) : FlagSet family := ⟨a.bits &&& ~~~ b.bits⟩

/-- The bits that are in exactly one of the two sets (`symmetric_difference`). -/
def symmDiff (a b : FlagSet family) : FlagSet family := ⟨a.bits ^^^ b.bits⟩

/-- The named bits that are not in the set (`complement`). -/
def compl (a : FlagSet family) : FlagSet family := ofBitsKnown (~~~ a.bits)

/-- The flags of the family whose bits are all in the set, in the order of their declaration
(`iter_names`). -/
def named (a : FlagSet family) : List (String × UInt32) :=
  family.flags.filter fun flag => a.contains ⟨flag.2⟩

/-- The bits of the set that have no name. -/
def unnamed (a : FlagSet family) : UInt32 := a.bits &&& ~~~ family.known

/-- The set taken apart (`iter`): each named flag in it, and then its unnamed bits in one piece, if
any. -/
def pieces (a : FlagSet family) : List (FlagSet family) :=
  a.named.map (fun flag => ⟨flag.2⟩) ++ if a.unnamed = 0 then [] else [⟨a.unnamed⟩]

end FlagSet
end TriggerWatch
