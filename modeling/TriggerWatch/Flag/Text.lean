/-
# Flag sets as text

A flag set is written as the names of its flags, in the order of their declaration, followed by
its unnamed bits as one number in base sixteen, the pieces joined by a bar with a space on either
side.  The empty set is written as the number zero.  Between parentheses and after the title of its
family this is how a set is shown when it is debugged (`FlagSet.titledText`).

The reader is more liberal: the pieces come in any order and any number, with white space around
them, and a number may have named bits too.  `FlagSet.parse` goes from left to right and answers
with the first fault it meets.
-/

import TriggerWatch.Flag.Basic
import TriggerWatch.Text.CharClass
import TriggerWatch.Text.Numeral

namespace TriggerWatch

/-- What can be wrong with a piece of a flag text. -/
inductive FlagFault where
  /-- Nothing stands between two bars. -/
  | empty
  /-- What follows `0x` is no 32-bit number in base sixteen. -/
  | badNumber
  /-- No flag of the family has this name. -/
  | unknownName
  deriving DecidableEq

/-- The wording of a fault. -/
def FlagFault.message : FlagFault → String
  | .empty => "encountered empty flag"
  | .badNumber => "invalid hex flag"
  | .unknownName => "unrecognized named flag"

namespace FlagSet

variable {family : FlagFamily}

/-- A number as a piece of a flag text. -/
def numberText (bits : UInt32) : List Char := '0' :: 'x' :: Text.hex bits.toNat

/-- The pieces that a set is written in. -/
def pieceTexts (a : FlagSet family) : List (List Char) :=
  a.named.map (fun flag => flag.1.toList) ++
    if a.unnamed = 0 then [] else [numberText a.unnamed]

/-- The text of a set. -/
def text (a : FlagSet family) : List Char :=
  if a.bits = 0 then numberText 0 else [' ', '|', ' '].intercalate a.pieceTexts

/-- The text of a set between parentheses, after the title of its family. -/
def titledText (a : FlagSet family) : List Char :=
  family.title.toList ++ '(' :: (a.text ++ [')'])

/-- The 32-bit word that digits of base sixteen stand for; a plus sign may stand in front. -/
def word? (digits : List Char) : Option UInt32 :=
  let value := match digits with
    | '+' :: rest => Text.hexValue? rest
    | rest => Text.hexValue? rest
  match value with
  | some n => if n < UInt32.size then some (.ofNat n) else none
  | none => none

/-- Reads one piece of a flag text, without white space around it. -/
def parsePiece (family : FlagFamily) (piece : List Char) : Except FlagFault (FlagSet family) :=
  match piece with
  | [] => .error .empty
  | '0' :: 'x' :: digits =>
    match word? digits with
    | some bits => .ok ⟨bits⟩
    | none => .error .badNumber
  | name =>
    match family.flags.find? fun flag => flag.1.toList = name with
    | some flag => .ok ⟨flag.2⟩
    | none => .error .unknownName

/-- Reads pieces from left to right, and puts what they stand for together. -/
def parsePieces (family : FlagFamily) : List (List Char) → Except FlagFault (FlagSet family)
  | [] => .ok {}
  | piece :: rest => do
    let a ← parsePiece family (Text.trim piece)
    let b ← parsePieces family rest
    return a.union b

/-- Reads a flag text; a blank one stands for the empty set. -/
def parse (family : FlagFamily) (s : List Char) : Except FlagFault (FlagSet family) :=
  if Text.trim s = [] then .ok {} else parsePieces family (s.splitOn '|')

end FlagSet
end TriggerWatch
