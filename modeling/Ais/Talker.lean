import Ais.Bytes.Ascii

/-!
# Talkers

The first five bytes of a sentence name who talks and what is said.  A receiver takes the reports
of other stations alone, or those of mobile and base stations, others' and its own.
-/

namespace Ais

/-- Which sentences a receiver takes. -/
inductive Talkers where
  | strict
  | any
deriving DecidableEq

namespace Talkers

/-- The length of a talker and sentence name. -/
def nameBytes : Nat := 5

/-- Whether sentences that begin with `name` are taken. -/
def accepts (t : Talkers) (name : List UInt8) : Bool :=
  match t with
  | strict => name == Ascii.ofString "AIVDM"
  | any    =>
    name.length == nameBytes
      && (name.drop 2 == Ascii.ofString "VDM" || name.drop 2 == Ascii.ofString "VDO")
      && (name.take 2 == Ascii.ofString "AI" || name.take 2 == Ascii.ofString "BS")

/-- The choice by name. -/
def name : Talkers → String
  | strict => "Strict"
  | any    => "Any"

/-- The choice in words. -/
def text : Talkers → String
  | strict => "AIVDM only"
  | any    => "AI/BS VDM/VDO"

end Talkers

end Ais
