import Propositional.Error

namespace Propositional

/-- The most bytes that a path may have. -/
def maxPathBytes : Nat := 4095

/-- The most bytes that the name of an entry may have. -/
def maxNameBytes : Nat := 255

/-- A place in a tree of folders, as the names that lead to it from the root. -/
abbrev Place := List String

namespace Place

/-- The folder from which a path is followed that does not begin with a slash. -/
def home : Place := ["home"]

/-- A place by one name: as a path from the home folder if it lies in there, and otherwise as a path
    from the root. -/
def name : Place → String
  | first :: rest =>
    if first = "home" ∧ rest ≠ [] then "/".intercalate rest else "/" ++ "/".intercalate (first :: rest)
  | [] => "/"

/-- Whether the last name of a place is one that no entry can have. -/
def isTooLong (place : Place) : Bool :=
  maxNameBytes < (place.getLastD "").utf8ByteSize

end Place

namespace Path

/-- A step that stays in its folder. -/
def isStay (step : String) : Bool :=
  step == "" || step == "."

/-- A step that climbs to the folder around. -/
def isParent (step : String) : Bool :=
  step == ".."

/-- The place where a path begins. -/
def start (path : String) : Place :=
  if path.toList.head? = some '/' then [] else .home

/-- A path cut at its slashes. -/
def steps (path : String) : List String :=
  (path.toList.splitOn '/').map String.ofList

/-- Why a path is refused whatever there is. One with a null character is refused before its length
    is looked at. -/
def fault? (path : String) : Option FileFault :=
  if path.toList.contains '\x00' then some .nullCharacter
  else if maxPathBytes < path.utf8ByteSize then some .nameTooLong
  else if path = "" then some .notFound
  else none

end Path

end Propositional
