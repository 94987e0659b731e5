import PascalCompiler.Json.Basic
import PascalCompiler.Text.Folding
import PascalCompiler.Text.Numeral

/-!
# Locations in a document

The location of a node is an object whose member `start` is an object with the
numbers `offset`, `line` and `column`. Case does not matter in these names, null
stands for an absent member, members with other names are ignored, and of
repeated numbers the last one counts.

## Main definitions

* `Coordinates`: offset, line and column
* `LocationFault`: what is wrong with a location
* `Coordinates.ofJson`: the coordinates that a location gives
-/

namespace PascalCompiler.Document

/-- Offset, line and column. -/
structure Coordinates where
  offset : Int := 0
  line : Int := 0
  column : Int := 0
  deriving DecidableEq

/-- What is wrong with a location. The names of members are given as written,
and what stands in their place by the word for its type. -/
inductive LocationFault where
  /-- The location is not an object. -/
  | notObject (found : String)
  /-- Its member `start` is not an object. -/
  | startNotObject (name found : String)
  /-- One of the numbers is not a 64-bit integer. -/
  | notInteger (start name found : String)
  deriving DecidableEq

/-- The text of a fault. -/
def LocationFault.message : LocationFault → String
  | .notObject found =>
    "json: cannot unmarshal " ++ found ++ " into Go value of type delphi2js.location"
  | .startNotObject name found =>
    "json: cannot unmarshal " ++ found ++ " into Go struct field location." ++ name ++
      " of type struct \x7b Offset int \"json:\\\"offset\\\"\"; Line int \"json:\\\"line\\\"\"; " ++
      "Column int \"json:\\\"column\\\"\" \x7d"
  | .notInteger start name found =>
    "json: cannot unmarshal " ++ found ++ " into Go struct field location." ++ start ++ "." ++
      name ++ " of type int"

namespace Coordinates

/-- The words for a value that is not a 64-bit integer. -/
def found : Json → String
  | .number literal => "number " ++ literal
  | json => json.typeWord

/-- The 64-bit integer that a value is. -/
def integer? : Json → Option Int
  | .number literal => Numeral.int64? literal
  | _ => none

/-- Sets the coordinate with the given name, if there is one. -/
def set? (coordinates : Coordinates) (name : String) (value : Int) : Option Coordinates :=
  if Folding.foldsTo name "offset" then some { coordinates with offset := value }
  else if Folding.foldsTo name "line" then some { coordinates with line := value }
  else if Folding.foldsTo name "column" then some { coordinates with column := value }
  else none

/-- Is there a coordinate with the given name? -/
def isName (name : String) : Bool :=
  (set? {} name 0).isSome

/-- The coordinates after the members of an object named `start`. -/
def ofMembers (start : String) (coordinates : Coordinates) :
    List (String × Json) → Except LocationFault Coordinates
  | [] => .ok coordinates
  | (name, value) :: rest =>
    if value.isNull || !isName name then ofMembers start coordinates rest
    else
      match integer? value with
      | none => .error (.notInteger start name (found value))
      | some n => ofMembers start ((coordinates.set? name n).getD coordinates) rest

/-- The coordinates after the members of a location. -/
def ofLocation (coordinates : Coordinates) :
    List (String × Json) → Except LocationFault Coordinates
  | [] => .ok coordinates
  | (name, value) :: rest =>
    if value.isNull || !Folding.foldsTo name "start" then ofLocation coordinates rest
    else
      match value with
      | .object _ members => do
        let coordinates ← ofMembers name coordinates members
        ofLocation coordinates rest
      | value => .error (.startNotObject name value.typeWord)

/-- The coordinates that a location gives. -/
def ofJson : Json → Except LocationFault Coordinates
  | .object _ members => ofLocation {} members
  | json => .error (.notObject json.typeWord)

end Coordinates

end PascalCompiler.Document
