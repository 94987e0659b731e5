import PascalCompiler.Json.Basic
import PascalCompiler.Proofs.Tree.WellFormed
import PascalCompiler.Text.Folding

/-!
# Documents that spell trees

Which JSON values spell a node. A node is an object with its tag, its location
and one member for each of its parts. The order of the members does not matter,
members with other names may stand between them, null stands for an absent
member, and of repeated members the last one counts. Nothing here says how a
document is read.

## Main definitions

* `Numeral.Denotes`: the numerals of an integer
* `Document.Gives`, `Document.Omits`: a part is there under one of its names, or
  under none
* `Document.Located`: the members that give a position
* `Document.Spells`: the values that spell a node
-/

namespace PascalCompiler

namespace Numeral

/-- The decimal digits of a number, perhaps with zeros in front. -/
inductive Digits : List Char → Nat → Prop where
  | single {d : Char} (digit : d.isDigit) : Digits [d] (d.toNat - '0'.toNat)
  | snoc {ds : List Char} {n : Nat} {d : Char} (front : Digits ds n) (digit : d.isDigit) :
      Digits (ds ++ [d]) (10 * n + (d.toNat - '0'.toNat))

/-- The numerals of an integer: digits with an optional sign. -/
inductive Denotes : String → Int → Prop where
  | unsigned {ds : List Char} {n : Nat} (digits : Digits ds n) : Denotes (String.ofList ds) n
  | plus {ds : List Char} {n : Nat} (digits : Digits ds n) : Denotes (String.ofList ('+' :: ds)) n
  | minus {ds : List Char} {n : Nat} (digits : Digits ds n) :
      Denotes (String.ofList ('-' :: ds)) (-n)

end Numeral

namespace Document

/-! ### Members -/

section Members

variable (members : List (String × Json))

/-- The last member of that name has the value. -/
def Holds (name : String) (value : Json) : Prop :=
  ∃ before after, members = before ++ (name, value) :: after ∧ ∀ later ∈ after, later.1 ≠ name

/-- There is no member of that name, or it is null. -/
def Lacks (name : String) : Prop :=
  (∀ member ∈ members, member.1 ≠ name) ∨ Holds members name .null

/-- The value stands under the first of the names that has one. -/
def Gives (value : Json) : List String → Prop
  | [] => False
  | name :: others =>
    (Holds members name value ∧ value ≠ .null) ∨ (Lacks members name ∧ Gives value others)

/-- Nothing stands under any of the names. -/
def Omits (names : List String) : Prop :=
  ∀ name ∈ names, Lacks members name

/-! ### Positions -/

/-- The members whose name is the word, up to case. -/
def named (word : String) : List (String × Json) :=
  members.filter fun member => Folding.foldsTo member.1 word

/-- The members give the coordinate that the word names. Nothing and null stand
for zero. -/
inductive Coordinate (word : String) : Int → Prop where
  | absent (empty : named members word = []) : Coordinate word 0
  | null {key : String} (sole : named members word = [(key, .null)]) : Coordinate word 0
  | number {key literal : String} {value : Int}
      (sole : named members word = [(key, .number literal)])
      (denotes : Numeral.Denotes literal value) : Coordinate word value

/-- The members of a node give its position in the file. -/
inductive Located (file : String) : Position → Prop where
  | unknown (omitted : Lacks members "location") : Located file .unknown
  | known {outer inner : Span} {location start : List (String × Json)} {key : String}
      {offset line column : Int} (given : Holds members "location" (.object outer location))
      (sole : named location "start" = [(key, .object inner start)])
      (atOffset : Coordinate start "offset" offset) (atLine : Coordinate start "line" line)
      (atColumn : Coordinate start "column" column) : Located file ⟨file, offset, line, column⟩

end Members

/-! ### Nodes -/

/-- The value is a number, or a string with a numeral, for the integer. -/
inductive SpellsInteger : Json → Int → Prop where
  | number {literal : String} {value : Int} (denotes : Numeral.Denotes literal value) :
      SpellsInteger (.number literal) value
  | string {span : Span} {literal : String} {value : Int}
      (denotes : Numeral.Denotes literal value) : SpellsInteger (.string span literal) value

mutual

/-- The value spells a node of a tree in the file. -/
inductive Spells (file : String) : Json → Node → Prop where
  | mk {span tagSpan : Span} {members : List (String × Json)} {node : Node}
      (tagged : Holds members "type" (.string tagSpan node.kind.tag))
      (located : Located members file node.position)
      (parts : ∀ part ∈ node.parts, SpellsPart file members part) :
      Spells file (.object span members) node

/-- The members spell a part of a node. -/
inductive SpellsPart (file : String) : List (String × Json) → Component → Prop where
  | noChild {members : List (String × Json)} {key : String} {aliases : List String} {needed : Bool}
      (omitted : Omits members (key :: aliases)) :
      SpellsPart file members (.child key aliases needed none)
  | child {members : List (String × Json)} {key : String} {aliases : List String} {needed : Bool}
      {json : Json} {node : Node} (given : Gives members json (key :: aliases))
      (spells : Spells file json node) :
      SpellsPart file members (.child key aliases needed (some node))
  /-- An empty list may be left out unless that would be no list at all. -/
  | noList {members : List (String × Json)} {key : String} {listing : Listing}
      (omitted : Omits members [key]) (optional : listing ≠ .bracketed) :
      SpellsPart file members (.list key listing [])
  | list {members : List (String × Json)} {key : String} {listing : Listing} {span : Span}
      {items : List Json} {nodes : List (Option Node)}
      (given : Gives members (.array span items) [key])
      (spells : SpellsItems file listing items nodes) :
      SpellsPart file members (.list key listing nodes)
  | noText {members : List (String × Json)} {key : String} {aliases : List String}
      (omitted : Omits members (key :: aliases)) :
      SpellsPart file members (.text key aliases false "")
  | text {members : List (String × Json)} {key : String} {aliases : List String} {needed : Bool}
      {span : Span} {value : String} (given : Gives members (.string span value) (key :: aliases)) :
      SpellsPart file members (.text key aliases needed value)
  | integer {members : List (String × Json)} {key : String} {json : Json} {value : Int}
      (given : Gives members json [key]) (spells : SpellsInteger json value) :
      SpellsPart file members (.integer key value)
  | noComments {members : List (String × Json)} (omitted : Omits members ["comments"]) :
      SpellsPart file members (.comments {})
  | comments {members inner : List (String × Json)} {span : Span} {value : ProgramComments}
      (given : Gives members (.object span inner) ["comments"])
      (parts : ∀ entry ∈ value.named, SpellsPart file inner (.optional entry.1 .comment entry.2)) :
      SpellsPart file members (.comments value)

/-- The items of an array spell a list of nodes. In a sparse list, null stands
for nothing. -/
inductive SpellsItems (file : String) : Listing → List Json → List (Option Node) → Prop where
  | nil {listing : Listing} : SpellsItems file listing [] []
  | null {listing : Listing} {items : List Json} {nodes : List (Option Node)}
      (sparse : listing = .sparse ∨ listing = .bracketed)
      (rest : SpellsItems file listing items nodes) :
      SpellsItems file listing (.null :: items) nodes
  | cons {listing : Listing} {json : Json} {items : List Json} {node : Node}
      {nodes : List (Option Node)} (first : Spells file json node)
      (rest : SpellsItems file listing items nodes) :
      SpellsItems file listing (json :: items) (some node :: nodes)

end

end Document

end PascalCompiler
