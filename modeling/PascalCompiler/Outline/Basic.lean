import PascalCompiler.Text.Quoted
import PascalCompiler.Tree.Position

/-!
# Outlines

An outline shows a tree as indented lines: every entry of a record or list
stands on its own line behind its label, one level deeper than the record or
list itself. Entries that hold nothing worth showing are left out.

## Main definitions

* `Outline`: labelled lines and nested entries
* `Outline.render`: the text of an outline
* `Field`: an entry of a record that may be left out
* `Outline.record`, `Outline.list`: outlines of records and lists
-/

namespace PascalCompiler

/-- Labelled lines, nested. -/
inductive Outline where
  /-- A value on one line. -/
  | leaf (text : String)
  /-- An opening line and the labelled entries below it. -/
  | branch (head : String) (entries : List (String × Outline))

namespace Outline

/-- What indents a line, once for every level. -/
def indent (level : Nat) : String :=
  String.join (List.replicate level "· ")

mutual

/-- The text of an outline that starts on a line of the given level. -/
def renderAt (level : Nat) : Outline → String
  | .leaf text => text
  | .branch head entries =>
    head ++ "\n" ++ renderEntries (level + 1) entries ++ indent level ++ "\x7d"

/-- The lines of the entries at the given level. -/
def renderEntries (level : Nat) : List (String × Outline) → String
  | [] => ""
  | (label, entry) :: rest =>
    indent level ++ label ++ ": " ++ renderAt level entry ++ ",\n" ++ renderEntries level rest

end

/-- The text of an outline. -/
def render (outline : Outline) : String :=
  outline.renderAt 0

/-- The name under which types of records are shown. -/
def qualified (name : String) : String :=
  "delphi2js." ++ name

end Outline

/-- An entry of a record. A record is empty if none of its fields holds
anything, but a field may hold something and still have nothing to show. -/
structure Field where
  /-- The label of the entry. -/
  label : String
  /-- Does the field hold anything? -/
  present : Bool
  /-- What the field shows. -/
  outline : Option Outline

namespace Field

/-- A field that may hold a part, with the outline of the part. -/
def part {α : Type} (label : String) (value : Option α) (outline : Option Outline) : Field :=
  ⟨label, value.isSome, outline⟩

/-- A field that holds a text, quoted. An empty text is nothing. -/
def text (label value : String) : Field :=
  if value = "" then ⟨label, false, none⟩ else ⟨label, true, some (.leaf (Quoted.quote value))⟩

/-- A field that holds a number. Zero is nothing. -/
def number (label : String) (value : Int) : Field :=
  if value = 0 then ⟨label, false, none⟩
  else ⟨label, true, some (.leaf (Numeral.decimal value))⟩

/-- The entry of a field, if it has something to show. -/
def entry? (field : Field) : Option (String × Outline) :=
  field.outline.map (field.label, ·)

end Field

namespace Outline

/-- The outline of a list: the type of its elements, their number, and the
elements that have something to show behind their index. -/
def list (elementType : String) (items : List (Option Outline)) : Option Outline :=
  if items.isEmpty then none
  else
    some (.branch
      ("[]" ++ elementType ++ "\x7b // len " ++ Numeral.decimal items.length)
      (items.zipIdx.filterMap fun (item, index) => item.map (Numeral.decimal index, ·)))

/-- The entry for a position, if it is valid. -/
def span? (position : Position) : Option (String × Outline) :=
  if position.isValid then some ("Span", .leaf position.render) else none

/-- The outline of a record with a position. A record that holds nothing, not
even an unknown position with a file name or an attachment, has none. -/
def record (name : String) (position : Position) (attached : Bool) (fields : List Field) :
    Option Outline :=
  if position = .unknown && !attached && fields.all (!·.present) then none
  else
    some (.branch ("&" ++ qualified name ++ "\x7b")
      ((span? position).toList ++ fields.filterMap Field.entry?))

end Outline

namespace Field

/-- A field that holds a list with the given type of elements. -/
def list (label elementType : String) (items : List (Option Outline)) : Field :=
  ⟨label, !items.isEmpty, Outline.list elementType items⟩

end Field

end PascalCompiler
