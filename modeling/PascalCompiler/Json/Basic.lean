import PascalCompiler.Text.Bytes

/-!
# JSON values

A JSON value keeps what its text says and nothing is dropped: members stand in
the order of the text, also when a name is repeated, and numbers keep their
literal. Strings, arrays and objects remember where in the text they stand, so
that a message can show them as written.

## Main definitions

* `Json`: values
* `Json.written`: the text of a value
* `Json.typeWord`: the word for its type
-/

namespace PascalCompiler

/-- The part of a text from one offset up to another. -/
structure Span where
  start : Nat
  stop : Nat
  deriving DecidableEq

/-- The bytes of a part of a text. -/
def Span.extract (span : Span) (text : Bytes) : Bytes :=
  (text.drop span.start).take (span.stop - span.start)

/-- A JSON value. -/
inductive Json where
  | null
  | bool (value : Bool)
  /-- A number, by its literal. -/
  | number (literal : String)
  | string (span : Span) (value : String)
  | array (span : Span) (items : List Json)
  | object (span : Span) (members : List (String × Json))

namespace Json

/-- A value as written in the text it was read from. -/
def written (text : Bytes) : Json → Bytes
  | .null => .ofString "null"
  | .bool true => .ofString "true"
  | .bool false => .ofString "false"
  | .number literal => .ofString literal
  | .string span _ | .array span _ | .object span _ => span.extract text

/-- The word for the type of a value. -/
def typeWord : Json → String
  | .null => "null"
  | .bool _ => "bool"
  | .number _ => "number"
  | .string .. => "string"
  | .array .. => "array"
  | .object .. => "object"

/-- Is the value null? -/
def isNull : Json → Bool
  | .null => true
  | _ => false

end Json

/-- The value under a name. Of several members with that name the last one
counts. -/
def lookupLast {α : Type} (name : String) : List (String × α) → Option α
  | [] => none
  | (k, value) :: rest =>
    match lookupLast name rest with
    | some later => some later
    | none => if k = name then some value else none

end PascalCompiler
