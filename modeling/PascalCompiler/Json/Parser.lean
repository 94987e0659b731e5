import PascalCompiler.Json.Token

/-!
# Reading JSON

A JSON text is one value. The values around the one being read are kept on a
stack, and no value may lie inside more than `maxDepth` arrays and objects.

## Main definitions

* `Json.Frame`: an array or object around the value being read
* `Json.State`: what has been read, and what may come next
* `Json.parse?`: the value of a text
-/

namespace PascalCompiler.Json

/-- How many arrays and objects may be nested. -/
def maxDepth : Nat := 10000

/-- An array or object around the value being read, with its offset and what it
holds so far, the latest first. -/
inductive Frame where
  | array (start : Nat) (items : List Json)
  /-- An object, and the name of the member being read. -/
  | object (start : Nat) (members : List (String × Json)) (key : String)

/-- What may come next, inside the given frames. -/
inductive State where
  /-- A value. -/
  | expect (frames : List Frame)
  /-- The first item of an array, or its end. -/
  | firstItem (start : Nat) (frames : List Frame)
  /-- The first name in an object, or its end. -/
  | firstKey (start : Nat) (frames : List Frame)
  /-- Another name in an object. -/
  | nextKey (start : Nat) (members : List (String × Json)) (frames : List Frame)
  /-- The colon behind a name. -/
  | colon (start : Nat) (members : List (String × Json)) (key : String) (frames : List Frame)
  /-- What follows a value. -/
  | after (value : Json) (frames : List Frame)

namespace State

/-- Reads the first token of a value. -/
def begin? (frames : List Frame) (lexeme : Lexeme) : Option State :=
  match lexeme.token with
  | .null => some (.after .null frames)
  | .bool value => some (.after (.bool value) frames)
  | .number literal => some (.after (.number literal) frames)
  | .string value => some (.after (.string lexeme.span value) frames)
  | .openBracket =>
    if frames.length < maxDepth then some (.firstItem lexeme.span.start frames) else none
  | .openBrace =>
    if frames.length < maxDepth then some (.firstKey lexeme.span.start frames) else none
  | _ => none

/-- Reads the token behind a value. -/
def continue? (value : Json) (lexeme : Lexeme) : List Frame → Option State
  | [] => none
  | .array start items :: frames =>
    match lexeme.token with
    | .comma => some (.expect (.array start (value :: items) :: frames))
    | .closeBracket =>
      some (.after (.array ⟨start, lexeme.span.stop⟩ (value :: items).reverse) frames)
    | _ => none
  | .object start members key :: frames =>
    match lexeme.token with
    | .comma => some (.nextKey start ((key, value) :: members) frames)
    | .closeBrace =>
      some (.after (.object ⟨start, lexeme.span.stop⟩ ((key, value) :: members).reverse) frames)
    | _ => none

/-- Reads a token. -/
def step (state : State) (lexeme : Lexeme) : Option State :=
  match state with
  | .expect frames => begin? frames lexeme
  | .firstItem start frames =>
    match lexeme.token with
    | .closeBracket => some (.after (.array ⟨start, lexeme.span.stop⟩ []) frames)
    | _ => begin? (.array start [] :: frames) lexeme
  | .firstKey start frames =>
    match lexeme.token with
    | .closeBrace => some (.after (.object ⟨start, lexeme.span.stop⟩ []) frames)
    | .string key => some (.colon start [] key frames)
    | _ => none
  | .nextKey start members frames =>
    match lexeme.token with
    | .string key => some (.colon start members key frames)
    | _ => none
  | .colon start members key frames =>
    match lexeme.token with
    | .colon => some (.expect (.object start members key :: frames))
    | _ => none
  | .after value frames => continue? value lexeme frames

/-- The value that has been read when nothing is left to come. -/
def result? : State → Option Json
  | .after value [] => some value
  | _ => none

end State

/-- The value of a text, if it is a JSON text. -/
def parse? (text : Bytes) : Option Json := do
  let lexemes ← tokens? text
  let state ← lexemes.foldlM State.step (.expect [])
  state.result?

end PascalCompiler.Json
