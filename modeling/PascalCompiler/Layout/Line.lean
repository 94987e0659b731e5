import PascalCompiler.Layout.Piece
import PascalCompiler.Text.Numeral

/-!
# Laying a script out

A laid-out script has every statement on its own line, and blocks indented by a
tab. A line ends behind a semicolon outside of parentheses and around braces,
but a closing brace shares its line with an `else`, `catch` or `finally` that
follows. Runs of blanks become one space, and string literals stay as they are.

## Main definitions

* `Line`: a line with its indentation
* `Layout.Error`: why a script cannot be laid out
* `Layout.lines`: the lines of a script
* `Layout.format`: the text of a laid-out script
-/

namespace PascalCompiler.Layout

/-- A line: the number of blocks it is inside of, and its bytes. -/
structure Line where
  depth : Nat
  text : Bytes
  deriving DecidableEq

/-- A line as written: tabs, its bytes, and a line feed. -/
def Line.render (line : Line) : Bytes :=
  List.replicate line.depth 0x09 ++ line.text ++ [Bytes.lineFeed]

/-- What keeps a script from being laid out. -/
inductive Fault where
  | unterminatedLiteral
  | unbalancedClose
  | unbalancedOpen
  deriving DecidableEq

/-- The text of a fault. -/
def Fault.words : Fault → String
  | .unterminatedLiteral => "unterminated string literal"
  | .unbalancedClose => "unbalanced '\x7d'"
  | .unbalancedOpen => "unbalanced '\x7b'"

/-- Why a script cannot be laid out. -/
inductive Error where
  /-- The script has a zero byte at the given offset. -/
  | zeroByte (offset : Nat)
  /-- The script has a fault at the given line and column. -/
  | faultAt (line column : Nat) (fault : Fault)
  deriving DecidableEq

/-- The text of an error. -/
def Error.message : Error → String
  | .zeroByte offset => "input contains a zero byte at offset 0x" ++ Numeral.hex 1 offset
  | .faultAt line column fault =>
    Numeral.decimal line ++ ":" ++ Numeral.decimal column ++ ": " ++ fault.words

/-! ### Signs -/

/-- What a byte outside of literals means for the layout. -/
inductive Sign where
  | openParen
  | closeParen
  | semicolon
  | openBrace
  | closeBrace
  | plain
  deriving DecidableEq

/-- The sign that a byte is. -/
def Sign.of (byte : UInt8) : Sign :=
  if byte = 0x28 then .openParen
  else if byte = 0x29 then .closeParen
  else if byte = 0x3B then .semicolon
  else if byte = 0x7B then .openBrace
  else if byte = 0x7D then .closeBrace
  else .plain

/-! ### What continues a closing brace -/

/-- Can the byte stand in a name? -/
def inName (byte : UInt8) : Bool :=
  let c := Char.ofNat byte.toNat
  c.isAlphanum || c == '_' || c == '$'

/-- Do the pieces start with the word, and is it a word of its own? -/
def startsWith : Bytes → List Piece → Bool
  | [], .mark byte :: _ => !inName byte
  | [], _ => true
  | expected :: word, .mark byte :: rest => byte == expected && startsWith word rest
  | _ :: _, _ => false

/-- The words that continue a statement behind a closing brace. -/
def continuations : List Bytes :=
  ["else", "catch", "finally"].map .ofString

/-- Do the pieces behind a closing brace continue its statement? -/
def continued : List Piece → Bool
  | .blank _ :: rest => continued rest
  | pieces => continuations.any (startsWith · pieces)

/-! ### Lines -/

/-- Where the layout stands: the number of bytes passed, the line begun, latest
byte first, the offsets of the open braces, innermost first, the number of open
parentheses, and the finished lines, latest first. -/
structure State where
  offset : Nat := 0
  line : Bytes := []
  braces : List Nat := []
  parens : Nat := 0
  lines : List Line := []

namespace State

/-- Adds a byte to the line. -/
def add (state : State) (byte : UInt8) : State :=
  { state with line := byte :: state.line }

/-- Adds a space to the line, unless it is empty or ends in one. -/
def space (state : State) : State :=
  match state.line with
  | [] => state
  | last :: _ => if last == 0x20 then state else state.add 0x20

/-- Ends the line. Spaces at its end are dropped, and an empty line altogether. -/
def flush (state : State) : State :=
  match state.line.dropWhile (· == 0x20) with
  | [] => { state with line := [] }
  | text => { state with line := [], lines := ⟨state.braces.length, text.reverse⟩ :: state.lines }

/-- Passes a byte that stands outside of literals and is no blank. A closing
parenthesis without an open one counts for nothing. -/
def mark (state : State) (byte : UInt8) (rest : List Piece) : Except (Nat × Fault) State :=
  match Sign.of byte with
  | .openParen => .ok { state.add byte with parens := state.parens + 1 }
  | .closeParen => .ok { state.add byte with parens := state.parens - 1 }
  | .semicolon => .ok (if state.parens = 0 then (state.add byte).flush else state.add byte)
  | .openBrace =>
    let opened := (state.space.add byte).flush
    .ok { opened with braces := state.offset :: state.braces }
  | .closeBrace =>
    match state.braces with
    | [] => .error (state.offset, .unbalancedClose)
    | _ :: braces =>
      let closed := { state.flush with braces := braces }.add byte
      .ok (if continued rest then closed.space else closed.flush)
  | .plain => .ok (state.add byte)

/-- Passes a piece, in front of the rest of the pieces. -/
def step (state : State) (piece : Piece) (rest : List Piece) : Except (Nat × Fault) State :=
  match piece with
  | .blank _ => .ok state.space
  | .literal text => .ok { state with line := text.reverse ++ state.line }
  | .mark byte => state.mark byte rest
  | .unclosed _ => .error (state.offset, .unterminatedLiteral)

/-- Ends the layout. -/
def finish (state : State) : Except (Nat × Fault) (List Line) :=
  match state.braces with
  | [] => .ok state.flush.lines.reverse
  | offset :: _ => .error (offset, .unbalancedOpen)

end State

/-- The lines of the rest of the pieces. -/
def linesFrom (state : State) : List Piece → Except (Nat × Fault) (List Line)
  | [] => state.finish
  | piece :: rest =>
    match state.step piece rest with
    | .error fault => .error fault
    | .ok next => linesFrom { next with offset := state.offset + piece.bytes.length } rest

/-- The lines of a script, or the offset and kind of its first fault. -/
def lines (script : Bytes) : Except (Nat × Fault) (List Line) :=
  linesFrom {} (Piece.cut script)

/-- The text of a laid-out script. -/
def format (script : Bytes) : Except Error Bytes :=
  match script.idxOf? 0 with
  | some offset => .error (.zeroByte offset)
  | none =>
    match lines script with
    | .ok lines => .ok (lines.flatMap Line.render)
    | .error (offset, fault) =>
      let place := Bytes.lineColumn (script.take offset)
      .error (.faultAt place.1 place.2 fault)

end PascalCompiler.Layout
