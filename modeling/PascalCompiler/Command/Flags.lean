import PascalCompiler.Text.Quoted

/-!
# Flags of the command

Flags stand in front of the arguments, behind one or two dashes. A flag that
takes a value has it behind an equals sign or as the next word; a switch takes a
value only behind an equals sign. Flags end at the first word that is none, or
behind two dashes.

## Main definitions

* `Options`: what the flags say
* `FlagError`: why they cannot be understood
* `Options.parse`: the options and arguments of a command line
-/

namespace PascalCompiler

/-- What the flags of a command line say. -/
structure Options where
  /-- Print the syntax tree instead of compiling it. -/
  ast : Bool := false
  /-- Show all errors, with the nodes at fault. -/
  allErrors : Bool := false
  /-- Lay the script out. -/
  pretty : Bool := false
  /-- Show a stack trace when failing. -/
  stack : Bool := false
  /-- Report sizes. -/
  sizes : Bool := false
  /-- The file to write to, or standard output if it has no name. -/
  output : String := ""

/-- Why the flags of a command line cannot be understood. -/
inductive FlagError where
  /-- Help is asked for. -/
  | help
  | badForm (word : String)
  | undefined (name : String)
  | needsArgument (name : String)
  | notBoolean (value name : String)
  deriving DecidableEq

namespace FlagError

/-- The usage of the command. -/
def usage : String :=
  "Usage of delphi2js:\n" ++
  "  -ast\n    \tprint the syntax tree instead of translating it\n" ++
  "  -e\tshow all errors\n" ++
  "  -o string\n    \t.js output file\n" ++
  "  -pretty\n    \treformat the output\n" ++
  "  -stack\n    \tshow dying stack traces\n" ++
  "  -v\treport sizes\n"

/-- What is told about an error: a line, unless help is asked for, and the usage. -/
def message : FlagError → String
  | .help => usage
  | .badForm word => "bad flag syntax: " ++ word ++ "\n" ++ usage
  | .undefined name => "flag provided but not defined: -" ++ name ++ "\n" ++ usage
  | .needsArgument name => "flag needs an argument: -" ++ name ++ "\n" ++ usage
  | .notBoolean value name =>
    "invalid boolean value " ++ Quoted.quote value ++ " for -" ++ name ++ ": parse error\n" ++ usage

/-- The exit status: asking for help is no failure. -/
def status : FlagError → Nat
  | .help => 0
  | _ => 2

end FlagError

namespace Options

/-- What a word of the command line is. -/
inductive Word where
  /-- The first argument. -/
  | argument
  /-- The end of the flags. -/
  | stop
  /-- No flag and no argument. -/
  | bad
  /-- A flag, perhaps with a value. -/
  | flag (name : String) (value : Option String)

/-- A flag's name, and its value behind the first equals sign. -/
def splitValue (letters : List Char) : String × Option String :=
  let name := String.ofList (letters.takeWhile (· != '='))
  match letters.dropWhile (· != '=') with
  | [] => (name, none)
  | _ :: value => (name, some (String.ofList value))

/-- A flag without its dashes. -/
def flagWord : List Char → Word
  | [] => .bad
  | c :: rest =>
    if c == '-' || c == '=' then .bad
    else
      let (name, value) := splitValue (c :: rest)
      .flag name value

/-- What a word of the command line is. -/
def classify (word : String) : Word :=
  match word.toList with
  | ['-', '-'] => .stop
  | '-' :: '-' :: rest => flagWord rest
  | ['-'] => .argument
  | '-' :: rest => flagWord rest
  | _ => .argument

/-- The truth value that a word stands for. -/
def bool? (word : String) : Option Bool :=
  if ["1", "t", "T", "TRUE", "true", "True"].contains word then some true
  else if ["0", "f", "F", "FALSE", "false", "False"].contains word then some false
  else none

/-- Turns the switch with the given name on or off. -/
def switch? (options : Options) (name : String) (on : Bool) : Option Options :=
  match name with
  | "ast" => some { options with ast := on }
  | "e" => some { options with allErrors := on }
  | "pretty" => some { options with pretty := on }
  | "stack" => some { options with stack := on }
  | "v" => some { options with sizes := on }
  | _ => none

/-- Is the flag one that takes a value? -/
def takesValue (name : String) : Bool :=
  name == "o"

/-- The options after a switch. -/
def setSwitch (options : Options) (name : String) (value : Option String) :
    Except FlagError Options :=
  match options.switch? name true, value with
  | none, _ => .error (if name == "help" || name == "h" then .help else .undefined name)
  | some switched, none => .ok switched
  | some switched, some value =>
    match bool? value with
    | none => .error (.notBoolean value name)
    | some on => .ok ((options.switch? name on).getD switched)

/-- The options and arguments of a command line. -/
def parse (options : Options) : List String → Except FlagError (Options × List String)
  | [] => .ok (options, [])
  | word :: rest =>
    match classify word with
    | .argument => .ok (options, word :: rest)
    | .stop => .ok (options, rest)
    | .bad => .error (.badForm word)
    | .flag name value =>
      if takesValue name then
        match value, rest with
        | some value, rest => parse { options with output := value } rest
        | none, value :: rest => parse { options with output := value } rest
        | none, [] => .error (.needsArgument name)
      else
        match setSwitch options name value with
        | .ok options => parse options rest
        | .error error => .error error

end Options

end PascalCompiler
