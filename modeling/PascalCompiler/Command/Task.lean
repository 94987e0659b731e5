import PascalCompiler.Command.Disk
import PascalCompiler.Command.Flags
import PascalCompiler.Command.Size
import PascalCompiler.Failure

/-!
# The command

The command reads the document in the file named by its argument, compiles it,
and writes the script. Nothing is written unless all went well.

## Main definitions

* `Product`: what the command has to write
* `Options.product`: the product for the content of the input file
* `Command.run`: the command on a disk
-/

namespace PascalCompiler

/-- What the command has to write, and how it ends. -/
structure Product where
  exit : Nat := 0
  stdout : Bytes := []
  stderr : Bytes := []
  /-- The path and content of the file to write. -/
  file : Option (String × Bytes) := none

namespace Product

/-- The product of a failure: its text on standard error. -/
def failed (message : Bytes) : Product :=
  { exit := 1, stderr := Blank.trim message ++ [Bytes.lineFeed] }

end Product

/-- How many errors of a list are shown unless all are asked for. -/
def maxErrors : Nat := 10

/-- The text that reports a failure. -/
def Failure.report (allErrors : Bool) (failure : Failure) : Bytes :=
  match failure.list? with
  | some list =>
    if allErrors || list.length ≤ maxErrors then joinLines list
    else
      joinLines (list.take maxErrors ++
        [.ofString ("... and " ++ Numeral.decimal ((list.length - maxErrors : Nat) : Int) ++
          " more errors (-e shows all)")])
  | none => if allErrors then failure.detail else failure.message

/-- The text that reports a failure of the layout of the script for the input.
A list of errors stands by itself. -/
def Layout.Error.report (input : String) (error : Layout.Error) : Bytes :=
  match error with
  | .faultAt .. => .ofString error.message
  | .zeroByte _ => .ofString (input ++ ": reformatting output: " ++ error.message)

namespace Options

/-- The script of a file, laid out if asked for, or the report why there is none. -/
def script (options : Options) (input : String) (file : File) : Except Bytes Bytes :=
  match file.compile with
  | .error error => .error ((Failure.ofCompile error).report options.allErrors)
  | .ok text =>
    if options.pretty then
      (Layout.format (.ofString text)).mapError (Layout.Error.report input)
    else .ok (.ofString text)

/-- The line that tells the sizes of the input and of the script. -/
def sizeLine (input : String) (content script : Bytes) : Bytes :=
  .ofString (input ++ ": " ++ Size.render content.length ++ " in, " ++ Size.render script.length ++
    " out\n")

/-- What the command has to write for the content of the input file. -/
def product (options : Options) (input : String) (content : Bytes) : Product :=
  match Document.decode input content with
  | .error error => .failed ((Failure.document input error).report options.allErrors)
  | .ok file =>
    if options.ast then { stdout := .ofString (file.node.dump ++ "\n") }
    else
      match options.script input file with
      | .error report => .failed report
      | .ok script =>
        let stderr := if options.sizes then sizeLine input content script else []
        if options.output = "" then { stdout := script, stderr }
        else { stderr, file := some (options.output, script) }

end Options

namespace Command

/-- The one argument of the command. -/
def input : List String → Except Product String
  | [] => .error (.failed (.ofString "missing input file argument"))
  | [path] => .ok path
  | paths =>
    .error (.failed (.ofString
      ("exactly one input file expected, got " ++ Numeral.decimal paths.length)))

/-- The options and the path of the input file of a command line. -/
def request (args : List String) : Except Product (Options × String) :=
  match Options.parse {} args with
  | .error error => .error { exit := error.status, stderr := .ofString error.message }
  | .ok (options, rest) => (input rest).map (options, ·)

/-- The product when the input file cannot be read. -/
def unreadable (path : String) (error : FileError) : Product :=
  .failed (.ofString (error.readMessage path))

/-- The product when the output file cannot be written. -/
def unwritable (product : Product) (path : String) (error : FileError) : Product :=
  let failed := Product.failed (.ofString (error.writeMessage path))
  { failed with stderr := product.stderr ++ failed.stderr }

/-- What the command writes, given what is on a disk. -/
def product (args : List String) (disk : Disk) : Product :=
  match request args with
  | .error product => product
  | .ok (options, path) =>
    match disk.read path with
    | .error error => unreadable path error
    | .ok content => options.product path content

/-- The command on a disk: what it writes, and the disk after it. -/
def run (args : List String) (disk : Disk) : Product × Disk :=
  let made := product args disk
  match made.file with
  | none => (made, disk)
  | some (path, content) =>
    match disk.write path content with
    | .ok written => (made, written)
    | .error error => (unwritable made path error, disk)

end Command

end PascalCompiler
