import PascalCompiler.Command.Task

/-!
# The executable

Reads the input file, and writes what the command made of it.
-/

namespace PascalCompiler

/-- Is the code the given error number? Some calls give the number negated. -/
def FileError.isNumber (code number : UInt32) : Bool :=
  code == number || code == -number

/-- Why the system could not open a file. Errors that are of one kind for the
system, such as a directory in place of a file and a file in place of a
directory, are told apart by number. -/
def FileError.ofSystem : IO.Error → FileError
  | .inappropriateType _ code _ => if isNumber code 20 then .notDirectory else .isDirectory
  | .invalidArgument _ code _ => if isNumber code 36 then .nameTooLong else .invalidPath
  | .permissionDenied .. => .denied
  | _ => .missing

/-- Writes to the standard streams, and gives the exit status. -/
def Product.emit (product : Product) : IO UInt32 := do
  (← IO.getStderr).write ⟨product.stderr.toArray⟩
  (← IO.getStdout).write ⟨product.stdout.toArray⟩
  return product.exit.toUInt32

/-- Writes the output file, if there is one, and the standard streams. -/
def Product.deliver (product : Product) : IO UInt32 := do
  match product.file with
  | none => product.emit
  | some (path, content) =>
    try
      IO.FS.writeBinFile path ⟨content.toArray⟩
      product.emit
    catch error => (Command.unwritable product path (.ofSystem error)).emit

end PascalCompiler

open PascalCompiler in
/-- Runs the command with the given arguments. -/
def main (args : List String) : IO UInt32 := do
  match Command.request args with
  | .error product => product.emit
  | .ok (options, path) =>
    let product ←
      try
        let content ← IO.FS.readBinFile path
        pure (options.product path content.data.toList)
      catch error => pure (Command.unreadable path (.ofSystem error))
    product.deliver
