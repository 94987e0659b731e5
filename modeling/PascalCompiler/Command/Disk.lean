import PascalCompiler.Text.Bytes

/-!
# Files and directories

Files are kept in directories, which can hold other directories as well. A path is
followed step by step, from the root if it starts with a slash and from the working
directory if it does not. There are no links, and nothing is kept from being read or
written.

## Main definitions

* `Entry`: a file, or a directory with what is in it
* `Entry.found`, `Entry.put`: what is at a location, and putting a file there
* `FileError`: why a file cannot be read or written
* `Disk`: all files and directories, and the working directory
* `Disk.follow`: where a path leads
* `Disk.read`, `Disk.write`: reading and writing by path

## Main results

* `Entry.found_put`: what is where after a file is put at a location
-/

namespace PascalCompiler

/-! ### Directories in directories -/

/-- A file, or a directory with its entries by name. -/
inductive Entry where
  | file (content : Bytes)
  | directory (entries : List (String × Entry))

/-- What can be at a location. -/
inductive Found where
  | nothing
  | file (content : Bytes)
  | directory
  deriving DecidableEq

/-- The entries with one of them replaced, or a new one behind them. -/
def replaceIn {α : Type} (name : String) (value : α) : List (String × α) → List (String × α)
  | [] => [(name, value)]
  | (n, a) :: rest =>
    if n = name then (n, value) :: rest else (n, a) :: replaceIn name value rest

/-- What is put under a name is found there; all else is as before. -/
theorem lookup_replaceIn {α : Type} (name sought : String) (value : α)
    (entries : List (String × α)) :
    (replaceIn name value entries).lookup sought =
      if sought = name then some value else entries.lookup sought := by
  induction entries with
  | nil => grind [replaceIn]
  | cons entry rest ih =>
    obtain ⟨key, old⟩ := entry
    rw [replaceIn]
    by_cases same : key = name
    · rw [if_pos same]
      grind
    · rw [if_neg same, List.lookup_cons, List.lookup_cons, ih]
      grind

namespace Entry

/-- What is at a location, which is given by the names on the way to it. -/
def found : List String → Entry → Found
  | [], .file content => .file content
  | [], .directory _ => .directory
  | _ :: _, .file _ => .nothing
  | name :: rest, .directory entries =>
    match entries.lookup name with
    | none => .nothing
    | some inner => found rest inner

/-- A file is put at a location, in place of what is there. Directories on the way to it
are made if they are not there. -/
def put (content : Bytes) : List String → Entry → Entry
  | [], _ => .file content
  | _ :: _, .file other => .file other
  | name :: rest, .directory entries =>
    let inner := (entries.lookup name).getD (.directory [])
    .directory (replaceIn name (put content rest inner) entries)

/-- What is on the way to a directory is a directory. -/
theorem found_of_append {place rest : List String} {entry : Entry}
    (isDirectory : entry.found (place ++ rest) = .directory) : entry.found place = .directory := by
  induction place generalizing entry with
  | nil =>
    cases entry with
    | directory entries => rfl
    | file content => cases rest <;> cases isDirectory
  | cons name place ih =>
    cases entry with
    | file content => cases isDirectory
    | directory entries =>
      rw [List.cons_append, found] at isDirectory
      rw [found]
      cases within : entries.lookup name with
      | none =>
        rw [within] at isDirectory
        cases isDirectory
      | some inner =>
        rw [within] at isDirectory
        exact ih isDirectory

/-- What is found after an entry of a directory is replaced. -/
theorem found_replaceIn (name : String) (value : Entry) (entries : List (String × Entry))
    (first : String) (rest : List String) :
    (directory (replaceIn name value entries)).found (first :: rest) =
      if first = name then value.found rest else (directory entries).found (first :: rest) := by
  rw [found, lookup_replaceIn, found]
  by_cases here : first = name
  · rw [if_pos here, if_pos here]
  · rw [if_neg here, if_neg here]

/-- There is nothing inside of what is no directory. -/
theorem found_of_not_directory {entry : Entry} (isNone : entry.found [] ≠ .directory)
    (name : String) (rest : List String) : entry.found (name :: rest) = .nothing := by
  cases entry with
  | file content => rfl
  | directory entries => exact absurd rfl isNone

/-- A file that is put into a directory under a name that no directory has is found there, and
nothing else is changed. -/
theorem found_put (content : Bytes) {place : List String} {name : String} {entry : Entry}
    (isDirectory : entry.found place = .directory)
    (isNone : entry.found (place ++ [name]) ≠ .directory) (location : List String) :
    (entry.put content (place ++ [name])).found location =
      if location = place ++ [name] then .file content else entry.found location := by
  induction place generalizing entry location with
  | nil =>
    cases entry with
    | file other => cases isDirectory
    | directory entries =>
      cases location with
      | nil => rfl
      | cons first rest =>
        rw [List.nil_append, put, found_replaceIn]
        by_cases here : first = name
        · subst here
          rw [if_pos rfl]
          cases rest with
          | nil => simp [put, found]
          | cons second rest =>
            -- there was no directory under the name, so nothing was inside
            rw [List.nil_append, found] at isNone
            rw [if_neg (by simp), put, found, found]
            cases within : entries.lookup first with
            | none => rfl
            | some inner =>
              rw [within] at isNone
              exact (found_of_not_directory isNone second rest).symm
        · rw [if_neg here, if_neg (by simp [here])]
  | cons step place ih =>
    cases entry with
    | file other => cases isDirectory
    | directory entries =>
      rw [found] at isDirectory
      rw [List.cons_append, found] at isNone
      cases within : entries.lookup step with
      | none =>
        rw [within] at isDirectory
        cases isDirectory
      | some inner =>
        rw [within] at isDirectory isNone
        cases location with
        | nil => rfl
        | cons first rest =>
          rw [List.cons_append, put, within, Option.getD_some, found_replaceIn]
          by_cases here : first = step
          · subst here
            rw [if_pos rfl, found, within]
            simpa using ih isDirectory isNone rest
          · rw [if_neg here, if_neg (by simp [here])]

end Entry

/-! ### Errors -/

/-- Why a file cannot be opened. -/
inductive FileError where
  | missing
  | isDirectory
  | notDirectory
  | invalidPath
  | nameTooLong
  | denied
  deriving DecidableEq

/-- The words for an error. -/
def FileError.words : FileError → String
  | .missing => "no such file or directory"
  | .isDirectory => "is a directory"
  | .notDirectory => "not a directory"
  | .invalidPath => "invalid argument"
  | .nameTooLong => "file name too long"
  | .denied => "permission denied"

/-- What is told when a file cannot be read. A directory can be opened, but not
read. -/
def FileError.readMessage (path : String) (error : FileError) : String :=
  (if error = .isDirectory then "read " else "open ") ++ path ++ ": " ++ error.words

/-- What is told when a file cannot be written. -/
def FileError.writeMessage (path : String) (error : FileError) : String :=
  "open " ++ path ++ ": " ++ error.words

/-- All files and directories, and one directory that paths start at. -/
structure Disk where
  /-- The root directory. -/
  root : Entry
  /-- The names on the way from the root to the working directory. -/
  working : List String := []

namespace Disk

/-! ### Paths -/

/-- The greatest number of bytes in a name. -/
def maxName : Nat := 255

/-- The greatest number of bytes in a path. -/
def maxPath : Nat := 4095

/-- The pieces of a path between slashes; `current` is the piece begun, latest
character first. -/
def stepsFrom (current : List Char) : List Char → List String
  | [] => [String.ofList current.reverse]
  | '/' :: rest => String.ofList current.reverse :: stepsFrom [] rest
  | c :: rest => stepsFrom (c :: current) rest

/-- The steps of a path. Slashes in a row count as one. -/
def steps (path : String) : List String :=
  (stepsFrom [] path.toList).filter (· ≠ "")

/-- Does the path start at the root? -/
def isAbsolute (path : String) : Bool :=
  path.toList.head? == some '/'

/-- Does a slash end the path, so that it can only mean a directory? -/
def endsInSlash (path : String) : Bool :=
  path.toList.getLast? == some '/'

/-! ### Following a path -/

/-- Where a path leads. -/
inductive Target where
  | directory
  /-- A name in the directory at a place, of a file or of nothing yet. -/
  | entry (place : List String) (name : String)
  deriving DecidableEq

/-- The place that a step within a path leads to. -/
def enter (disk : Disk) (place : List String) (step : String) : Except FileError (List String) :=
  if step = "." then .ok place
  else if step = ".." then .ok place.dropLast
  else if maxName < step.utf8ByteSize then .error .nameTooLong
  else
    match disk.root.found (place ++ [step]) with
    | .directory => .ok (place ++ [step])
    | .file _ => .error .notDirectory
    | .nothing => .error .missing

/-- Where the steps of a path lead to from a place. -/
def walk (disk : Disk) (place : List String) : List String → Except FileError Target
  | [] => .ok .directory
  | [last] =>
    let isDirectory := last = "." ∨ last = ".." ∨ disk.root.found (place ++ [last]) = .directory
    .ok (if isDirectory then .directory else .entry place last)
  | step :: rest =>
    match disk.enter place step with
    | .error error => .error error
    | .ok next => disk.walk next rest

/-- Where a path leads. Nothing is reached from a working directory that is not there. -/
def follow (disk : Disk) (path : String) : Except FileError Target :=
  let start := if isAbsolute path then [] else disk.working
  if path.toList.contains '\x00' then .error .invalidPath
  else if path = "" then .error .missing
  else if maxPath < path.utf8ByteSize then .error .nameTooLong
  else if disk.root.found start = .directory then disk.walk start (steps path)
  else .error .missing

/-! ### Files -/

/-- The content of the file that a path leads to. -/
def read (disk : Disk) (path : String) : Except FileError Bytes :=
  match disk.follow path with
  | .error error => .error error
  | .ok .directory => .error .isDirectory
  | .ok (.entry place name) =>
    if maxName < name.utf8ByteSize then .error .nameTooLong
    else
      match disk.root.found (place ++ [name]) with
      | .file content => if endsInSlash path then .error .notDirectory else .ok content
      | _ => .error .missing

/-- The disk with a file written, in place of one that is there. A path that ends in a
slash is refused before its last name is looked at. -/
def write (disk : Disk) (path : String) (content : Bytes) : Except FileError Disk :=
  match disk.follow path with
  | .error error => .error error
  | .ok .directory => .error .isDirectory
  | .ok (.entry place name) =>
    if endsInSlash path then .error .isDirectory
    else if maxName < name.utf8ByteSize then .error .nameTooLong
    else .ok { disk with root := disk.root.put content (place ++ [name]) }

end Disk

end PascalCompiler
