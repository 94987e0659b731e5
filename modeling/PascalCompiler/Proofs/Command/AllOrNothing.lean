import PascalCompiler.Command.Task
import PascalCompiler.Proofs.Text.Utf8
import Mathlib.Data.List.Basic

/-!
# All or nothing

The command passes through stages: it reads the input file, decodes the document,
and then dumps the tree, or compiles it and lays the script out if asked to. Until
the last stage has succeeded nothing is written, neither on standard output nor to
a file. The switches `-e` and `-v` only change what is told on standard error.

What a run does, standard error apart, depends on the stages only through the text
they end with. That is said once, for the product of the command, and the run
carries the product out.

## Main definitions

* `Disk.Replaced`: one file has been replaced, and nothing else has changed
* `Command.outcome`: the text that the stages end with
* `Command.Failed`, `Command.Printed`, `Command.Stored`: the ways a run can end

## Main results

* `Disk.replaced_of_write`: what is written to a path is read there, and nothing else changes
* `Options.request_words`: every choice of options can be asked for
* `Command.muted_product`: the product depends on the stages through their outcome
* `Command.run_delivers`: the run carries out what becomes of the outcome
* `Command.run_all_or_nothing`: how a run ends
-/

namespace PascalCompiler

/-! ### Replacing a file -/

namespace Disk

variable {before after : Disk} {path : String} {content : Bytes}

section SameDirectories

variable (same : ∀ location,
  after.root.found location = .directory ↔ before.root.found location = .directory)
include same

/-- A step leads to the same place if the directories are the same. -/
theorem enter_of_enter {place next : List String} {step : String}
    (entered : before.enter place step = .ok next) : after.enter place step = .ok next := by
  rw [enter] at entered ⊢
  split_ifs at entered ⊢ with dot up
  · exact entered
  · exact entered
  · split at entered
    · next isDirectory => rwa [(same _).mpr isDirectory]
    · cases entered
    · cases entered

theorem walk_of_walk {target : Target} {place : List String} {steps : List String}
    (led : before.walk place steps = .ok target) : after.walk place steps = .ok target := by
  fun_induction walk before place steps with
  | case1 => exact led
  | case2 place last isDirectory =>
    rw [← led, walk]
    simp only [same, isDirectory]
  | case3 => cases led
  | case4 place step rest notLast next entered ih =>
    rw [walk, enter_of_enter same entered]
    · exact ih led
    · exact notLast

/-- A path leads to the same target if the directories are the same. -/
theorem follow_of_follow {target : Target} (led : before.follow path = .ok target)
    (working : after.working = before.working) : after.follow path = .ok target := by
  rw [follow] at led ⊢
  simp only [working, same]
  split_ifs at led ⊢
  all_goals exact walk_of_walk same led

end SameDirectories

/-- A step leads from a directory to a directory. -/
theorem found_of_enter {disk : Disk} {place next : List String} {step : String}
    (isDirectory : disk.root.found place = .directory)
    (entered : disk.enter place step = .ok next) :
    disk.root.found next = .directory := by
  rw [enter] at entered
  split_ifs at entered with dot up
  · obtain rfl := Except.ok.inj entered
    exact isDirectory
  · obtain rfl := Except.ok.inj entered
    -- the directory around is on the way to the one inside
    obtain ⟨rest, split⟩ := List.dropLast_prefix place
    exact Entry.found_of_append (split ▸ isDirectory)
  · split at entered
    · next inside =>
      obtain rfl := Except.ok.inj entered
      exact inside
    · cases entered
    · cases entered

/-- The name that a path leads to is in a directory, and no directory has it. -/
theorem found_of_walk {disk : Disk} {place target steps : List String} {name : String}
    (isDirectory : disk.root.found place = .directory)
    (led : disk.walk place steps = .ok (.entry target name)) :
    disk.root.found target = .directory ∧ disk.root.found (target ++ [name]) ≠ .directory := by
  fun_induction walk disk place steps with
  | case1 => cases led
  | case2 place last =>
    split at led
    · cases led
    · next other =>
      obtain ⟨rfl, rfl⟩ := Target.entry.inj (Except.ok.inj led)
      exact ⟨isDirectory, fun inside => other (.inr (.inr inside))⟩
  | case3 => cases led
  | case4 place step rest notLast next entered ih =>
    exact ih (found_of_enter isDirectory entered) led

theorem found_of_follow {disk : Disk} {place : List String} {name : String}
    (led : disk.follow path = .ok (.entry place name)) :
    disk.root.found place = .directory ∧ disk.root.found (place ++ [name]) ≠ .directory := by
  rw [follow] at led
  split_ifs at led
  all_goals exact found_of_walk ‹_› led

/-- A file can be written where the path leads to a name that is not too long. -/
theorem write_eq_ok (wrote : before.write path content = .ok after) :
    ∃ place name, before.follow path = .ok (.entry place name) ∧ endsInSlash path = false ∧
      name.utf8ByteSize ≤ maxName ∧
      after = { before with root := before.root.put content (place ++ [name]) } := by
  rw [write] at wrote
  split at wrote
  · cases wrote
  · cases wrote
  · next place name led =>
    split_ifs at wrote with slash long
    obtain rfl := Except.ok.inj wrote
    exact ⟨place, name, led, Bool.eq_false_iff.mpr slash, Nat.le_of_not_lt long, rfl⟩

/-- The file that a path leads to has been replaced, and nothing else has changed. -/
structure Replaced (before : Disk) (path : String) (content : Bytes) (after : Disk) : Prop where
  files : ∃ place name, before.follow path = .ok (.entry place name) ∧
    ∀ location, after.root.found location =
      if location = place ++ [name] then .file content else before.root.found location
  working : after.working = before.working
  readBack : after.read path = .ok content

theorem replaced_of_write (wrote : before.write path content = .ok after) :
    before.Replaced path content after := by
  obtain ⟨place, name, led, noSlash, short, rfl⟩ := write_eq_ok wrote
  obtain ⟨isDirectory, isNone⟩ := found_of_follow led
  have files := Entry.found_put content isDirectory isNone
  refine ⟨⟨place, name, led, files⟩, rfl, ?_⟩
  -- the new file is no directory, so the path still leads to it
  have leads : follow { before with root := before.root.put content (place ++ [name]) } path =
      .ok (.entry place name) := by
    refine follow_of_follow (fun location => ?_) led rfl
    rw [files]
    split
    · next here =>
      rw [here]
      exact iff_of_false Found.noConfusion isNone
    · rfl
  simp [read, leads, Nat.not_lt_of_le short, files, noSlash]

end Disk

/-! ### Asking for options -/

namespace Options

/-- The word of a switch, if it is turned on. -/
def asked (on : Bool) (word : String) : List String :=
  if on then [word] else []

/-- A command line that asks for the options, with the path of the input file. -/
def words (options : Options) (path : String) : List String :=
  asked options.ast "-ast" ++ (asked options.allErrors "-e" ++ (asked options.pretty "-pretty" ++
    (asked options.stack "-stack" ++ (asked options.sizes "-v" ++
      ["-o", options.output, "--", path]))))

/-- Reading the word of a switch, or none, leaves the switch on or off. -/
theorem parse_asked {word name : String} (set : Bool → Options) (on : Bool) (rest : List String)
    (flag : classify word = .flag name none) (valueless : takesValue name = false)
    (switch : (set false).switch? name true = some (set true)) :
    parse (set false) (asked on word ++ rest) = parse (set on) rest := by
  cases on with
  | false => rfl
  | true =>
    change parse (set false) (word :: rest) = _
    rw [parse, flag]
    simp only [valueless, setSwitch, switch, Bool.false_eq_true, if_false]

theorem parse_output (options : Options) (output path : String) :
    parse options ["-o", output, "--", path] = .ok ({ options with output }, [path]) := by
  have flag : classify "-o" = .flag "o" none := rfl
  have stop : classify "--" = .stop := rfl
  have valued : takesValue "o" = true := rfl
  rw [parse, flag]
  simp only [valued, if_true]
  rw [parse, stop]

theorem request_words (options : Options) (path : String) :
    Command.request (options.words path) = .ok (options, path) := by
  obtain ⟨ast, allErrors, pretty, stack, sizes, output⟩ := options
  have parsed : parse {} (words ⟨ast, allErrors, pretty, stack, sizes, output⟩ path) =
      .ok (⟨ast, allErrors, pretty, stack, sizes, output⟩, [path]) := by
    -- each word turns one switch on, from the default on
    rw [words, parse_asked (fun on => { ast := on }) ast _ rfl rfl rfl,
      parse_asked (fun on => { ast, allErrors := on }) allErrors _ rfl rfl rfl,
      parse_asked (fun on => { ast, allErrors, pretty := on }) pretty _ rfl rfl rfl,
      parse_asked (fun on => { ast, allErrors, pretty, stack := on }) stack _ rfl rfl rfl,
      parse_asked (fun on => { ast, allErrors, pretty, stack, sizes := on }) sizes _ rfl rfl rfl,
      parse_output]
  rw [Command.request, parsed]
  rfl

end Options

/-! ### The product and its outcome -/

/-- A product but for what is told on standard error. -/
def Product.muted (product : Product) : Product :=
  { product with stderr := [] }

namespace Options

/-- The script of a file, laid out if asked for. -/
def script? (options : Options) (file : File) : Option Bytes := do
  let text ← file.compile.toOption
  if options.pretty then (Layout.format (.ofString text)).toOption else return .ofString text

/-- The text that the stages after reading end with: the dump of the tree, or the
script. -/
def text? (options : Options) (input : String) (content : Bytes) : Option Bytes := do
  let file ← (Document.decode input content).toOption
  if options.ast then return .ofString file.node.dump else options.script? file

/-- What becomes of the text that the stages end with, standard error apart. -/
def delivery (options : Options) : Option Bytes → Product
  | none => { exit := 1 }
  | some text =>
    if options.ast then { stdout := text ++ [Bytes.lineFeed] }
    else if options.output = "" then { stdout := text }
    else { file := some (options.output, text) }

theorem toOption_script (options : Options) (input : String) (file : File) :
    (options.script input file).toOption = options.script? file := by
  rw [script, script?]
  cases file.compile with
  | error error => rfl
  | ok text =>
    change Except.toOption (if options.pretty then _ else _) = if options.pretty then _ else _
    by_cases pretty : options.pretty
    · rw [if_pos pretty, if_pos pretty]
      cases Layout.format (.ofString text) <;> rfl
    · rw [if_neg pretty, if_neg pretty]
      rfl

/-- The product delivers the text of the stages, and is a failure if there is none. -/
theorem muted_product (options : Options) (input : String) (content : Bytes) :
    (options.product input content).muted = options.delivery (options.text? input content) := by
  rw [product, text?]
  cases Document.decode input content with
  | error error => rfl
  | ok file =>
    change Product.muted (if options.ast then _ else _) =
      options.delivery (if options.ast then _ else _)
    by_cases ast : options.ast
    · rw [if_pos ast, if_pos ast]
      change _ = if options.ast then _ else _
      rw [if_pos ast, Bytes.ofString_append]
      rfl
    · rw [if_neg ast, if_neg ast, ← toOption_script options input file]
      cases options.script input file with
      | error report => rfl
      | ok text =>
        change Product.muted (if options.output = "" then _ else _) =
          if options.ast then _ else if options.output = "" then _ else _
        rw [if_neg ast, apply_ite Product.muted]
        rfl

end Options

namespace Command

/-- The text that the stages of the command end with, if none of them fails. -/
def outcome (options : Options) (path : String) (disk : Disk) : Option Bytes := do
  let content ← (disk.read path).toOption
  options.text? path content

variable {args : List String} {options : Options} {path : String}

theorem muted_product (asked : request args = .ok (options, path)) (disk : Disk) :
    (product args disk).muted = options.delivery (outcome options path disk) := by
  rw [product, asked, outcome]
  dsimp only
  cases disk.read path with
  | error error => rfl
  | ok content => exact options.muted_product path content

/-! ### Carrying the product out -/

/-- Carries a product out on a disk. -/
def carryOut (made : Product) (disk : Disk) : Product × Disk :=
  match made.file with
  | none => (made, disk)
  | some (path, content) =>
    match disk.write path content with
    | .ok written => (made, written)
    | .error error => (unwritable made path error, disk)

section CarryOut

variable {made : Product} {disk written : Disk} {target : String} {content : Bytes}

theorem carryOut_none (unwritten : made.file = none) :
    carryOut made disk = (made, disk) := by
  rw [carryOut, unwritten]

theorem carryOut_ok (file : made.file = some (target, content))
    (wrote : disk.write target content = .ok written) :
    carryOut made disk = (made, written) := by
  simp only [carryOut, file, wrote]

theorem carryOut_error {error : FileError} (file : made.file = some (target, content))
    (refused : disk.write target content = .error error) :
    carryOut made disk = (unwritable made target error, disk) := by
  simp only [carryOut, file, refused]

end CarryOut

/-- What is done does not depend on what is told. -/
theorem muted_carryOut (made : Product) (disk : Disk) :
    (carryOut made disk).map Product.muted id =
      (carryOut made.muted disk).map Product.muted id := by
  have same : made.muted.file = made.file := rfl
  cases file : made.file with
  | none =>
    rw [carryOut_none file, carryOut_none (same.trans file)]
    rfl
  | some demand =>
    obtain ⟨target, content⟩ := demand
    cases wrote : disk.write target content with
    | error error =>
      rw [carryOut_error file wrote, carryOut_error (same.trans file) wrote]
      rfl
    | ok written =>
      rw [carryOut_ok file wrote, carryOut_ok (same.trans file) wrote]
      rfl

/-- A run carries out the delivery of what its stages come to, standard error apart. -/
theorem run_delivers {disk after : Disk} {product : Product}
    (asked : request args = .ok (options, path)) (ran : run args disk = (product, after)) :
    let done := carryOut (options.delivery (outcome options path disk)) disk
    product.exit = done.1.exit ∧ product.stdout = done.1.stdout ∧ product.file = done.1.file ∧
      after = done.2 := by
  have carried : carryOut (Command.product args disk) disk = (product, after) := ran
  -- with standard error left out, the product is the delivery
  have muted := muted_carryOut (Command.product args disk) disk
  rw [muted_product asked, carried] at muted
  obtain ⟨same, settles⟩ := Prod.mk.inj muted
  obtain ⟨exit, stdout, -, file⟩ := Product.mk.inj same
  exact ⟨exit, stdout, file, settles⟩

/-! ### Endings -/

/-- A run that fails tells why and does nothing else. -/
structure Failed (before : Disk) (product : Product) (after : Disk) : Prop where
  exit : product.exit = 1
  silent : product.stdout = []
  unwritten : product.file = none
  kept : after = before

/-- A run that prints a text writes no file. -/
structure Printed (before : Disk) (text : Bytes) (product : Product) (after : Disk) :
    Prop where
  exit : product.exit = 0
  printed : product.stdout = text
  unwritten : product.file = none
  kept : after = before

/-- A run that stores a text in the file at a path prints nothing, and writes no
other file. -/
structure Stored (before : Disk) (path : String) (text : Bytes) (product : Product)
    (after : Disk) : Prop where
  exit : product.exit = 0
  silent : product.stdout = []
  written : product.file = some (path, text)
  replaced : before.Replaced path text after

/-- The command writes all or nothing. Any options and any path can be asked for. If
a stage fails, the run fails and nothing is written. If none does, the run prints
the dump of the tree, or it prints the script or stores it in the file asked for;
no other file changes. To show all errors or to report sizes changes neither. -/
theorem run_all_or_nothing (options : Options) (path : String) (disk : Disk) :
    (∃ args, request args = .ok (options, path)) ∧
      ∀ args product after, request args = .ok (options, path) →
        run args disk = (product, after) →
        (outcome options path disk = none → Failed disk product after) ∧
        (∀ text, outcome options path disk = some text →
          (options.ast = true →
            Printed disk (text ++ [Bytes.lineFeed]) product after) ∧
          (options.ast = false → options.output = "" → Printed disk text product after) ∧
          (options.ast = false → options.output ≠ "" →
            (∀ written, disk.write options.output text = .ok written →
              Stored disk options.output text product after) ∧
            ∀ error, disk.write options.output text = .error error →
              Failed disk product after)) ∧
        ∀ allErrors sizes args' product' after',
          request args' = .ok ({ options with allErrors, sizes }, path) →
          run args' disk = (product', after') →
          product'.exit = product.exit ∧ product'.stdout = product.stdout ∧
            product'.file = product.file ∧ after' = after := by
  refine ⟨⟨options.words path, options.request_words path⟩, ?_⟩
  intro args product after asked ran
  have delivers := run_delivers asked ran
  refine ⟨?_, ?_, ?_⟩
  · intro failed
    rw [failed] at delivers
    obtain ⟨exit, stdout, file, kept⟩ := delivers
    exact ⟨exit, stdout, file, kept⟩
  · intro text reached
    rw [reached] at delivers
    refine ⟨?_, ?_, ?_⟩
    · intro ast
      rw [Options.delivery, if_pos ast] at delivers
      obtain ⟨exit, stdout, file, kept⟩ := delivers
      exact ⟨exit, stdout, file, kept⟩
    · intro noAst unnamed
      rw [Options.delivery, if_neg (ne_true_of_eq_false noAst), if_pos unnamed] at delivers
      obtain ⟨exit, stdout, file, kept⟩ := delivers
      exact ⟨exit, stdout, file, kept⟩
    · intro noAst named
      rw [Options.delivery, if_neg (ne_true_of_eq_false noAst), if_neg named] at delivers
      refine ⟨?_, ?_⟩
      · intro written wrote
        rw [carryOut_ok rfl wrote] at delivers
        obtain ⟨exit, stdout, file, rfl⟩ := delivers
        exact ⟨exit, stdout, file, Disk.replaced_of_write wrote⟩
      · intro error refused
        rw [carryOut_error rfl refused] at delivers
        obtain ⟨exit, stdout, file, kept⟩ := delivers
        exact ⟨exit, stdout, file, kept⟩
  · intro allErrors sizes args' product' after' asked' ran'
    -- neither the outcome nor its delivery looks at the two switches
    obtain ⟨exit, stdout, file, settles⟩ := delivers
    obtain ⟨exit', stdout', file', settles'⟩ := run_delivers asked' ran'
    exact ⟨exit'.trans exit.symm, stdout'.trans stdout.symm, file'.trans file.symm,
      settles'.trans settles.symm⟩

section Sample

/-- A program that calls `P` with a zero character. -/
def zeroDocument : Bytes :=
  .ofString ("\x7b\"type\":\"program\",\"body\":\x7b\"type\":\"block\",\"statements\":" ++
    "\x7b\"type\":\"compound_statement\",\"list\":[\x7b\"type\":\"procedure_statement\"," ++
    "\"target\":\x7b\"type\":\"identifier\",\"value\":\"P\"\x7d,\"params\":[" ++
    "\x7b\"type\":\"string_constant\",\"value\":\"\\u0000\"\x7d]\x7d]\x7d\x7d\x7d")

/-- The program in the working directory, and in a directory inside what it was compiled to
before. -/
def zeroDisk : Disk where
  root := .directory [("home", .directory
    [("p.json", .file zeroDocument), ("out", .directory [("p.js", .file (.ofString "P();"))])])]
  working := ["home"]

end Sample

/-- The script cannot be laid out, and the old one is kept. As it is, it replaces the old one,
which is reached by way of the root here. -/
theorem run_all_or_nothing_zeroDisk :
    Failed zeroDisk (run ["-pretty", "-o", "out/p.js", "p.json"] zeroDisk).1
        (run ["-pretty", "-o", "out/p.js", "p.json"] zeroDisk).2 ∧
      Stored zeroDisk "/home/./out/p.js" (.ofString "P(\"\x00\");")
        (run ["-v", "-o=/home/./out/p.js", "../home/p.json"] zeroDisk).1
        (run ["-v", "-o=/home/./out/p.js", "../home/p.json"] zeroDisk).2 := by
  have asked : request ["-pretty", "-o", "out/p.js", "p.json"] =
      .ok ({ pretty := true, output := "out/p.js" }, "p.json") := by
    cbv
  have unlaid : outcome { pretty := true, output := "out/p.js" } "p.json" zeroDisk = none := by
    decide +kernel
  have asked' : request ["-v", "-o=/home/./out/p.js", "../home/p.json"] =
      .ok ({ sizes := true, output := "/home/./out/p.js" }, "../home/p.json") := by
    cbv
  have compiled : outcome { sizes := true, output := "/home/./out/p.js" } "../home/p.json"
      zeroDisk = some (.ofString "P(\"\x00\");") := by
    decide +kernel
  constructor
  · obtain ⟨-, ends⟩ :=
      run_all_or_nothing { pretty := true, output := "out/p.js" } "p.json" zeroDisk
    exact (ends _ _ _ asked (Prod.eta _).symm).1 unlaid
  · obtain ⟨-, ends⟩ := run_all_or_nothing { sizes := true, output := "/home/./out/p.js" }
      "../home/p.json" zeroDisk
    obtain ⟨-, reached, -⟩ := ends _ _ _ asked' (Prod.eta _).symm
    obtain ⟨-, -, stored⟩ := reached _ compiled
    apply (stored rfl (by decide)).1
    rfl

end Command

end PascalCompiler
