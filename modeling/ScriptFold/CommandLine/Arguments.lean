/-!
# Arguments

The command line names a command, with options before and after it. An option given after the
command hides the same option before it; none may be given twice on one side.
-/

namespace ScriptFold.CommandLine

/-- Options that every command takes. -/
structure Options where
  verbose : Nat := 0
  config : Option String := none
  templates : Option String := none
deriving DecidableEq, Repr

/-- What is to be done with the library. -/
inductive Command
  | check
  | collapse (input : String) (out : Option String)
  | expand (input : String) (out : Option String)
deriving DecidableEq, Repr

/-- The file a command writes. -/
def Command.out? : Command → Option String
  | .check => none
  | .collapse _ out | .expand _ out => out

/-- What a command line asks for. -/
inductive Request
  | help
  | version
  | run (options : Options) (command : Command)
deriving DecidableEq, Repr

/-- Where an argument stands: before the command, or after one without or with files. -/
inductive Side
  | before
  | plain
  | files
deriving DecidableEq, Repr

/-- The options and files given on one side so far. -/
structure Given where
  options : Options := {}
  out : Option String := none
  input : Option String := none
deriving DecidableEq, Repr

/-- How the arguments of one side end. -/
inductive Reading
  | usage
  | help
  | version
  /-- Nothing is left. -/
  | done (given : Given)
  /-- A word that is no option stands before the command; what follows it is left. -/
  | word (given : Given) (word : String) (rest : List String)
deriving DecidableEq, Repr

/-- A value that an option or a file may have. -/
def isValue (value : String) : Bool :=
  value ≠ "" ∧ (value = "-" ∨ value.toList.head? ≠ some '-')

/-- The options with a value given, unless there is one already or the value is empty. -/
def Given.set (given : Given) (side : Side) (name value : String) : Option Given :=
  if value = "" then none
  else
    match name with
    | "config" =>
      if given.options.config.isSome then none
      else some { given with options.config := some value }
    | "templates" =>
      if given.options.templates.isSome then none
      else some { given with options.templates := some value }
    | "out" =>
      if side ≠ .files ∨ given.out.isSome then none else some { given with out := some value }
    | _ => none

/-- The effect of flags given by letters. -/
def Given.flags (side : Side) : Given → List Char → Reading
  | given, [] => .done given
  | given, 'v' :: rest =>
    Given.flags side { given with options.verbose := given.options.verbose + 1 } rest
  | _, 'h' :: _ => .help
  | _, 'V' :: _ => if side = .before then .version else .usage
  | _, _ :: _ => .usage

/-- The file arguments after two dashes. -/
def Given.takeAll (side : Side) : Given → List String → Reading
  | given, [] => .done given
  | given, file :: rest =>
    if side = .files ∧ given.input.isNone ∧ file ≠ "" then
      Given.takeAll side { given with input := some file } rest
    else .usage

/-- Reads the arguments of one side. -/
def readSide (side : Side) : Given → List String → Reading
  | given, [] => .done given
  | given, arg :: rest =>
    match arg.toList with
    | ['-', '-'] => given.takeAll side rest
    | '-' :: '-' :: long =>
      let name := String.ofList (long.takeWhile (· ≠ '='))
      match long.dropWhile (· ≠ '=') with
      | _ :: value =>
        match given.set side name (String.ofList value) with
        | some given => readSide side given rest
        | none => .usage
      | [] =>
        match name with
        | "verbose" =>
          readSide side { given with options.verbose := given.options.verbose + 1 } rest
        | "help" => .help
        | "version" => if side = .before then .version else .usage
        | name =>
          match rest with
          | value :: rest =>
            if isValue value then
              match given.set side name value with
              | some given => readSide side given rest
              | none => .usage
            else .usage
          | [] => .usage
    | '-' :: letter :: letters =>
      match given.flags side (letter :: letters) with
      | .done given => readSide side given rest
      | reading => reading
    | _ =>
      match side with
      | .before => .word given arg rest
      | .plain => .usage
      | .files =>
        if given.input.isNone ∧ arg ≠ "" then
          readSide side { given with input := some arg } rest
        else .usage

/-- The options of both sides. -/
def Options.hiding (after before : Options) : Options where
  verbose := if after.verbose = 0 then before.verbose else after.verbose
  config := after.config.or before.config
  templates := after.templates.or before.templates

/-- Reads what follows a command. -/
def readCommand (before : Options) (side : Side) (command : Given → Option Command)
    (args : List String) : Option Request :=
  match readSide side {} args with
  | .help => some .help
  | .done given => (command given).map fun c => .run (given.options.hiding before) c
  | _ => none

/-- What a command line asks for; none if it is used wrongly. -/
def Request.ofArgs? (args : List String) : Option Request :=
  match readSide .before {} args with
  | .help => some .help
  | .version => some .version
  | .word given "check" rest => readCommand given.options .plain (fun _ => some .check) rest
  | .word given "collapse" rest =>
    readCommand given.options .files (fun g => g.input.map (.collapse · g.out)) rest
  | .word given "expand" rest =>
    readCommand given.options .files (fun g => g.input.map (.expand · g.out)) rest
  | .word _ "help" rest =>
    if rest.all (["check", "collapse", "expand", "help"].contains ·) ∧ rest.length ≤ 1 then
      some .help
    else none
  | _ => none

end ScriptFold.CommandLine
