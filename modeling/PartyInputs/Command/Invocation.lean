import PartyInputs.Command.Arguments
import PartyInputs.Request.Plan

/-!
# Invocations

What the words of a command line ask for: to produce the files of one of the three workloads, to
inspect a file, or to say something about the program itself.
-/

namespace PartyInputs

/-- What the commands that produce files are given. -/
structure GenerateOptions where
  sizes : Sizes Int64
  seed : Int64
  bits : Int64
  directory : String
  first : String
  /-- The file name of party 1, for the workloads that have one. -/
  second : Option String
  signed : Bool
  unsigned : Bool
  /-- Where to save the overview. -/
  overviewPath : Option String
  deriving DecidableEq, Repr

/-- The sign that was asked for, if any. -/
def GenerateOptions.sign (o : GenerateOptions) : Option Bool :=
  if o.signed then some true else if o.unsigned then some false else none

/-- The request that the options make. -/
def GenerateOptions.request (o : GenerateOptions) : Request where
  sizes := o.sizes
  bits := o.bits
  signed := o.sign
  seed := o.seed
  destination := { directory := o.directory, first := o.first, second := o.second }

/-- How an inspection is shown. -/
inductive InspectionFormat where
  | json
  | pretty
  deriving DecidableEq, Repr

/-- What the command that inspects a file is given. -/
structure InspectOptions where
  path : String
  /-- The bits of the interval that values are checked against. -/
  bits : Option Int64
  signed : Bool
  format : InspectionFormat
  deriving DecidableEq, Repr

/-- What there is to do. -/
inductive Task where
  | generate (options : GenerateOptions)
  | inspect (options : InspectOptions)
  deriving DecidableEq, Repr

/-- What a command line asks for. -/
inductive Invocation where
  | task (verbosity : Nat) (task : Task)
  | version
  | help
  /-- The words were not understood. -/
  | rejected
  deriving DecidableEq, Repr

namespace Command

/-! ## Forms of the commands -/

/-- The options that all commands that produce files have. -/
def commonOptions : List OptionForm :=
  [⟨"seed", .integer⟩, ⟨"bits", .integer⟩, ⟨"dir", .path⟩, ⟨"p0-file", .text⟩,
    ⟨"summary-json", .path⟩, ⟨"signed", .nothing⟩, ⟨"unsigned", .nothing⟩]

/-- The form of the command that produces the files of a workload. -/
def generateForm (workload : Workload) : Form where
  options := (match workload with
    | .signTest => [⟨"len", .integer⟩]
    | .convolution =>
      [⟨"a-rows", .integer⟩, ⟨"a-cols", .integer⟩, ⟨"w-dim", .integer⟩, ⟨"p1-file", .text⟩]
    | .linearLayer => [⟨"n", .integer⟩, ⟨"p1-file", .text⟩]) ++ commonOptions
  conflicts := [("signed", "unsigned")]

/-- The form of the command that inspects a file. -/
def inspectForm : Form where
  options := [⟨"bits", .integer⟩, ⟨"signed", .nothing⟩, ⟨"format", .oneOf ["json", "pretty"]⟩]
  operands := 1
  requires := [("signed", "bits")]

/-! ## From what was given to options -/

/-- The sizes that were given, or those that the workload has otherwise. -/
def sizesOf (g : Given) : Workload → Sizes Int64
  | .signTest => .signTest (g.integer "len" 1024)
  | .convolution =>
    .convolution (g.integer "a-rows" 8) (g.integer "a-cols" 8) (g.integer "w-dim" 2)
  | .linearLayer => .linearLayer (g.integer "n" 2048)

/-- The options of a command that produces files. -/
def generateOptions (workload : Workload) (g : Given) : GenerateOptions where
  sizes := sizesOf g workload
  seed := g.integer "seed" 42
  bits := g.integer "bits" 16
  directory := g.text "dir" "Player-Data"
  first := g.text "p0-file" "Input-P0-0"
  second := if workload.partyCount < 2 then none else some (g.text "p1-file" "Input-P1-0")
  signed := g.has "signed"
  unsigned := g.has "unsigned"
  overviewPath := g.text? "summary-json"

/-- The options of the command that inspects a file. -/
def inspectOptions (g : Given) : InspectOptions where
  path := g.operands.headD ""
  bits := g.integer? "bits"
  signed := g.has "signed"
  format := if g.text "format" "pretty" = "json" then .json else .pretty

/-! ## Command lines -/

/-- The names of the commands. -/
def names : List String := ["ltz", "conv", "linear", "inspect"]

/-- The task that a command with the given name and the words behind it make. -/
def task? (name : String) (words : List String) : Option (Except Stop (Nat × Task)) :=
  let generate (workload : Workload) := ((generateForm workload).read words).map fun g =>
    (g.verbosity, Task.generate (generateOptions workload g))
  let inspect := (inspectForm.read words).map fun g =>
    (g.verbosity, Task.inspect (inspectOptions g))
  match name with
  | "ltz" => some (generate .signTest)
  | "conv" => some (generate .convolution)
  | "linear" => some (generate .linearLayer)
  | "inspect" => some inspect
  | _ => none

/-- Help about the program or about the command that the words name. -/
def helpAbout : List String → Invocation
  | [] => .help
  | [name] => if name ∈ "help" :: names then .help else .rejected
  | _ => .rejected

/-- What letters behind a single dash ask for, in front of a command: more detail, or something
about the program itself. -/
def readLetters (verbosity : Nat) : List Char → Except Invocation Nat
  | [] => .ok verbosity
  | 'v' :: letters => readLetters (verbosity + 1) letters
  | 'V' :: _ => .error .version
  | 'h' :: _ => .error .help
  | _ :: _ => .error .rejected

/-- What the words of a command line ask for, after more detail was asked for `verbosity` times.
Where a command is asked for more detail itself, that alone counts. -/
def readFrom (verbosity : Nat) : List String → Invocation
  | [] => .rejected
  | "--version" :: _ => .version
  | "--help" :: _ => .help
  | "--verbose" :: words => readFrom (verbosity + 1) words
  | "help" :: words => helpAbout words
  | word :: words =>
    match word.toList with
    | '-' :: c :: letters =>
      match readLetters verbosity (c :: letters) with
      | .ok verbosity => readFrom verbosity words
      | .error invocation => invocation
    | _ =>
      match task? word words with
      | some (.ok (own, task)) => .task (if own = 0 then verbosity else own) task
      | some (.error .help) => .help
      | some (.error .rejected) | none => .rejected

end Command

/-- What the words of a command line ask for. -/
def Invocation.ofWords (words : List String) : Invocation := Command.readFrom 0 words

end PartyInputs
