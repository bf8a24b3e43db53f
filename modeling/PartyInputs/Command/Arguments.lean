import PartyInputs.Text.Decimal

/-!
# Arguments of a command

How the words after the name of a command are understood, given the form of the command: which
options it has, what each takes, and how many operands it wants. Words are taken from left to right
and the first one that does not fit ends the reading.

An option is written `--name`, its value in the next word or behind an equals sign. A word that
starts with a dash is no value, unless the option takes an integer and the word is one. `--` makes
operands of all words behind it. An option is given at most once, except for `-v`, which counts.
-/

namespace PartyInputs.Command

/-- What an option takes. -/
inductive Takes where
  | nothing
  | integer
  | text
  /-- A text that is not empty. -/
  | path
  | oneOf (names : List String)
  deriving DecidableEq, Repr

/-- An option of a command. -/
structure OptionForm where
  name : String
  takes : Takes
  deriving DecidableEq, Repr

/-- What a command can be given. -/
structure Form where
  options : List OptionForm
  /-- The number of paths that the command wants besides its options. -/
  operands : Nat := 0
  /-- Pairs of options that exclude each other. -/
  conflicts : List (String × String) := []
  /-- Pairs of options the first of which cannot stand without the second. -/
  requires : List (String × String) := []

/-- What an option was given as. -/
inductive Setting where
  | on
  | integer (value : Int64)
  | text (value : String)
  deriving DecidableEq, Repr

/-- What a command was given. -/
structure Given where
  settings : List (String × Setting) := []
  operands : List String := []
  /-- How often more detail was asked for. -/
  verbosity : Nat := 0
  deriving DecidableEq, Repr

/-- Why reading ended before the last word. -/
inductive Stop where
  /-- Help was asked for. -/
  | help
  /-- A word does not fit. -/
  | rejected
  deriving DecidableEq, Repr

namespace Given

/-- Whether an option was given. -/
def has (g : Given) (name : String) : Bool := (g.settings.lookup name).isSome

/-- The integer that an option was given, or the one that it has otherwise. -/
def integer (g : Given) (name : String) (otherwise : Int64) : Int64 :=
  match g.settings.lookup name with
  | some (.integer value) => value
  | _ => otherwise

/-- The integer that an option was given. -/
def integer? (g : Given) (name : String) : Option Int64 :=
  match g.settings.lookup name with
  | some (.integer value) => some value
  | _ => none

/-- The text that an option was given. -/
def text? (g : Given) (name : String) : Option String :=
  match g.settings.lookup name with
  | some (.text value) => some value
  | _ => none

/-- The text that an option was given, or the one that it has otherwise. -/
def text (g : Given) (name otherwise : String) : String := (g.text? name).getD otherwise

/-- Adds the setting of an option that was not given before. -/
def add (g : Given) (name : String) (setting : Setting) : Except Stop Given :=
  if g.has name then .error .rejected
  else .ok { g with settings := (name, setting) :: g.settings }

end Given

/-! ## Values -/

/-- The setting that a word makes for an option that takes something. -/
def Takes.setting? : Takes → String → Option Setting
  | .nothing, _ => none
  | .integer, word => (Text.Decimal.int64? word.toList).map .integer
  | .text, word => some (.text word)
  | .path, word => if word = "" then none else some (.text word)
  | .oneOf names, word => if word ∈ names then some (.text word) else none

/-! ## Words -/

/-- What is known between two words. -/
structure Reading where
  given : Given := {}
  /-- The option whose value is due. -/
  due : Option OptionForm := none
  /-- Whether all further words are operands. -/
  literal : Bool := false

namespace Reading

/-- Takes a word as the value of an option. -/
def addValue (r : Reading) (o : OptionForm) (word : String) : Except Stop Reading :=
  match o.takes.setting? word with
  | none => .error .rejected
  | some setting => (r.given.add o.name setting).map fun given => { r with given, due := none }

/-- Takes a word as an operand, which is the path of a file. -/
def addOperand (r : Reading) (form : Form) (word : String) : Except Stop Reading :=
  if word = "" ∨ form.operands ≤ r.given.operands.length then .error .rejected
  else .ok { r with given := { r.given with operands := r.given.operands ++ [word] } }

/-- Takes letters behind a single dash. -/
def addLetters (r : Reading) : List Char → Except Stop Reading
  | [] => .ok r
  | 'v' :: letters =>
    addLetters { r with given := { r.given with verbosity := r.given.verbosity + 1 } } letters
  | 'h' :: _ => .error .help
  | _ :: _ => .error .rejected

/-- Takes what stands behind two dashes: the name of an option, perhaps with its value. -/
def addOption (r : Reading) (form : Form) (body : List Char) : Except Stop Reading :=
  let name := String.ofList (body.takeWhile (· ≠ '='))
  let value := match body.dropWhile (· ≠ '=') with
    | [] => none
    | _ :: value => some (String.ofList value)
  match form.options.find? (·.name = name), value with
  | some o, none =>
    if o.takes = .nothing then (r.given.add o.name .on).map fun given => { r with given }
    else .ok { r with due := some o }
  | some o, some value => r.addValue o value
  | none, some _ => .error .rejected
  | none, none =>
    if name = "help" then .error .help
    else if name = "verbose" then r.addLetters ['v']
    else .error .rejected

/-- Takes a word. -/
def addWord (form : Form) (r : Reading) (word : String) : Except Stop Reading :=
  if r.literal then r.addOperand form word
  else match word.toList, r.due with
    | ['-', '-'], none => .ok { r with literal := true }
    | '-' :: '-' :: body, none => r.addOption form body
    | '-' :: c :: letters, none => r.addLetters (c :: letters)
    | _, none => r.addOperand form word
    | '-' :: _ :: _, some o =>
      if o.takes = .integer then r.addValue o word else .error .rejected
    | _, some o => r.addValue o word

end Reading

namespace Form

/-- Whether what was given is complete and free of conflicts. -/
def admits (form : Form) (g : Given) : Bool :=
  g.operands.length = form.operands &&
  form.conflicts.all (fun (a, b) => !(g.has a && g.has b)) &&
  form.requires.all (fun (a, b) => !g.has a || g.has b)

/-- What the words behind the name of a command give. -/
def read (form : Form) (words : List String) : Except Stop Given := do
  let r ← words.foldlM (Reading.addWord form) {}
  if r.due.isSome ∨ !form.admits r.given then throw .rejected
  return r.given

end Form

end PartyInputs.Command
