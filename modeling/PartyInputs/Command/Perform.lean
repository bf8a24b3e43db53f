import PartyInputs.Command.Invocation
import PartyInputs.Log.Filter
import PartyInputs.Report.Inspection
import PartyInputs.Report.Overview
import PartyInputs.Run.Production

/-!
# Performing an invocation

What a command line does to a disk and what it shows. Once the files of a plan are written nothing
that follows can fail the command: an overview that cannot be shown or saved is noted in the log.
An inspection fails if the file cannot be read, the bits are refused, the content is no table, or
values fall outside of the interval; only then is the status one.
-/

namespace PartyInputs

/-- Where a command line is given. -/
structure Surroundings where
  /-- The text of the filter for the log, if there is one. -/
  filterText : Option String := none
  /-- How showing fails; `none` if it succeeds. -/
  whenShown : Option Fault := none
  /-- The text that says how the program is used, which is not this program's own. -/
  helpText : String := ""

/-- What became of a task: its exit status, what was shown, the lines about a failure, what was
noted, and the disk afterwards. -/
structure TaskOutcome where
  status : Nat
  shown : String := ""
  complaint : List String := []
  log : List Event := []
  disk : Disk

namespace Complaint

/-- The lines of a text, the first one behind `lead` and the others behind `indent`. -/
def indented (lead indent text : String) : List String :=
  match (text.toList.splitOn '\n').map String.ofList with
  | [] => [lead]
  | line :: lines => (lead ++ line) :: lines.map (indent ++ ·)

/-- The causes of a failure, numbered if there is more than one. -/
def causes (texts : List String) : List String :=
  match texts with
  | [] => []
  | [text] => indented "    " "    " text
  | texts => texts.zipIdx.flatMap fun (text, n) =>
    let number := Text.Decimal.ofNat n
    indented ("".pushn ' ' (5 - number.length) ++ number ++ ": ") "       " text

/-- The lines about a failure: what was being done, and what lies behind it, outermost first. -/
def lines (doing : String) (texts : List String) : List String :=
  indented "Error: " "" doing ++ if texts.isEmpty then [] else ["", "Caused by:"] ++ causes texts

end Complaint

/-- Shows a text and a line end, or notes that it could not. -/
def Surroundings.present (s : Surroundings) (text : String) (unshown : Fault → Event) :
    String × List Event :=
  match s.whenShown with
  | none => (text ++ "\n", [])
  | some fault => ("", [unshown fault])

/-- What is shown of a text if nobody minds when that fails. -/
def Surroundings.shownOf (s : Surroundings) (text : String) : String :=
  if s.whenShown.isSome then "" else text

namespace GenerateOptions

/-- Saves an overview where the options say, or notes that it could not. -/
def save (o : GenerateOptions) (overview : Overview) (disk : Disk) : Disk × List Event :=
  match o.overviewPath with
  | none => (disk, [])
  | some path =>
    match disk.write path (Text.Utf8.ofString overview.json.pretty) with
    | (.ok (), disk) => (disk, [])
    | (.error fault, disk) => (disk, [.overviewUnsaved path fault])

/-- Produces the files that the options ask for and reports on them. -/
def perform (o : GenerateOptions) (s : Surroundings) (disk : Disk) : TaskOutcome :=
  let run := o.request.run disk
  match run.result with
  | .error failure =>
    { status := 1
      complaint := Complaint.lines "generate fixture files" [failure.message, failure.cause]
      log := run.log
      disk := run.disk }
  | .ok (plan, receipt) =>
    let (overview, collecting) := Overview.collect plan receipt run.disk
    let (shown, showing) := s.present overview.text .overviewUnshown
    let (disk, saving) := o.save overview run.disk
    { status := 0, shown, log := run.log ++ collecting ++ showing ++ saving, disk }

end GenerateOptions

namespace InspectOptions

/-- The interval that values are checked against. -/
def expected (o : InspectOptions) : Except Refusal (Option Interval) :=
  match o.bits with
  | none => .ok none
  | some bits => (Width.accept bits).map fun width => some (.ofWidth width o.signed)

/-- The text of an inspection in the format asked for. -/
def render (o : InspectOptions) (inspection : Inspection) : String :=
  match o.format with
  | .json => inspection.json.pretty
  | .pretty => inspection.text

/-- What is said when values fall outside of the interval. -/
def outsideText (o : InspectOptions) (inspection : Inspection) : String :=
  Text.Decimal.ofNat inspection.outside ++ " values in " ++ o.path ++
    " fall outside the expected range"

/-- Inspects the file that the options name. -/
def perform (o : InspectOptions) (s : Surroundings) (disk : Disk) : TaskOutcome :=
  let fail (doing cause : String) : TaskOutcome :=
    { status := 1, complaint := Complaint.lines doing [cause], disk }
  match disk.read o.path with
  | .error fault => fail ("read party file " ++ o.path) fault.message
  | .ok octets =>
    match o.expected with
    | .error refusal => fail "invalid --bits" refusal.message
    | .ok expected =>
      match Inspection.ofOctets octets expected with
      | .error fault => fail ("parse party file " ++ o.path) fault.message
      | .ok inspection =>
        let (shown, log) := s.present (o.render inspection) .inspectionUnshown
        if inspection.outside = 0 then { status := 0, shown, log, disk }
        else
          { status := 1, shown, log, disk
            complaint := Complaint.lines (o.outsideText inspection) [] }

end InspectOptions

/-- Performs a task. -/
def Task.perform (s : Surroundings) (disk : Disk) : Task → TaskOutcome
  | .generate options => options.perform s disk
  | .inspect options => options.perform s disk

namespace Invocation

/-- The name and the version of the program. -/
def versionText : String := "mpcfix 0.1.0\n"

/-- Performs an invocation. Of what is noted, only what the filter shows is kept. -/
def perform (s : Surroundings) (disk : Disk) : Invocation → TaskOutcome
  | .task verbosity work =>
    let outcome := work.perform s disk
    { outcome with log := outcome.log.filter (Filter.choose verbosity s.filterText).shows }
  | .version => { status := 0, shown := s.shownOf versionText, disk }
  | .help => { status := 0, shown := s.shownOf s.helpText, disk }
  | .rejected => { status := 2, complaint := ["error: the arguments do not fit"], disk }

end Invocation

end PartyInputs
