import PartyInputs.Run.Receipt

/-!
# The log

What is worth noting about a run, as values: each event has a level, a target that filters can name,
and a text of one message with its fields.
-/

namespace PartyInputs

/-- How much an event matters, the most important level first. -/
inductive Level where
  | error
  | warn
  | info
  | debug
  | trace
  deriving DecidableEq, Repr

namespace Level

/-- The level in capitals. -/
def text : Level → String
  | .error => "ERROR"
  | .warn => "WARN"
  | .info => "INFO"
  | .debug => "DEBUG"
  | .trace => "TRACE"

/-- The rank of a level: what matters more has a lower rank, and none has rank zero. -/
def rank : Level → Nat
  | .error => 1
  | .warn => 2
  | .info => 3
  | .debug => 4
  | .trace => 5

end Level

/-- Something worth noting. -/
inductive Event where
  /-- A run has its directory and its stream. -/
  | seeded (workload : Workload) (seed : Int64) (width : Width) (interval : Interval)
  /-- A file was written to its end. -/
  | wrote (file : WrittenFile)
  /-- A run wrote all its files. -/
  | finished (workload : Workload) (files values : Nat)
  /-- The size of a file is not known. -/
  | sizeUnknown (path : String) (fault : Fault)
  /-- The overview of a run was not shown. -/
  | overviewUnshown (fault : Fault)
  /-- The overview of a run was not saved. -/
  | overviewUnsaved (path : String) (fault : Fault)
  /-- The inspection of a file was not shown. -/
  | inspectionUnshown (fault : Fault)
  deriving DecidableEq, Repr

namespace Event

/-- How much the event matters. -/
def level : Event → Level
  | seeded .. | wrote _ => .debug
  | finished .. => .info
  | sizeUnknown .. | overviewUnshown _ | overviewUnsaved .. | inspectionUnshown _ => .warn

/-- The part of the program that filters know the event by. -/
def target : Event → String
  | seeded .. | wrote _ | finished .. => "fixture::generate"
  | sizeUnknown .. => "fixture::summary"
  | overviewUnshown _ | overviewUnsaved .. | inspectionUnshown _ => "mpcfix"

/-- What happened. -/
def message : Event → String
  | seeded .. => "seeded sampler"
  | wrote _ => "wrote party file"
  | finished .. => "fixture generation complete"
  | sizeUnknown .. => "skipping file size"
  | overviewUnshown _ => "failed to print summary"
  | overviewUnsaved .. => "failed to write summary json"
  | inspectionUnshown _ => "failed to print inspect report"

/-- The names and values that the event is noted with, besides its message. -/
def fields : Event → List (String × String)
  | seeded workload seed width interval =>
    [("scenario", workload.name), ("seed", Text.Decimal.ofInt64 seed), ("bits", width.text),
      ("range", interval.text)]
  | wrote file =>
    [("party", Text.Decimal.ofNat file.party), ("path", file.path),
      ("rows", Text.Decimal.ofNat file.tally.rows),
      ("values", Text.Decimal.ofNat file.tally.values),
      ("bytes", Text.Decimal.ofNat file.tally.octets)]
  | finished workload files values =>
    [("scenario", workload.name), ("parties", Text.Decimal.ofNat files),
      ("values", Text.Decimal.ofNat values)]
  | sizeUnknown path fault => [("path", path), ("error", fault.message)]
  | overviewUnshown fault => [("error", fault.message)]
  | overviewUnsaved path fault => [("error", "write " ++ path ++ ": " ++ fault.message)]
  | inspectionUnshown fault => [("error", fault.message)]

/-- The names that filters know the fields of the event by; its message is one of them. -/
def fieldNames (e : Event) : List String := "message" :: e.fields.map (·.1)

/-- The message and the fields of the event. -/
def text (e : Event) : String :=
  e.fields.foldl (fun text field => text ++ " " ++ field.1 ++ "=" ++ field.2) e.message

/-- The line that the event makes in a log. -/
def line (e : Event) : String := e.level.text ++ " " ++ e.text

end Event

end PartyInputs
