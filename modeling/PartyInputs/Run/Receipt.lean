import PartyInputs.Request.Plan

/-!
# Receipts and failures of runs

A run that carries out a plan ends with a receipt for the files it wrote, or with the step that
failed, the path it failed at, and the fault.
-/

namespace PartyInputs

/-- A file that was written to its end. -/
structure WrittenFile where
  party : Nat
  path : String
  tally : Tally
  deriving DecidableEq, Repr

/-- The files that a run wrote, party 0 first. -/
structure Receipt where
  files : List WrittenFile := []
  deriving DecidableEq, Repr

/-- The number of values in all files. -/
def Receipt.totalValues (r : Receipt) : Nat :=
  r.files.foldr (fun file count => file.tally.values + count) 0

/-- A step of a run that touches the disk. -/
inductive Step where
  | makeDirectory
  | openFile
  | writeFile
  deriving DecidableEq, Repr

/-- The step in words. -/
def Step.text : Step → String
  | .makeDirectory => "create directory"
  | .openFile => "create file"
  | .writeFile => "write"

/-- Why a run did not end with a receipt. -/
inductive Failure where
  /-- The request was refused, and nothing was touched. -/
  | refused (refusal : Refusal)
  /-- A step failed at a path. A file that was being written is left incomplete. -/
  | stopped (step : Step) (path : String) (fault : Fault)
  deriving DecidableEq, Repr

namespace Failure

/-- What lies behind the failure, in words. -/
def cause : Failure → String
  | refused refusal => refusal.message
  | stopped _ _ fault => fault.message

/-- The failure in words. -/
def message : Failure → String
  | refused refusal => "invalid parameter: " ++ refusal.message
  | stopped step path fault => "failed to " ++ step.text ++ " " ++ path ++ ": " ++ fault.message

end Failure

end PartyInputs
