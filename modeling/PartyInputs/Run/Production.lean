import PartyInputs.Disk.Operations
import PartyInputs.Log.Event

/-!
# Carrying out a plan

A run makes the output directory, then fills the sheets from one stream, each into a file that is
opened for it, party 0 first. The first step that fails ends the run; files that were written to
their end before it stay, and an event is noted for each.
-/

namespace PartyInputs

/-- What became of a run: its result or its failure, the disk afterwards, and what was noted. -/
structure RunOutcome (α : Type) where
  result : Except Failure α
  disk : Disk
  log : List Event

/-- Fills successive sheets, each into the file at the path beside it, as long as no step fails. -/
def Sheet.fillFiles : List (Sheet × String) → ValueStream → Disk → RunOutcome (List WrittenFile)
  | [], _, disk => ⟨.ok [], disk, []⟩
  | (sheet, path) :: sheets, stream, disk =>
    match disk.openFile path with
    | .error fault => ⟨.error (.stopped .openFile path fault), disk, []⟩
    | .ok (loc, disk) =>
      match sheet.fill { medium := disk.medium loc } stream with
      | ⟨.error fault, sink, _⟩ =>
        ⟨.error (.stopped .writeFile path fault), disk.keep loc sink.octets, []⟩
      | ⟨.ok tally, sink, stream⟩ =>
        let file := ⟨sheet.party, path, tally⟩
        let rest := fillFiles sheets stream (disk.keep loc sink.octets)
        ⟨rest.result.map (file :: ·), rest.disk, .wrote file :: rest.log⟩

namespace Plan

/-- What is noted once the stream of a plan is ready. -/
def seeded (p : Plan) : Event := .seeded p.workload p.seed p.width p.interval

/-- What is noted once all files of a plan are written. -/
def finished (p : Plan) (receipt : Receipt) : Event :=
  .finished p.workload receipt.files.length receipt.totalValues

/-- Carries out a plan on a disk. -/
def produce (p : Plan) (disk : Disk) : RunOutcome Receipt :=
  match disk.makeDirectories p.destination.directory with
  | (.error fault, disk) =>
    ⟨.error (.stopped .makeDirectory p.destination.directory fault), disk, []⟩
  | (.ok (), disk) =>
    match Sheet.fillFiles (p.sheets.zip p.paths) p.stream disk with
    | ⟨.error failure, disk, log⟩ => ⟨.error failure, disk, p.seeded :: log⟩
    | ⟨.ok files, disk, log⟩ => ⟨.ok ⟨files⟩, disk, p.seeded :: log ++ [p.finished ⟨files⟩]⟩

end Plan

/-- Plans a request and carries out the plan. A request that is refused touches nothing. -/
def Request.run (r : Request) (disk : Disk) : RunOutcome (Plan × Receipt) :=
  match r.plan with
  | .error refusal => ⟨.error (.refused refusal), disk, []⟩
  | .ok plan =>
    let outcome := plan.produce disk
    { outcome with result := outcome.result.map (plan, ·) }

end PartyInputs
