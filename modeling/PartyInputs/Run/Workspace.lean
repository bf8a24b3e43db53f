import PartyInputs.Report.Overview
import PartyInputs.Request.Contents
import PartyInputs.Run.Production

/-!
# Workspaces

A workspace is where runs follow one another: a disk, the plan that was made last and the receipt of
the run that succeeded last. What fails leaves plan and receipt as they were.
-/

namespace PartyInputs

/-- A disk with the last plan and the last receipt. -/
structure Workspace where
  disk : Disk
  plan : Option Plan := none
  receipt : Receipt := {}

namespace Workspace

/-- Plans a request; the plan becomes the last one. -/
def adopt (w : Workspace) (r : Request) : Except Refusal Plan × Workspace :=
  match r.plan with
  | .ok plan => (.ok plan, { w with plan := some plan })
  | .error refusal => (.error refusal, w)

/-- Carries out the last plan, if there is one; its receipt becomes the last one. -/
def produce (w : Workspace) : Option (Except Failure Receipt) × List Event × Workspace :=
  match w.plan with
  | none => (none, [], w)
  | some plan =>
    match plan.produce w.disk with
    | ⟨.ok receipt, disk, log⟩ => (some (.ok receipt), log, { w with disk, receipt })
    | ⟨.error failure, disk, log⟩ => (some (.error failure), log, { w with disk })

/-- Plans a request and carries out the plan; both become the last ones if that succeeds. -/
def run (w : Workspace) (r : Request) : Except Failure Receipt × List Event × Workspace :=
  match r.run w.disk with
  | ⟨.ok (plan, receipt), disk, log⟩ => (.ok receipt, log, { disk, plan := some plan, receipt })
  | ⟨.error failure, disk, log⟩ => (.error failure, log, { w with disk })

/-- The contents of the files of the last plan. -/
def contents (w : Workspace) : Option (Except Fault (List (List UInt8))) :=
  w.plan.map Plan.contents

/-- The overview of the last plan with the last receipt. -/
def overview (w : Workspace) : Option (Overview × List Event) :=
  w.plan.map fun plan => Overview.collect plan w.receipt w.disk

end Workspace

end PartyInputs
