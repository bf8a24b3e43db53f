import PartyInputs.Proofs.Run.Repeating
import PartyInputs.Run.Workspace

/-!
# Sessions in a workspace

What is done in a workspace, one thing after the other, comes to runs that follow one another on its
disk: planning touches no disk, and a plan that is carried out is one of an accepted request. So what
is known about successions of runs is known about workspaces.

* `Workspace.adopt_of_error`, `Workspace.produce_of_error`, `Workspace.run_of_error`: what fails
  leaves the plan and the receipt as they were.
* `Workspace.IsPlanned`: the plan of a workspace is one of an accepted request, and stays so.
* `Workspace.Session`: plans are made and carried out, and no run fails.
* `Workspace.Session.succession`: **the runs of a session are a succession**, and the receipt is that
  of the last one.
-/

namespace PartyInputs.Workspace

variable {w w' : Workspace} {r : Request} {p : Plan} {receipt : Receipt} {failure : Failure}
  {runs : List (Plan × Receipt)}

/-! ## What fails -/

/-- A request that is refused changes nothing. -/
theorem adopt_of_error {refusal : Refusal} (h : (w.adopt r).1 = .error refusal) :
    (w.adopt r).2 = w := by
  unfold adopt at h ⊢
  rcases hplan : r.plan with refusal' | p
  · rfl
  · rw [hplan] at h
    cases h

/-- A plan that cannot be carried out to its end changes the disk alone. -/
theorem produce_of_error (h : w.produce.1 = some (.error failure)) :
    w.produce.2.2 = { w with disk := w.produce.2.2.disk } := by
  obtain ⟨disk, _ | p, receipt⟩ := w
  · cases h
  · simp only [produce] at h ⊢
    rcases hrun : p.produce disk with ⟨failure' | receipt', disk', log⟩
    · rfl
    · rw [hrun] at h
      cases h

theorem run_of_error (h : (w.run r).1 = .error failure) :
    (w.run r).2.2 = { w with disk := (w.run r).2.2.disk } := by
  unfold run at h ⊢
  rcases hrun : r.run w.disk with ⟨failure' | ⟨p, receipt⟩, disk, log⟩
  · rfl
  · rw [hrun] at h
    cases h

/-! ## What succeeds -/

/-- Carrying out the plan of a workspace is a run of it on the disk. -/
theorem produce_of_ok (hplan : w.plan = some p) (h : w.produce.1 = some (.ok receipt)) :
    (p.produce w.disk).result = .ok receipt ∧
      w.produce.2.2 = { disk := (p.produce w.disk).disk, plan := some p, receipt } := by
  obtain ⟨disk, plan, receipt₀⟩ := w
  cases hplan
  simp only [produce] at h ⊢
  rcases hrun : p.produce disk with ⟨failure' | receipt', disk', log⟩
  · rw [hrun] at h
    cases h
  · rw [hrun] at h
    cases h
    exact ⟨rfl, rfl⟩

theorem run_of_ok (hplan : r.plan = .ok p) (h : (w.run r).1 = .ok receipt) :
    (p.produce w.disk).result = .ok receipt ∧
      (w.run r).2.2 = { disk := (p.produce w.disk).disk, plan := some p, receipt } := by
  unfold run Request.run at h ⊢
  simp only [hplan] at h ⊢
  rcases hrun : p.produce w.disk with ⟨failure' | receipt', disk, log⟩
  · rw [hrun] at h
    cases h
  · rw [hrun] at h
    cases h
    exact ⟨rfl, rfl⟩

/-! ## Sessions -/

/-- The plan, if there is one, is that of an accepted request. -/
def IsPlanned (w : Workspace) : Prop := ∀ p ∈ w.plan, ∃ r : Request, r.plan = .ok p

namespace IsPlanned

theorem adopt (h : w.IsPlanned) (r : Request) : IsPlanned (w.adopt r).2 := by
  unfold Workspace.adopt
  rcases hplan : r.plan with refusal | p
  · exact h
  · rintro _ ⟨⟩
    exact ⟨r, hplan⟩

/-- Carrying out a plan makes no other one. -/
theorem produce (h : w.IsPlanned) : IsPlanned w.produce.2.2 := by
  obtain ⟨disk, _ | p, receipt⟩ := w
  · exact h
  · simp only [Workspace.produce]
    rcases p.produce disk with ⟨failure | receipt', disk', log⟩
    · exact h
    · exact h

theorem run (h : w.IsPlanned) (r : Request) : IsPlanned (w.run r).2.2 := by
  unfold Workspace.run
  rcases hrun : r.run w.disk with ⟨failure | ⟨p, receipt⟩, disk, log⟩
  · exact h
  · rintro _ ⟨⟩
    have hok : (r.run w.disk).result = .ok (p, receipt) := by rw [hrun]
    exact ⟨r, (Request.run_eq_ok hok).1⟩

end IsPlanned

/-- Plans are made and carried out in a workspace, one after the other. No run fails, and each that
is made stands in the list, with its plan and its receipt. -/
inductive Session : Workspace → List (Plan × Receipt) → Workspace → Prop where
  | nil {w : Workspace} : Session w [] w
  | adopt {w w' : Workspace} (r : Request) {runs : List (Plan × Receipt)} :
      Session (w.adopt r).2 runs w' → Session w runs w'
  | produce {w w' : Workspace} {p : Plan} {receipt : Receipt} {runs : List (Plan × Receipt)} :
      w.plan = some p → w.produce.1 = some (.ok receipt) → Session w.produce.2.2 runs w' →
      Session w ((p, receipt) :: runs) w'
  | run {w w' : Workspace} {r : Request} {p : Plan} {receipt : Receipt}
      {runs : List (Plan × Receipt)} :
      r.plan = .ok p → (w.run r).1 = .ok receipt → Session (w.run r).2.2 runs w' →
      Session w ((p, receipt) :: runs) w'

/-- **The runs of a session are a succession** from its first disk to its last one, and the receipt
of the workspace is that of the last run, if there was one. -/
theorem Session.succession (h : w.Session runs w') (hw : w.IsPlanned) :
    Succession w.disk runs w'.disk ∧ w'.IsPlanned ∧
      w'.receipt = runs.foldl (fun _ run => run.2) w.receipt := by
  induction h with
  | nil => exact ⟨.nil, hw, rfl⟩
  | @adopt w w' r runs _ ih =>
    obtain ⟨hruns, hplanned, hreceipt⟩ := ih (hw.adopt r)
    have hkept : (w.adopt r).2.disk = w.disk ∧ (w.adopt r).2.receipt = w.receipt := by
      unfold Workspace.adopt
      rcases r.plan with refusal | p
      · exact ⟨rfl, rfl⟩
      · exact ⟨rfl, rfl⟩
    rw [hkept.1] at hruns
    rw [hkept.2] at hreceipt
    exact ⟨hruns, hplanned, hreceipt⟩
  | @produce w w' p receipt runs hplan hok _ ih =>
    obtain ⟨r, hr⟩ := hw p hplan
    have hplanned := hw.produce
    obtain ⟨hrun, heq⟩ := produce_of_ok hplan hok
    rw [heq] at ih hplanned
    obtain ⟨hruns, hlast⟩ := ih hplanned
    exact ⟨.cons hr hrun hruns, hlast⟩
  | @run w w' r p receipt runs hplan hok _ ih =>
    have hplanned := hw.run r
    obtain ⟨hrun, heq⟩ := run_of_ok hplan hok
    rw [heq] at ih hplanned
    obtain ⟨hruns, hlast⟩ := ih hplanned
    exact ⟨.cons hplan hrun hruns, hlast⟩

end PartyInputs.Workspace
