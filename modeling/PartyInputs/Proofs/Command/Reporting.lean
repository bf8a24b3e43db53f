import PartyInputs.Command.Perform
import PartyInputs.Proofs.Command.Options
import PartyInputs.Proofs.Disk.Saving
import PartyInputs.Proofs.Run.Completed

/-!
# What a command does besides the run

A command that produces files runs the request that its words make. Whether the run succeeds decides
the exit status, and of the disk nothing else is changed than what the run changes, except for the
file that an overview is saved to: neither an overview that cannot be shown nor one that cannot be
saved has an effect on the status or on the files.

* `GenerateOptions.perform_of_error`, `GenerateOptions.perform_of_ok`: a run that fails and one that
  succeeds.
* `GenerateOptions.disk_save`: saving an overview is writing a whole file.
* `Invocation.perform_generate`: a command that produces files.
* `Invocation.perform_run`: **what a command line does**, in terms of the run.
-/

namespace PartyInputs

namespace GenerateOptions

variable {o : GenerateOptions} {s : Surroundings} {d : Disk}

/-- Saving an overview is writing a whole file, if there is a path for it. -/
theorem disk_save (o : GenerateOptions) (overview : Overview) (disk : Disk) :
    (o.save overview disk).1 =
      match o.overviewPath with
      | none => disk
      | some path => (disk.write path (Text.Utf8.ofString overview.json.pretty)).2 := by
  unfold save
  rcases o.overviewPath with _ | path
  · rfl
  · simp only
    rcases disk.write path (Text.Utf8.ofString overview.json.pretty) with ⟨fault | _, saved⟩
    · rfl
    · rfl

/-- A run that fails is the end. -/
theorem perform_of_error {failure : Failure} (h : (o.request.run d).result = .error failure) :
    (o.perform s d).status = 1 ∧ (o.perform s d).disk = (o.request.run d).disk ∧
      (o.perform s d).shown = "" := by
  unfold perform
  simp only [h, and_self]

/-- After a run that succeeds only an overview is saved. -/
theorem perform_of_ok {plan : Plan} {receipt : Receipt}
    (h : (o.request.run d).result = .ok (plan, receipt)) :
    (o.perform s d).status = 0 ∧
      (o.perform s d).disk =
        (o.save (Overview.collect plan receipt (o.request.run d).disk).1
          (o.request.run d).disk).1 := by
  unfold perform
  simp only [h, and_self]

/-- Saving an overview changes nothing but the file that its path leads to. -/
theorem disk_save_cases (o : GenerateOptions) (overview : Overview) (disk : Disk) :
    (o.overviewPath = none ∧ (o.save overview disk).1 = disk) ∨
      ∃ path ∈ o.overviewPath, disk.SameExceptAt path (o.save overview disk).1 := by
  rw [disk_save]
  rcases o.overviewPath with _ | path
  · exact .inl ⟨rfl, rfl⟩
  · exact .inr ⟨path, rfl, disk.sameExceptAt_write path _⟩

end GenerateOptions

/-- Performing a command that produces files is performing its options, but for the log. -/
theorem Invocation.perform_generate {i : Invocation} {verbosity : Nat} {o : GenerateOptions}
    (h : i = .task verbosity (.generate o)) (s : Surroundings) (d : Disk) :
    (i.perform s d).status = (o.perform s d).status ∧ (i.perform s d).disk = (o.perform s d).disk ∧
      (i.perform s d).shown = (o.perform s d).shown := by
  rw [h]
  exact ⟨rfl, rfl, rfl⟩

/-- **What a command line does that produces files**, in any surroundings and on any disk. Its
options are those that its words ask for, and it runs the request that they make; the sign in it is
the one whose word is on the line, and there is no more than one. If the run fails, so does the
command; it leaves the disk as the run left it and shows nothing. If the run succeeds, so does the
command, and nothing but the file that the path of the overview leads to can differ from what the run
left. If that file could be written, it holds the overview of the run and nothing else, unless a
device was and is there. -/
theorem Invocation.perform_run {words : List String} {verbosity : Nat} {o : GenerateOptions}
    (h : ofWords words = .task verbosity (.generate o)) (s : Surroundings) (disk : Disk) :
    let request : Request :=
      { sizes := o.sizes, bits := o.bits, seed := o.seed
        signed :=
          if "--signed" ∈ words then some true
          else if "--unsigned" ∈ words then some false else none
        destination := { directory := o.directory, first := o.first, second := o.second } }
    let run := request.run disk
    let outcome := (ofWords words).perform s disk
    -- what is asked for
    o.AskedBy words ∧ ¬ ("--signed" ∈ words ∧ "--unsigned" ∈ words) ∧
      -- the status
      (outcome.status = 0 ↔ ∃ result, run.result = .ok result) ∧
      (outcome.status = 1 ↔ ∃ failure, run.result = .error failure) ∧
      -- a run that fails
      (∀ failure, run.result = .error failure → outcome.disk = run.disk ∧ outcome.shown = "") ∧
      -- a run that succeeds
      ∀ plan receipt, run.result = .ok (plan, receipt) →
        ((o.overviewPath = none ∧ outcome.disk = run.disk) ∨
          ∃ path ∈ o.overviewPath, run.disk.SameExceptAt path outcome.disk) ∧
        ∀ path ∈ o.overviewPath,
          let json := Text.Utf8.ofString (Overview.collect plan receipt run.disk).1.json.pretty
          (run.disk.write path json).1 = .ok () →
            ∃ loc, outcome.disk.locate path = .ok loc ∧
              (outcome.disk.entry? loc = some (.file json) ∨
                ∃ device, run.disk.entry? loc = some (.device device) ∧
                  outcome.disk.entry? loc = some (.device device)) := by
  intro request run outcome
  have hasked := generate_askedBy h
  have hnot := generate_not_both h
  have hrequest : o.request = request := by
    simp only [GenerateOptions.request, GenerateOptions.sign, hasked.signed, hasked.unsigned,
      request]
  obtain ⟨hstatus, hdisk, hshown⟩ : outcome.status = _ ∧ outcome.disk = _ ∧ outcome.shown = _ :=
    perform_generate h s disk
  rw [hasked.signed, hasked.unsigned] at hnot
  refine ⟨hasked, hnot, ?_⟩
  rcases hresult : run.result with failure | ⟨plan, receipt⟩
  · have hrun : (o.request.run disk).result = .error failure := by rw [hrequest]; exact hresult
    obtain ⟨hfailed, hleft, hnothing⟩ := GenerateOptions.perform_of_error (s := s) hrun
    rw [hrequest] at hleft
    rw [hstatus, hdisk, hshown, hfailed, hleft, hnothing]
    simp [run]
  · have hrun : (o.request.run disk).result = .ok (plan, receipt) := by
      rw [hrequest]; exact hresult
    obtain ⟨hdone, hleft⟩ := GenerateOptions.perform_of_ok (s := s) hrun
    rw [hrequest] at hleft
    rw [hstatus, hdisk, hdone, hleft]
    refine ⟨by simp, by simp, by simp, ?_⟩
    intro plan' receipt' heq
    cases heq
    refine ⟨o.disk_save_cases _ run.disk, ?_⟩
    intro path hpath json hwrite
    obtain ⟨loc, hlocate, hwrites⟩ := Disk.writes_of_write hwrite
    have hsave : (o.save (Overview.collect plan receipt run.disk).1 run.disk).1 =
        (run.disk.write path json).2 := by
      rw [GenerateOptions.disk_save, hpath]
    rw [hsave]
    refine ⟨loc, hlocate, ?_⟩
    rcases hwrites.here with ⟨device, hdevice, hsame⟩ | ⟨-, hfile⟩
    · exact .inr ⟨device, hdevice, hsame.trans hdevice⟩
    · exact .inl hfile

/-- Nothing can be shown, and yet the command succeeds and the overview is saved. -/
theorem Invocation.perform_run_unshown :
    let words := ["ltz", "--len", "1", "--bits", "1", "--dir", "out", "--p0-file", "a",
      "--summary-json", "s"]
    let s : Surroundings := { whenShown := some .noSpace }
    let request : Request :=
      { sizes := .signTest 1, bits := 1
        destination := { directory := "out", first := "a", second := none } }
    let run := request.run {}
    let outcome := (ofWords words).perform s {}
    ∃ verbosity o plan receipt loc, ofWords words = .task verbosity (.generate o) ∧
      run.result = .ok (plan, receipt) ∧ outcome.status = 0 ∧ outcome.disk.locate "s" = .ok loc ∧
      outcome.disk.entry? loc = some (.file
        (Text.Utf8.ofString (Overview.collect plan receipt run.disk).1.json.pretty)) := by
  intro words s request run outcome
  let o : GenerateOptions :=
    { sizes := .signTest 1, seed := 42, bits := 1, directory := "out", first := "a", second := none
      signed := false, unsigned := false, overviewPath := some "s" }
  have hwords : ofWords words = .task 0 (.generate o) := by rfl
  obtain ⟨plan, receipt, octets, -, hresult, -, -, hdisk⟩ := Request.run_one_value
  obtain ⟨-, -, hstatus, -, -, hsucceeded⟩ := perform_run hwords s {}
  obtain ⟨-, hsaved⟩ := hsucceeded plan receipt hresult
  have hwrite : ∀ json, (run.disk.write "s" json).1 = .ok () := by
    intro json
    rw [show run.disk = _ from hdisk]
    exact Disk.write_of_openFile rfl (Medium.hasRoom_of_unlimited rfl _)
  obtain ⟨loc, hlocate, hfile | ⟨device, hdev, -⟩⟩ := hsaved "s" rfl (hwrite _)
  · exact ⟨0, o, plan, receipt, loc, hwords, hresult, hstatus.2 ⟨_, hresult⟩, hlocate, hfile⟩
  · have hentry : Disk.entry? { entries := [(["out"], .directory), (["out", "a"], .file octets)] } loc =
        some (.device device) := hdisk ▸ hdev
    simpa using Disk.mem_entries_of_entry? hentry (by simp)

end PartyInputs
