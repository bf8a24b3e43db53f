import PartyInputs.Proofs.Run.Agreement

/-!
# Runs of a request that succeed

A run plans its request and carries the plan out. After a run that succeeds the paths of the plan
lead to files of their own, and these hold what the plan gives for them.

* `Request.run_eq_ok`: a run that succeeds has planned and carried out the plan.
* `Plan.files_of_produce`: **the files that it leaves**.
* `Plan.produce_single`: a plan with one file, on a disk that has room for everything, and
  `Request.run_one_value`: a run of such a plan.
-/

namespace PartyInputs

open List (Forall₂)

theorem Request.run_of_plan {r : Request} {p : Plan} (h : r.plan = .ok p) (disk : Disk) :
    r.run disk =
      { p.produce disk with result := (p.produce disk).result.map (p, ·) } := by
  unfold run
  rw [h]

/-- A run that succeeds has planned and carried out the plan. -/
theorem Request.run_eq_ok {r : Request} {disk : Disk} {p : Plan} {receipt : Receipt}
    (h : (r.run disk).result = .ok (p, receipt)) :
    r.plan = .ok p ∧ (p.produce disk).result = .ok receipt ∧
      (r.run disk).disk = (p.produce disk).disk := by
  rcases hplan : r.plan with refusal | plan
  · unfold run at h
    rw [hplan] at h
    cases h
  · rw [run_of_plan hplan] at h ⊢
    obtain ⟨receipt', hproduce, heq⟩ := map_eq_ok_iff.1 h
    cases heq
    exact ⟨rfl, hproduce, rfl⟩

/-- **The files that a run leaves**: each path of the plan leads to one of its own, which holds what
the plan gives for it, unless a device was and is there. -/
theorem Plan.files_of_produce {r : Request} {p : Plan} {disk : Disk} {receipt : Receipt}
    (hplan : r.plan = .ok p) (hrun : (p.produce disk).result = .ok receipt) :
    ∃ locs : List Location, locs.Nodup ∧
      Forall₂ (fun path loc => (p.produce disk).disk.locate path = .ok loc) p.paths locs ∧
      Forall₂
        (fun loc octets => (p.produce disk).disk.entry? loc = some (.file octets) ∨
          ∃ device, disk.entry? loc = some (.device device) ∧
            (p.produce disk).disk.entry? loc = some (.device device))
        locs (p.rows.map encodeRows) := by
  obtain ⟨ready, locs, hadds, -, hfilled⟩ := filledFiles_of_produce hrun
  have hnodup : locs.Nodup := hfilled.nodup (nodup_lastNames hplan)
  have hlocate := hfilled.locate
  have hcontents := hfilled.contents hnodup
  rw [map_snd_jobs hplan] at hlocate
  rw [map_fst_jobs hplan] at hcontents
  refine ⟨locs, hnodup, hlocate, hcontents.imp ?_⟩
  rintro loc octets (hfile | ⟨device, hdev, hdev'⟩)
  · exact .inl hfile
  · exact .inr ⟨device, hadds.entry?_of_ne_directory hdev (by simp), hdev'⟩

/-- **A plan with one file** can be carried out if its directory can be made and the file can be
opened and takes everything. -/
theorem Plan.produce_single {p : Plan} {disk ready opened : Disk} {sheet : Sheet} {path : String}
    {loc : Location} (hjobs : p.jobs = [(sheet, path)])
    (hmake : disk.makeDirectories p.destination.directory = (.ok (), ready))
    (hopen : ready.openFile path = .ok (loc, opened)) (htakes : (opened.medium loc).TakesAll) :
    (p.produce disk).result = .ok ⟨[sheet.writtenFile path p.stream]⟩ ∧
      (p.produce disk).disk = opened.keep loc (encodeRows (sheet.rowsFrom p.stream)) := by
  rcases sheet.fill_cases { medium := opened.medium loc } p.stream with ⟨hm, -⟩ | ⟨sink, hfill, hg⟩
  · exact absurd htakes hm
  · have hoctets : sink.octets = encodeRows (sheet.rowsFrom p.stream) := hg.octets
    have hjob : Sheet.fillFiles p.jobs p.stream ready =
        ⟨.ok [sheet.writtenFile path p.stream],
          opened.keep loc (encodeRows (sheet.rowsFrom p.stream)),
          [.wrote (sheet.writtenFile path p.stream)]⟩ := by
      rw [hjobs, Sheet.fillFiles_cons, hopen]
      simp only [hfill, hoctets]
      rfl
    constructor
    · exact produce_eq_ok_iff.2 ⟨ready, hmake, by rw [hjob]⟩
    · rw [disk_produce hmake, hjob]

/-- One value, into a file of a new directory on an empty disk. -/
theorem Request.run_one_value :
    let request : Request :=
      { sizes := .signTest 1, bits := 1
        destination := { directory := "out", first := "a", second := none } }
    ∃ plan receipt octets, request.plan = .ok plan ∧
      (request.run {}).result = .ok (plan, receipt) ∧
      plan.paths = ["out/a"] ∧ plan.contents = .ok [octets] ∧
      (request.run {}).disk =
        { entries := [(["out"], .directory), (["out", "a"], .file octets)] } := by
  intro request
  let plan : Plan :=
    { sizes := .signTest 1, width := ⟨1, by decide, by decide⟩, signed := true, seed := 42
      destination := { directory := "out", first := "a", second := none } }
  have hplan : request.plan = .ok plan := by decide
  have hjobs : plan.jobs = [(⟨0, [⟨1, 1⟩]⟩, "out/a")] := by decide
  have hpaths : plan.paths = ["out/a"] := by decide
  have hmake : Disk.makeDirectories {} "out" = (.ok (), { entries := [(["out"], .directory)] }) := by
    rw [Disk.makeDirectories]
    rfl
  have hopen : Disk.openFile { entries := [(["out"], .directory)] } "out/a" =
      .ok (["out", "a"], { entries := [(["out"], .directory), (["out", "a"], .file [])] }) := by
    decide
  obtain ⟨hproduce, hdisk⟩ := Plan.produce_single hjobs hmake hopen ⟨rfl, by decide, rfl⟩
  have hresult : (request.run {}).result =
      .ok (plan, ⟨[Sheet.writtenFile ⟨0, [⟨1, 1⟩]⟩ "out/a" plan.stream]⟩) := by
    rw [run_of_plan hplan, hproduce]
    rfl
  refine ⟨plan, _, _, hplan, hresult, hpaths, plan.contents_eq, ?_⟩
  rw [run_of_plan hplan, hdisk]
  rfl

end PartyInputs
