import PartyInputs.Proofs.Request.DrawOrder
import PartyInputs.Proofs.Run.Filling

/-!
# What a run leaves on the disk

The files of a plan can be asked for without a disk, or a run can write them. Both take the values
from one stream in the same order, so they agree: after a run that succeeds every path leads to a
file of its own with the very octets that the plan gives for it, whatever was on the disk before,
and the receipt counts these octets.

* `Plan.produce_eq_ok_iff`, `Plan.filledFiles_of_produce`: a run makes directories and then fills
  the files.
* `Plan.nodup_lastNames`: the paths of a plan end in different names.
* `WrittenFile.Counts`: a receipt that says what octets hold.
* `Plan.produce_agrees`: **files, receipt and the rest of the disk** after a run that succeeds.
-/

namespace PartyInputs

/-! ## The course of a run -/

/-- The sheets of a plan with the paths that they are written to. -/
def Plan.jobs (p : Plan) : List (Sheet × String) := p.sheets.zip p.paths

theorem Plan.disk_produce {p : Plan} {disk ready : Disk}
    (h : disk.makeDirectories p.destination.directory = (.ok (), ready)) :
    (p.produce disk).disk = (Sheet.fillFiles p.jobs p.stream ready).disk := by
  unfold Plan.produce
  rw [h]
  simp only [Plan.jobs]
  rcases Sheet.fillFiles (p.sheets.zip p.paths) p.stream ready with ⟨failure | files, disk', log⟩
  · rfl
  · rfl

/-- A run succeeds iff the directories can be made and then the files can be filled. -/
theorem Plan.produce_eq_ok_iff {p : Plan} {disk : Disk} {receipt : Receipt} :
    (p.produce disk).result = .ok receipt ↔
      ∃ ready, disk.makeDirectories p.destination.directory = (.ok (), ready) ∧
        (Sheet.fillFiles p.jobs p.stream ready).result = .ok receipt.files := by
  unfold Plan.produce
  rcases hmake : disk.makeDirectories p.destination.directory with ⟨fault | _, ready⟩
  · constructor
    · intro h; cases h
    · rintro ⟨ready', h, -⟩; cases h
  · simp only [Plan.jobs]
    rcases hfill : Sheet.fillFiles (p.sheets.zip p.paths) p.stream ready with
      ⟨failure | files, disk', log⟩
    · constructor
      · intro h; cases h
      · rintro ⟨ready', h, hfiles⟩
        cases h
        rw [hfill] at hfiles
        cases hfiles
    · constructor
      · intro h
        cases h
        exact ⟨ready, rfl, by rw [hfill]⟩
      · rintro ⟨ready', h, hfiles⟩
        cases h
        rw [hfill] at hfiles
        cases hfiles
        rfl

/-- A run that succeeds makes directories and then fills the files. -/
theorem Plan.filledFiles_of_produce {p : Plan} {disk : Disk} {receipt : Receipt}
    (h : (p.produce disk).result = .ok receipt) :
    ∃ ready locs, disk.AddsDirectories ready ∧ receipt.files = Sheet.writtenFiles p.jobs p.stream ∧
      FilledFiles p.jobs p.stream ready locs (p.produce disk).disk := by
  obtain ⟨ready, hmake, hfill⟩ := Plan.produce_eq_ok_iff.1 h
  have hadds := disk.makeDirectories_adds p.destination.directory
  obtain ⟨hfiles, locs, hfilled⟩ := Sheet.filledFiles_of_fillFiles p.jobs hfill
  rw [hmake] at hadds
  rw [Plan.disk_produce hmake]
  exact ⟨ready, locs, hadds, hfiles, hfilled⟩

section

variable {r : Request} {p : Plan} (h : r.plan = .ok p)

include h

theorem Plan.map_fst_jobs : p.jobs.map Prod.fst = p.sheets :=
  List.map_fst_zip (Nat.le_of_eq (Plan.length_paths h).symm)

theorem Plan.map_snd_jobs : p.jobs.map Prod.snd = p.paths :=
  List.map_snd_zip (Nat.le_of_eq (Plan.length_paths h))

/-- The paths of a plan end in different names, since these are plain and differ. -/
theorem Plan.nodup_lastNames :
    (p.jobs.map fun job => (Route.ofPath job.2).names.getLast?).Nodup := by
  obtain ⟨-, -, hdestination, -, -⟩ := Request.plan_eq_ok_iff.1 h
  obtain ⟨-, -, hplain, hnodup⟩ := Destination.of_accept hdestination
  have hlast : (p.jobs.map fun job => (Route.ofPath job.2).names.getLast?) =
      p.destination.names.map some := by
    calc (p.jobs.map fun job => (Route.ofPath job.2).names.getLast?)
        = p.paths.map fun path => (Route.ofPath path).names.getLast? := by
          rw [← Plan.map_snd_jobs h, List.map_map]
          rfl
      _ = p.destination.names.map some := by
          rw [Plan.paths, Destination.paths_eq, List.map_map]
          apply List.map_congr_left
          intro name hname
          rw [Function.comp_apply, Route.names_pathOf _ (hplain name hname), List.getLast?_concat]
  rw [hlast]
  exact hnodup.map fun _ _ => Option.some.inj

end

/-! ## Receipts -/

/-- What a receipt says of a file is true of octets: their number, that of their lines and that of
the values that are read from them. -/
def WrittenFile.Counts (file : WrittenFile) (octets : List UInt8) : Prop :=
  file.tally.octets = octets.length ∧ file.tally.rows = octets.count terminator ∧
    ∃ t, Table.read octets = .ok t ∧ file.tally.values = t.valueCount

theorem Sheet.counts_writtenFile (s : Sheet) (path : String) (stream : ValueStream) :
    (s.writtenFile path stream).Counts (encodeRows (s.rowsFrom stream)) := by
  refine ⟨?_, ?_, _, Table.read_encodeRows _, ?_⟩
  · simp [Sheet.writtenFile, Tally.addRows]
  · rw [Table.count_terminator_encodeRows]
    simp [Sheet.writtenFile, Tally.addRows]
  · rw [Table.valueCount_eq_length_values]
    simp [Sheet.writtenFile, Tally.addRows, Table.values]

/-- The receipt of a run names each party with its path and counts its octets. -/
theorem Sheet.writtenFiles_spec (jobs : List (Sheet × String)) : ∀ stream : ValueStream,
    (Sheet.writtenFiles jobs stream).map (·.party) = (jobs.map Prod.fst).map (·.party) ∧
      (Sheet.writtenFiles jobs stream).map (·.path) = jobs.map Prod.snd ∧
      List.Forall₂ WrittenFile.Counts (Sheet.writtenFiles jobs stream)
        ((Sheet.allRowsFrom (jobs.map Prod.fst) stream).map encodeRows) := by
  induction jobs with
  | nil => intro stream; exact ⟨rfl, rfl, .nil⟩
  | cons job jobs ih =>
    intro stream
    obtain ⟨sheet, path⟩ := job
    obtain ⟨hparties, hpaths, hcounts⟩ := ih (stream.advance sheet.valueCount)
    refine ⟨?_, ?_, .cons (sheet.counts_writtenFile path stream) hcounts⟩
    · exact congrArg (sheet.party :: ·) hparties
    · exact congrArg (path :: ·) hpaths

theorem Receipt.totalValues_eq_sum (r : Receipt) :
    r.totalValues = (r.files.map (·.tally.values)).sum := by
  unfold Receipt.totalValues
  induction r.files with
  | nil => rfl
  | cons file files ih => rw [List.foldr_cons, ih, List.map_cons, List.sum_cons]

/-! ## Agreement -/

/-- **After a run that succeeds**, whatever was on the disk before: each path leads to a file of its
own that holds the octets that the plan gives for it, unless a device was and is there; the receipt
names every party with its path, in order, and counts these octets; and of everything else on the
disk nothing is changed, except that directories may be new. -/
theorem Plan.produce_agrees {r : Request} {p : Plan} {disk : Disk} {receipt : Receipt}
    (hplan : r.plan = .ok p) (hrun : (p.produce disk).result = .ok receipt) :
    ∃ (contents : List (List UInt8)) (locs : List Location),
      p.contents = .ok contents ∧
      -- the files
      locs.Nodup ∧
      List.Forall₂ (fun path loc => (p.produce disk).disk.locate path = .ok loc) p.paths locs ∧
      List.Forall₂
        (fun loc octets => (p.produce disk).disk.entry? loc = some (.file octets) ∨
          ∃ device, disk.entry? loc = some (.device device) ∧
            (p.produce disk).disk.entry? loc = some (.device device))
        locs contents ∧
      -- the receipt
      receipt.files.map (·.party) = p.sheets.map (·.party) ∧
      receipt.files.map (·.path) = p.paths ∧
      List.Forall₂ WrittenFile.Counts receipt.files contents ∧
      receipt.totalValues = (receipt.files.map (·.tally.values)).sum ∧
      -- everything else
      (∀ loc, loc ∉ locs → (p.produce disk).disk.entry? loc = disk.entry? loc ∨
        (disk.entry? loc = none ∧ (p.produce disk).disk.entry? loc = some .directory)) ∧
      (∀ loc, disk.entry? loc = some .directory →
        (p.produce disk).disk.entry? loc = some .directory) := by
  obtain ⟨ready, locs, hadds, hfiles, hfilled⟩ := Plan.filledFiles_of_produce hrun
  obtain ⟨hparties, hpaths, hcounts⟩ := Sheet.writtenFiles_spec p.jobs p.stream
  have hnodup : locs.Nodup := hfilled.nodup (Plan.nodup_lastNames hplan)
  have hlocate := hfilled.locate
  have hcontents := hfilled.contents hnodup
  rw [Plan.map_fst_jobs hplan] at hparties hcounts hcontents
  rw [Plan.map_snd_jobs hplan] at hpaths hlocate
  rw [← hfiles] at hparties hpaths hcounts
  refine ⟨p.rows.map encodeRows, locs, p.contents_eq, hnodup, hlocate, ?_, hparties, hpaths,
    hcounts, receipt.totalValues_eq_sum, ?_, ?_⟩
  · -- a device that was there when the directories were ready was there from the start
    refine hcontents.imp ?_
    rintro loc octets (hfile | ⟨device, hdev, hdev'⟩)
    · exact .inl hfile
    · exact .inr ⟨device, hadds.entry?_of_ne_directory hdev (by simp), hdev'⟩
  · intro loc hloc
    rw [hfilled.entry?_of_notMem hloc]
    exact hadds.entry loc
  · intro loc hloc
    exact hfilled.keeps.directory loc (hadds.keeps.directory loc hloc)

/-- One value into a file that held four octets, under a name that is brought to that of its
entry. -/
theorem Plan.produce_agrees_shorter :
    let r : Request :=
      { sizes := .signTest 1, bits := 1, destination := { directory := "", first := "./a" } }
    let p : Plan :=
      { sizes := .signTest 1, width := ⟨1, by decide, by decide⟩, signed := true, seed := 42,
        destination := { directory := "", first := "a", second := none } }
    let disk : Disk := { entries := [(["a"], .file [0x37, 0x37, 0x37, 0x0a])] }
    let receipt : Receipt := ⟨Sheet.writtenFiles p.jobs p.stream⟩
    r.plan = .ok p ∧ (p.produce disk).result = .ok receipt ∧
      ∃ octets loc, p.contents = .ok [octets] ∧ (p.produce disk).disk.locate "a" = .ok loc ∧
        (p.produce disk).disk.entry? loc = some (.file octets) ∧
        receipt.files.map (·.path) = ["a"] := by
  intro r p disk receipt
  have hplan : r.plan = .ok p := by decide
  have hjobs : p.jobs = [(⟨0, [⟨1, 1⟩]⟩, "a")] := by decide
  have hmake : disk.makeDirectories p.destination.directory = (.ok (), disk) := by
    rw [Disk.makeDirectories]
    rfl
  have hopen : disk.openFile "a" = .ok (["a"], disk.set ["a"] (.file [])) := by decide
  have htakes : ((disk.set ["a"] (.file [])).medium ["a"]).TakesAll := ⟨rfl, by decide, rfl⟩
  have hrun : (p.produce disk).result = .ok receipt := by
    refine Plan.produce_eq_ok_iff.2 ⟨disk, hmake, ?_⟩
    show _ = Except.ok (Sheet.writtenFiles p.jobs p.stream)
    rw [hjobs, Sheet.fillFiles_cons_of_takesAll hopen htakes]
    rfl
  obtain ⟨contents, locs, hcontents, -, hlocate, hholds, -, hpaths, -, -, -, -⟩ :=
    Plan.produce_agrees hplan hrun
  have hpath : p.paths = ["a"] := by decide
  rw [hpath] at hlocate hpaths
  -- one path, so one location and one content
  rcases hlocate with _ | ⟨hloc, hnil⟩
  rcases hnil
  rcases hholds with _ | ⟨hoctets, hnil⟩
  rcases hnil
  have hno : ∀ loc device, disk.entry? loc ≠ some (.device device) := by
    intro loc device hdev
    unfold Disk.entry? at hdev
    split at hdev
    · cases hdev
    · simp only [disk, List.lookup_cons, List.lookup_nil] at hdev
      split at hdev <;> cases hdev
  rcases hoctets with hfile | ⟨device, hdev, -⟩
  · exact ⟨hplan, hrun, _, _, hcontents, hloc, hfile, hpaths⟩
  · exact absurd hdev (hno _ device)

end PartyInputs
