import PartyInputs.Proofs.Disk.Standing
import PartyInputs.Proofs.Run.Completed
import PartyInputs.Proofs.Workload.Limits

/-!
# Runs one after the other

A run that succeeded can be repeated: its directories are there, its files can be opened again and
have room for the same octets, so it succeeds with the same receipt and leaves the disk exactly as
it was. Of several runs that follow one another, a file holds what the last one has written that its
paths led to; how the directory was spelled, and what the others had written, play no part.

* `Sheet.fillFiles_again`: **files that were filled can be filled again**, and the disk stays.
* `Plan.produce_again`: **so a run can be repeated**.
* `Succession`: runs that follow one another and all succeed.
* `Succession.entry?_of_not_targets`, `Succession.received`: what they leave alone and what they
  leave in their files.
* `Succession.last_writer`: **the last writer wins, and repeating it changes nothing**.
-/

namespace PartyInputs

open List (Forall₂)

/-! ## The same files again -/

namespace Sheet

variable {sheet : Sheet} {path name : String} {jobs : List (Sheet × String)} {stream : ValueStream}
  {d : Disk} {parent : Location}

/-- A file that can be opened and has room for its sheet is written, and the run goes on. -/
theorem fillFiles_cons_of_opens (h : d.Opens path parent name)
    (hroom : (d.medium (parent ++ [name])).HasRoom (encodeRows (sheet.rowsFrom stream)).length)
    (jobs : List (Sheet × String)) :
    let rest := fillFiles jobs (stream.advance sheet.valueCount)
      ((d.empty (parent ++ [name])).keep (parent ++ [name]) (encodeRows (sheet.rowsFrom stream)))
    (fillFiles ((sheet, path) :: jobs) stream d).result =
        rest.result.map (sheet.writtenFile path stream :: ·) ∧
      (fillFiles ((sheet, path) :: jobs) stream d).disk = rest.disk := by
  intro rest
  have hloc : parent ++ [name] ≠ [] := by simp
  have hmedium := (d.writes_empty hloc).medium_eq
  obtain ⟨hchunk, hflush⟩ := d.medium_spec (parent ++ [name])
  obtain ⟨hoctets, hcases⟩ := sheet.fill_offered_cases hchunk hflush stream
  rcases sheet.fill_cases { medium := d.medium (parent ++ [name]) } stream with
    ⟨-, fault, hfail⟩ | ⟨sink, hfill, hg⟩
  · rcases hcases with ⟨-, tally, hok⟩ | ⟨hno, -⟩
    · rw [hfail] at hok
      cases hok
    · exact absurd hroom hno
  · have hsink : sink.octets = encodeRows (sheet.rowsFrom stream) := hg.octets
    rw [fillFiles_cons, Disk.openFile_of_opens h]
    simp only [hmedium, hfill, hsink]
    exact ⟨rfl, rfl⟩

/-- A run that writes all its files has found room for the first of them. -/
theorem hasRoom_of_fillFiles {files : List WrittenFile} (h : d.Opens path parent name)
    (hfill : (fillFiles ((sheet, path) :: jobs) stream d).result = .ok files) :
    (d.medium (parent ++ [name])).HasRoom (encodeRows (sheet.rowsFrom stream)).length := by
  have hmedium := (d.writes_empty (by simp : parent ++ [name] ≠ [])).medium_eq
  obtain ⟨hchunk, hflush⟩ := d.medium_spec (parent ++ [name])
  obtain ⟨-, ⟨hroom, -⟩ | ⟨-, hfull⟩⟩ := sheet.fill_offered_cases hchunk hflush stream
  · exact hroom
  · rw [fillFiles_cons, Disk.openFile_of_opens h] at hfill
    simp only [hmedium] at hfill
    rcases hs : sheet.fill { medium := d.medium (parent ++ [name]) } stream with ⟨result, _, _⟩
    rw [hs] at hfull hfill
    cases hfull
    cases hfill

/-- **Files that were filled can be filled again** from the same stream, if they are different ones:
with the same receipt, and the disk stays as it is. -/
theorem fillFiles_again (jobs : List (Sheet × String)) :
    ∀ {stream : ValueStream} {d : Disk} {files : List WrittenFile},
      (fillFiles jobs stream d).result = .ok files →
      (jobs.map fun job => (Route.ofPath job.2).names.getLast?).Nodup →
        (fillFiles jobs stream (fillFiles jobs stream d).disk).result = .ok files ∧
          (fillFiles jobs stream (fillFiles jobs stream d).disk).disk =
            (fillFiles jobs stream d).disk := by
  induction jobs with
  | nil =>
    intro stream d files h _
    exact ⟨h, rfl⟩
  | cons job jobs ih =>
    intro stream d files h hnames
    obtain ⟨sheet, path⟩ := job
    obtain ⟨parent, name, d₁, rest, hopens, hwrites, hrest, rfl, hdisk⟩ := fillFiles_cons_eq_ok h
    obtain ⟨-, locs, hfilled⟩ := filledFiles_of_fillFiles jobs hrest
    obtain ⟨hagain, hsame⟩ := ih hrest hnames.of_cons
    have hroom := hasRoom_of_fillFiles hopens h
    rw [hdisk]
    generalize (fillFiles jobs (stream.advance sheet.valueCount) d₁).disk = after at *
    -- the later files are elsewhere, so the first one is there as it was written
    have hnodup := (FilledFiles.cons hopens hwrites hfilled).nodup hnames
    have hhere := hfilled.entry?_of_notMem (List.nodup_cons.1 hnodup).1
    have hholds : after.Holds (parent ++ [name]) (encodeRows (sheet.rowsFrom stream)) := by
      unfold Disk.Holds
      rw [hhere]
      exact hwrites.holds
    have hopens' : after.Opens path parent name := by
      apply hopens.of_keeps ((hwrites.keeps hopens.no_directory).trans hfilled.keeps)
      rcases hholds with hfile | ⟨device, hdevice⟩
      · simp [hfile]
      · simp [hdevice]
    have hmedium : after.medium (parent ++ [name]) = d.medium (parent ++ [name]) := by
      rw [Disk.medium_congr hfilled.limits hhere, hwrites.medium_eq]
    rw [← hmedium] at hroom
    obtain ⟨hresult, hleft⟩ := fillFiles_cons_of_opens hopens' hroom jobs
    rw [Disk.keep_empty_of_holds (by simp) hholds] at hresult hleft
    rw [hresult, hleft, hagain]
    exact ⟨rfl, hsame⟩

end Sheet

/-- **A run that succeeded can be repeated**: it succeeds with the same receipt, and the disk stays
exactly as it is. -/
theorem Plan.produce_again {r : Request} {p : Plan} {disk : Disk} {receipt : Receipt}
    (hplan : r.plan = .ok p) (hrun : (p.produce disk).result = .ok receipt) :
    (p.produce (p.produce disk).disk).result = .ok receipt ∧
      (p.produce (p.produce disk).disk).disk = (p.produce disk).disk := by
  obtain ⟨ready, hmake, hfill⟩ := Plan.produce_eq_ok_iff.1 hrun
  obtain ⟨-, locs, hfilled⟩ := Sheet.filledFiles_of_fillFiles p.jobs hfill
  obtain ⟨hagain, hsame⟩ := Sheet.fillFiles_again p.jobs hfill (Plan.nodup_lastNames hplan)
  have hmade := Disk.makeDirectories_again hmake hfilled.keeps
  rw [Plan.disk_produce hmake, Plan.disk_produce hmade]
  exact ⟨Plan.produce_eq_ok_iff.2 ⟨_, hmade, hagain⟩, hsame⟩

/-! ## What a run leaves in its files -/

/-- One of the paths of a plan leads to the location. -/
def Plan.Targets (p : Plan) (disk : Disk) (loc : Location) : Prop :=
  ∃ path ∈ p.paths, disk.locate path = .ok loc

/-- A file with the octets stands at the location afterwards, unless a device was and is there. -/
def Disk.Received (before after : Disk) (loc : Location) (octets : List UInt8) : Prop :=
  after.entry? loc = some (.file octets) ∨
    ∃ device, before.entry? loc = some (.device device) ∧ after.entry? loc = some (.device device)

/-- The path of each file leads to what the run put there. -/
theorem Plan.received_of_produce {r : Request} {p : Plan} {disk : Disk} {receipt : Receipt}
    (hplan : r.plan = .ok p) (hrun : (p.produce disk).result = .ok receipt) :
    Forall₂ (fun path octets => ∃ loc, (p.produce disk).disk.locate path = .ok loc ∧
      disk.Received (p.produce disk).disk loc octets) p.paths (p.rows.map encodeRows) := by
  obtain ⟨locs, -, hlocate, hholds⟩ := Plan.files_of_produce hplan hrun
  exact forall₂_comp hlocate hholds

/-- What a run of a plan that succeeded leaves of a disk: everything that a path can lead to, in the
files of its paths what the plan gives for them, and elsewhere what was there. -/
structure Plan.Leaves (p : Plan) (contents : List (List UInt8)) (before after : Disk) : Prop where
  keeps : before.Keeps after
  received : Forall₂ (fun path octets => ∃ loc, after.locate path = .ok loc ∧
    before.Received after loc octets) p.paths contents
  elsewhere : ∀ loc, ¬ p.Targets after loc → after.entry? loc = before.entry? loc ∨
    (before.entry? loc = none ∧ after.entry? loc = some .directory)

theorem Plan.leaves_of_produce {r : Request} {p : Plan} {disk : Disk} {receipt : Receipt}
    (hplan : r.plan = .ok p) (hrun : (p.produce disk).result = .ok receipt) :
    ∃ contents, p.contents = .ok contents ∧ p.Leaves contents disk (p.produce disk).disk := by
  obtain ⟨ready, locs, hadds, -, hfilled⟩ := Plan.filledFiles_of_produce hrun
  have hlocate := hfilled.locate
  rw [Plan.map_snd_jobs hplan] at hlocate
  refine ⟨_, p.contents_eq, hadds.keeps.trans hfilled.keeps,
    Plan.received_of_produce hplan hrun, ?_⟩
  intro loc hno
  -- every location of a file is one that a path leads to
  have hnotMem : loc ∉ locs := by
    intro hmem
    obtain ⟨path, hpath, hloc⟩ := exists_mem_zip_of_forall₂ hlocate.flip hmem
    exact hno ⟨path, (List.of_mem_zip hpath).2, hloc⟩
  rw [hfilled.entry?_of_notMem hnotMem]
  exact hadds.entry loc

namespace Plan.Leaves

variable {p : Plan} {contents : List (List UInt8)} {before after : Disk} {loc : Location}

/-- A run makes no devices. -/
theorem device_before (h : p.Leaves contents before after) {device : Device}
    (hdevice : after.entry? loc = some (.device device)) :
    before.entry? loc = some (.device device) := by
  by_cases ht : p.Targets after loc
  · obtain ⟨path, hpath, hlocate⟩ := ht
    obtain ⟨octets, -, loc', hlocate', hreceived⟩ := exists_mem_zip_of_forall₂ h.received hpath
    rw [hlocate] at hlocate'
    cases hlocate'
    rcases hreceived with hfile | ⟨device', hbefore, hafter⟩
    · rw [hdevice] at hfile
      cases hfile
    · rw [hbefore, ← hafter, hdevice]
  · rcases h.elsewhere loc ht with heq | ⟨-, hdir⟩
    · rw [← heq, hdevice]
    · rw [hdevice] at hdir
      cases hdir

end Plan.Leaves

/-! ## Successions -/

/-- Plans of accepted requests are carried out one after the other on a disk, and all succeed, each
with the receipt beside it. -/
inductive Succession : Disk → List (Plan × Receipt) → Disk → Prop where
  | nil {disk : Disk} : Succession disk [] disk
  | cons {r : Request} {p : Plan} {receipt : Receipt} {runs : List (Plan × Receipt)}
      {before after : Disk} :
      r.plan = .ok p → (p.produce before).result = .ok receipt →
      Succession (p.produce before).disk runs after →
      Succession before ((p, receipt) :: runs) after

/-- The octets are what the last run whose paths lead to the location gives for the file there. -/
def LastWritten (runs : List (Plan × Receipt)) (after : Disk) (loc : Location)
    (octets : List UInt8) : Prop :=
  ∃ front p receipt back contents, runs = front ++ (p, receipt) :: back ∧
    p.contents = .ok contents ∧
    (∃ path, (path, octets) ∈ p.paths.zip contents ∧ after.locate path = .ok loc) ∧
    ∀ run ∈ back, ¬ run.1.Targets after loc

theorem LastWritten.cons {runs : List (Plan × Receipt)} {after : Disk} {loc : Location}
    {octets : List UInt8} (h : LastWritten runs after loc octets) (run : Plan × Receipt) :
    LastWritten (run :: runs) after loc octets := by
  obtain ⟨front, p, receipt, back, contents, rfl, hrest⟩ := h
  exact ⟨run :: front, p, receipt, back, contents, rfl, hrest⟩

namespace Succession

variable {before after : Disk} {runs : List (Plan × Receipt)} {loc : Location}

theorem keeps (h : Succession before runs after) : before.Keeps after := by
  induction h with
  | nil => exact .refl _
  | cons hplan hrun _ ih =>
    obtain ⟨contents, -, hleaves⟩ := Plan.leaves_of_produce hplan hrun
    exact hleaves.keeps.trans ih

/-- Every path of every run leads somewhere in the end. -/
theorem exists_locate (h : Succession before runs after) {run : Plan × Receipt} (hmem : run ∈ runs)
    {path : String} (hpath : path ∈ run.1.paths) : ∃ loc, after.locate path = .ok loc := by
  induction h with
  | nil => cases hmem
  | @cons r p receipt runs before after hplan hrun hrest ih =>
    rcases List.mem_cons.1 hmem with rfl | hmem
    · obtain ⟨contents, -, hleaves⟩ := Plan.leaves_of_produce hplan hrun
      obtain ⟨octets, -, loc, hlocate, -⟩ := exists_mem_zip_of_forall₂ hleaves.received hpath
      exact ⟨loc, Disk.locate_of_keeps hrest.keeps hlocate⟩
    · exact ih hmem

/-- **What no path leads to stays as it was.** -/
theorem entry?_of_not_targets (h : Succession before runs after) {e : Entry}
    (hentry : before.entry? loc = some e) (hno : ∀ run ∈ runs, ¬ run.1.Targets after loc) :
    after.entry? loc = some e := by
  induction h with
  | nil => exact hentry
  | @cons r p receipt runs before after hplan hrun hrest ih =>
    obtain ⟨hfirst, hno⟩ := List.forall_mem_cons.1 hno
    obtain ⟨contents, -, hleaves⟩ := Plan.leaves_of_produce hplan hrun
    refine ih ?_ hno
    -- where a path leads after its run, it leads in the end
    have hnot : ¬ p.Targets (p.produce before).disk loc := by
      rintro ⟨path, hpath, hlocate⟩
      exact hfirst ⟨path, hpath, Disk.locate_of_keeps hrest.keeps hlocate⟩
    rcases hleaves.elsewhere loc hnot with heq | ⟨hnone, -⟩
    · rw [heq, hentry]
    · rw [hentry] at hnone
      cases hnone

/-- **Where a path leads stands what the last run has written there** whose paths lead there. -/
theorem received (h : Succession before runs after)
    (htargets : ∃ run ∈ runs, run.1.Targets after loc) :
    ∃ octets, LastWritten runs after loc octets ∧ before.Received after loc octets := by
  induction h with
  | nil =>
    obtain ⟨run, hmem, -⟩ := htargets
    cases hmem
  | @cons r p receipt runs before after hplan hrun hrest ih =>
    obtain ⟨contents, hcontents, hleaves⟩ := Plan.leaves_of_produce hplan hrun
    by_cases hlater : ∃ run ∈ runs, run.1.Targets after loc
    · obtain ⟨octets, hlast, hreceived⟩ := ih hlater
      refine ⟨octets, hlast.cons _, ?_⟩
      rcases hreceived with hfile | ⟨device, hdevice, hafter⟩
      · exact .inl hfile
      · exact .inr ⟨device, hleaves.device_before hdevice, hafter⟩
    · -- no later run comes to the location, so it is the first one's
      have hnone : ∀ run ∈ runs, ¬ run.1.Targets after loc :=
        fun run hmem ht => hlater ⟨run, hmem, ht⟩
      obtain ⟨run, hmem, ht⟩ := htargets
      rcases List.mem_cons.1 hmem with rfl | hmem
      · obtain ⟨path, hpath, hlocate⟩ := ht
        obtain ⟨octets, hzip, loc', hlocate', hreceived⟩ :=
          exists_mem_zip_of_forall₂ hleaves.received hpath
        have hsame := Disk.locate_of_keeps hrest.keeps hlocate'
        rw [hlocate] at hsame
        cases hsame
        refine ⟨octets, ⟨[], p, receipt, runs, contents, rfl, hcontents, ⟨path, hzip, hlocate⟩,
          hnone⟩, ?_⟩
        rcases hreceived with hfile | ⟨device, hdevice, hthen⟩
        · exact .inl (hrest.entry?_of_not_targets hfile hnone)
        · exact .inr ⟨device, hdevice, hrest.entry?_of_not_targets hthen hnone⟩
      · exact absurd ht (hnone run hmem)

/-- The last run of a succession can be repeated. -/
theorem produce_last (h : Succession before runs after) {p : Plan} {receipt : Receipt}
    (hlast : runs.getLast? = some (p, receipt)) :
    (p.produce after).result = .ok receipt ∧ (p.produce after).disk = after := by
  induction h with
  | nil => cases hlast
  | @cons r q receipt' runs before after hplan hrun hrest ih =>
    rcases runs with _ | ⟨run, runs⟩
    · cases hlast
      cases hrest
      exact Plan.produce_again hplan hrun
    · rw [List.getLast?_cons_cons] at hlast
      exact ih hlast

/-- **The last writer wins, and repeating it changes nothing.** After runs of accepted requests that
have all succeeded, one after the other and whatever was on the disk before, each path of each of
them leads to a file that holds the octets that the last of the runs gives for it whose paths lead
to this file, and nothing else, unless a device was and is there. The last run of all can be
repeated: it succeeds with the same receipt and leaves the disk exactly as it was. -/
theorem last_writer (h : Succession before runs after) :
    (∀ run ∈ runs, ∀ path ∈ run.1.paths, ∃ loc octets, after.locate path = .ok loc ∧
      LastWritten runs after loc octets ∧ before.Received after loc octets) ∧
    ∀ p receipt, runs.getLast? = some (p, receipt) →
      (p.produce after).result = .ok receipt ∧ (p.produce after).disk = after := by
  refine ⟨?_, fun p receipt hlast => h.produce_last hlast⟩
  intro run hmem path hpath
  obtain ⟨loc, hlocate⟩ := h.exists_locate hmem hpath
  obtain ⟨octets, hlast, hreceived⟩ := h.received ⟨run, hmem, path, hpath, hlocate⟩
  exact ⟨loc, octets, hlocate, hlast, hreceived⟩

/-- Two values and then one, into a file that was longer than both, in a directory that is spelled
in two ways: only the one is left, and writing it again changes nothing. -/
theorem last_writer_spelled :
    let first : Plan :=
      { sizes := .signTest 2, width := ⟨1, by decide, by decide⟩, signed := true, seed := 42,
        destination := { directory := "out", first := "a", second := none } }
    let second : Plan :=
      { first with
        sizes := .signTest 1
        destination := { directory := "out/.", first := "a", second := none } }
    let disk (octets : List UInt8) : Disk :=
      { entries := [(["out"], .directory), (["out", "a"], .file octets)] }
    let before := disk (List.replicate 9 0x0a)
    ∃ receipt receipt' octets,
      let runs := [(first, receipt), (second, receipt')]
      Succession before runs (disk octets) ∧ second.contents = .ok [octets] ∧
      (∃ loc octets', (disk octets).locate "out/a" = .ok loc ∧
        LastWritten runs (disk octets) loc octets' ∧
        before.Received (disk octets) loc octets') ∧
      (second.produce (disk octets)).result = .ok receipt' ∧
      (second.produce (disk octets)).disk = disk octets := by
  intro first second disk before
  have hmake : ∀ octets, (disk octets).makeDirectories "out" = (.ok (), disk octets) := by
    intro octets
    rw [Disk.makeDirectories]
    rfl
  have hmake' : ∀ octets, (disk octets).makeDirectories "out/." = (.ok (), disk octets) := by
    intro octets
    rw [Disk.makeDirectories]
    rfl
  have htakes : ((disk []).medium ["out", "a"]).TakesAll := ⟨rfl, by decide, rfl⟩
  have hjobs : first.jobs = [(⟨0, [⟨2, 1⟩]⟩, "out/a")] := by decide
  have hjobs' : second.jobs = [(⟨0, [⟨1, 1⟩]⟩, "out/./a")] := by decide
  -- both paths lead to the one file, whatever it holds
  have hopen : ∀ octets, (disk octets).openFile "out/a" = .ok (["out", "a"], disk []) :=
    fun _ => rfl
  have hopen' : ∀ octets, (disk octets).openFile "out/./a" = .ok (["out", "a"], disk []) :=
    fun _ => rfl
  let middle := encodeRows (Sheet.rowsFrom ⟨0, [⟨2, 1⟩]⟩ first.stream)
  let last := encodeRows (Sheet.rowsFrom ⟨0, [⟨1, 1⟩]⟩ second.stream)
  obtain ⟨hrun, hdisk⟩ : _ ∧ (first.produce before).disk = disk middle :=
    Plan.produce_single hjobs (hmake _) (hopen _) htakes
  obtain ⟨hrun', hdisk'⟩ : _ ∧ (second.produce (disk middle)).disk = disk last :=
    Plan.produce_single hjobs' (hmake' _) (hopen' _) htakes
  have hplan : Request.plan
      { sizes := .signTest 2, bits := 1, destination := first.destination } = .ok first := by
    decide
  have hplan' : Request.plan
      { sizes := .signTest 1, bits := 1, destination := second.destination } = .ok second := by
    decide
  rw [← hdisk] at hrun' hdisk'
  have hsuccession := Succession.cons hplan hrun (.cons hplan' hrun' .nil)
  rw [hdisk'] at hsuccession
  obtain ⟨hfiles, hlast⟩ := last_writer hsuccession
  obtain ⟨hagain, hsame⟩ := hlast _ _ rfl
  exact ⟨_, _, _, hsuccession, second.contents_eq, hfiles _ List.mem_cons_self "out/a" (by decide),
    hagain, hsame⟩

end Succession

end PartyInputs
