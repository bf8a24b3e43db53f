import PartyInputs.Proofs.Disk.Standing
import PartyInputs.Proofs.Request.WellFormed
import PartyInputs.Proofs.Run.Stopping

/-!
# What a run notes

Nothing is noted before it has happened. A run notes that its stream is ready when its directories
are there, and that a file was written when it is complete; behind the last file it notes that it is
over. So the log of a run that stops ends with the last file in front of the one that it stopped at.

* `Plan.Announces`: the files that a log speaks of are there, as it says.
* `Plan.BreaksOffAt`: the file that a run stops at is not complete, and those behind it were not
  begun.
* `Plan.announces_of_filledFiles`, `Plan.Announces.of_stopsAt`: what was announced is so when the
  file was written, and is still so when the run is over.
* `Plan.breaksOffAt_of_stopsAt`: what was not announced was not done.
* `Plan.log_produce`: **the log of a run**.
-/

namespace PartyInputs

open List (Forall₂)

open Text (Decimal.ofInt64 Decimal.ofNat)

/-- What a log shows of an event: its level, its message, and its fields. -/
def Event.shown (e : Event) : Level × String × List (String × String) :=
  (e.level, e.message, e.fields)

/-! ## Files that are announced -/

/-- What is said of files when they were written: they are those of the first parties, in order,
each with its path and with the counts of the octets that the plan gives for it, and all of them are
complete. -/
structure Plan.Announces (p : Plan) (contents : List (List UInt8)) (before : Disk)
    (files : List WrittenFile) (locs : List Location) (after : Disk) : Prop where
  parties : files.map (·.party) = List.range files.length
  paths : files.map (·.path) = p.paths.take files.length
  counts : Forall₂ WrittenFile.Counts files (contents.take files.length)
  complete : p.Completes contents files.length before locs after

theorem Sheet.length_writtenFiles (jobs : List (Sheet × String)) (stream : ValueStream) :
    (writtenFiles jobs stream).length = jobs.length := by
  obtain ⟨-, hpaths, -⟩ := writtenFiles_spec jobs stream
  rw [← List.length_map (·.path), hpaths, List.length_map]

section

variable {r : Request} {p : Plan} (hplan : r.plan = .ok p)
  {disk ready reached : Disk} {done rest : List (Sheet × String)} {locs : List Location}

include hplan

theorem Plan.length_jobs : p.jobs.length = p.workload.partyCount := by
  rw [← List.length_map Prod.fst, Plan.map_fst_jobs hplan]
  exact p.sizes.length_sheets

/-- The files that a run filled are there as it says. -/
theorem Plan.announces_of_filledFiles (hjobs : p.jobs = done ++ rest)
    (hadds : disk.AddsDirectories ready) (hfilled : FilledFiles done p.stream ready locs reached) :
    p.Announces (p.rows.map encodeRows) disk (Sheet.writtenFiles done p.stream) locs reached := by
  have hlength := Sheet.length_writtenFiles done p.stream
  obtain ⟨hparties, hpaths, hcounts⟩ := Sheet.writtenFiles_spec done p.stream
  have hsheets : done.map Prod.fst = p.sheets.take done.length := by
    rw [← Plan.map_fst_jobs hplan, hjobs, List.map_append, List.take_left' (List.length_map ..)]
  have hle : done.length ≤ p.sizes.workload.partyCount := by
    have hall := Plan.length_jobs hplan
    rw [hjobs, List.length_append] at hall
    exact Nat.le.intro hall
  constructor
  · rw [hparties, hsheets, List.map_take, Plan.sheets, Sizes.map_party_sheets, List.take_range,
      Nat.min_eq_left hle, hlength]
  · rw [hpaths, hlength, Plan.take_paths_of_jobs hplan hjobs]
  · rw [hlength, ← List.map_take, Plan.take_rows_of_jobs hplan hjobs]
    exact hcounts
  · rw [hlength]
    exact Plan.completes_of_filledFiles hplan hjobs hadds hfilled

end

/-! ## The file that a run stops at -/

/-- No file with these octets is at the path: what stands there is a directory, or else something
that has no room for the octets and does not hold them. -/
def Disk.Lacks (d : Disk) (path : String) (octets : List UInt8) : Prop :=
  ∀ loc, d.locate path = .ok loc → d.entry? loc = some .directory ∨
    (¬ (d.medium loc).HasRoom octets.length ∧ d.entry? loc ≠ some (.file octets))

/-- The file of party `k` is not complete, and those behind it were not touched. -/
structure Plan.BreaksOffAt (p : Plan) (contents : List (List UInt8)) (k : Nat) (path : String)
    (before after : Disk) : Prop where
  path_eq : p.paths[k]? = some path
  lacks : ∃ octets, contents[k]? = some octets ∧ after.Lacks path octets
  spares : ∀ later ∈ p.paths.drop (k + 1), before.Spares later after

/-- **A file that a run stops at** is not there: one that cannot be opened is a directory if it is
anything, and one that has no room for its sheet lacks what there was no room for. -/
theorem StopsAt.lacks {sheet : Sheet} {path name : String} {stream : ValueStream}
    {reached after : Disk} {failure : Failure} (h : StopsAt sheet path stream reached failure after)
    (hlast : (Route.ofPath path).names.getLast? = some name) (hplain : FileName.IsPlain name) :
    after.Lacks path (encodeRows (sheet.rowsFrom stream)) := by
  intro loc hlocate
  cases h with
  | openFile hopen =>
    -- but for a directory, what the path leads to could have been opened
    by_contra hno
    rw [not_or] at hno
    obtain ⟨parent, -, hopens⟩ :=
      Disk.opens_of_locate hlocate hlast hplain.ne_dot hplain.ne_dots hno.1
    rw [Disk.openFile_of_opens hopens] at hopen
    cases hopen
  | @writeFile parent last _ hopens hroom hwrites =>
    rw [hopens.locate (hwrites.keeps hopens.no_directory) hwrites.isSome] at hlocate
    cases hlocate
    refine .inr ⟨by rwa [hwrites.medium_eq], ?_⟩
    rcases hwrites.here with ⟨device, hdev, hsame⟩ | ⟨-, hfile⟩
    · rw [hsame, hdev]
      simp
    · rw [hfile]
      intro heq
      exact Medium.kept_ne_of_not_hasRoom hroom (Entry.file.inj (Option.some.inj heq))

/-- The failure of a run that stops at a file names its path. -/
theorem StopsAt.exists_eq_stopped {sheet : Sheet} {path : String} {stream : ValueStream}
    {reached after : Disk} {failure : Failure}
    (h : StopsAt sheet path stream reached failure after) :
    ∃ step fault, failure = .stopped step path fault := by
  cases h with
  | openFile hopen => exact ⟨_, _, rfl⟩
  | writeFile hopens hroom hwrites => exact ⟨_, _, rfl⟩

section

variable {r : Request} {p : Plan} (hplan : r.plan = .ok p) {disk reached after : Disk}
  {done rest : List (Sheet × String)} {locs : List Location} {sheet : Sheet} {path : String}
  (hjobs : p.jobs = done ++ (sheet, path) :: rest) {failure : Failure}

include hplan hjobs

theorem Plan.getElem?_paths_of_jobs : p.paths[done.length]? = some path := by
  rw [← List.head?_drop, Plan.paths_of_jobs hplan hjobs, List.drop_left' (List.length_map ..)]
  rfl

theorem Plan.getElem?_rows_of_jobs : p.rows[done.length]? = some
    (sheet.rowsFrom (p.stream.advance ((done.map Prod.fst).map Sheet.valueCount).sum)) := by
  rw [← List.head?_drop, Plan.drop_rows_of_jobs hplan hjobs]
  rfl

/-- A file that a run stops at is not one of those that were touched. -/
theorem Touches.notMem_of_opens {parent : Location} {name : String}
    (htouches : Touches done disk locs reached) (hopens : reached.Opens path parent name) :
    parent ++ [name] ∉ locs := by
  have hpath : path ∈ ((sheet, path) :: rest).map Prod.snd := by simp
  intro hmem
  apply htouches.lastName_notMem hplan hjobs hpath
  rw [hopens.last, ← List.getLast?_concat]
  exact List.mem_map_of_mem hmem

variable (htouches : Touches done disk locs reached)
  (hstop : StopsAt sheet path
    (p.stream.advance ((done.map Prod.fst).map Sheet.valueCount).sum) reached failure after)

include htouches hstop

/-- What is said of files stays true when the run stops at another one. -/
theorem Plan.Announces.of_stopsAt {contents : List (List UInt8)} {files : List WrittenFile}
    (h : p.Announces contents disk files locs reached) :
    p.Announces contents disk files locs after := by
  refine ⟨h.parties, h.paths, h.counts, ?_⟩
  cases hstop with
  | openFile hopen => exact h.complete
  | writeFile hopens hroom hwrites =>
    exact h.complete.of_writes hwrites hopens.no_directory
      (htouches.notMem_of_opens hplan hjobs hopens)

/-- What was not announced was not done: **the file that a run stops at** is not complete, and those
behind it are not touched. -/
theorem Plan.breaksOffAt_of_stopsAt :
    p.BreaksOffAt (p.rows.map encodeRows) done.length path disk after := by
  have hpath := Plan.getElem?_paths_of_jobs hplan hjobs
  constructor
  · exact hpath
  · obtain ⟨name, hlast, hplain⟩ := Plan.exists_lastName hplan (List.mem_of_getElem? hpath)
    refine ⟨_, ?_, hstop.lacks hlast hplain⟩
    rw [List.getElem?_map, Plan.getElem?_rows_of_jobs hplan hjobs]
    rfl
  · intro later hlater
    cases hstop with
    | openFile hopen =>
      apply htouches.spares hplan hjobs
      rw [← List.drop_drop] at hlater
      exact List.mem_of_mem_drop hlater
    | writeFile hopens hroom hwrites =>
      have hjobs' : p.jobs = (done ++ [(sheet, path)]) ++ rest := by
        rw [hjobs, List.append_assoc, List.singleton_append]
      apply (htouches.of_writes hopens hwrites).spares hplan hjobs'
      rw [List.length_append, List.length_singleton]
      exact hlater

end

/-! ## The log -/

/-- When the directories are there, the run goes as its files do. Behind what they have noted it
notes that it is over, if they are all filled. -/
theorem Plan.produce_of_ready {p : Plan} {disk ready : Disk}
    (h : disk.makeDirectories p.destination.directory = (.ok (), ready)) :
    let filled := Sheet.fillFiles p.jobs p.stream ready
    p.produce disk =
      ⟨filled.result.map Receipt.mk, filled.disk, p.seeded :: filled.log ++
        (filled.result.toOption.map fun files => p.finished ⟨files⟩).toList⟩ := by
  unfold produce jobs
  simp only [h]
  rcases Sheet.fillFiles (p.sheets.zip p.paths) p.stream ready with ⟨failure | files, disk', log⟩
  · exact congrArg (RunOutcome.mk _ _) (List.append_nil _).symm
  · rfl

/-- **The log of a run.** If the directories cannot be made, nothing is noted. Otherwise it is noted
that the stream is ready, and of each file that was written that it was, with its party, its path and
its counts; at the end that the run is over, with the number of the files and of the values in them,
iff it succeeds. Every file that was
announced is complete and as it was announced. A run that fails stops at the next file, which is not
complete, and the ones behind it are not touched. -/
theorem Plan.log_produce {r : Request} {p : Plan} (hplan : r.plan = .ok p) (disk : Disk) :
    let outcome := p.produce disk
    match disk.makeDirectories p.destination.directory with
    | (.error fault, _) =>
      outcome.log = [] ∧
        outcome.result = .error (.stopped .makeDirectory p.destination.directory fault)
    | (.ok (), _) =>
      ∃ contents files locs, p.contents = .ok contents ∧
        p.Announces contents disk files locs outcome.disk ∧
        outcome.log.map Event.shown =
          (.debug, "seeded sampler",
              [("scenario", p.workload.name), ("seed", Decimal.ofInt64 p.seed),
                ("bits", Decimal.ofNat p.width.bits), ("range", p.interval.text)]) ::
            files.map (fun file => (.debug, "wrote party file",
              [("party", Decimal.ofNat file.party), ("path", file.path),
                ("rows", Decimal.ofNat file.tally.rows),
                ("values", Decimal.ofNat file.tally.values),
                ("bytes", Decimal.ofNat file.tally.octets)])) ++
            (if outcome.result.isOk then
              [(.info, "fixture generation complete",
                [("scenario", p.workload.name), ("parties", Decimal.ofNat files.length),
                  ("values", Decimal.ofNat (files.map (·.tally.values)).sum)])]
            else []) ∧
        match outcome.result with
        | .ok receipt =>
          outcome.log = p.seeded :: files.map .wrote ++
            [.finished p.workload receipt.files.length receipt.totalValues] ∧
          receipt.files = files ∧ files.length = p.workload.partyCount ∧
          receipt.totalValues = (files.map (·.tally.values)).sum
        | .error failure =>
          outcome.log = p.seeded :: files.map .wrote ∧
          ∃ step path fault, failure = .stopped step path fault ∧
            p.BreaksOffAt contents files.length path disk outcome.disk := by
  intro outcome
  have hadds := disk.makeDirectories_adds p.destination.directory
  rcases hmake : disk.makeDirectories p.destination.directory with ⟨fault | _, ready⟩
  · have heq : outcome =
        ⟨.error (.stopped .makeDirectory p.destination.directory fault), ready, []⟩ := by
      show p.produce disk = _
      rw [produce, hmake]
    rw [heq]
    exact ⟨rfl, rfl⟩
  · rw [hmake] at hadds
    obtain ⟨done, locs, reached, hfilled, hlog, hend⟩ :=
      Sheet.fillFiles_course p.jobs p.stream ready
    have hlength := Sheet.length_writtenFiles done p.stream
    have heq : outcome = _ := Plan.produce_of_ready hmake
    refine ⟨p.rows.map encodeRows, Sheet.writtenFiles done p.stream, locs, p.contents_eq, ?_⟩
    rcases hend with ⟨hjobs, hresult, hdisk⟩ | ⟨sheet, path, rest, failure, hjobs, hresult, hstop⟩
    · -- all files were filled
      rw [hresult, hlog, hdisk] at heq
      have hjobs' : p.jobs = done ++ [] := by rw [hjobs, List.append_nil]
      have hall : done.length = p.workload.partyCount := hjobs ▸ Plan.length_jobs hplan
      have htotal := Receipt.totalValues_eq_sum ⟨Sheet.writtenFiles done p.stream⟩
      rw [heq]
      refine ⟨Plan.announces_of_filledFiles hplan hjobs' hadds hfilled, ?_, rfl, rfl,
        hlength.trans hall, htotal⟩
      rw [List.map_append, List.map_cons, List.map_map, ← htotal]
      rfl
    · -- one of them was not
      rw [hresult, hlog] at heq
      have htouches : Touches done disk locs reached := .of_filledFiles hadds hfilled
      have hannounces := Plan.announces_of_filledFiles hplan hjobs hadds hfilled
      have hbreaks := Plan.breaksOffAt_of_stopsAt hplan hjobs htouches hstop
      obtain ⟨step, fault, hfailure⟩ := hstop.exists_eq_stopped
      rw [← hlength] at hbreaks
      rw [heq]
      refine ⟨hannounces.of_stopsAt hplan hjobs htouches hstop, ?_, List.append_nil _, step, path,
        fault, hfailure, hbreaks⟩
      rw [List.map_append, List.map_cons, List.map_map]
      rfl

/-- A directory is in the way of party 1, so the file of party 0 is the last one that is noted. -/
theorem Plan.log_produce_blocked :
    let r : Request :=
      { sizes := .linearLayer 1, bits := 1
        destination := { directory := "", first := "a", second := some "b" } }
    let p : Plan :=
      { sizes := .linearLayer 1, width := ⟨1, by decide, by decide⟩, signed := false, seed := 42
        destination := { directory := "", first := "a", second := some "b" } }
    let disk : Disk := { entries := [(["b"], .directory)] }
    r.plan = .ok p ∧ ∃ file, (p.produce disk).log = [p.seeded, .wrote file] ∧
      file.party = 0 ∧ file.path = "a" ∧
      ∃ octets, file.Counts octets ∧ ∃ loc, (p.produce disk).disk.locate "a" = .ok loc ∧
        (p.produce disk).disk.Holds loc octets := by
  intro r p disk
  have hplan : r.plan = .ok p := by decide
  have hjobs : p.jobs = [(⟨0, [⟨1, 1⟩]⟩, "a"), (⟨1, [⟨1, 1⟩, ⟨1, 1⟩]⟩, "b")] := by decide
  have hpaths : p.paths = ["a", "b"] := by decide
  have hmake : disk.makeDirectories p.destination.directory = (.ok (), disk) := by
    rw [Disk.makeDirectories]
    rfl
  have hopen : disk.openFile "a" = .ok (["a"], disk.set ["a"] (.file [])) := by decide
  have htakes : ((disk.set ["a"] (.file [])).medium ["a"]).TakesAll := ⟨rfl, by decide, rfl⟩
  have hblocked : ∀ octets, ((disk.set ["a"] (.file [])).keep ["a"] octets).openFile "b" =
      .error .isDirectory := fun _ => rfl
  have hrun : (p.produce disk).result = .error (.stopped .openFile "b" .isDirectory) := by
    refine Plan.produce_eq_error_iff.2 (.inr ⟨disk, hmake, ?_⟩)
    rw [hjobs, Sheet.fillFiles_cons_of_takesAll hopen htakes, Sheet.fillFiles_cons, hblocked]
    rfl
  have hspec := Plan.log_produce hplan disk
  rw [hmake] at hspec
  obtain ⟨contents, files, locs, -, ⟨hparties, hnames, hcounts, hlocated, -, hholds⟩, -, hspec⟩ :=
    hspec
  rw [hrun] at hspec
  obtain ⟨hlog, step, path, fault, hfailure, hbreaks⟩ := hspec
  cases hfailure
  have hpath := hbreaks.path_eq
  rw [hpaths] at hpath hnames hlocated
  -- the path is that of party 1, so one file was announced
  rcases files with _ | ⟨file, _ | ⟨second, files⟩⟩
  · simp at hpath
  · rcases contents with _ | ⟨octets, contents⟩
    · cases hcounts
    · rcases hcounts with _ | ⟨hfile, -⟩
      rcases hlocated with _ | ⟨hloc, -⟩
      rcases hholds with _ | ⟨hholds, -⟩
      refine ⟨hplan, file, hlog, List.head_eq_of_cons_eq hparties, List.head_eq_of_cons_eq hnames,
        octets, hfile, _, hloc, ?_⟩
      rcases hholds with hfile | ⟨device, -, hdevice⟩
      · exact .inl hfile
      · exact .inr ⟨device, hdevice⟩
  · simp at hpath

end PartyInputs
