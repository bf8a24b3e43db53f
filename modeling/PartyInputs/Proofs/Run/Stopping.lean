import PartyInputs.Proofs.Run.Agreement
import PartyInputs.Proofs.Workload.Limits

/-!
# What a run that stops leaves on the disk

A run stops at the directories, or at a file that cannot be opened, or at one that has no room for
its sheet. Up to that file it went as a run that succeeds does, so what `FilledFiles` says holds of
the files in front of it; the file itself is opened or not; the files behind it are not reached.

* `StopsAt`: **how a run stops at a file**, and what becomes of the disk then.
* `Sheet.fillFiles_cons_cases`, `Sheet.fillFiles_course`: **one file, and all of them**: what is
  filled, what is noted of it, and how the run ends.
* `Sheet.fillFiles_eq_error`: a run that fails fills files and then stops at one.
* `Disk.SameAt`, `Disk.Spares`: locations and paths that are not touched. Directories may be new
  there: making the output directory can put one where the path of a file leads.
* `Plan.Completes`, `Touches`: the files in front of the one that a run stops at, and what was
  touched on the way to it.
* `Plan.produce_stopped`: **what is complete, what is cut short and what is untouched** after a run
  that failed.
* `Plan.produce_stopped_new_directory`: the path of a file that could not be opened may lead to a
  new directory.
-/

namespace PartyInputs

open List (Forall₂)

/-! ## The step that fails -/

/-- A run that has `sheet` to write to `path` on the disk `d` stops there: with which failure, and
which disk it leaves. A file that cannot be opened leaves the disk alone; one that has no room for
the sheet holds the part that there was room for. -/
inductive StopsAt (sheet : Sheet) (path : String) (stream : ValueStream) (d : Disk) :
    Failure → Disk → Prop where
  | openFile {fault : Fault} :
      d.openFile path = .error fault →
      StopsAt sheet path stream d (.stopped .openFile path fault) d
  | writeFile {parent : Location} {name : String} {d' : Disk} :
      d.Opens path parent name →
      ¬ (d.medium (parent ++ [name])).HasRoom (encodeRows (sheet.rowsFrom stream)).length →
      d.Writes (parent ++ [name])
        ((d.medium (parent ++ [name])).kept (encodeRows (sheet.rowsFrom stream))) d' →
      StopsAt sheet path stream d
        (.stopped .writeFile path (d.medium (parent ++ [name])).fullFault) d'

namespace Sheet

/-- **One file** of a run: the run stops at it and notes nothing, or it writes the file as a whole,
notes that and goes on with the others. -/
theorem fillFiles_cons_cases (sheet : Sheet) (path : String) (jobs : List (Sheet × String))
    (stream : ValueStream) (d : Disk) :
    (∃ failure d', fillFiles ((sheet, path) :: jobs) stream d = ⟨.error failure, d', []⟩ ∧
        StopsAt sheet path stream d failure d') ∨
      ∃ parent name d₁, d.Opens path parent name ∧
        d.Writes (parent ++ [name]) (encodeRows (sheet.rowsFrom stream)) d₁ ∧
        let rest := fillFiles jobs (stream.advance sheet.valueCount) d₁
        fillFiles ((sheet, path) :: jobs) stream d =
          ⟨rest.result.map (sheet.writtenFile path stream :: ·), rest.disk,
            .wrote (sheet.writtenFile path stream) :: rest.log⟩ := by
  rw [fillFiles_cons]
  rcases hopen : d.openFile path with fault | ⟨loc, d₀⟩
  · exact .inl ⟨_, d, rfl, .openFile hopen⟩
  · obtain ⟨parent, name, rfl, hopens, hwrites⟩ := Disk.openFile_eq_ok hopen
    have hloc : parent ++ [name] ≠ [] := by simp
    have hkeep := hwrites.keep_nil hloc
    obtain ⟨hchunk, hflush⟩ := d₀.medium_spec (parent ++ [name])
    obtain ⟨hoctets, hcases⟩ := sheet.fill_offered_cases hchunk hflush stream
    rw [hwrites.medium_eq] at hoctets hcases
    simp only [hwrites.medium_eq]
    rcases hcases with ⟨hroom, tally, hok⟩ | ⟨hroom, hfull⟩
    · -- with room for the sheet it is filled, and then its outcome is known
      rcases sheet.fill_cases { medium := d.medium (parent ++ [name]) } stream with
        ⟨-, fault, hfail⟩ | ⟨sink, hfill, -⟩
      · rw [hok] at hfail
        cases hfail
      · rw [hfill, Medium.kept_of_hasRoom hroom] at hoctets
        rw [hfill]
        refine .inr ⟨parent, name, _, hopens, hkeep _, ?_⟩
        rw [← hoctets]
        rfl
    · rcases hfill : sheet.fill { medium := d.medium (parent ++ [name]) } stream with
        ⟨result, sink, stream'⟩
      rw [hfill] at hfull hoctets
      cases hfull
      refine .inl ⟨_, _, rfl, .writeFile hopens hroom ?_⟩
      rw [← hoctets]
      exact hkeep _

/-- **The course of a run**: files are filled one after the other, which is all that is noted, and
the run ends behind the last one or stops at the next one. -/
theorem fillFiles_course (jobs : List (Sheet × String)) : ∀ (stream : ValueStream) (d : Disk),
    ∃ done locs reached, FilledFiles done stream d locs reached ∧
      (fillFiles jobs stream d).log = (writtenFiles done stream).map .wrote ∧
      ((jobs = done ∧ (fillFiles jobs stream d).result = .ok (writtenFiles done stream) ∧
          (fillFiles jobs stream d).disk = reached) ∨
        ∃ sheet path rest failure, jobs = done ++ (sheet, path) :: rest ∧
          (fillFiles jobs stream d).result = .error failure ∧
          StopsAt sheet path (stream.advance ((done.map Prod.fst).map valueCount).sum) reached
            failure (fillFiles jobs stream d).disk) := by
  induction jobs with
  | nil =>
    intro stream d
    exact ⟨[], [], d, .nil, rfl, .inl ⟨rfl, rfl, rfl⟩⟩
  | cons job jobs ih =>
    intro stream d
    obtain ⟨sheet, path⟩ := job
    rcases fillFiles_cons_cases sheet path jobs stream d with
      ⟨failure, d', heq, hstop⟩ | ⟨parent, name, d₁, hopens, hwrites, heq⟩
    · refine ⟨[], [], d, .nil, by rw [heq]; rfl, .inr ⟨sheet, path, jobs, failure, rfl, ?_⟩⟩
      rw [heq, List.map_nil, List.map_nil, List.sum_nil, ValueStream.advance_zero]
      exact ⟨rfl, hstop⟩
    · obtain ⟨done, locs, reached, hfilled, hlog, hend⟩ :=
        ih (stream.advance sheet.valueCount) d₁
      rw [heq]
      refine ⟨(sheet, path) :: done, _, reached, .cons hopens hwrites hfilled, ?_, ?_⟩
      · simp only [hlog]
        rfl
      · rcases hend with ⟨rfl, hresult, hdisk⟩ | ⟨sheet', path', rest, failure, rfl, hresult, hstop⟩
        · refine .inl ⟨rfl, ?_, hdisk⟩
          simp only [hresult]
          rfl
        · refine .inr ⟨sheet', path', rest, failure, rfl, ?_, ?_⟩
          · simp only [hresult]
            rfl
          · rw [ValueStream.advance_advance] at hstop
            exact hstop

/-- **A run that fails** fills files one after the other and then stops at one. -/
theorem fillFiles_eq_error (jobs : List (Sheet × String)) {stream : ValueStream} {d : Disk}
    {failure : Failure} (h : (fillFiles jobs stream d).result = .error failure) :
    ∃ done sheet path rest locs reached, jobs = done ++ (sheet, path) :: rest ∧
      FilledFiles done stream d locs reached ∧
      StopsAt sheet path (stream.advance ((done.map Prod.fst).map valueCount).sum) reached failure
        (fillFiles jobs stream d).disk := by
  obtain ⟨done, locs, reached, hfilled, -, ⟨-, hok, -⟩ |
    ⟨sheet, path, rest, failure', hjobs, herror, hstop⟩⟩ := fillFiles_course jobs stream d
  · rw [hok] at h
    cases h
  · rw [herror] at h
    cases h
    exact ⟨done, sheet, path, rest, locs, reached, hjobs, hfilled, hstop⟩

end Sheet

/-! ## What is not touched -/

namespace Disk

/-- What stands at a location is what stood there; or nothing stood there, and now there is a
directory. -/
def SameAt (d d' : Disk) (loc : Location) : Prop :=
  d'.entry? loc = d.entry? loc ∨ (d.entry? loc = none ∧ d'.entry? loc = some .directory)

/-- A path that led somewhere leads there, and where it leads is what was there, unless a directory
is new there. -/
structure Spares (d : Disk) (path : String) (d' : Disk) : Prop where
  locate : ∀ loc, d.locate path = .ok loc → d'.locate path = .ok loc
  same : ∀ loc, d'.locate path = .ok loc → d.SameAt d' loc

/-- A path is not touched if its last name is not the one of a location that was. -/
theorem Spares.of_lastName {d d' : Disk} {locs : List Location} {path name : String}
    (hkeeps : d.Keeps d') (hsame : ∀ loc, loc ∉ locs → d.SameAt d' loc)
    (hlast : (Route.ofPath path).names.getLast? = some name) (hplain : FileName.IsPlain name)
    (hlocs : some name ∉ locs.map List.getLast?) : d.Spares path d' := by
  refine ⟨fun loc => locate_of_keeps hkeeps, ?_⟩
  intro loc hlocate
  apply hsame
  intro hmem
  have hloc := getLast?_of_locate hlast hplain.ne_dot hplain.ne_dots hlocate
  apply hlocs
  rw [← hloc]
  exact List.mem_map_of_mem hmem

end Disk

/-! ## Files in front -/

/-- The files of a plan up to party `k` are complete: the paths lead to different locations, and at
each is a file with the octets that the plan gives for it, unless a device was and is there. -/
structure Plan.Completes (p : Plan) (contents : List (List UInt8)) (k : Nat) (before : Disk)
    (locs : List Location) (after : Disk) : Prop where
  located : Forall₂ (fun path loc => after.locate path = .ok loc) (p.paths.take k) locs
  nodup : locs.Nodup
  holds : Forall₂
    (fun loc octets => after.entry? loc = some (.file octets) ∨
      ∃ device, before.entry? loc = some (.device device) ∧
        after.entry? loc = some (.device device))
    locs (contents.take k)

section

variable {r : Request} {p : Plan} (hplan : r.plan = .ok p)

include hplan

/-- The paths of a plan end in plain names. -/
theorem Plan.exists_lastName {path : String} (h : path ∈ p.paths) :
    ∃ name, (Route.ofPath path).names.getLast? = some name ∧ FileName.IsPlain name := by
  obtain ⟨-, -, hdestination, -, -⟩ := Request.plan_eq_ok_iff.1 hplan
  obtain ⟨-, -, hplain, -⟩ := Destination.of_accept hdestination
  rw [Plan.paths, Destination.paths_eq] at h
  obtain ⟨name, hname, rfl⟩ := List.mem_map.1 h
  refine ⟨name, ?_, hplain name hname⟩
  rw [Route.names_pathOf _ (hplain name hname), List.getLast?_concat]

variable {done more : List (Sheet × String)} (hjobs : p.jobs = done ++ more)

include hjobs

theorem Plan.paths_of_jobs : p.paths = done.map Prod.snd ++ more.map Prod.snd := by
  rw [← Plan.map_snd_jobs hplan, hjobs, List.map_append]

theorem Plan.rows_of_jobs : p.rows = Sheet.allRowsFrom (done.map Prod.fst) p.stream ++
    Sheet.allRowsFrom (more.map Prod.fst)
      (p.stream.advance ((done.map Prod.fst).map Sheet.valueCount).sum) := by
  rw [Plan.rows, ← Plan.map_fst_jobs hplan, hjobs, List.map_append, Sheet.allRowsFrom_append]

theorem Plan.take_paths_of_jobs : p.paths.take done.length = done.map Prod.snd := by
  rw [Plan.paths_of_jobs hplan hjobs, List.take_left' (List.length_map ..)]

/-- The rows of the sheets of `done`. -/
theorem Plan.take_rows_of_jobs :
    p.rows.take done.length = Sheet.allRowsFrom (done.map Prod.fst) p.stream := by
  have hlength : (Sheet.allRowsFrom (done.map Prod.fst) p.stream).length = done.length := by
    rw [Sheet.length_allRowsFrom, List.length_map]
  rw [Plan.rows_of_jobs hplan hjobs, List.take_left' hlength]

/-- The rows behind those of the sheets of `done`. -/
theorem Plan.drop_rows_of_jobs : p.rows.drop done.length =
    Sheet.allRowsFrom (more.map Prod.fst)
      (p.stream.advance ((done.map Prod.fst).map Sheet.valueCount).sum) := by
  have hlength : (Sheet.allRowsFrom (done.map Prod.fst) p.stream).length = done.length := by
    rw [Sheet.length_allRowsFrom, List.length_map]
  rw [Plan.rows_of_jobs hplan hjobs, List.drop_left' hlength]

/-- The paths that a run has not come to end in other names than the ones that it has. -/
theorem Plan.lastName_notMem {path : String} (hpath : path ∈ more.map Prod.snd) :
    (Route.ofPath path).names.getLast? ∉
      done.map fun job => (Route.ofPath job.2).names.getLast? := by
  have hnames := Plan.nodup_lastNames hplan
  rw [hjobs, List.map_append] at hnames
  obtain ⟨job, hjob, rfl⟩ := List.mem_map.1 hpath
  intro hmem
  exact List.disjoint_of_nodup_append hnames hmem (List.mem_map_of_mem hjob)

/-- The files that a run filled are complete when it is over, whatever the directories were. -/
theorem Plan.completes_of_filledFiles {disk ready reached : Disk} {locs : List Location}
    (hadds : disk.AddsDirectories ready) (hfilled : FilledFiles done p.stream ready locs reached) :
    p.Completes (p.rows.map encodeRows) done.length disk locs reached := by
  have hnames := Plan.nodup_lastNames hplan
  rw [hjobs, List.map_append] at hnames
  have hnodup : locs.Nodup := hfilled.nodup hnames.of_append_left
  refine ⟨?_, hnodup, ?_⟩
  · rw [Plan.take_paths_of_jobs hplan hjobs]
    exact hfilled.locate
  · rw [← List.map_take, Plan.take_rows_of_jobs hplan hjobs]
    refine (hfilled.contents hnodup).imp ?_
    rintro loc octets (hfile | ⟨device, hdev, hdev'⟩)
    · exact .inl hfile
    · -- a device that was there when the directories were ready was there from the start
      exact .inr ⟨device, hadds.entry?_of_ne_directory hdev (by simp), hdev'⟩

end

/-- Complete files stay complete when another one is written. -/
theorem Plan.Completes.of_writes {p : Plan} {contents : List (List UInt8)} {k : Nat}
    {before reached after : Disk} {locs : List Location} {loc : Location} {octets : List UInt8}
    (h : p.Completes contents k before locs reached) (hwrites : reached.Writes loc octets after)
    (hno : reached.entry? loc ≠ some .directory) (hloc : loc ∉ locs) :
    p.Completes contents k before locs after := by
  refine ⟨?_, h.nodup, ?_⟩
  · exact h.located.imp fun path l => Disk.locate_of_keeps (hwrites.keeps hno)
  · have hholds := h.holds
    rw [List.forall₂_iff_zip] at hholds ⊢
    refine ⟨hholds.1, ?_⟩
    intro l octets' hmem
    have hne : l ≠ loc := fun heq => hloc (heq ▸ (List.of_mem_zip hmem).1)
    rw [hwrites.elsewhere l hne]
    exact hholds.2 hmem

/-! ## Files behind -/

/-- From `before` to `after` nothing was touched but the entries at `locs`, each of which has the
last name of the path of one of `jobs`. -/
structure Touches (jobs : List (Sheet × String)) (before : Disk) (locs : List Location)
    (after : Disk) : Prop where
  keeps : before.Keeps after
  same : ∀ loc, loc ∉ locs → before.SameAt after loc
  lastNames : ∀ loc ∈ locs, loc.getLast? ∈ jobs.map fun job => (Route.ofPath job.2).names.getLast?

namespace Touches

variable {done : List (Sheet × String)} {before ready reached after : Disk} {locs : List Location}

theorem of_filledFiles {stream : ValueStream} (hadds : before.AddsDirectories ready)
    (hfilled : FilledFiles done stream ready locs reached) : Touches done before locs reached := by
  refine ⟨hadds.keeps.trans hfilled.keeps, ?_, ?_⟩
  · intro loc hloc
    unfold Disk.SameAt
    rw [hfilled.entry?_of_notMem hloc]
    exact hadds.entry loc
  · intro loc hloc
    rw [← hfilled.map_getLast?]
    exact List.mem_map_of_mem hloc

/-- One more file is touched when it is written, whether as a whole or in part. -/
theorem of_writes {sheet : Sheet} {path name : String} {parent : Location} {octets : List UInt8}
    (h : Touches done before locs reached) (hopens : reached.Opens path parent name)
    (hwrites : reached.Writes (parent ++ [name]) octets after) :
    Touches (done ++ [(sheet, path)]) before ((parent ++ [name]) :: locs) after := by
  refine ⟨h.keeps.trans (hwrites.keeps hopens.no_directory), ?_, ?_⟩
  · intro loc hloc
    rw [List.mem_cons, not_or] at hloc
    unfold Disk.SameAt
    rw [hwrites.elsewhere loc hloc.1]
    exact h.same loc hloc.2
  · intro loc hmem
    rw [List.map_append, List.mem_append]
    rcases List.mem_cons.1 hmem with rfl | hmem
    · rw [List.getLast?_concat, ← hopens.last]
      exact .inr (by simp)
    · exact .inl (h.lastNames loc hmem)

variable {r : Request} {p : Plan} (hplan : r.plan = .ok p) {more : List (Sheet × String)}
  (hjobs : p.jobs = done ++ more) (h : Touches done before locs after)

include hplan hjobs h

/-- A path that a run has not come to is not that of an entry that was touched. -/
theorem lastName_notMem {path : String} (hpath : path ∈ more.map Prod.snd) :
    (Route.ofPath path).names.getLast? ∉ locs.map List.getLast? := by
  intro hmem
  obtain ⟨loc, hloc, heq⟩ := List.mem_map.1 hmem
  apply Plan.lastName_notMem hplan hjobs hpath
  rw [← heq]
  exact h.lastNames loc hloc

/-- **The files that a run has not come to are not touched.** -/
theorem spares : ∀ path ∈ p.paths.drop done.length, before.Spares path after := by
  intro path hpath
  rw [Plan.paths_of_jobs hplan hjobs, List.drop_left' (List.length_map ..)] at hpath
  have hmem : path ∈ p.paths := by
    rw [Plan.paths_of_jobs hplan hjobs]
    exact List.mem_append_right _ hpath
  obtain ⟨name, hlast, hplain⟩ := Plan.exists_lastName hplan hmem
  apply Disk.Spares.of_lastName h.keeps h.same hlast hplain
  rw [← hlast]
  exact lastName_notMem hplan hjobs h hpath

end Touches

/-! ## The course of a run that fails -/

theorem Plan.disk_produce_of_fault {p : Plan} {disk led : Disk} {fault : Fault}
    (h : disk.makeDirectories p.destination.directory = (.error fault, led)) :
    (p.produce disk).disk = led := by
  unfold Plan.produce
  rw [h]

/-- A run fails iff the directories cannot be made or then the files cannot be filled. -/
theorem Plan.produce_eq_error_iff {p : Plan} {disk : Disk} {failure : Failure} :
    (p.produce disk).result = .error failure ↔
      (∃ fault led, disk.makeDirectories p.destination.directory = (.error fault, led) ∧
        failure = .stopped .makeDirectory p.destination.directory fault) ∨
      ∃ ready, disk.makeDirectories p.destination.directory = (.ok (), ready) ∧
        (Sheet.fillFiles p.jobs p.stream ready).result = .error failure := by
  unfold Plan.produce
  rcases hmake : disk.makeDirectories p.destination.directory with ⟨fault | _, ready⟩
  · simp [eq_comm]
  · unfold Plan.jobs
    rcases hfill : Sheet.fillFiles (p.sheets.zip p.paths) p.stream ready with
      ⟨later | files, disk', log⟩
    · simp [hfill]
    · simp [hfill]

/-- **After a run that failed.** The failure names the step and the path. If the directories cannot
be made, only directories are new. If a file cannot be opened or not be written to its end, the
files in front of it are complete and those behind it are not touched; the file itself is not
touched or holds what there was room for; nothing else is touched. What is not touched is as it was,
or nothing was there and now there is a directory. -/
theorem Plan.produce_stopped {r : Request} {p : Plan} {disk : Disk} {failure : Failure}
    (hplan : r.plan = .ok p) (hrun : (p.produce disk).result = .error failure) :
    let after := (p.produce disk).disk
    ∃ contents step path fault, p.contents = .ok contents ∧ failure = .stopped step path fault ∧
      match step with
      | .makeDirectory =>
        path = p.destination.directory ∧
          disk.makeDirectories path = (.error fault, after) ∧ ∀ loc, disk.SameAt after loc
      | .openFile =>
        ∃ k locs, p.paths[k]? = some path ∧ after.openFile path = .error fault ∧
          p.Completes contents k disk locs after ∧
          (∀ loc, loc ∉ locs → disk.SameAt after loc) ∧
          ∀ later ∈ p.paths.drop k, disk.Spares later after
      | .writeFile =>
        ∃ k locs octets loc, p.paths[k]? = some path ∧ contents[k]? = some octets ∧
          after.locate path = .ok loc ∧ ¬ (after.medium loc).HasRoom octets.length ∧
          fault = (after.medium loc).fullFault ∧
          (after.entry? loc = some (.file ((after.medium loc).kept octets)) ∨
            ∃ device, disk.entry? loc = some (.device device) ∧
              after.entry? loc = some (.device device)) ∧
          p.Completes contents k disk locs after ∧
          (∀ l, l ∉ loc :: locs → disk.SameAt after l) ∧
          ∀ later ∈ p.paths.drop (k + 1), disk.Spares later after := by
  intro after
  rcases Plan.produce_eq_error_iff.1 hrun with ⟨fault, led, hmake, rfl⟩ | ⟨ready, hmake, hfill⟩
  · have hadds := disk.makeDirectories_adds p.destination.directory
    have hafter : after = led := Plan.disk_produce_of_fault hmake
    rw [hmake] at hadds
    rw [hafter]
    exact ⟨_, .makeDirectory, _, fault, p.contents_eq, rfl, rfl, hmake, hadds.entry⟩
  · have hadds := disk.makeDirectories_adds p.destination.directory
    rw [hmake] at hadds
    have hdisk := Plan.disk_produce hmake
    obtain ⟨done, sheet, path, rest, locs, reached, hjobs, hfilled, hstop⟩ :=
      Sheet.fillFiles_eq_error p.jobs hfill
    rw [← hdisk] at hstop
    have hcompletes := Plan.completes_of_filledFiles hplan hjobs hadds hfilled
    have htouches : Touches done disk locs reached := .of_filledFiles hadds hfilled
    have hpath : p.paths[done.length]? = some path := by
      rw [← List.head?_drop, Plan.paths_of_jobs hplan hjobs, List.drop_left' (List.length_map ..)]
      rfl
    have hcontents : (p.rows.map encodeRows)[done.length]? = some (encodeRows
        (sheet.rowsFrom (p.stream.advance ((done.map Prod.fst).map Sheet.valueCount).sum))) := by
      rw [List.getElem?_map, ← List.head?_drop, Plan.drop_rows_of_jobs hplan hjobs]
      rfl
    generalize hafter : (p.produce disk).disk = left at hstop
    have hleft : after = left := hafter
    rw [hleft]
    cases hstop with
    | openFile hopen =>
      exact ⟨_, .openFile, path, _, p.contents_eq, rfl, done.length, locs, hpath, hopen, hcompletes,
        htouches.same, htouches.spares hplan hjobs⟩
    | @writeFile parent name _ hopens hroom hwrites =>
      have hjobs' : p.jobs = (done ++ [(sheet, path)]) ++ rest := by
        rw [hjobs, List.append_assoc, List.singleton_append]
      have hlength : (done ++ [(sheet, path)]).length = done.length + 1 := by simp
      have hnext : path ∈ ((sheet, path) :: rest).map Prod.snd := by simp
      have hloc : parent ++ [name] ∉ locs := by
        intro hmem
        apply htouches.lastName_notMem hplan hjobs hnext
        rw [hopens.last, ← List.getLast?_concat]
        exact List.mem_map_of_mem hmem
      have hkept := hwrites.keeps hopens.no_directory
      have htouches' : Touches (done ++ [(sheet, path)]) disk ((parent ++ [name]) :: locs) left :=
        htouches.of_writes hopens hwrites
      refine ⟨_, .writeFile, path, _, p.contents_eq, rfl, done.length, locs, _, parent ++ [name],
        hpath, hcontents, hopens.locate hkept hwrites.isSome, ?_, ?_, ?_,
        hcompletes.of_writes hwrites hopens.no_directory hloc, htouches'.same,
        hlength ▸ htouches'.spares hplan hjobs'⟩
      · rw [hwrites.medium_eq]
        exact hroom
      · rw [hwrites.medium_eq]
      · rw [hwrites.medium_eq]
        rcases hwrites.here with ⟨device, hdev, hsame⟩ | ⟨-, hfile⟩
        · rw [hdev] at hsame
          rw [hfilled.entry?_of_notMem hloc] at hdev
          exact .inr ⟨device, hadds.entry?_of_ne_directory hdev (by simp), hsame⟩
        · exact .inl hfile

/-- Party 1 cannot have its file, since there is a directory of that name; the file of party 0 is
complete. -/
theorem Plan.produce_stopped_second :
    let r : Request :=
      { sizes := .convolution 1 1 1, bits := 1
        destination := { directory := "", first := "a", second := some "b" } }
    let p : Plan :=
      { sizes := .convolution 1 1 1, width := ⟨1, by decide, by decide⟩, signed := false, seed := 42
        destination := { directory := "", first := "a", second := some "b" } }
    let disk : Disk := { entries := [(["b"], .directory)] }
    let after := (p.produce disk).disk
    r.plan = .ok p ∧
      (p.produce disk).result = .error (.stopped .openFile "b" .isDirectory) ∧
      ∃ first rest loc, p.contents = .ok (first :: rest) ∧ after.locate "a" = .ok loc ∧
        after.entry? loc = some (.file first) := by
  intro r p disk after
  have hplan : r.plan = .ok p := by decide
  have hjobs : p.jobs = [(⟨0, [⟨1, 1⟩]⟩, "a"), (⟨1, [⟨1, 1⟩]⟩, "b")] := by decide
  have hmake : disk.makeDirectories p.destination.directory = (.ok (), disk) := by
    rw [Disk.makeDirectories]
    rfl
  have hopen : disk.openFile "a" = .ok (["a"], disk.set ["a"] (.file [])) := by decide
  have htakes : ((disk.set ["a"] (.file [])).medium ["a"]).TakesAll := ⟨rfl, by decide, rfl⟩
  have hblocked : ∀ octets, ((disk.set ["a"] (.file [])).keep ["a"] octets).openFile "b" =
      .error .isDirectory := fun _ => rfl
  have hrun : (p.produce disk).result = .error (.stopped .openFile "b" .isDirectory) := by
    refine Plan.produce_eq_error_iff.2 (.inr ⟨disk, hmake, ?_⟩)
    rw [hjobs, Sheet.fillFiles_cons_of_takesAll hopen htakes, Sheet.fillFiles_cons, hblocked]
    rfl
  obtain ⟨contents, step, path, fault, hcontents, hfailure, hleft⟩ :=
    Plan.produce_stopped hplan hrun
  cases hfailure
  obtain ⟨k, locs, hk, -, ⟨hlocated, -, hholds⟩, -, -⟩ := hleft
  have hpaths : p.paths = ["a", "b"] := by decide
  rw [hpaths] at hk hlocated
  -- the path is that of party 1, so the file of party 0 is complete
  obtain rfl : k = 1 := by
    rcases k with _ | _ | k
    · simp at hk
    · rfl
    · simp at hk
  rcases contents with _ | ⟨first, rest⟩
  · -- no contents, so no file and no location either
    rcases hholds
    cases hlocated
  · rcases hholds with _ | ⟨hfirst, -⟩
    rcases hlocated with _ | ⟨hloc, -⟩
    have hno : ∀ loc device, disk.entry? loc ≠ some (.device device) := by
      intro loc device hdev
      unfold Disk.entry? at hdev
      split at hdev
      · cases hdev
      · simp only [disk, List.lookup_cons, List.lookup_nil] at hdev
        split at hdev <;> cases hdev
    rcases hfirst with hfile | ⟨device, hdev, -⟩
    · exact ⟨hplan, hrun, first, rest, _, hcontents, hloc, hfile⟩
    · exact absurd hdev (hno _ device)

/-- **A directory can take the place of a file.** To pass through `x` it is made, and then nothing
can be opened under its name: the entry that the path of party 0 leads to is not as it was. -/
theorem Plan.produce_stopped_new_directory :
    let r : Request :=
      { sizes := .signTest 1, bits := 1, destination := { directory := "x/..", first := "x" } }
    let p : Plan :=
      { sizes := .signTest 1, width := ⟨1, by decide, by decide⟩, signed := true, seed := 42
        destination := { directory := "x/..", first := "x", second := none } }
    let disk : Disk := {}
    let after := (p.produce disk).disk
    r.plan = .ok p ∧ p.paths = ["x/../x"] ∧
      (p.produce disk).result = .error (.stopped .openFile "x/../x" .isDirectory) ∧
      after.locate "x/../x" = .ok ["x"] ∧
      disk.entry? ["x"] = none ∧ after.entry? ["x"] = some .directory := by
  intro r p disk after
  have hplan : r.plan = .ok p := by decide
  have hpaths : p.paths = ["x/../x"] := by decide
  have hjobs : p.jobs = [(⟨0, [⟨1, 1⟩]⟩, "x/../x")] := by decide
  have hmake : disk.makeDirectories p.destination.directory =
      (.ok (), { entries := [(["x"], .directory)] }) := by
    show Disk.makeDirectories {} "x/.." = _
    have hparent : Path.parent? "x/.." = some "x" := by simp [Path.parent?, Path.trimEnd]
    have hled : Disk.makeDirectories {} "x" = (.ok (), { entries := [(["x"], .directory)] }) := by
      rw [Disk.makeDirectories]
      rfl
    have hfirst : Disk.makeDirectory {} "x/.." = .error .notFound := rfl
    have hagain : Disk.makeDirectory { entries := [(["x"], .directory)] } "x/.." =
        .error .alreadyExists := rfl
    have hthere : Disk.isDirectory { entries := [(["x"], .directory)] } "x/.." = true := rfl
    rw [Disk.makeDirectories, if_neg (by decide), hfirst]
    simp only
    split
    · rename_i hnone
      rw [hparent] at hnone
      cases hnone
    · rename_i parent hsome
      rw [hparent] at hsome
      cases hsome
      simp only [hled, hagain, hthere, if_true]
  have hblocked : Disk.openFile { entries := [(["x"], .directory)] } "x/../x" =
      .error .isDirectory := by decide
  have hrun : (p.produce disk).result = .error (.stopped .openFile "x/../x" .isDirectory) := by
    refine Plan.produce_eq_error_iff.2 (.inr ⟨_, hmake, ?_⟩)
    rw [hjobs, Sheet.fillFiles_cons, hblocked]
  have hafter : after = { entries := [(["x"], .directory)] } := by
    show (p.produce disk).disk = _
    rw [Plan.disk_produce hmake, hjobs, Sheet.fillFiles_cons, hblocked]
  rw [hafter]
  exact ⟨hplan, hpaths, hrun, by decide, rfl, rfl⟩

end PartyInputs
