import Mathlib.Data.List.Nodup
import PartyInputs.Proofs.Disk.Changes
import PartyInputs.Proofs.Workload.Filling
import PartyInputs.Run.Production

/-!
# Sheets filled into files

A run that writes all its files goes from sheet to sheet: it opens a file, writes the rows that the
stream gives next, and goes on with the stream and the disk that this leaves. `FilledFiles` is this
course of events with the locations of the files; what the disk is like afterwards is read off it.

* `Sheet.fillFiles_cons_eq_ok`: **one file**.
* `Sheet.filledFiles_of_fillFiles`: the files of a run, one after the other, and their receipt.
* `FilledFiles.keeps`, `FilledFiles.entry?_of_notMem`: directories stay, and no entry other than
  those of the files is touched.
* `FilledFiles.locate`: afterwards each path leads to its file.
* `FilledFiles.nodup`: under different names there are different files.
* `FilledFiles.contents`: **each file holds the rows of its sheet** and nothing else.
-/

namespace PartyInputs

/-- Sheets are filled from the stream, each into the file at the path beside it; the files stand at
the locations, and the disk goes from the first to the second. -/
inductive FilledFiles :
    List (Sheet × String) → ValueStream → Disk → List Location → Disk → Prop where
  | nil {stream : ValueStream} {d : Disk} : FilledFiles [] stream d [] d
  | cons {sheet : Sheet} {path : String} {jobs : List (Sheet × String)} {stream : ValueStream}
      {d d₁ d' : Disk} {parent : Location} {name : String} {locs : List Location} :
      d.Opens path parent name →
      d.Writes (parent ++ [name]) (encodeRows (sheet.rowsFrom stream)) d₁ →
      FilledFiles jobs (stream.advance sheet.valueCount) d₁ locs d' →
      FilledFiles ((sheet, path) :: jobs) stream d ((parent ++ [name]) :: locs) d'

namespace Sheet

/-! ## One file -/

/-- What a receipt says of a sheet that was filled into the file at a path. -/
def writtenFile (s : Sheet) (path : String) (stream : ValueStream) : WrittenFile :=
  ⟨s.party, path, ({} : Tally).addRows (s.rowsFrom stream)⟩

theorem fillFiles_cons (sheet : Sheet) (path : String) (jobs : List (Sheet × String))
    (stream : ValueStream) (d : Disk) :
    fillFiles ((sheet, path) :: jobs) stream d =
      match d.openFile path with
      | .error fault => ⟨.error (.stopped .openFile path fault), d, []⟩
      | .ok (loc, d) =>
        match sheet.fill { medium := d.medium loc } stream with
        | ⟨.error fault, sink, _⟩ =>
          ⟨.error (.stopped .writeFile path fault), d.keep loc sink.octets, []⟩
        | ⟨.ok tally, sink, stream⟩ =>
          let rest := fillFiles jobs stream (d.keep loc sink.octets)
          ⟨rest.result.map (⟨sheet.party, path, tally⟩ :: ·), rest.disk,
            .wrote ⟨sheet.party, path, tally⟩ :: rest.log⟩ := rfl

/-- **One file**: if a run writes all its files, the first one was opened, its sheet was written
into it as a whole, and the rest of the run wrote the others. -/
theorem fillFiles_cons_eq_ok {sheet : Sheet} {path : String} {jobs : List (Sheet × String)}
    {stream : ValueStream} {d : Disk} {files : List WrittenFile}
    (h : (fillFiles ((sheet, path) :: jobs) stream d).result = .ok files) :
    ∃ parent name d₁ rest, d.Opens path parent name ∧
      d.Writes (parent ++ [name]) (encodeRows (sheet.rowsFrom stream)) d₁ ∧
      (fillFiles jobs (stream.advance sheet.valueCount) d₁).result = .ok rest ∧
      files = sheet.writtenFile path stream :: rest ∧
      (fillFiles ((sheet, path) :: jobs) stream d).disk =
        (fillFiles jobs (stream.advance sheet.valueCount) d₁).disk := by
  rw [fillFiles_cons] at h ⊢
  rcases hopen : d.openFile path with fault | ⟨loc, d₀⟩
  · rw [hopen] at h
    cases h
  · obtain ⟨parent, name, rfl, hopens, hwrites⟩ := Disk.openFile_eq_ok hopen
    have hloc : parent ++ [name] ≠ [] := by simp
    rw [hopen] at h
    simp only at h ⊢
    rcases sheet.fill_cases { medium := d₀.medium (parent ++ [name]) } stream with
      ⟨-, fault, hfail⟩ | ⟨sink, hfill, hg⟩
    · rcases hs : sheet.fill { medium := d₀.medium (parent ++ [name]) } stream with ⟨result, _, _⟩
      rw [hs] at hfail h
      cases hfail
      cases h
    · have hoctets : sink.octets = encodeRows (sheet.rowsFrom stream) := hg.octets
      rw [hfill] at h ⊢
      simp only at h ⊢
      obtain ⟨rest, hrest, hfiles⟩ := map_eq_ok_iff.1 h
      rw [hoctets] at hrest ⊢
      exact ⟨parent, name, _, rest, hopens, hwrites.keep_nil hloc _, hrest, hfiles.symm, rfl⟩

/-- A file that can be opened on a medium that takes everything is written, and the run goes on. -/
theorem fillFiles_cons_of_takesAll {path : String} {d d₀ : Disk} {loc : Location}
    (hopen : d.openFile path = .ok (loc, d₀)) (htakes : (d₀.medium loc).TakesAll) (sheet : Sheet)
    (jobs : List (Sheet × String)) (stream : ValueStream) :
    (fillFiles ((sheet, path) :: jobs) stream d).result =
      (fillFiles jobs (stream.advance sheet.valueCount)
        (d₀.keep loc (encodeRows (sheet.rowsFrom stream)))).result.map
          (sheet.writtenFile path stream :: ·) := by
  rcases sheet.fill_cases { medium := d₀.medium loc } stream with ⟨hm, -⟩ | ⟨sink, hfill, hg⟩
  · exact absurd htakes hm
  · have hoctets : sink.octets = encodeRows (sheet.rowsFrom stream) := hg.octets
    rw [fillFiles_cons, hopen]
    simp only
    rw [hfill, ← hoctets]
    rfl

/-! ## All files -/

/-- What a receipt says of sheets that were filled one after the other. -/
def writtenFiles : List (Sheet × String) → ValueStream → List WrittenFile
  | [], _ => []
  | (sheet, path) :: jobs, stream =>
    sheet.writtenFile path stream :: writtenFiles jobs (stream.advance sheet.valueCount)

/-- **A run that writes all its files** fills them one after the other, and its receipt says so. -/
theorem filledFiles_of_fillFiles (jobs : List (Sheet × String)) :
    ∀ {stream : ValueStream} {d : Disk} {files : List WrittenFile},
      (fillFiles jobs stream d).result = .ok files →
        files = writtenFiles jobs stream ∧
          ∃ locs, FilledFiles jobs stream d locs (fillFiles jobs stream d).disk := by
  induction jobs with
  | nil =>
    intro stream d files h
    cases h
    exact ⟨rfl, [], .nil⟩
  | cons job jobs ih =>
    intro stream d files h
    obtain ⟨sheet, path⟩ := job
    obtain ⟨parent, name, d₁, rest, hopens, hwrites, hrest, rfl, hdisk⟩ := fillFiles_cons_eq_ok h
    obtain ⟨rfl, locs, hfilled⟩ := ih hrest
    rw [hdisk]
    exact ⟨rfl, _, .cons hopens hwrites hfilled⟩

end Sheet

namespace FilledFiles

variable {jobs : List (Sheet × String)} {stream : ValueStream} {d d' : Disk} {locs : List Location}

/-! ## What stays -/

theorem keeps (h : FilledFiles jobs stream d locs d') : d.Keeps d' := by
  induction h with
  | nil => exact .refl _
  | cons hopens hwrites _ ih => exact (hwrites.keeps hopens.no_directory).trans ih

theorem limits (h : FilledFiles jobs stream d locs d') : d'.limits = d.limits := by
  induction h with
  | nil => rfl
  | cons _ hwrites _ ih => rw [ih, hwrites.limits]

/-- No entry other than those of the files is touched. -/
theorem entry?_of_notMem (h : FilledFiles jobs stream d locs d') {l : Location} (hl : l ∉ locs) :
    d'.entry? l = d.entry? l := by
  induction h with
  | nil => rfl
  | cons _ hwrites _ ih =>
    rw [List.mem_cons, not_or] at hl
    rw [ih hl.2, hwrites.elsewhere l hl.1]

/-! ## Where the files are -/

/-- Afterwards each path leads to its file. -/
theorem locate (h : FilledFiles jobs stream d locs d') :
    List.Forall₂ (fun path loc => d'.locate path = .ok loc) (jobs.map Prod.snd) locs := by
  induction h with
  | nil => exact .nil
  | cons hopens hwrites hrest ih =>
    refine .cons ?_ ih
    apply hopens.locate ((hwrites.keeps hopens.no_directory).trans hrest.keeps)
    exact hrest.keeps.present _ hwrites.isSome

/-- The last name of a location is the last name of the path that leads there. -/
theorem map_getLast? (h : FilledFiles jobs stream d locs d') :
    locs.map List.getLast? = jobs.map fun job => (Route.ofPath job.2).names.getLast? := by
  induction h with
  | nil => rfl
  | cons hopens _ _ ih =>
    rw [List.map_cons, List.map_cons, ih, hopens.last, List.getLast?_concat]

/-- **Under different names there are different files**, whatever the directories are. -/
theorem nodup (h : FilledFiles jobs stream d locs d')
    (hnames : (jobs.map fun job => (Route.ofPath job.2).names.getLast?).Nodup) : locs.Nodup := by
  rw [← h.map_getLast?] at hnames
  exact hnames.of_map _

/-! ## What the files hold -/

/-- **Each file holds the rows of its sheet** and nothing else, whatever was there before. At a
location where a device was there is still that device. -/
theorem contents (h : FilledFiles jobs stream d locs d') (hnodup : locs.Nodup) :
    List.Forall₂
      (fun loc octets => d'.entry? loc = some (.file octets) ∨
        ∃ device, d.entry? loc = some (.device device) ∧ d'.entry? loc = some (.device device))
      locs ((Sheet.allRowsFrom (jobs.map Prod.fst) stream).map encodeRows) := by
  induction h with
  | nil => exact .nil
  | cons hopens hwrites hrest ih =>
    rw [List.nodup_cons] at hnodup
    obtain ⟨hnot, hnodup⟩ := hnodup
    refine .cons ?_ ?_
    · -- later files are elsewhere, so this one stays as it was written
      rw [hrest.entry?_of_notMem hnot]
      rcases hwrites.here with ⟨device, hdev, heq⟩ | ⟨-, hfile⟩
      · exact .inr ⟨device, hdev, heq.trans hdev⟩
      · exact .inl hfile
    · -- and this one is elsewhere for the later ones
      have helsewhere := fun l (hl : l ∈ _) => hwrites.elsewhere l fun heq => hnot (heq ▸ hl)
      have hlater := ih hnodup
      rw [List.forall₂_iff_zip] at hlater ⊢
      refine ⟨hlater.1, ?_⟩
      intro l octets hmem
      rw [← helsewhere l (List.of_mem_zip hmem).1]
      exact hlater.2 hmem

end FilledFiles

end PartyInputs
