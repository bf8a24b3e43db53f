import PartyInputs.Proofs.Disk.Removing
import PartyInputs.Proofs.Disk.Saving
import PartyInputs.Proofs.Run.Repeating
import PartyInputs.Report.Overview

/-!
# Overviews say what they can

Collecting an overview only looks at the disk, and a size that cannot be read is left out and
noted. So there is always an overview, with every file of the receipt in it, whatever has become of
the files since: for each either a size and a line or a note, never both.

* `PartyFile.Describes`: what an overview says of one file.
* `Overview.Reports`: files, notes and lines of an overview, side by side with the receipt.
* `Plan.regular_of_produce`: the files of a run, as the receipt has them.
* `Overview.collect_reports`: **every overview reports its receipt**, and after a run the files that
  were removed are those without a size; the size of each other one is what the run counted.
-/

namespace PartyInputs

open List (Forall₂)

/-! ## One file -/

/-- What an overview says of a file that was written: what the receipt says, and the size of what
its path leads to now, if that can be read. -/
structure PartyFile.Describes (disk : Disk) (file : WrittenFile) (f : PartyFile) : Prop where
  party : f.party = file.party
  path : f.path = file.path
  rows : f.rows = file.tally.rows
  values : f.values = file.tally.values
  size_eq_some_iff : ∀ n, f.size = some n ↔ disk.size file.path = .ok n
  size_eq_none_iff : f.size = none ↔ ∃ fault, disk.size file.path = .error fault
  /-- The size of a file is the number of its octets. -/
  length : ∀ octets, disk.find file.path = .ok (.file octets) → f.size = some octets.length

theorem Disk.size_of_file {disk : Disk} {path : String} {octets : List UInt8}
    (h : disk.find path = .ok (.file octets)) : disk.size path = .ok octets.length := by
  unfold size
  rw [h]

theorem Disk.size_of_fault {disk : Disk} {path : String} {fault : Fault}
    (h : disk.find path = .error fault) : disk.size path = .error fault := by
  unfold size
  rw [h]

namespace PartyFile

variable {file : WrittenFile} {disk : Disk}

theorem collect_of_size {n : Nat} (h : disk.size file.path = .ok n) :
    collect file disk =
      (⟨file.party, file.path, file.tally.rows, file.tally.values, some n⟩, []) := by
  unfold collect
  rw [h]

theorem collect_of_fault {fault : Fault} (h : disk.size file.path = .error fault) :
    collect file disk =
      (⟨file.party, file.path, file.tally.rows, file.tally.values, none⟩,
        [.sizeUnknown file.path fault]) := by
  unfold collect
  rw [h]

theorem describes_collect (file : WrittenFile) (disk : Disk) :
    Describes disk file (collect file disk).1 := by
  rcases hsize : disk.size file.path with fault | n
  · rw [collect_of_fault hsize]
    refine ⟨rfl, rfl, rfl, rfl, by simp [hsize], by simp [hsize], ?_⟩
    intro octets hfile
    rw [Disk.size_of_file hfile] at hsize
    cases hsize
  · rw [collect_of_size hsize]
    refine ⟨rfl, rfl, rfl, rfl, by simp [hsize], by simp [hsize], ?_⟩
    intro octets hfile
    rw [Disk.size_of_file hfile] at hsize
    cases hsize
    rfl

/-- **One note for each file without a size**, in the order of the files. -/
theorem notes_collect (disk : Disk) (files : List WrittenFile) :
    Forall₂
      (fun f event => ∃ fault, disk.size f.path = .error fault ∧ event = .sizeUnknown f.path fault)
      (((files.map fun file => collect file disk).map (·.1)).filter (·.size.isNone))
      ((files.map fun file => collect file disk).flatMap (·.2)) := by
  induction files with
  | nil => exact .nil
  | cons file files ih =>
    rw [List.map_cons, List.map_cons, List.flatMap_cons]
    rcases hsize : disk.size file.path with fault | n
    · rw [collect_of_fault hsize, List.filter_cons_of_pos rfl]
      exact .cons ⟨fault, hsize, rfl⟩ ih
    · rw [collect_of_size hsize, List.filter_cons_of_neg (by simp)]
      exact ih

/-- **One line for each file with a size**, in the order of the files. -/
theorem lines_files (files : List PartyFile) :
    Forall₂ (fun f line => f.line? = some line) (files.filter (·.size.isSome))
      (files.filterMap line?) := by
  have hsome : (fun f : PartyFile => f.size.isSome) = Option.isSome ∘ line? := by
    funext f
    exact Option.isSome_map.symm
  rw [← map_eq_map_iff_forall₂, List.map_filterMap_some_eq_filter_map_isSome, List.filter_map,
    hsome]

end PartyFile

/-! ## All files -/

namespace Overview

/-- What an overview says, side by side with the receipt. -/
structure Reports (o : Overview) (receipt : Receipt) (disk : Disk) (events : List Event) :
    Prop where
  /-- The files of the receipt, in its order. -/
  files : Forall₂ (PartyFile.Describes disk) receipt.files o.files
  /-- The files without a size are noted, and nothing else is. -/
  notes : Forall₂
    (fun f event => ∃ fault, disk.size f.path = .error fault ∧ event = .sizeUnknown f.path fault)
    (o.files.filter (·.size.isNone)) events
  /-- The files with a size are shown, and then once the sizes that were asked for. -/
  lines : ∃ shown, o.lines = shown ++ [o.sizesLine] ∧ o.sizesLine ∉ shown ∧
    Forall₂ (fun f line => f.line? = some line) (o.files.filter (·.size.isSome)) shown

/-- The line about the sizes is set off by blanks, so no line about a file is like it. -/
theorem line_ne_sizesLine {f : PartyFile} {line : String} (h : f.line? = some line)
    (o : Overview) : line ≠ o.sizesLine := by
  obtain ⟨size, -, rfl⟩ := Option.map_eq_some_iff.1 h
  intro heq
  have hhead := congrArg (fun s : String => s.toList.head?) heq
  unfold sizesLine at hhead
  split at hhead
  · simp at hhead
  · simp at hhead

theorem reports_collect (p : Plan) (receipt : Receipt) (disk : Disk) :
    (collect p receipt disk).1.Reports receipt disk (collect p receipt disk).2 where
  files := by
    show Forall₂ _ _ ((receipt.files.map fun file => PartyFile.collect file disk).map (·.1))
    rw [List.map_map, List.forall₂_map_right_iff, List.forall₂_same]
    exact fun file _ => PartyFile.describes_collect file disk
  notes := PartyFile.notes_collect disk receipt.files
  lines := by
    refine ⟨_, rfl, ?_, PartyFile.lines_files _⟩
    intro hmem
    obtain ⟨f, -, hline⟩ := List.mem_filterMap.1 hmem
    exact line_ne_sizesLine hline _ rfl

/-- The sizes in an overview, file by file. -/
theorem map_size_collect (p : Plan) (receipt : Receipt) (disk : Disk) :
    (collect p receipt disk).1.files.map (·.size) =
      receipt.files.map fun file => (PartyFile.collect file disk).1.size := by
  show ((receipt.files.map fun file => PartyFile.collect file disk).map (·.1)).map (·.size) = _
  rw [List.map_map, List.map_map]
  rfl

end Overview

/-! ## After a run -/

section

variable {r : Request} {p : Plan} {disk : Disk} {receipt : Receipt} (hplan : r.plan = .ok p)
  (hrun : (p.produce disk).result = .ok receipt)

include hplan hrun

/-- The paths of a plan lead to different files. -/
theorem Plan.nodup_locate_of_produce : (p.paths.map (p.produce disk).disk.locate).Nodup := by
  obtain ⟨locs, hnodup, hlocate, -⟩ := Plan.files_of_produce hplan hrun
  rw [map_eq_map_iff_forall₂.2 hlocate]
  exact hnodup.map fun _ _ => Except.ok.inj

/-- If every path leads to a regular file, these hold what the plan gives for them, and the receipt
counts it. -/
theorem Plan.regular_of_produce
    (hregular : ∀ path ∈ p.paths, ∃ octets,
      (p.produce disk).disk.find path = .ok (.file octets)) :
    ∃ contents, p.contents = .ok contents ∧ receipt.files.map (·.path) = p.paths ∧
      Forall₂
        (fun file octets => (p.produce disk).disk.find file.path = .ok (.file octets) ∧
          file.tally.octets = octets.length)
        receipt.files contents := by
  obtain ⟨-, -, -, hfiles, -⟩ := Plan.filledFiles_of_produce hrun
  obtain ⟨-, hpaths, hcounts⟩ := Sheet.writtenFiles_spec p.jobs p.stream
  rw [← hfiles, Plan.map_snd_jobs hplan] at hpaths
  rw [← hfiles, Plan.map_fst_jobs hplan] at hcounts
  have hfound : Forall₂ (fun path octets => (p.produce disk).disk.find path = .ok (.file octets))
      p.paths (p.rows.map encodeRows) := by
    have hreceived := Plan.received_of_produce hplan hrun
    refine ((List.forall₂_and_left _ _).2 ⟨hregular, hreceived⟩).imp ?_
    rintro path octets ⟨⟨found, hfound⟩, loc, hloc, hfile | ⟨device, -, hdevice⟩⟩
    · exact Disk.find_eq_ok_iff.2 ⟨loc, hloc, hfile⟩
    · -- a regular file is no device
      rw [Disk.find_eq_ok_iff.2 ⟨loc, hloc, hdevice⟩] at hfound
      cases hfound
  rw [← hpaths, List.forall₂_map_left_iff] at hfound
  exact ⟨_, p.contents_eq, hpaths, forall₂_and hfound (hcounts.imp fun _ _ h => h.1)⟩

/-- Where there were no devices every path leads to a regular file. -/
theorem Plan.find_of_produce (hno : ∀ loc device, disk.entry? loc ≠ some (.device device)) :
    ∀ path ∈ p.paths, ∃ octets, (p.produce disk).disk.find path = .ok (.file octets) := by
  refine exists_forall₂_iff.1 ⟨_, (Plan.received_of_produce hplan hrun).imp ?_⟩
  rintro path octets ⟨loc, hloc, hfile | ⟨device, hdevice, -⟩⟩
  · exact Disk.find_eq_ok_iff.2 ⟨loc, hloc, hfile⟩
  · exact absurd hdevice (hno loc device)

end

/-- **Every overview reports its receipt**, whatever is on the disk: collecting it returns no disk,
so none is changed. If the receipt is that of a run into regular files, and some of these have been
removed since, one after the other and in any order, then exactly the removed ones have no size, and
the size of each other one is the number of octets that the run counted and the plan gives. -/
theorem Overview.collect_reports (p : Plan) (receipt : Receipt) :
    (∀ disk, (collect p receipt disk).1.Reports receipt disk (collect p receipt disk).2) ∧
    ∀ (r : Request) (start : Disk) (removed : List String),
      r.plan = .ok p → (p.produce start).result = .ok receipt →
      (∀ path ∈ p.paths, ∃ octets, (p.produce start).disk.find path = .ok (.file octets)) →
      removed ⊆ p.paths → removed.Nodup →
      ∃ after contents,
        removed.foldlM Disk.removeFile (p.produce start).disk = .ok after ∧
        p.contents = .ok contents ∧
        receipt.files.map (·.path) = p.paths ∧
        receipt.files.map (·.tally.octets) = contents.map List.length ∧
        (collect p receipt after).1.files.map (·.size) = receipt.files.map fun file =>
          if file.path ∈ removed then none else some file.tally.octets := by
  refine ⟨reports_collect p receipt, ?_⟩
  intro r start removed hplan hrun hregular hsubset hnodup
  obtain ⟨contents, hcontents, hpaths, hwritten⟩ := Plan.regular_of_produce hplan hrun hregular
  obtain ⟨after, hfold, hafter⟩ := Disk.exists_removed (Plan.nodup_locate_of_produce hplan hrun)
    hregular hsubset hnodup
  refine ⟨after, contents, hfold, hcontents, hpaths,
    map_eq_map_iff_forall₂.2 (hwritten.imp fun _ _ h => h.2), ?_⟩
  rw [map_size_collect]
  apply List.map_congr_left
  intro file hfile
  obtain ⟨hgone, hkept⟩ := hafter file.path (hpaths ▸ List.mem_map_of_mem hfile)
  obtain ⟨octets, hfound, hcount⟩ := exists_forall₂_iff.1 ⟨_, hwritten⟩ file hfile
  have hdescribes := PartyFile.describes_collect file after
  by_cases hremoved : file.path ∈ removed
  · obtain ⟨fault, hfault⟩ := hgone hremoved
    rw [if_pos hremoved]
    exact hdescribes.size_eq_none_iff.2 ⟨fault, Disk.size_of_fault hfault⟩
  · rw [if_neg hremoved, hcount]
    exact hdescribes.length octets ((hkept hremoved).trans hfound)

/-- Two values in two files, of which the one of party 0 has been removed. -/
theorem Overview.collect_reports_first_removed :
    let r : Request :=
      { sizes := .convolution 1 1 1, bits := 1
        destination := { directory := "", first := "a", second := some "b" } }
    let p : Plan :=
      { sizes := .convolution 1 1 1, width := ⟨1, by decide, by decide⟩, signed := false, seed := 42
        destination := { directory := "", first := "a", second := some "b" } }
    let receipt : Receipt := ⟨Sheet.writtenFiles p.jobs p.stream⟩
    let written := p.produce {}
    r.plan = .ok p ∧ written.result = .ok receipt ∧
      ∃ after first second, ["a"].foldlM Disk.removeFile written.disk = .ok after ∧
        p.contents = .ok [first, second] ∧
        (collect p receipt after).1.files.map (·.size) = [none, some second.length] := by
  intro r p receipt written
  have hplan : r.plan = .ok p := by decide
  have hpaths : p.paths = ["a", "b"] := by decide
  have hjobs : p.jobs = [(⟨0, [⟨1, 1⟩]⟩, "a"), (⟨1, [⟨1, 1⟩]⟩, "b")] := by decide
  have hmake : Disk.makeDirectories {} "" = (.ok (), {}) := by
    rw [Disk.makeDirectories]
    rfl
  let opened : Disk := { entries := [(["a"], .file [])] }
  have hopen : Disk.openFile {} "a" = .ok (["a"], opened) := by decide
  have hopen' : ∀ octets, (opened.keep ["a"] octets).openFile "b" =
      .ok (["b"], { entries := [(["a"], .file octets), (["b"], .file [])] }) := fun _ => rfl
  have hrun : written.result = .ok receipt := by
    refine Plan.produce_eq_ok_iff.2 ⟨{}, hmake, ?_⟩
    show _ = Except.ok (Sheet.writtenFiles p.jobs p.stream)
    rw [hjobs, Sheet.fillFiles_cons_of_takesAll hopen ⟨rfl, by decide, rfl⟩,
      Sheet.fillFiles_cons_of_takesAll (hopen' _) ⟨rfl, (Disk.medium_spec _ _).1, rfl⟩]
    rfl
  have hno : ∀ loc device, Disk.entry? {} loc ≠ some (.device device) := by
    intro loc device hdevice
    exact List.not_mem_nil (Disk.mem_entries_of_entry? hdevice (by simp))
  obtain ⟨-, hremoving⟩ := collect_reports p receipt
  obtain ⟨after, contents, hfold, hcontents, -, hcount, hsizes⟩ :=
    hremoving r {} ["a"] hplan hrun (Plan.find_of_produce hplan hrun hno) (by simp [hpaths])
      (by simp)
  obtain ⟨f, g, hfiles, hf, hg⟩ : ∃ f g, receipt.files = [f, g] ∧ f.path = "a" ∧ g.path = "b" := by
    show ∃ f g, Sheet.writtenFiles p.jobs p.stream = [f, g] ∧ _
    rw [hjobs]
    exact ⟨_, _, rfl, rfl, rfl⟩
  rw [hfiles] at hcount hsizes
  -- two files, so two contents
  obtain ⟨first, second, rfl⟩ : ∃ first second, contents = [first, second] := by
    apply List.length_eq_two.1
    simpa using (congrArg List.length hcount).symm
  refine ⟨hplan, hrun, after, first, second, hfold, hcontents, ?_⟩
  have hsecond : g.tally.octets = second.length := by
    simp only [List.map_cons, List.cons.injEq] at hcount
    exact hcount.2.1
  rw [hsizes]
  simp [hf, hg, hsecond]

end PartyInputs
