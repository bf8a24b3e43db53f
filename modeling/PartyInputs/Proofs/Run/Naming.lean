import PartyInputs.Proofs.Request.Normalizing
import PartyInputs.Proofs.Run.Refusing
import PartyInputs.Proofs.Run.Repeating

/-!
# Names that no entry can have

A file name is planned for as soon as it is plain, and a system asks more of the name of an entry:
it has no null character and is not too long. Neither is looked at before a run, so a name that no
entry can have is found when its file is opened, behind the directories and the files of the
parties in front.

* `FileName.IsEntryName`: the names that entries can have. They are the plain names
  under which some disk lets a file be opened (`FileName.isEntryName_iff_exists_openFile`).
* `FileName.Fits`: what a given name would have to be checked for besides.
* `Plan.isEntryName_of_produce`: **a run that succeeds has found no other names**.
* `Plan.isEntryName_names_iff`: **which plans have such names only**, and what becomes of the
  others.
* `Plan.names_with_null`: a plan with another name, and the file in front of it.
-/

namespace PartyInputs

open List (Forall₂)

/-! ## Names of entries -/

namespace FileName

/-- A name that an entry of a directory can have: a plain one without a null character, and not
longer than the system lets a name be. -/
structure IsEntryName (name : String) : Prop extends IsPlain name where
  null_notMem : '\x00' ∉ name.toList
  size : name.utf8ByteSize ≤ Disk.nameLimit

/-- A name without dots and slashes is plain, unless it is empty. -/
theorem isPlain_of_notMem {name : String} (hne : name ≠ "") (hdot : '.' ∉ name.toList)
    (hslash : '/' ∉ name.toList) : IsPlain name where
  ne_empty := hne
  ne_dot := by
    rintro rfl
    simp at hdot
  ne_dots := by
    rintro rfl
    simp at hdot
  slash_notMem := hslash

/-- A given name without a null character and without a segment that is too long for a name. -/
structure Fits (raw : String) : Prop where
  null_notMem : '\x00' ∉ raw.toList
  size : ∀ s ∈ segments raw, s.utf8ByteSize ≤ Disk.nameLimit

/-- **An entry can have the name that was given for it** iff that fits as it was given. -/
theorem Denotes.isEntryName_iff {raw name : String} (h : Denotes raw name) :
    IsEntryName name ↔ Fits raw := by
  have hspells : Spells raw name := denotes_iff_spells.1 h
  have hnull : '\x00' ∈ raw.toList ↔ '\x00' ∈ name.toList :=
    hspells.mem_toList_iff (by decide) (by decide)
  constructor
  · intro hname
    refine ⟨mt hnull.1 hname.null_notMem, ?_⟩
    rw [h.segments_eq, List.forall_mem_singleton]
    exact hname.size
  · intro hraw
    have hsize := hraw.size
    rw [h.segments_eq, List.forall_mem_singleton] at hsize
    exact ⟨hspells.plain, mt hnull.2 hraw.null_notMem, hsize⟩

end FileName

/-! ## Names under which files can be opened -/

theorem Destination.mem_toList_pathOf {name : String} {c : Char} (h : c ∈ name.toList)
    (directory : String) : c ∈ (pathOf directory name).toList := by
  unfold pathOf
  split
  · simp [h]
  · simp [h]

namespace Disk

variable {d : Disk}

/-- A path that the system accepts has no null character. -/
theorem null_notMem_of_route {path : String} {r : Route} (h : route path = .ok r) :
    '\x00' ∉ path.toList := by
  unfold route at h
  split at h
  · cases h
  · assumption

/-- A file that can be opened under a plain name has a name that an entry can have. -/
theorem Opens.isEntryName {directory name last : String} {parent : Location}
    (h : d.Opens (Destination.pathOf directory name) parent last) (hplain : FileName.IsPlain name) :
    FileName.IsEntryName name := by
  have hlast := h.last
  rw [Route.names_pathOf directory hplain, List.getLast?_concat] at hlast
  cases hlast
  refine ⟨hplain, ?_, h.size⟩
  intro hnull
  exact null_notMem_of_route h.accepted (Destination.mem_toList_pathOf hnull directory)

/-- On an empty disk a file can be opened under every name that an entry can have. -/
theorem opens_of_isEntryName {name : String} (h : FileName.IsEntryName name) :
    Opens {} name [] name where
  accepted := by
    have hsize : ¬ pathLimit < name.utf8ByteSize :=
      Nat.not_lt.2 (Nat.le_trans h.size (by decide))
    rw [route, if_neg h.null_notMem, if_neg h.ne_empty, if_neg hsize]
  open_ended := by
    have hlast : name.toList.getLast? ≠ some '/' :=
      fun hslash => h.slash_notMem (List.mem_of_getLast? hslash)
    exact decide_eq_false hlast
  last := by
    rw [Route.names_plain h.toIsPlain]
    rfl
  ne_dot := h.ne_dot
  ne_dots := h.ne_dots
  size := h.size
  walk := by
    have hrooted : name.toList.head? ≠ some '/' :=
      fun hslash => h.slash_notMem (List.mem_of_head? hslash)
    rw [Route.names_plain h.toIsPlain]
    simp [walk, start]
  directory := rfl
  no_directory := by
    unfold entry?
    simp

end Disk

/-- **The names that entries can have** are the plain ones under which a file can be opened in some
directory of some disk. -/
theorem FileName.isEntryName_iff_exists_openFile {name : String} (hplain : IsPlain name) :
    IsEntryName name ↔ ∃ (d : Disk) (directory : String) (loc : Location) (opened : Disk),
      d.openFile (Destination.pathOf directory name) = .ok (loc, opened) := by
  constructor
  · intro h
    have hpath : Destination.pathOf "" name = name := by simp [Destination.pathOf]
    have hopen := Disk.openFile_of_opens (Disk.opens_of_isEntryName h)
    exact ⟨{}, "", _, _, (congrArg (Disk.openFile {}) hpath).trans hopen⟩
  · rintro ⟨d, directory, loc, opened, hopen⟩
    obtain ⟨parent, last, -, hopens, -⟩ := Disk.openFile_eq_ok hopen
    exact hopens.isEntryName hplain

/-! ## Names of a plan -/

/-- The names of an accepted destination are denoted by the ones that were given for its
parties. -/
theorem Destination.forall₂_denotes_of_accept {raw d : Destination} {w : Workload}
    (h : raw.accept w = .ok d) :
    Forall₂ FileName.Denotes (raw.names.take w.partyCount) d.names := by
  unfold accept at h
  obtain ⟨first, hfirst, h⟩ := bind_eq_ok_iff.1 h
  have hdenotes := FileName.accept_eq_ok_iff_denotes.1 hfirst
  split at h
  · rename_i hcount
    cases h
    have hone : w.partyCount = 1 := by cases w <;> revert hcount <;> decide
    rw [hone]
    exact .cons hdenotes .nil
  · rename_i hcount
    have htwo : w.partyCount = 2 := by cases w <;> revert hcount <;> decide
    split at h
    · cases h
    · rename_i second hsecond
      obtain ⟨name, hname, h⟩ := bind_eq_ok_iff.1 h
      split at h
      · cases h
      · cases h
        rw [htwo, names, hsecond]
        exact .cons hdenotes (.cons (FileName.accept_eq_ok_iff_denotes.1 hname) .nil)

/-- Each of the files was opened. -/
theorem FilledFiles.exists_opens {jobs : List (Sheet × String)} {stream : ValueStream}
    {d d' : Disk} {locs : List Location} (h : FilledFiles jobs stream d locs d') :
    ∀ path ∈ jobs.map Prod.snd, ∃ (reached : Disk) (parent : Location) (last : String),
      reached.Opens path parent last := by
  induction h with
  | nil => simp
  | cons hopens _ _ ih =>
    rw [List.map_cons, List.forall_mem_cons]
    exact ⟨⟨_, _, _, hopens⟩, ih⟩

/-- **A run that succeeds has found no other names** than those that entries can have. -/
theorem Plan.isEntryName_of_produce {r : Request} {p : Plan} {disk : Disk} {receipt : Receipt}
    (hplan : r.plan = .ok p) (hrun : (p.produce disk).result = .ok receipt) :
    ∀ name ∈ p.destination.names, FileName.IsEntryName name := by
  obtain ⟨-, -, hdestination, -, -⟩ := Request.plan_eq_ok_iff.1 hplan
  obtain ⟨-, -, hplain, -⟩ := Destination.of_accept hdestination
  obtain ⟨ready, locs, -, -, hfilled⟩ := Plan.filledFiles_of_produce hrun
  have hopened := hfilled.exists_opens
  rw [Plan.map_snd_jobs hplan, Plan.paths, Destination.paths_eq, List.forall_mem_map] at hopened
  intro name hname
  obtain ⟨reached, parent, last, hopens⟩ := hopened name hname
  exact hopens.isEntryName (hplain name hname)

/-- **Which plans have names that entries can have.** The names of a plan are plain. Entries can
have all of them iff the names given for the parties fit as they were given; if some entry cannot
have its name, the plan is made all the same, and each run of it stops at a step on the disk. -/
theorem Plan.isEntryName_names_iff {r : Request} {p : Plan} (hplan : r.plan = .ok p) :
    (∀ name ∈ p.destination.names, FileName.IsPlain name) ∧
      ((∀ name ∈ p.destination.names, FileName.IsEntryName name) ↔
        ∀ raw ∈ r.destination.names.take p.workload.partyCount, FileName.Fits raw) ∧
      ((∀ name ∈ p.destination.names, FileName.IsEntryName name) ∨
        ∀ disk, ∃ step path fault, (p.produce disk).result = .error (.stopped step path fault)) := by
  obtain ⟨-, -, hdestination, -, -⟩ := Request.plan_eq_ok_iff.1 hplan
  obtain ⟨-, -, hplain, -⟩ := Destination.of_accept hdestination
  have hdenotes := Destination.forall₂_denotes_of_accept hdestination
  refine ⟨hplain, ?_, ?_⟩
  · constructor
    · intro hnames raw hraw
      obtain ⟨name, hmem, h⟩ := exists_mem_zip_of_forall₂ hdenotes hraw
      exact h.isEntryName_iff.1 (hnames name (List.of_mem_zip hmem).2)
    · intro hfits name hname
      obtain ⟨raw, hmem, h⟩ := exists_mem_zip_of_forall₂ hdenotes.flip hname
      exact h.isEntryName_iff.2 (hfits raw (List.of_mem_zip hmem).2)
  · by_cases hnames : ∀ name ∈ p.destination.names, FileName.IsEntryName name
    · exact .inl hnames
    · refine .inr fun disk => ?_
      rcases hresult : (p.produce disk).result with failure | receipt
      · rcases failure with refusal | ⟨step, path, fault⟩
        · exact absurd hresult (p.result_produce_ne_refused disk refusal)
        · exact ⟨step, path, fault, rfl⟩
      · exact absurd (Plan.isEntryName_of_produce hplan hresult) hnames

/-- A name of 256 octets is planned for, and no run gets past it. -/
theorem Plan.isEntryName_names_iff_long :
    let long := String.ofList (List.replicate 256 'n')
    let r : Request :=
      { sizes := .signTest 1, bits := 1, destination := { directory := "", first := long } }
    let p : Plan :=
      { sizes := .signTest 1, width := ⟨1, by decide, by decide⟩, signed := true, seed := 42
        destination := { directory := "", first := long, second := none } }
    r.plan = .ok p ∧ FileName.IsPlain long ∧ ¬ FileName.IsEntryName long ∧
      ∀ disk, ∃ step path fault, (p.produce disk).result = .error (.stopped step path fault) := by
  intro long r p
  have hletters : long.toList = List.replicate 256 'n' := String.toList_ofList
  have hplain : FileName.IsPlain long := by
    apply FileName.isPlain_of_notMem
    · intro hempty
      rw [hempty] at hletters
      cases hletters
    · rw [hletters]
      exact fun hmem => absurd (List.eq_of_mem_replicate hmem) (by decide)
    · rw [hletters]
      exact fun hmem => absurd (List.eq_of_mem_replicate hmem) (by decide)
  have hplan : r.plan = .ok p := by
    refine Request.plan_eq_ok_iff.2 ⟨by decide, by decide, ?_, rfl, rfl⟩
    show (FileName.accept 0 long >>= _) = _
    rw [FileName.accept_plain hplain]
    rfl
  have hlong : ¬ long.utf8ByteSize ≤ Disk.nameLimit := by decide +kernel
  obtain ⟨-, -, hstops⟩ := Plan.isEntryName_names_iff hplan
  have hno : ¬ ∀ name ∈ p.destination.names, FileName.IsEntryName name :=
    fun hnames => hlong (hnames long (List.mem_singleton_self _)).size
  exact ⟨hplan, hplain, fun h => hlong h.size, hstops.resolve_left hno⟩

/-- **A name with a null character is planned for**: it is refused when its file is opened, and the
file of party 0 is written by then. -/
theorem Plan.names_with_null :
    let r : Request :=
      { sizes := .linearLayer 1, bits := 1
        destination := { directory := "", first := "a", second := some "b\x00" } }
    let p : Plan :=
      { sizes := .linearLayer 1, width := ⟨1, by decide, by decide⟩, signed := false, seed := 42
        destination := { directory := "", first := "a", second := some "b\x00" } }
    r.plan = .ok p ∧ "b\x00" ∈ p.destination.names ∧ ¬ FileName.IsEntryName "b\x00" ∧
      (p.produce {}).result = .error (.stopped .openFile "b\x00" .nullInPath) ∧
      ∃ octets, (p.produce {}).disk = { entries := [(["a"], .file octets)] } := by
  intro r p
  let first : Sheet := ⟨0, [⟨1, 1⟩]⟩
  let second : Sheet := ⟨1, [⟨1, 1⟩, ⟨1, 1⟩]⟩
  have hplan : r.plan = .ok p := by decide
  have hjobs : p.jobs = [(first, "a"), (second, "b\x00")] := by decide
  have hmake : Disk.makeDirectories {} p.destination.directory = (.ok (), {}) := by
    rw [Disk.makeDirectories]
    rfl
  have hname : FileName.IsEntryName "a" :=
    ⟨⟨by decide, by decide, by decide, by decide⟩, by decide, by decide⟩
  have hroom : (Disk.medium {} ["a"]).HasRoom (encodeRows (first.rowsFrom p.stream)).length :=
    Medium.hasRoom_of_unlimited rfl _
  -- on no disk the second file can be opened
  have hstop : ∀ stream (d : Disk), Sheet.fillFiles [(second, "b\x00")] stream d =
      ⟨.error (.stopped .openFile "b\x00" .nullInPath), d, []⟩ := fun _ _ => rfl
  obtain ⟨hresult, hdisk⟩ := Sheet.fillFiles_cons_of_opens (Disk.opens_of_isEntryName hname) hroom
    [(second, "b\x00")]
  rw [hstop] at hresult hdisk
  refine ⟨hplan, by decide, fun h => absurd h.null_notMem (by decide), ?_,
    encodeRows (first.rowsFrom p.stream), ?_⟩
  · refine Plan.produce_eq_error_iff.2 (.inr ⟨{}, hmake, ?_⟩)
    rw [hjobs, hresult]
    rfl
  · rw [Plan.disk_produce hmake, hjobs, hdisk]
    rfl

end PartyInputs
