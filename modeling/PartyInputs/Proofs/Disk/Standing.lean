import PartyInputs.Proofs.Disk.Changes

/-!
# What stands on a disk already

Making a directory that is there and writing a file that holds the same octets change nothing: not
even the order of the entries is another. So what has been done once can be done again, as long as
the directories on the way are kept.

* `Disk.keep_empty_of_holds`: emptying a file and keeping what it held is keeping the disk.
* `Disk.openFile_of_opens`: **a file whose place is there can be opened**, and
  `Disk.opens_of_locate`: what a path leads to has its place, unless it is a directory.
* `Disk.makeDirectories_of_isDirectory`: **a directory that is there is not made again**.
* `Disk.makeDirectories_again`: directories that were made once are there from then on.
-/

namespace PartyInputs.Disk

variable {d d' : Disk} {loc : Location} {e : Entry}

/-! ## Entries that are put twice -/

theorem setEntry_setEntry (loc : Location) (e e' : Entry) (entries : List (Location × Entry)) :
    setEntry loc e (setEntry loc e' entries) = setEntry loc e entries := by
  induction entries with
  | nil => simp [setEntry]
  | cons first entries ih =>
    obtain ⟨l, old⟩ := first
    by_cases h : l = loc
    · simp [setEntry, h]
    · simp [setEntry, h, ih]

theorem setEntry_of_lookup {entries : List (Location × Entry)} (h : entries.lookup loc = some e) :
    setEntry loc e entries = entries := by
  induction entries with
  | nil => cases h
  | cons first entries ih =>
    obtain ⟨l, old⟩ := first
    rw [List.lookup_cons] at h
    by_cases hl : l = loc
    · rw [hl, beq_self_eq_true] at h
      cases h
      simp [setEntry, hl]
    · rw [beq_eq_false_iff_ne.2 (Ne.symm hl)] at h
      simp [setEntry, hl, ih h]

theorem set_set (d : Disk) (loc : Location) (e e' : Entry) :
    Disk.set (d.set loc e') loc e = d.set loc e := by
  simp [set, setEntry_setEntry]

/-- Putting what is there already changes nothing. -/
theorem set_of_entry? (hloc : loc ≠ []) (h : d.entry? loc = some e) : d.set loc e = d := by
  unfold entry? at h
  rw [if_neg hloc] at h
  rw [set, setEntry_of_lookup h]

/-! ## Files that are kept twice -/

/-- A location holds octets if a file with them stands there, or a device, which holds whatever is
kept in it. -/
def Holds (d : Disk) (loc : Location) (octets : List UInt8) : Prop :=
  d.entry? loc = some (.file octets) ∨ ∃ device, d.entry? loc = some (.device device)

/-- **What is held can be written again**: emptied and filled with the same octets, a location is as it
was. -/
theorem keep_empty_of_holds {octets : List UInt8} (hloc : loc ≠ []) (h : d.Holds loc octets) :
    (d.empty loc).keep loc octets = d := by
  rcases h with hfile | ⟨device, hdevice⟩
  · have hempty : d.empty loc = d.set loc (.file []) := by
      unfold empty
      rw [hfile]
    have hnothing : Disk.entry? (d.set loc (.file [])) loc = some (.file []) := by
      rw [entry?_set d hloc, if_pos rfl]
    rw [hempty, keep, hnothing]
    simp only [List.nil_append, set_set, set_of_entry? hloc hfile]
  · have hempty : d.empty loc = d := by
      unfold empty
      rw [hdevice]
    rw [hempty, keep, hdevice]

theorem Writes.holds {octets : List UInt8} (h : d.Writes loc octets d') : d'.Holds loc octets := by
  rcases h.here with ⟨device, hdevice, heq⟩ | ⟨-, hfile⟩
  · exact .inr ⟨device, heq.trans hdevice⟩
  · exact .inl hfile

/-! ## Files that are opened twice -/

/-- How a location takes what is written to it depends on what stands there. -/
theorem medium_congr (hlimit : d'.limits = d.limits) (h : d'.entry? loc = d.entry? loc) :
    d'.medium loc = d.medium loc := by
  unfold medium
  rw [h, hlimit]

/-- A file can be opened again as long as everything is kept and no directory has come in its
place. -/
theorem Opens.of_keeps {path name : String} {parent : Location} (h : d.Opens path parent name)
    (hkeeps : d.Keeps d') (hno : d'.entry? (parent ++ [name]) ≠ some .directory) :
    d'.Opens path parent name where
  accepted := h.accepted
  open_ended := h.open_ended
  last := h.last
  ne_dot := h.ne_dot
  ne_dots := h.ne_dots
  size := h.size
  walk := by
    have hstart : d'.start (.ofPath path) = d.start (.ofPath path) := by
      unfold start
      rw [hkeeps.home]
    rw [hstart]
    exact walk_of_keeps hkeeps h.walk
  directory := hkeeps.directory parent h.directory
  no_directory := hno

/-- **A file whose place is there can be opened**: it is emptied. -/
theorem openFile_of_opens {path name : String} {parent : Location} (h : d.Opens path parent name) :
    d.openFile path = .ok (parent ++ [name], d.empty (parent ++ [name])) := by
  have hplace : d.place (.ofPath path) = .ok (parent, some name) := by
    rw [place_of_walk h.last h.walk h.directory, if_neg (by simp [h.ne_dot, h.ne_dots])]
  unfold openFile
  refine bind_eq_ok_iff.2 ⟨_, h.accepted, bind_eq_ok_iff.2 ⟨_, hplace, ?_⟩⟩
  simp only [h.open_ended, Bool.false_eq_true, if_false, Nat.not_lt.2 h.size]
  rcases hentry : d.entry? (parent ++ [name]) with _ | _ | octets | device
  · rfl
  · exact absurd hentry h.no_directory
  · rfl
  · rfl

/-- What a path leads to under the name of an entry stands where its file would, unless it is a
directory. -/
theorem opens_of_locate {path name : String} (hlocate : d.locate path = .ok loc)
    (hlast : (Route.ofPath path).names.getLast? = some name) (hdot : name ≠ ".")
    (hdots : name ≠ "..") (hno : d.entry? loc ≠ some .directory) :
    ∃ parent, loc = parent ++ [name] ∧ d.Opens path parent name := by
  unfold locate at hlocate
  obtain ⟨r, hroute, hlocate⟩ := bind_eq_ok_iff.1 hlocate
  obtain ⟨last, hwalk, hlocate⟩ := bind_eq_ok_iff.1 hlocate
  obtain rfl := eq_ofPath_of_route hroute
  by_cases hclosed : (Route.ofPath path).closed = true
  · -- a slash at the end demands a directory
    rw [if_pos hclosed] at hlocate
    obtain ⟨_, hdir, hloc⟩ := bind_eq_ok_iff.1 hlocate
    cases hloc
    exact absurd (expectDirectory_eq_ok_iff.1 hdir) hno
  · rw [if_neg hclosed] at hlocate
    cases hlocate
    obtain ⟨init, hnames⟩ := List.getLast?_eq_some_iff.1 hlast
    rw [hnames] at hwalk
    obtain ⟨parent, hparent, hstep⟩ := walk_concat_eq_ok hwalk
    obtain ⟨rfl, hsize, -⟩ := step_eq_ok hdot hdots hstep
    have hinit : (Route.ofPath path).names.dropLast = init := by
      rw [hnames, List.dropLast_concat]
    rw [← hinit] at hparent
    exact ⟨parent, rfl, {
      accepted := hroute, open_ended := Bool.eq_false_iff.2 hclosed, last := hlast, ne_dot := hdot
      ne_dots := hdots, size := hsize, walk := hparent, directory := directory_of_step hstep
      no_directory := hno }⟩

/-! ## Directories that are made twice -/

theorem isDirectory_iff {path : String} :
    d.isDirectory path ↔ ∃ loc, d.locate path = .ok loc ∧ d.entry? loc = some .directory := by
  rw [← find_eq_ok_iff, isDirectory]
  rcases d.find path with fault | _ | octets | device
  · simp
  · simp
  · simp
  · simp

theorem isDirectory_of_keeps (h : d.Keeps d') {path : String} (hdir : d.isDirectory path) :
    d'.isDirectory path := by
  obtain ⟨loc, hlocate, hentry⟩ := isDirectory_iff.1 hdir
  exact isDirectory_iff.2 ⟨loc, locate_of_keeps h hlocate, h.directory loc hentry⟩

/-- The place of a path that leads to something has that under its name, if it has a name. -/
theorem exists_place_of_locate {path : String} {loc : Location} (h : d.locate path = .ok loc) :
    ∃ r parent name?, route path = .ok r ∧ d.place r = .ok (parent, name?) ∧
      ∀ name ∈ name?, name.utf8ByteSize ≤ nameLimit ∧ (d.entry? (parent ++ [name])).isSome := by
  unfold locate at h
  obtain ⟨r, hroute, h⟩ := bind_eq_ok_iff.1 h
  obtain ⟨last, hwalk, -⟩ := bind_eq_ok_iff.1 h
  rcases hlast : r.names.getLast? with _ | name
  · refine ⟨r, d.start r, none, hroute, ?_, by simp⟩
    unfold place
    rw [hlast]
  · obtain ⟨init, hnames⟩ := List.getLast?_eq_some_iff.1 hlast
    rw [hnames] at hwalk
    obtain ⟨parent, hparent, hstep⟩ := walk_concat_eq_ok hwalk
    have hinit : r.names.dropLast = init := by rw [hnames, List.dropLast_concat]
    rw [← hinit] at hparent
    refine ⟨r, parent, _, hroute, place_of_walk hlast hparent (directory_of_step hstep), ?_⟩
    intro name' hname
    by_cases hdots : name = "." ∨ name = ".."
    · simp [hdots] at hname
    · rw [if_neg hdots] at hname
      cases hname
      rw [not_or] at hdots
      exact (step_eq_ok hdots.1 hdots.2 hstep).2

/-- **A directory that is there is not made again.** -/
theorem makeDirectory_of_isDirectory {path : String} (h : d.isDirectory path) :
    d.makeDirectory path = .error .alreadyExists := by
  obtain ⟨loc, hlocate, -⟩ := isDirectory_iff.1 h
  obtain ⟨r, parent, name?, hroute, hplace, hname⟩ := exists_place_of_locate hlocate
  unfold makeDirectory
  rcases name? with _ | name
  · simp only [hroute, hplace, bind, Except.bind]
    rfl
  · obtain ⟨hsize, hsome⟩ := hname name rfl
    simp only [hroute, hplace, bind, Except.bind, Nat.not_lt.2 hsize, if_false, hsome, if_true]
    rfl

/-- A directory that was made is there. -/
theorem isDirectory_of_makeDirectory {path : String} (h : d.makeDirectory path = .ok d') :
    d'.isDirectory path := by
  have hkeeps := (makeDirectory_adds h).keeps
  unfold makeDirectory at h
  obtain ⟨r, hroute, h⟩ := bind_eq_ok_iff.1 h
  obtain ⟨⟨parent, name?⟩, hplace, h⟩ := bind_eq_ok_iff.1 h
  rcases name? with _ | name
  · cases h
  · obtain ⟨hlast, hdot, hdots, hwalk, hdir⟩ := place_eq_ok hplace
    simp only at h
    split at h
    · cases h
    · rename_i hsize
      split at h
      · cases h
      · cases h
        have hmade : Disk.entry? (d.set (parent ++ [name]) .directory) (parent ++ [name]) =
            some .directory := by
          rw [entry?_set d (by simp), if_pos rfl]
        refine isDirectory_iff.2 ⟨parent ++ [name], ?_, hmade⟩
        apply locate_of_walk hroute hlast hdot hdots (Nat.le_of_not_lt hsize) hwalk hdir hkeeps
        · rw [hmade]
          rfl
        · intro _
          exact hmade

/-- Directories that were made are there. -/
theorem isDirectory_of_makeDirectories {path : String}
    (h : (d.makeDirectories path).1 = .ok ()) (hne : path ≠ "") :
    Disk.isDirectory (d.makeDirectories path).2 path := by
  fun_induction makeDirectories d path with
  | case1 => exact absurd rfl hne
  | case2 path _ made hmade => exact isDirectory_of_makeDirectory hmade
  | case3 path _ hnot hparent => cases h
  | case4 path _ hnot parent hparent fault led hled ih => cases h
  | case5 path _ hnot parent hparent led hled made hmade ih =>
    exact isDirectory_of_makeDirectory hmade
  | case6 path _ hnot parent hparent led hled fault hfault ih =>
    by_cases hdir : led.isDirectory path
    · exact hdir
    · rw [if_neg hdir] at h
      cases h
  | case7 path _ fault hnot hfault =>
    by_cases hdir : d.isDirectory path
    · exact hdir
    · rw [if_neg hdir] at h
      cases h

/-- Making directories that are there changes nothing. -/
theorem makeDirectories_of_isDirectory {path : String} (h : d.isDirectory path) :
    d.makeDirectories path = (.ok (), d) := by
  rw [makeDirectories, makeDirectory_of_isDirectory h]
  simp only [h, if_true, ite_self]

/-- **Directories that were made once are there from then on**: making them again changes
nothing. -/
theorem makeDirectories_again {path : String} {made : Disk}
    (h : d.makeDirectories path = (.ok (), made)) (hkeeps : made.Keeps d') :
    d'.makeDirectories path = (.ok (), d') := by
  by_cases hne : path = ""
  · rw [makeDirectories, if_pos hne]
  · have hdir := isDirectory_of_makeDirectories (d := d) (by rw [h]) hne
    rw [h] at hdir
    exact makeDirectories_of_isDirectory (isDirectory_of_keeps hkeeps hdir)

end PartyInputs.Disk
