import PartyInputs.Proofs.Disk.Entries
import PartyInputs.Proofs.Fallible

/-!
# Where paths lead

A path is followed from directory to directory, so what matters for it are the directories on the
way and that something stands at its end. As long as a disk keeps these, the path leads to the same
location.

* `Disk.walk_of_entries`, `Disk.locate_of_entries`: **a way that exists goes on existing**.
* `Disk.Opens`: where the file of a path stands or would stand: in a directory that the path leads
  to, under its last name.
* `Disk.Opens.locate`: once something stands there, the path leads to it.
-/

namespace PartyInputs.Disk

variable {d d' : Disk}

/-! ## Steps -/

theorem expectDirectory_eq_ok_iff {loc : Location} :
    d.expectDirectory loc = .ok () ↔ d.entry? loc = some .directory := by
  unfold expectDirectory
  split
  · rename_i h
    simp [h]
  · rename_i e hne h
    simpa [h] using hne
  · rename_i h
    simp [h]

/-- A name leads from a directory to what it names there. -/
theorem step_plain {loc : Location} {name : String} (hdir : d.entry? loc = some .directory)
    (hdot : name ≠ ".") (hdots : name ≠ "..") (hsize : name.utf8ByteSize ≤ nameLimit)
    (hsome : (d.entry? (loc ++ [name])).isSome) : d.step loc name = .ok (loc ++ [name]) := by
  unfold step
  rw [expectDirectory_eq_ok_iff.2 hdir]
  simp only [hdot, hdots, if_false, Nat.not_lt.2 hsize, hsome, if_true]

/-- A step is taken from a directory. -/
theorem directory_of_step {loc next : Location} {name : String} (h : d.step loc name = .ok next) :
    d.entry? loc = some .directory := by
  unfold step at h
  split at h
  · cases h
  · rename_i hdir
    exact expectDirectory_eq_ok_iff.1 hdir

/-- A step with the name of an entry leads to that entry, which is there. -/
theorem step_eq_ok {loc next : Location} {name : String} (hdot : name ≠ ".") (hdots : name ≠ "..")
    (h : d.step loc name = .ok next) :
    next = loc ++ [name] ∧ name.utf8ByteSize ≤ nameLimit ∧ (d.entry? (loc ++ [name])).isSome := by
  unfold step at h
  split at h
  · cases h
  · rw [if_neg hdot, if_neg hdots] at h
    split at h
    · cases h
    · rename_i hsize
      split at h
      · rename_i hsome
        cases h
        exact ⟨rfl, Nat.le_of_not_lt hsize, hsome⟩
      · cases h

/-- A step leads where it led as long as the directory that it is taken from and what it leads to
are there. -/
theorem step_of_entries {loc next : Location} {name : String}
    (hdir : d.entry? loc = some .directory → d'.entry? loc = some .directory)
    (hsome : (d.entry? next).isSome → (d'.entry? next).isSome)
    (hstep : d.step loc name = .ok next) : d'.step loc name = .ok next := by
  have hkept := hdir (directory_of_step hstep)
  by_cases hdots : name = "." ∨ name = ".."
  · -- dots lead to the same location on every disk
    rw [step, expectDirectory_eq_ok_iff.2 (directory_of_step hstep)] at hstep
    rw [step, expectDirectory_eq_ok_iff.2 hkept]
    rcases hdots with rfl | rfl
    · exact hstep
    · exact hstep
  · rw [not_or] at hdots
    obtain ⟨rfl, hsize, hthere⟩ := step_eq_ok hdots.1 hdots.2 hstep
    exact step_plain hkept hdots.1 hdots.2 hsize (hsome hthere)

/-! ## Ways -/

theorem walk_cons (loc : Location) (name : String) (names : List String) :
    d.walk loc (name :: names) =
      match d.step loc name with
      | .error fault => .error fault
      | .ok next => d.walk next names := rfl

/-- A way starts with a step, and goes on from where that leads. -/
theorem walk_cons_eq_ok_iff {loc last : Location} {name : String} {names : List String} :
    d.walk loc (name :: names) = .ok last ↔
      ∃ next, d.step loc name = .ok next ∧ d.walk next names = .ok last := by
  rw [walk_cons]
  rcases d.step loc name with fault | next
  · simp
  · simp

/-- **A way that exists goes on existing** as long as directories stay and what it leads to is
there: everything in between is a directory, since a step is taken from it. -/
theorem walk_of_entries
    (hdir : ∀ l, d.entry? l = some .directory → d'.entry? l = some .directory)
    {last : Location} (hsome : (d.entry? last).isSome → (d'.entry? last).isSome)
    {names : List String} :
    ∀ {loc : Location}, d.walk loc names = .ok last → d'.walk loc names = .ok last := by
  induction names with
  | nil => intro loc hwalk; exact hwalk
  | cons name names ih =>
    intro loc hwalk
    obtain ⟨next, hstep, hrest⟩ := walk_cons_eq_ok_iff.1 hwalk
    have hnext : (d.entry? next).isSome → (d'.entry? next).isSome := by
      rcases names with _ | ⟨second, names⟩
      · cases hrest
        exact hsome
      · obtain ⟨after, hafter, -⟩ := walk_cons_eq_ok_iff.1 hrest
        intro _
        rw [hdir next (directory_of_step hafter)]
        rfl
    exact walk_cons_eq_ok_iff.2 ⟨next, step_of_entries (hdir loc) hnext hstep, ih hrest⟩

theorem walk_of_keeps (h : d.Keeps d') {names : List String} {loc last : Location}
    (hwalk : d.walk loc names = .ok last) : d'.walk loc names = .ok last :=
  walk_of_entries h.directory (h.present last) hwalk

/-- A way ends with a step from where its other names lead. -/
theorem walk_concat_eq_ok {names : List String} {name : String} :
    ∀ {loc last : Location}, d.walk loc (names ++ [name]) = .ok last →
      ∃ mid, d.walk loc names = .ok mid ∧ d.step mid name = .ok last := by
  induction names with
  | nil =>
    intro loc last hwalk
    obtain ⟨next, hstep, hnext⟩ := walk_cons_eq_ok_iff.1 hwalk
    cases hnext
    exact ⟨loc, rfl, hstep⟩
  | cons first names ih =>
    intro loc last hwalk
    obtain ⟨next, hstep, hrest⟩ := walk_cons_eq_ok_iff.1 hwalk
    obtain ⟨mid, hmid, hlast⟩ := ih hrest
    exact ⟨mid, walk_cons_eq_ok_iff.2 ⟨next, hstep, hmid⟩, hlast⟩

/-- A way that ends in the name of an entry leads to that entry. -/
theorem getLast?_of_walk {names : List String} {name : String} (hdot : name ≠ ".")
    (hdots : name ≠ "..") {loc last : Location} (h : d.walk loc (names ++ [name]) = .ok last) :
    last.getLast? = some name := by
  obtain ⟨mid, -, hstep⟩ := walk_concat_eq_ok h
  obtain ⟨rfl, -, -⟩ := step_eq_ok hdot hdots hstep
  exact List.getLast?_concat

/-- A way goes on from where its first part leads. -/
theorem walk_append {names more : List String} :
    ∀ {loc next : Location}, d.walk loc names = .ok next →
      d.walk loc (names ++ more) = d.walk next more := by
  induction names with
  | nil => intro loc next hwalk; cases hwalk; rfl
  | cons name names ih =>
    intro loc next hwalk
    obtain ⟨mid, hstep, hrest⟩ := walk_cons_eq_ok_iff.1 hwalk
    rw [List.cons_append, walk_cons, hstep]
    exact ih hrest

/-! ## Places of files -/

theorem eq_ofPath_of_route {path : String} {r : Route} (h : route path = .ok r) :
    r = .ofPath path := by
  unfold route at h
  split at h
  · cases h
  · split at h
    · cases h
    · split at h
      · cases h
      · cases h
        rfl

/-- Where a path leads, it leads as long as directories stay and what it leads to is there. -/
theorem locate_of_entries (hhome : d'.home = d.home)
    (hdir : ∀ l, d.entry? l = some .directory → d'.entry? l = some .directory)
    {path : String} {loc : Location} (hsome : (d.entry? loc).isSome → (d'.entry? loc).isSome)
    (hlocate : d.locate path = .ok loc) : d'.locate path = .ok loc := by
  unfold locate at hlocate ⊢
  obtain ⟨r, hroute, hlocate⟩ := bind_eq_ok_iff.1 hlocate
  obtain ⟨last, hwalk, hlocate⟩ := bind_eq_ok_iff.1 hlocate
  have hstart : d'.start r = d.start r := by
    unfold start
    rw [hhome]
  by_cases hclosed : r.closed = true
  · rw [if_pos hclosed] at hlocate
    obtain ⟨_, hlast, hloc⟩ := bind_eq_ok_iff.1 hlocate
    cases hloc
    have hkept := hdir loc (expectDirectory_eq_ok_iff.1 hlast)
    refine bind_eq_ok_iff.2 ⟨r, hroute, bind_eq_ok_iff.2 ⟨loc, ?_, ?_⟩⟩
    · rw [hstart]
      exact walk_of_entries hdir hsome hwalk
    · rw [if_pos hclosed]
      exact bind_eq_ok_iff.2 ⟨(), expectDirectory_eq_ok_iff.2 hkept, rfl⟩
  · rw [if_neg hclosed] at hlocate
    cases hlocate
    refine bind_eq_ok_iff.2 ⟨r, hroute, bind_eq_ok_iff.2 ⟨loc, ?_, ?_⟩⟩
    · rw [hstart]
      exact walk_of_entries hdir hsome hwalk
    · rw [if_neg hclosed]
      rfl

theorem locate_of_keeps (h : d.Keeps d') {path : String} {loc : Location}
    (hlocate : d.locate path = .ok loc) : d'.locate path = .ok loc :=
  locate_of_entries h.home h.directory (h.present loc) hlocate

/-- A path leads to an entry iff that is at the location that it leads to. -/
theorem find_eq_ok_iff {path : String} {e : Entry} :
    d.find path = .ok e ↔ ∃ loc, d.locate path = .ok loc ∧ d.entry? loc = some e := by
  unfold find
  rcases d.locate path with fault | loc
  · simp
  · rcases hentry : d.entry? loc with _ | e'
    · simp [hentry]
    · simp [hentry]

/-- A path that ends in the name of an entry leads to an entry of that name. -/
theorem getLast?_of_locate {path name : String} {loc : Location}
    (hlast : (Route.ofPath path).names.getLast? = some name) (hdot : name ≠ ".")
    (hdots : name ≠ "..") (h : d.locate path = .ok loc) : loc.getLast? = some name := by
  unfold locate at h
  obtain ⟨r, hroute, h⟩ := bind_eq_ok_iff.1 h
  obtain ⟨last, hwalk, h⟩ := bind_eq_ok_iff.1 h
  obtain rfl := eq_ofPath_of_route hroute
  obtain ⟨init, hnames⟩ := List.getLast?_eq_some_iff.1 hlast
  rw [hnames] at hwalk
  have hloc : last = loc := by
    split at h
    · obtain ⟨_, -, h⟩ := bind_eq_ok_iff.1 h
      cases h
      rfl
    · cases h
      rfl
  rw [← hloc]
  exact getLast?_of_walk hdot hdots hwalk

/-- The file that `path` names stands in the directory `parent` under `name`, or would stand
there. -/
structure Opens (d : Disk) (path : String) (parent : Location) (name : String) : Prop where
  accepted : route path = .ok (.ofPath path)
  open_ended : (Route.ofPath path).closed = false
  last : (Route.ofPath path).names.getLast? = some name
  ne_dot : name ≠ "."
  ne_dots : name ≠ ".."
  size : name.utf8ByteSize ≤ nameLimit
  walk : d.walk (d.start (.ofPath path)) (Route.ofPath path).names.dropLast = .ok parent
  directory : d.entry? parent = some .directory
  no_directory : d.entry? (parent ++ [name]) ≠ some .directory

/-- A path leads to what stands under its last name, where the names in front of it lead, as long
as everything is kept. If the path ends in a slash, it has to be a directory. -/
theorem locate_of_walk {path : String} {r : Route} {parent : Location} {name : String}
    (hroute : route path = .ok r) (hlast : r.names.getLast? = some name) (hdot : name ≠ ".")
    (hdots : name ≠ "..") (hsize : name.utf8ByteSize ≤ nameLimit)
    (hwalk : d.walk (d.start r) r.names.dropLast = .ok parent)
    (hdir : d.entry? parent = some .directory) (hkeeps : d.Keeps d')
    (hsome : (d'.entry? (parent ++ [name])).isSome)
    (hclosed : r.closed = true → d'.entry? (parent ++ [name]) = some .directory) :
    d'.locate path = .ok (parent ++ [name]) := by
  obtain ⟨init, hnames⟩ := List.getLast?_eq_some_iff.1 hlast
  have hstart : d'.start r = d.start r := by
    unfold start
    rw [hkeeps.home]
  have hparent : d'.walk (d'.start r) init = .ok parent := by
    rw [hnames, List.dropLast_concat] at hwalk
    rw [hstart]
    exact walk_of_keeps hkeeps hwalk
  have hstep : d'.step parent name = .ok (parent ++ [name]) :=
    step_plain (hkeeps.directory parent hdir) hdot hdots hsize hsome
  have hnamed : d'.walk (d'.start r) r.names = .ok (parent ++ [name]) := by
    rw [hnames, walk_append hparent, walk_cons, hstep]
    rfl
  unfold Disk.locate
  refine bind_eq_ok_iff.2 ⟨_, hroute, bind_eq_ok_iff.2 ⟨_, hnamed, ?_⟩⟩
  by_cases h : r.closed = true
  · rw [if_pos h, expectDirectory_eq_ok_iff.2 (hclosed h)]
    rfl
  · rw [if_neg h]
    rfl

/-- **A path leads to its file** as soon as something stands there, and from then on. -/
theorem Opens.locate {path : String} {parent : Location} {name : String}
    (h : d.Opens path parent name) (hkeeps : d.Keeps d')
    (hsome : (d'.entry? (parent ++ [name])).isSome) :
    d'.locate path = .ok (parent ++ [name]) := by
  apply locate_of_walk h.accepted h.last h.ne_dot h.ne_dots h.size h.walk h.directory hkeeps hsome
  rw [h.open_ended]
  intro hclosed
  cases hclosed

/-- A place that a route leads to, with a name in it. -/
theorem place_eq_ok {r : Route} {loc : Location} {name : String}
    (h : d.place r = .ok (loc, some name)) :
    r.names.getLast? = some name ∧ name ≠ "." ∧ name ≠ ".." ∧
      d.walk (d.start r) r.names.dropLast = .ok loc ∧ d.entry? loc = some .directory := by
  unfold place at h
  split at h
  · cases h
  · rename_i last hlast
    obtain ⟨loc', hwalk, h⟩ := bind_eq_ok_iff.1 h
    obtain ⟨_, hdir, h⟩ := bind_eq_ok_iff.1 h
    split at h
    · cases h
    · rename_i hdots
      cases h
      rw [not_or] at hdots
      exact ⟨hlast, hdots.1, hdots.2, hwalk, expectDirectory_eq_ok_iff.1 hdir⟩

/-- The place of a route whose names in front of the last one lead to a directory. -/
theorem place_of_walk {r : Route} {loc : Location} {name : String}
    (hlast : r.names.getLast? = some name)
    (hwalk : d.walk (d.start r) r.names.dropLast = .ok loc)
    (hdir : d.entry? loc = some .directory) :
    d.place r = .ok (loc, if name = "." ∨ name = ".." then none else some name) := by
  unfold place
  rw [hlast]
  refine bind_eq_ok_iff.2 ⟨loc, hwalk, bind_eq_ok_iff.2 ⟨(), ?_, rfl⟩⟩
  exact expectDirectory_eq_ok_iff.2 hdir

end PartyInputs.Disk
