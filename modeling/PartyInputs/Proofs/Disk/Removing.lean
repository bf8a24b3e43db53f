import Mathlib.Data.List.Nodup
import PartyInputs.Proofs.Disk.Lookup

/-!
# Files that are removed

Removing a file takes the entry at its location from the disk and nothing else. No way leads through
a file, so every other path goes on leading where it led.

* `Disk.entry?_erase`: taking an entry away changes what is at its location and nothing else.
* `Disk.Without`: a disk from which the files at some locations are gone.
* `Disk.Without.find_of_notMem`, `Disk.Without.find_of_mem`: **a path that led to a file leads to it
  still, or to nothing**.
* `Disk.exists_removed`: **of files that differ any can be removed, in any order**, and paths to
  the others lead to them still.
-/

namespace PartyInputs.Disk

open List (Forall₂)

variable {d d' : Disk} {path : String} {loc : Location} {octets : List UInt8}

/-! ## Taking an entry away -/

theorem lookup_filter_ne (loc l : Location) (entries : List (Location × Entry)) :
    (entries.filter (·.1 ≠ loc)).lookup l = if l = loc then none else entries.lookup l := by
  induction entries with
  | nil => simp
  | cons first entries ih =>
    obtain ⟨k, e⟩ := first
    rw [List.filter_cons, List.lookup_cons]
    by_cases hk : k = loc
    · rw [if_neg (by simpa using hk), ih, hk]
      by_cases hl : l = loc
      · simp [hl]
      · rw [beq_eq_false_iff_ne.2 hl]
    · rw [if_pos (by simpa using hk), List.lookup_cons, ih]
      by_cases hl : l = loc
      · have hlk : l ≠ k := fun h => hk (h ▸ hl)
        rw [beq_eq_false_iff_ne.2 hlk, if_pos hl]
      · rw [if_neg hl, if_neg hl]

/-- Where an entry is taken away nothing is left, also if there were two, and everywhere else nothing
changes. -/
theorem entry?_erase (d : Disk) (hloc : loc ≠ []) (l : Location) :
    Disk.entry? (d.erase loc) l = if l = loc then none else d.entry? l := by
  unfold entry? erase
  by_cases hl : l = []
  · have hne : l ≠ loc := fun h => hloc (h ▸ hl)
    rw [if_pos hl, if_neg hne, if_pos hl]
  · rw [if_neg hl, if_neg hl, lookup_filter_ne]

/-- At the root stands a directory, so no file. -/
theorem ne_nil_of_file (h : d.entry? loc = some (.file octets)) : loc ≠ [] := by
  rintro rfl
  cases h

/-! ## Disks without some files -/

/-- `d'` is `d` without the files that stood at some locations. -/
structure Without (d : Disk) (locs : List Location) (d' : Disk) : Prop where
  home : d'.home = d.home
  file : ∀ loc ∈ locs, ∃ octets, d.entry? loc = some (.file octets)
  entry : ∀ loc, d'.entry? loc = if loc ∈ locs then none else d.entry? loc

namespace Without

variable {locs : List Location}

theorem refl (d : Disk) : d.Without [] d := ⟨rfl, by simp, by simp⟩

theorem entry_of_notMem (h : d.Without locs d') (hloc : loc ∉ locs) :
    d'.entry? loc = d.entry? loc := by
  rw [h.entry, if_neg hloc]

theorem directory (h : d.Without locs d') (hdir : d.entry? loc = some .directory) :
    d'.entry? loc = some .directory := by
  rw [h.entry_of_notMem, hdir]
  intro hmem
  obtain ⟨octets, hfile⟩ := h.file loc hmem
  rw [hdir] at hfile
  cases hfile

/-- What stands on the disk without the files stood on the disk with them. -/
theorem keeps (h : d.Without locs d') : d'.Keeps d := by
  have hback : ∀ {l e}, d'.entry? l = some e → d.entry? l = some e := by
    intro l e he
    rw [h.entry] at he
    split at he
    · cases he
    · exact he
  refine ⟨h.home.symm, fun l hdir => hback hdir, ?_⟩
  intro l hsome
  obtain ⟨e, he⟩ := Option.isSome_iff_exists.1 hsome
  rw [hback he]
  rfl

/-- **A path that leads to what is not removed goes on leading there**: what its way passes through
are directories. -/
theorem locate_of_notMem (h : d.Without locs d') (hlocate : d.locate path = .ok loc)
    (hloc : loc ∉ locs) : d'.locate path = .ok loc := by
  apply locate_of_entries h.home (fun l => h.directory) _ hlocate
  rw [h.entry_of_notMem hloc]
  exact id

theorem find_of_notMem (h : d.Without locs d') (hlocate : d.locate path = .ok loc)
    (hloc : loc ∉ locs) : d'.find path = d.find path := by
  unfold find
  rw [hlocate, h.locate_of_notMem hlocate hloc]
  simp only [h.entry_of_notMem hloc]

/-- **A path that led to what is removed leads to nothing**: if it led anywhere, it would have led
there before. -/
theorem find_of_mem (h : d.Without locs d') (hlocate : d.locate path = .ok loc)
    (hloc : loc ∈ locs) : ∃ fault, d'.find path = .error fault := by
  rcases hfind : d'.find path with fault | e
  · exact ⟨fault, rfl⟩
  · obtain ⟨l, hl, he⟩ := find_eq_ok_iff.1 hfind
    have hback := locate_of_keeps h.keeps hl
    rw [hlocate] at hback
    cases hback
    rw [h.entry, if_pos hloc] at he
    cases he

/-! ## Removing one file after the other -/

/-- **Removing one more file** succeeds, and then that is gone too. -/
theorem removeFile (h : d.Without locs d') (hlocate : d.locate path = .ok loc)
    (hfile : d.entry? loc = some (.file octets)) (hloc : loc ∉ locs) :
    d'.removeFile path = .ok (d'.erase loc) ∧ d.Without (locs ++ [loc]) (d'.erase loc) := by
  have hthere : d'.entry? loc = some (.file octets) := by rw [h.entry_of_notMem hloc, hfile]
  refine ⟨?_, h.home, ?_, ?_⟩
  · unfold Disk.removeFile
    refine bind_eq_ok_iff.2 ⟨loc, h.locate_of_notMem hlocate hloc, ?_⟩
    simp only [hthere]
    rfl
  · intro l hl
    rcases List.mem_append.1 hl with hl | hl
    · exact h.file l hl
    · rw [List.mem_singleton.1 hl]
      exact ⟨octets, hfile⟩
  · intro l
    rw [entry?_erase d' (ne_nil_of_file hthere), h.entry]
    by_cases hl : l = loc
    · simp [hl]
    · simp [hl]

end Without

/-- Different files can be removed one after the other, in whatever order they are given. -/
theorem exists_foldlM_removeFile {paths : List String} {locs : List Location}
    (hpaths : Forall₂ (fun path loc => d.locate path = .ok loc ∧
      ∃ octets, d.entry? loc = some (.file octets)) paths locs) :
    ∀ {done : List Location} {d' : Disk}, (done ++ locs).Nodup → d.Without done d' →
      ∃ after, paths.foldlM removeFile d' = .ok after ∧ d.Without (done ++ locs) after := by
  induction hpaths with
  | nil =>
    intro done d' _ h
    rw [List.append_nil]
    exact ⟨d', rfl, h⟩
  | @cons path loc paths locs hpath _ ih =>
    intro done d' hnodup h
    obtain ⟨hlocate, octets, hfile⟩ := hpath
    have hnew : loc ∉ done := by
      intro hmem
      exact (List.nodup_append.1 hnodup).2.2 loc hmem loc List.mem_cons_self rfl
    obtain ⟨hremove, hnext⟩ := h.removeFile hlocate hfile hnew
    rw [List.append_cons] at hnodup ⊢
    obtain ⟨after, hfold, hafter⟩ := ih hnodup hnext
    refine ⟨after, ?_, hafter⟩
    rw [List.foldlM_cons, hremove]
    exact hfold

/-- **Any of some files can be removed, in any order**, if their paths lead to different locations.
Paths to what is removed lead to nothing then, and paths to what is not lead to it still. -/
theorem exists_removed {paths removed : List String} (hdiffer : (paths.map d.locate).Nodup)
    (hfiles : ∀ path ∈ paths, ∃ octets, d.find path = .ok (.file octets))
    (hsubset : removed ⊆ paths) (hnodup : removed.Nodup) :
    ∃ after, removed.foldlM removeFile d = .ok after ∧ ∀ path ∈ paths,
      (path ∈ removed → ∃ fault, after.find path = .error fault) ∧
        (path ∉ removed → after.find path = d.find path) := by
  have hlocated : ∀ path ∈ paths, ∃ loc, d.locate path = .ok loc ∧
      ∃ octets, d.entry? loc = some (.file octets) := by
    intro path hpath
    obtain ⟨octets, hfind⟩ := hfiles path hpath
    obtain ⟨loc, hlocate, hfile⟩ := find_eq_ok_iff.1 hfind
    exact ⟨loc, hlocate, octets, hfile⟩
  have hinj : ∀ path ∈ paths, ∀ path' ∈ paths, d.locate path = d.locate path' → path = path' :=
    fun path hpath path' hpath' => List.inj_on_of_nodup_map hdiffer hpath hpath'
  obtain ⟨gone, hgone⟩ := exists_forall₂_iff.2 fun path hpath => hlocated path (hsubset hpath)
  have hlocs : removed.map d.locate = gone.map .ok :=
    map_eq_map_iff_forall₂.2 (hgone.imp fun _ _ => And.left)
  have hgoneNodup : gone.Nodup := by
    apply List.Nodup.of_map (Except.ok : Location → Except Fault Location)
    rw [← hlocs]
    exact hnodup.map_on fun path hpath path' hpath' =>
      hinj path (hsubset hpath) path' (hsubset hpath')
  obtain ⟨after, hfold, hwithout⟩ :=
    @exists_foldlM_removeFile d removed gone hgone [] d hgoneNodup (.refl d)
  refine ⟨after, hfold, ?_⟩
  intro path hpath
  obtain ⟨loc, hlocate, -⟩ := hlocated path hpath
  have hmem : loc ∈ gone ↔ path ∈ removed := by
    rw [← List.mem_map_of_injective (fun _ _ => Except.ok.inj), ← hlocs, List.mem_map]
    constructor
    · rintro ⟨path', hpath', heq⟩
      rw [← hinj path' (hsubset hpath') path hpath (heq.trans hlocate.symm)]
      exact hpath'
    · intro hremoved
      exact ⟨path, hremoved, hlocate⟩
  rw [← hmem]
  exact ⟨hwithout.find_of_mem hlocate, hwithout.find_of_notMem hlocate⟩

end PartyInputs.Disk
