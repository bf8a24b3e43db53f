import PartyInputs.Proofs.Disk.Lookup

/-!
# What is made and opened

* `Disk.makeDirectories_adds`: making directories **adds directories and nothing else**, whether it
  succeeds or not.
* `Disk.openFile_eq_ok`: opening a file empties it or adds it **and touches nothing else**.
-/

namespace PartyInputs.Disk

/-! ## Directories -/

/-- A directory that is made was not there before. -/
theorem makeDirectory_adds {d d' : Disk} {path : String} (h : d.makeDirectory path = .ok d') :
    d.AddsDirectories d' := by
  unfold makeDirectory at h
  obtain ⟨r, -, h⟩ := bind_eq_ok_iff.1 h
  obtain ⟨⟨loc, name?⟩, -, h⟩ := bind_eq_ok_iff.1 h
  rcases name? with _ | name
  · cases h
  · simp only at h
    split at h
    · cases h
    · split at h
      · cases h
      · rename_i hnone
        cases h
        refine AddsDirectories.set (by simp) ?_
        rw [Bool.not_eq_true, Option.isSome_eq_false_iff, Option.isNone_iff_eq_none] at hnone
        exact hnone

/-- **Making directories adds directories and nothing else**, whether it succeeds or not: on the way
upwards nothing is made, and on the way back each call adds one directory or none. -/
theorem makeDirectories_adds (d : Disk) (path : String) :
    d.AddsDirectories (d.makeDirectories path).2 := by
  fun_induction makeDirectories d path with
  | case1 => exact .refl d
  | case2 path hne made hmade => exact makeDirectory_adds hmade
  | case3 path hne hnot hparent => exact .refl d
  | case4 path hne hnot parent hparent fault led hled ih =>
    rw [hled] at ih
    exact ih
  | case5 path hne hnot parent hparent led hled made hmade ih =>
    rw [hled] at ih
    exact ih.trans (makeDirectory_adds hmade)
  | case6 path hne hnot parent hparent led hled fault hfault ih =>
    rw [hled] at ih
    exact ih
  | case7 path hne fault hnot hfault => exact .refl d

/-! ## Files -/

/-- **Opening a file touches nothing else**: what stands at its location is emptied, unless it is a
device, and nothing stands there but a file that is empty or a device. -/
theorem openFile_eq_ok {d d' : Disk} {path : String} {loc : Location}
    (h : d.openFile path = .ok (loc, d')) :
    ∃ parent name, loc = parent ++ [name] ∧ d.Opens path parent name ∧ d.Writes loc [] d' := by
  unfold openFile at h
  obtain ⟨r, hroute, h⟩ := bind_eq_ok_iff.1 h
  obtain ⟨⟨parent, name?⟩, hplace, h⟩ := bind_eq_ok_iff.1 h
  obtain rfl := eq_ofPath_of_route hroute
  rcases name? with _ | name
  · cases h
  · obtain ⟨hlast, hdot, hdots, hwalk, hdir⟩ := place_eq_ok hplace
    simp only at h
    split at h
    · cases h
    · rename_i hclosed
      split at h
      · cases h
      · rename_i hsize
        split at h
        · cases h
        · rename_i hdirectory
          cases h
          have hopens : d.Opens path parent name := {
            accepted := hroute, open_ended := Bool.eq_false_iff.2 hclosed, last := hlast
            ne_dot := hdot, ne_dots := hdots, size := Nat.le_of_not_lt hsize, walk := hwalk
            directory := hdir, no_directory := hdirectory }
          exact ⟨parent, name, rfl, hopens, d.writes_empty (by simp)⟩

end PartyInputs.Disk
