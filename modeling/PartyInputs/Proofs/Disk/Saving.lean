import PartyInputs.Proofs.Disk.Changes
import PartyInputs.Proofs.Sink.Limits

/-!
# Whole files

Writing a whole file opens it and puts the octets into it, as many as there is room for. What stands
elsewhere on the disk has no part in it, and the path that the file was written to leads to it.

* `Disk.Saves`: what writing to a path changes.
* `Disk.write_cases`: **writing fails at opening and changes nothing, or saves**, and then it
  succeeds iff there is room.
* `Disk.sameExceptAt_write`: **no entry but the one that the path leads to is touched**.
* `Disk.writes_of_write`: a write that succeeds.
-/

namespace PartyInputs.Disk

variable {d d' : Disk} {path : String} {octets : List UInt8} {loc : Location}

/-- What is found at a location is the root or one of the entries. -/
theorem mem_entries_of_entry? {e : Entry} (h : d.entry? loc = some e) (hne : e ≠ .directory) :
    (loc, e) ∈ d.entries := by
  unfold entry? at h
  split at h
  · cases h
    exact absurd rfl hne
  · obtain ⟨front, back, hentries, -⟩ := List.lookup_eq_some_iff.1 h
    rw [hentries]
    exact List.mem_append_right _ List.mem_cons_self

/-- `d'` is `d` after octets were written to the file that a path names: that file stands at the
location and holds as many of them as there was room for. -/
structure Saves (d : Disk) (path : String) (octets : List UInt8) (loc : Location) (d' : Disk) :
    Prop where
  writes : d.Writes loc ((d.medium loc).kept octets) d'
  no_directory : d.entry? loc ≠ some .directory
  locate : d'.locate path = .ok loc

theorem Saves.keeps (h : d.Saves path octets loc d') : d.Keeps d' := h.writes.keeps h.no_directory

/-- **Writing fails at opening and changes nothing, or it saves** to the file that was opened; then
it succeeds iff there is room for all octets. -/
theorem write_cases (d : Disk) (path : String) (octets : List UInt8) :
    (∃ fault, d.openFile path = .error fault ∧ d.write path octets = (.error fault, d)) ∨
      ∃ loc opened, d.openFile path = .ok (loc, opened) ∧
        d.Saves path octets loc (d.write path octets).2 ∧
        (d.write path octets).1 =
          if (d.medium loc).HasRoom octets.length then .ok ()
          else .error (d.medium loc).fullFault := by
  unfold write
  rcases hopen : d.openFile path with fault | ⟨loc, opened⟩
  · exact .inl ⟨fault, rfl, rfl⟩
  · obtain ⟨parent, name, rfl, hopens, hwrites⟩ := openFile_eq_ok hopen
    have hloc : parent ++ [name] ≠ [] := by simp
    obtain ⟨hresult, hoffered⟩ := Sink.put_offered_rest (opened.medium_spec (parent ++ [name])).1
      _ octets [] (Sink.offered_empty _) (.inr Medium.hasRoom_zero)
    rw [hwrites.medium_eq, List.nil_append] at hresult hoffered
    have hsaved := hwrites.keep_nil hloc ((d.medium (parent ++ [name])).kept octets)
    simp only [hwrites.medium_eq, hoffered.octets]
    refine .inr ⟨parent ++ [name], opened, rfl, ⟨hsaved, hopens.no_directory, ?_⟩, hresult⟩
    exact hopens.locate (hsaved.keeps hopens.no_directory) hsaved.isSome

/-- `d'` is `d` except for the file that a path leads to. -/
structure SameExceptAt (d : Disk) (path : String) (d' : Disk) : Prop where
  home : d'.home = d.home
  limits : d'.limits = d.limits
  directory : ∀ l, d.entry? l = some .directory → d'.entry? l = some .directory
  entry : ∀ l, d'.entry? l = d.entry? l ∨ d'.locate path = .ok l

/-- **No entry but the one that the path leads to is touched**, whether writing succeeds or not. -/
theorem sameExceptAt_write (d : Disk) (path : String) (octets : List UInt8) :
    d.SameExceptAt path (d.write path octets).2 := by
  rcases d.write_cases path octets with ⟨fault, -, hwrite⟩ | ⟨loc, -, -, hsaves, -⟩
  · rw [hwrite]
    exact ⟨rfl, rfl, fun _ h => h, fun _ => .inl rfl⟩
  · refine ⟨hsaves.writes.home, hsaves.writes.limits, hsaves.keeps.directory, ?_⟩
    intro l
    by_cases hl : l = loc
    · exact .inr (hl ▸ hsaves.locate)
    · exact .inl (hsaves.writes.elsewhere l hl)

/-- A write that succeeds has written all octets to the file that the path leads to. -/
theorem writes_of_write (h : (d.write path octets).1 = .ok ()) :
    ∃ loc, (d.write path octets).2.locate path = .ok loc ∧
      d.Writes loc octets (d.write path octets).2 := by
  rcases d.write_cases path octets with ⟨fault, -, hwrite⟩ | ⟨loc, -, -, hsaves, hresult⟩
  · rw [hwrite] at h
    cases h
  · rw [h] at hresult
    have hroom : (d.medium loc).HasRoom octets.length := by
      by_contra hno
      rw [if_neg hno] at hresult
      cases hresult
    have hwrites := hsaves.writes
    rw [Medium.kept_of_hasRoom hroom] at hwrites
    exact ⟨loc, hsaves.locate, hwrites⟩

/-- A file that can be opened and has room for all octets is written. -/
theorem write_of_openFile {opened : Disk} (hopen : d.openFile path = .ok (loc, opened))
    (hroom : (d.medium loc).HasRoom octets.length) : (d.write path octets).1 = .ok () := by
  rcases d.write_cases path octets with ⟨fault, hfail, -⟩ | ⟨loc', opened', hopen', -, hresult⟩
  · rw [hopen] at hfail
    cases hfail
  · rw [hopen] at hopen'
    cases hopen'
    rw [hresult, if_pos hroom]

end PartyInputs.Disk
