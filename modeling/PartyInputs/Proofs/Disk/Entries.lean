import PartyInputs.Disk.Operations

/-!
# What operations change on a disk

An operation on a disk is described by what it changes: the entries at some locations, and nothing
else. Three descriptions are enough for everything that a run does.

* `Disk.entry?_set`: putting an entry at a location changes what is there and nothing else.
* `Disk.AddsDirectories`: some directories are new; **no other entry is touched**.
* `Disk.Writes`: what stands at one location is now a file with given octets, whatever it was; a
  device stays a device.
* `Disk.Keeps`: what all of them have in common: directories stay, and so does everything that
  a path can lead to.
-/

namespace PartyInputs.Disk

/-! ## Putting an entry at a location -/

theorem lookup_setEntry (loc l : Location) (e : Entry) (entries : List (Location × Entry)) :
    (setEntry loc e entries).lookup l = if l = loc then some e else entries.lookup l := by
  induction entries with
  | nil =>
    by_cases h : l = loc
    · simp [setEntry, h]
    · simp [setEntry, h]
  | cons first entries ih =>
    obtain ⟨k, old⟩ := first
    unfold setEntry
    by_cases hk : k = loc
    · rw [if_pos hk, List.lookup_cons, List.lookup_cons, hk]
      by_cases hl : l = loc
      · simp [hl]
      · rw [beq_eq_false_iff_ne.2 hl, if_neg hl]
    · rw [if_neg hk, List.lookup_cons, List.lookup_cons, ih]
      by_cases hl : l = loc
      · have hlk : l ≠ k := fun h => hk (h ▸ hl)
        rw [beq_eq_false_iff_ne.2 hlk, if_pos hl]
      · rw [if_neg hl, if_neg hl]

/-- What is put at a location is found there, and everywhere else nothing changes. -/
theorem entry?_set (d : Disk) {loc : Location} (hloc : loc ≠ []) (e : Entry) (l : Location) :
    Disk.entry? (d.set loc e) l = if l = loc then some e else d.entry? l := by
  unfold entry? set
  by_cases hl : l = []
  · have hne : l ≠ loc := fun h => hloc (h ▸ hl)
    rw [if_pos hl, if_neg hne, if_pos hl]
  · rw [if_neg hl, if_neg hl, lookup_setEntry]

/-! ## New directories -/

/-- `d'` is `d` with directories at some locations where nothing was. -/
structure AddsDirectories (d d' : Disk) : Prop where
  home : d'.home = d.home
  limits : d'.limits = d.limits
  entry : ∀ l, d'.entry? l = d.entry? l ∨ (d.entry? l = none ∧ d'.entry? l = some .directory)

namespace AddsDirectories

variable {d d' d'' : Disk}

theorem refl (d : Disk) : d.AddsDirectories d := ⟨rfl, rfl, fun _ => .inl rfl⟩

theorem trans (h : d.AddsDirectories d') (h' : d'.AddsDirectories d'') :
    d.AddsDirectories d'' := by
  refine ⟨h'.home.trans h.home, h'.limits.trans h.limits, ?_⟩
  intro l
  rcases h'.entry l with heq | ⟨hnone, hdir⟩
  · rw [heq]
    exact h.entry l
  · rcases h.entry l with heq | ⟨-, hdir'⟩
    · exact .inr ⟨by rw [← heq, hnone], hdir⟩
    · rw [hnone] at hdir'
      cases hdir'

theorem set {loc : Location} (hloc : loc ≠ []) (h : d.entry? loc = none) :
    d.AddsDirectories (d.set loc .directory) := by
  refine ⟨rfl, rfl, ?_⟩
  intro l
  rw [entry?_set d hloc]
  by_cases hl : l = loc
  · rw [if_pos hl, hl]
    exact .inr ⟨h, rfl⟩
  · rw [if_neg hl]
    exact .inl rfl

/-- What is neither nothing nor a directory was there before. -/
theorem entry?_of_ne_directory (h : d.AddsDirectories d') {l : Location} {e : Entry}
    (he : d'.entry? l = some e) (hne : e ≠ .directory) : d.entry? l = some e := by
  rcases h.entry l with heq | ⟨-, hdir⟩
  · rw [← heq, he]
  · rw [he, Option.some.injEq] at hdir
    exact absurd hdir hne

end AddsDirectories

/-! ## One file -/

/-- `d'` is `d` after `octets` were written at `loc` from the start: nothing of what was there is
left, unless it is a device, which keeps nothing. -/
structure Writes (d : Disk) (loc : Location) (octets : List UInt8) (d' : Disk) : Prop where
  home : d'.home = d.home
  limits : d'.limits = d.limits
  elsewhere : ∀ l, l ≠ loc → d'.entry? l = d.entry? l
  here : (∃ device, d.entry? loc = some (.device device) ∧ d'.entry? loc = d.entry? loc) ∨
    ((∀ device, d.entry? loc ≠ some (.device device)) ∧ d'.entry? loc = some (.file octets))

namespace Writes

variable {d d' d'' : Disk} {loc : Location} {octets more : List UInt8}

/-- What is kept of more octets stands behind what was written. -/
theorem keep (hloc : loc ≠ []) (h : d.Writes loc octets d') (more : List UInt8) :
    d.Writes loc (octets ++ more) (d'.keep loc more) := by
  unfold Disk.keep
  rcases h.here with ⟨device, hdev, heq⟩ | ⟨hno, hfile⟩
  · simp only [heq.trans hdev]
    exact ⟨h.home, h.limits, h.elsewhere, .inl ⟨device, hdev, heq⟩⟩
  · simp only [hfile]
    refine ⟨h.home, h.limits, ?_, .inr ⟨hno, ?_⟩⟩
    · intro l hl
      rw [entry?_set d' hloc, if_neg hl, h.elsewhere l hl]
    · rw [entry?_set d' hloc, if_pos rfl]

/-- **Nothing is left of what was there** if the location was emptied first. -/
theorem keep_nil (hloc : loc ≠ []) (h : d.Writes loc [] d') (more : List UInt8) :
    d.Writes loc more (d'.keep loc more) :=
  h.keep hloc more

/-- Something stands where something was written. -/
theorem isSome (h : d.Writes loc octets d') : (d'.entry? loc).isSome := by
  rcases h.here with ⟨device, hdev, heq⟩ | ⟨-, hfile⟩
  · rw [heq, hdev]
    rfl
  · rw [hfile]
    rfl

/-- Writing does not change how a location takes what is written to it. -/
theorem medium_eq (h : d.Writes loc octets d') : d'.medium loc = d.medium loc := by
  unfold medium
  rcases h.here with ⟨device, -, heq⟩ | ⟨hno, hfile⟩
  · rw [heq, h.limits]
  · rw [hfile, h.limits]
    split
    · rename_i hdev
      cases hdev
    · rename_i hdev
      cases hdev
    · rcases hentry : d.entry? loc with _ | _ | _ | device
      · rfl
      · rfl
      · rfl
      · exact absurd hentry (hno device)

end Writes

/-- A disk takes pieces as they are, without chunks, and can be flushed. -/
theorem medium_spec (d : Disk) (loc : Location) :
    (d.medium loc).chunk ≠ some 0 ∧ (d.medium loc).whenFlushed = none := by
  unfold medium
  split
  · exact ⟨by simp, rfl⟩
  · exact ⟨by simp, rfl⟩
  · unfold FileLimits.medium
    split
    · exact ⟨by simp, rfl⟩
    · exact ⟨by simp, rfl⟩

theorem writes_set {d : Disk} {loc : Location} (hloc : loc ≠ [])
    (h : ∀ device, d.entry? loc ≠ some (.device device)) (octets : List UInt8) :
    d.Writes loc octets (d.set loc (.file octets)) := by
  refine ⟨rfl, rfl, ?_, .inr ⟨h, ?_⟩⟩
  · intro l hl
    rw [entry?_set d hloc, if_neg hl]
  · rw [entry?_set d hloc, if_pos rfl]

theorem writes_self {d : Disk} {loc : Location} {device : Device}
    (h : d.entry? loc = some (.device device)) (octets : List UInt8) : d.Writes loc octets d :=
  ⟨rfl, rfl, fun _ _ => rfl, .inl ⟨device, h, rfl⟩⟩

/-- After it is emptied a location holds nothing. -/
theorem writes_empty (d : Disk) {loc : Location} (hloc : loc ≠ []) :
    d.Writes loc [] (d.empty loc) := by
  unfold empty
  split
  · rename_i device hdev
    exact writes_self hdev []
  · rename_i hno
    exact writes_set hloc hno []

/-! ## What stays -/

/-- All directories of `d` are directories of `d'`, and where something is in `d` something is in
`d'`. -/
structure Keeps (d d' : Disk) : Prop where
  home : d'.home = d.home
  directory : ∀ l, d.entry? l = some .directory → d'.entry? l = some .directory
  present : ∀ l, (d.entry? l).isSome → (d'.entry? l).isSome

namespace Keeps

variable {d d' d'' : Disk}

theorem refl (d : Disk) : d.Keeps d := ⟨rfl, fun _ h => h, fun _ h => h⟩

theorem trans (h : d.Keeps d') (h' : d'.Keeps d'') : d.Keeps d'' :=
  ⟨h'.home.trans h.home, fun l hl => h'.directory l (h.directory l hl),
    fun l hl => h'.present l (h.present l hl)⟩

end Keeps

theorem AddsDirectories.keeps {d d' : Disk} (h : d.AddsDirectories d') : d.Keeps d' := by
  refine ⟨h.home, ?_, ?_⟩
  · intro l hl
    rcases h.entry l with heq | ⟨-, hdir⟩
    · rw [heq, hl]
    · exact hdir
  · intro l hl
    rcases h.entry l with heq | ⟨-, hdir⟩
    · rw [heq]
      exact hl
    · rw [hdir]
      rfl

/-- Writing keeps everything, unless it is over a directory. -/
theorem Writes.keeps {d d' : Disk} {loc : Location} {octets : List UInt8}
    (h : d.Writes loc octets d') (hloc : d.entry? loc ≠ some .directory) : d.Keeps d' := by
  refine ⟨h.home, ?_, ?_⟩
  · intro l hl
    have hne : l ≠ loc := fun heq => hloc (heq ▸ hl)
    rw [h.elsewhere l hne, hl]
  · intro l hl
    by_cases heq : l = loc
    · rw [heq]
      exact h.isSome
    · rw [h.elsewhere l heq]
      exact hl

end PartyInputs.Disk
