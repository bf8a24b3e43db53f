import PartyInputs.Proofs.Command.Reporting

/-!
# Overviews saved over the files of a run

The path of the overview is not compared with the paths of the parties. If it names the file of one
of them, the overview is saved over that file, and the command succeeds all the same; every other
file keeps what the run wrote.

* `Table.head?_encodeRows_ne`, `Overview.head?_json`: a table is not taken for an overview.
* `Plan.of_mem_contents`: the files of a plan are tables with something in them.
* `GenerateOptions.SavesAt`: the overview is saved over what stands at a location.
* `GenerateOptions.save_cases`: **what saving does at a location**.
* `GenerateOptions.entry?_save_of_file`: what a file holds after that, and
  `GenerateOptions.entry?_save_of_device`: a device.
* `Invocation.perform_keeps_files`: **which files hold what the plan gives for them, and what the
  others hold**.
* `Invocation.perform_replaces_file`: a command that succeeds and leaves no table.
-/

namespace PartyInputs

open List (Forall₂)

/-! ## Tables and overviews -/

theorem Text.Decimal.head?_numeral_ne (i : Int) : (numeral i).head? ≠ some '\x7b' := by
  have hdigits : ∀ n, (digits n).head? ≠ some '\x7b' := by
    intro n hhead
    have hdigit := isDigit_of_mem_digits (List.mem_of_mem_head? hhead)
    revert hdigit
    decide
  cases i with
  | ofNat n => exact hdigits n
  | negSucc n => simp [numeral]

/-- A table does not start with a brace. -/
theorem Table.head?_encodeRows_ne (rows : List (List Int64)) :
    (encodeRows rows).head? ≠ some 0x7b := by
  intro hhead
  obtain ⟨octets, hoctets⟩ := List.head?_eq_some_iff.1 hhead
  rw [encodeRows_eq_encode_textOf] at hoctets
  obtain ⟨rest, htext, -⟩ := Text.Utf8.exists_cons_of_encode_eq_cons (by decide) hoctets
  rcases rows with _ | ⟨_ | ⟨v, vs⟩, rows⟩
  · cases htext
  · rw [textOf_cons] at htext
    simp [valuesText] at htext
  · apply Text.Decimal.head?_numeral_ne v.toInt
    obtain ⟨c, digits, hnumeral⟩ := List.exists_cons_of_ne_nil (Text.Decimal.numeral_ne_nil v.toInt)
    rw [textOf_cons, valuesText, hnumeral] at htext
    rw [hnumeral, List.head?_cons, (List.cons.inj htext).1]
    rfl

/-- A saved overview does. -/
theorem Overview.head?_json (overview : Overview) :
    (Text.Utf8.ofString overview.json.pretty).head? = some 0x7b := by
  have hbrace : Text.Utf8.encodeChar '{' = [0x7b] := by decide
  unfold Overview.json Text.Json.pretty
  rw [Text.Json.renderAt, Text.Utf8.ofString, String.toList_ofList]
  simp only [List.cons_append, Text.Utf8.encode_cons, hbrace]
  rfl

/-- What is kept of an overview is not taken for a table. -/
theorem Overview.ne_of_isPrefix {overview : Overview} {held octets : List UInt8}
    (hheld : held <+: Text.Utf8.ofString overview.json.pretty) (hne : octets ≠ [])
    (hhead : octets.head? ≠ some 0x7b) : held ≠ octets := by
  rintro rfl
  apply hhead
  obtain ⟨rest, hrest⟩ := hheld
  rw [← overview.head?_json, ← hrest, List.head?_append_of_ne_nil _ hne]

/-! ## Files with something in them -/

/-- With positive sizes no sheet is without rows. -/
theorem Sizes.widths_ne_nil {s : Sizes Nat} (h : s.All (0 < ·)) :
    ∀ sheet ∈ s.sheets, sheet.widths ≠ [] := by
  cases s with
  | signTest length => simpa [sheets, Sheet.widths, Grid.widths] using Nat.ne_of_gt h
  | convolution rows cols kernel =>
    obtain ⟨hrows, hcols, hkernel⟩ := h
    simpa [sheets, Sheet.widths, Grid.widths] using ⟨Nat.ne_of_gt hrows, Nat.ne_of_gt hkernel⟩
  | linearLayer n => simp [sheets, Sheet.widths, Grid.widths]

theorem Sheet.ne_nil_of_mem_allRowsFrom {sheets : List Sheet}
    (h : ∀ sheet ∈ sheets, sheet.widths ≠ []) : ∀ {stream : ValueStream},
      ∀ rows ∈ allRowsFrom sheets stream, rows ≠ [] := by
  induction sheets with
  | nil => intro stream rows hrows; cases hrows
  | cons sheet sheets ih =>
    intro stream
    rw [List.forall_mem_cons] at h
    rw [allRowsFrom_cons, List.forall_mem_cons]
    refine ⟨?_, ih h.2⟩
    intro hnil
    apply h.1
    rw [← ValueStream.map_length_cut sheet.widths stream, ← rowsFrom, hnil, List.map_nil]

/-- The files of a plan are not empty, and none of them starts as an overview does. -/
theorem Plan.of_mem_contents {r : Request} {p : Plan} (h : r.plan = .ok p) {octets : List UInt8}
    (hoctets : octets ∈ p.rows.map encodeRows) : octets ≠ [] ∧ octets.head? ≠ some 0x7b := by
  obtain ⟨rows, hrows, rfl⟩ := List.mem_map.1 hoctets
  refine ⟨?_, Table.head?_encodeRows_ne rows⟩
  have hne : rows ≠ [] :=
    Sheet.ne_nil_of_mem_allRowsFrom (Sizes.widths_ne_nil (Plan.all_pos h)) rows hrows
  obtain ⟨row, rest, rfl⟩ := List.exists_cons_of_ne_nil hne
  simp [encodeRows_cons, encodeRow]

/-! ## Saving over a file -/

theorem Medium.kept_isPrefix (m : Medium) (octets : List UInt8) : m.kept octets <+: octets := by
  unfold kept
  split
  · exact List.prefix_rfl
  · exact List.take_prefix _ _

namespace GenerateOptions

/-- The overview is saved to what stands at the location: that is what its path opens. -/
def SavesAt (o : GenerateOptions) (d : Disk) (loc : Location) : Prop :=
  ∃ path ∈ o.overviewPath, ∃ opened, d.openFile path = .ok (loc, opened)

/-- Saving keeps directories and everything that a path leads to. -/
theorem keeps_save (o : GenerateOptions) (overview : Overview) (d : Disk) :
    d.Keeps (o.save overview d).1 := by
  rw [disk_save]
  rcases o.overviewPath with _ | path
  · exact .refl d
  · simp only
    rcases d.write_cases path (Text.Utf8.ofString overview.json.pretty) with
      ⟨fault, -, hwrite⟩ | ⟨loc, opened, -, hsaves, -⟩
    · rw [hwrite]
      exact .refl d
    · exact hsaves.keeps

/-- **What saving does at a location**: nothing, or the overview is written there, as much of it as
there is room for. -/
theorem save_cases (o : GenerateOptions) (overview : Overview) (d : Disk) (loc : Location) :
    (¬ o.SavesAt d loc ∧ Disk.entry? (o.save overview d).1 loc = d.entry? loc) ∨
      (o.SavesAt d loc ∧
        (∃ path ∈ o.overviewPath, Disk.locate (o.save overview d).1 path = .ok loc) ∧
        ∃ held, held <+: Text.Utf8.ofString overview.json.pretty ∧
          d.Writes loc held (o.save overview d).1) := by
  rw [disk_save]
  unfold SavesAt
  rcases hpath : o.overviewPath with _ | path
  · exact .inl ⟨by simp, rfl⟩
  · simp only [Option.mem_some_iff, exists_eq_left']
    rcases d.write_cases path (Text.Utf8.ofString overview.json.pretty) with
      ⟨fault, hopen, hwrite⟩ | ⟨loc', opened, hopen, hsaves, -⟩
    · rw [hopen, hwrite]
      exact .inl ⟨by simp, rfl⟩
    · by_cases hloc : loc = loc'
      · subst hloc
        exact .inr ⟨⟨opened, hopen⟩, hsaves.locate, _, Medium.kept_isPrefix .., hsaves.writes⟩
      · refine .inl ⟨?_, hsaves.writes.elsewhere loc hloc⟩
        rintro ⟨opened', hopen'⟩
        rw [hopen] at hopen'
        cases hopen'
        exact hloc rfl

variable {o : GenerateOptions} {overview : Overview} {d : Disk} {loc : Location}

/-- A device stays, whether the overview is saved to it or not. -/
theorem entry?_save_of_device {device : Device} (h : d.entry? loc = some (.device device)) :
    Disk.entry? (o.save overview d).1 loc = some (.device device) := by
  rcases o.save_cases overview d loc with ⟨-, heq⟩ | ⟨-, -, held, -, hwrites⟩
  · rw [heq, h]
  · rcases hwrites.here with ⟨-, -, heq⟩ | ⟨hno, -⟩
    · rw [heq, h]
    · exact absurd h (hno device)

/-- **A file stays as it was unless the overview is saved to it**, and then it does not. -/
theorem entry?_save_of_file {octets : List UInt8} (h : d.entry? loc = some (.file octets))
    (hne : octets ≠ []) (hhead : octets.head? ≠ some 0x7b) :
    ∃ held, Disk.entry? (o.save overview d).1 loc = some (.file held) ∧
      (held = octets ↔ ¬ o.SavesAt d loc) ∧
      (o.SavesAt d loc →
        (∃ path ∈ o.overviewPath, Disk.locate (o.save overview d).1 path = .ok loc) ∧
        held <+: Text.Utf8.ofString overview.json.pretty) := by
  rcases o.save_cases overview d loc with ⟨hnot, heq⟩ | ⟨hsaves, hlocate, held, hheld, hwrites⟩
  · exact ⟨octets, by rw [heq, h], by simp [hnot], fun hsaves => absurd hsaves hnot⟩
  · rcases hwrites.here with ⟨device, hdev, -⟩ | ⟨-, hfile⟩
    · rw [h] at hdev
      cases hdev
    · have hchanged : held ≠ octets := Overview.ne_of_isPrefix hheld hne hhead
      exact ⟨held, hfile, by simp [hchanged, hsaves], fun _ => ⟨hlocate, hheld⟩⟩

end GenerateOptions

/-! ## The files in the end -/

/-- **Which files hold what the plan gives for them.** The plan is that of the request that the words
ask for. After a command that succeeds its paths lead to files of their own, if not to devices that
were there before. Such a file holds the octets of its party and nothing else, unless the overview is
saved to it; then it holds the overview, or the part that there was room for, and in no case what the
plan gives. -/
theorem Invocation.perform_keeps_files {words : List String} {verbosity : Nat}
    {o : GenerateOptions} (h : ofWords words = .task verbosity (.generate o)) (s : Surroundings)
    (disk : Disk) (hstatus : ((ofWords words).perform s disk).status = 0) :
    let run := o.request.run disk
    let outcome := (ofWords words).perform s disk
    o.AskedBy words ∧ ∃ plan receipt contents locs, run.result = .ok (plan, receipt) ∧
      plan.contents = .ok contents ∧ locs.Nodup ∧
      Forall₂ (fun path loc => outcome.disk.locate path = .ok loc) plan.paths locs ∧
      Forall₂
        (fun loc octets =>
          (∃ device, disk.entry? loc = some (.device device) ∧
            outcome.disk.entry? loc = some (.device device)) ∨
          ∃ held, outcome.disk.entry? loc = some (.file held) ∧
            (held = octets ↔ ¬ o.SavesAt run.disk loc) ∧
            (o.SavesAt run.disk loc →
              (∃ path ∈ o.overviewPath, outcome.disk.locate path = .ok loc) ∧
              held <+: Text.Utf8.ofString (Overview.collect plan receipt run.disk).1.json.pretty))
        locs contents := by
  intro run outcome
  refine ⟨generate_askedBy h, ?_⟩
  obtain ⟨hsame, hleft, -⟩ := perform_generate h s disk
  rcases hresult : run.result with failure | ⟨plan, receipt⟩
  · have hfailed := (GenerateOptions.perform_of_error (s := s) hresult).1
    rw [← hsame, hstatus] at hfailed
    cases hfailed
  · obtain ⟨hplan, hproduce, hran⟩ := Request.run_eq_ok hresult
    obtain ⟨locs, hnodup, hlocate, hcontents⟩ := Plan.files_of_produce hplan hproduce
    have hdisk : outcome.disk =
        (o.save (Overview.collect plan receipt run.disk).1 run.disk).1 :=
      hleft.trans (GenerateOptions.perform_of_ok hresult).2
    rw [← hran] at hlocate hcontents
    rw [hdisk]
    refine ⟨plan, receipt, _, locs, rfl, plan.contents_eq, hnodup, hlocate.imp ?_, ?_⟩
    · intro path loc hloc
      exact Disk.locate_of_keeps (o.keeps_save _ run.disk) hloc
    · rw [List.forall₂_iff_zip] at hcontents ⊢
      refine ⟨hcontents.1, ?_⟩
      intro loc octets hmem
      obtain ⟨hne, hhead⟩ := Plan.of_mem_contents hplan (List.of_mem_zip hmem).2
      rcases hcontents.2 hmem with hfile | ⟨device, hbefore, hdev⟩
      · exact .inr (GenerateOptions.entry?_save_of_file hfile hne hhead)
      · exact .inl ⟨device, hbefore, GenerateOptions.entry?_save_of_device hdev⟩

/-- The overview is saved next to the directory of the file, which keeps what was written to it. -/
theorem Invocation.perform_keeps_files_apart :
    let words := ["ltz", "--len", "1", "--bits", "1", "--dir", "out", "--p0-file", "a",
      "--summary-json", "s"]
    let request : Request :=
      { sizes := .signTest 1, bits := 1
        destination := { directory := "out", first := "a", second := none } }
    let outcome := (ofWords words).perform {} {}
    outcome.status = 0 ∧ ∃ (plan : Plan) (octets : List UInt8) (loc : Location),
      request.plan = .ok plan ∧ plan.contents = .ok [octets] ∧
      outcome.disk.locate "out/a" = .ok loc ∧ outcome.disk.entry? loc = some (.file octets) := by
  intro words request outcome
  let o : GenerateOptions :=
    { sizes := .signTest 1, seed := 42, bits := 1, directory := "out", first := "a", second := none
      signed := false, unsigned := false, overviewPath := some "s" }
  have hwords : ofWords words = .task 0 (.generate o) := by rfl
  obtain ⟨plan, receipt, octets, hplan, hresult, hpaths, hcontents, hleft⟩ := Request.run_one_value
  obtain ⟨hsame, -, -⟩ := perform_generate hwords {} {}
  have hstatus : outcome.status = 0 :=
    hsame.trans (GenerateOptions.perform_of_ok (o := o) hresult).1
  obtain ⟨-, plan', receipt', contents, locs, hresult', hcontents', -, hlocate, hholds⟩ :=
    perform_keeps_files hwords {} {} hstatus
  have hsame : (Except.ok (plan', receipt') : Except Failure (Plan × Receipt)) =
      .ok (plan, receipt) := hresult'.symm.trans hresult
  cases hsame
  rw [hcontents] at hcontents'
  cases hcontents'
  rw [hpaths] at hlocate
  obtain ⟨loc, rest, hloc, hrest, rfl⟩ := List.forall₂_cons_left_iff.1 hlocate
  obtain rfl := List.forall₂_nil_left_iff.1 hrest
  rcases hholds with _ | ⟨⟨device, hdev, -⟩ | ⟨held, hheld, hiff, -⟩, -⟩
  · simpa using Disk.mem_entries_of_entry? hdev (by simp)
  · have hlast : loc.getLast? = some "a" :=
      Disk.getLast?_of_locate (by decide) (by decide) (by decide) hloc
    have hapart : ¬ o.SavesAt (o.request.run {}).disk loc := by
      rintro ⟨path, hpath, opened, hopen⟩
      cases hpath
      obtain ⟨parent, name, rfl, hopens, -⟩ := Disk.openFile_eq_ok hopen
      rw [List.getLast?_concat] at hlast
      have hname := hopens.last.trans hlast
      revert hname
      decide
    rw [hiff.2 hapart] at hheld
    exact ⟨hstatus, plan, octets, loc, hplan, hcontents, hloc, hheld⟩

/-- **A command that succeeds and leaves no table**: the overview is saved to the very file that was
written. -/
theorem Invocation.perform_replaces_file :
    let words := ["ltz", "--len", "1", "--bits", "1", "--dir", "out", "--p0-file", "a",
      "--summary-json", "out/a"]
    let request : Request :=
      { sizes := .signTest 1, bits := 1
        destination := { directory := "out", first := "a", second := none } }
    let outcome := (ofWords words).perform {} {}
    outcome.status = 0 ∧ ∃ (plan : Plan) (octets held : List UInt8),
      request.plan = .ok plan ∧ plan.paths = ["out/a"] ∧ plan.contents = .ok [octets] ∧
      outcome.disk.locate "out/a" = .ok ["out", "a"] ∧
      outcome.disk.entry? ["out", "a"] = some (.file held) ∧ held ≠ octets := by
  intro words request outcome
  let o : GenerateOptions :=
    { sizes := .signTest 1, seed := 42, bits := 1, directory := "out", first := "a", second := none
      signed := false, unsigned := false, overviewPath := some "out/a" }
  have hwords : ofWords words = .task 0 (.generate o) := by rfl
  obtain ⟨plan, receipt, octets, hplan, hresult, hpaths, hcontents, hleft⟩ := Request.run_one_value
  obtain ⟨hsame, hkept, -⟩ := perform_generate hwords {} {}
  obtain ⟨hstatus, hdisk⟩ := GenerateOptions.perform_of_ok (o := o) (s := {}) hresult
  have houtcome : outcome.disk = _ := hkept.trans hdisk
  rw [show (o.request.run {}).disk = _ from hleft] at houtcome
  have hmem : octets ∈ plan.rows.map encodeRows := by
    rw [plan.contents_eq, Except.ok.injEq] at hcontents
    rw [hcontents]
    exact List.mem_cons_self
  obtain ⟨hne, hhead⟩ := Plan.of_mem_contents hplan hmem
  let left : Disk := { entries := [(["out"], .directory), (["out", "a"], .file octets)] }
  have hsaves : o.SavesAt left ["out", "a"] := ⟨"out/a", rfl, _, rfl⟩
  have hlocate : left.locate "out/a" = .ok ["out", "a"] := by rfl
  have hfile : left.entry? ["out", "a"] = some (.file octets) := by rfl
  obtain ⟨held, hheld, hiff, -⟩ := GenerateOptions.entry?_save_of_file hfile hne hhead
  refine ⟨hsame.trans hstatus, plan, octets, held, hplan, hpaths, hcontents, ?_, ?_, ?_⟩
  · rw [houtcome]
    exact Disk.locate_of_keeps (o.keeps_save _ left) hlocate
  · rw [houtcome]
    exact hheld
  · intro heq
    exact hiff.1 heq hsaves

end PartyInputs
