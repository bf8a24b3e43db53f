import PartyInputs.Command.Perform
import PartyInputs.Proofs.Command.Options
import PartyInputs.Proofs.Fallible
import PartyInputs.Proofs.Report.Inspecting
import PartyInputs.Proofs.Table.Grammar
import PartyInputs.Proofs.Values.Selecting

/-!
# The verdict of an inspection

The exit status of an inspection says of a file whether it is a table with values from an interval,
and nothing besides: not in which format the report is asked for, and not whether it could be shown.

* `InspectOptions.Admits`: the integers that an inspection lets pass.
* `InspectOptions.perform_of_finds`, `InspectOptions.perform_of_not_finds`: **the ways that an
  inspection can go**.
* `InspectOptions.status_perform_eq_zero_iff`: **the verdict**, in terms of the octets of the file.
* `Invocation.perform_inspect`: **what a command line does that inspects a file**.
-/

namespace PartyInputs

open Text

/-! ## Bounds -/

/-- A width is accepted iff it is between one and 31. -/
theorem Width.accept_eq_ok_iff {bits : Int64} {w : Width} :
    accept bits = .ok w ↔
      (1 ≤ bits.toInt ∧ bits.toInt ≤ 31) ∧ w.bits = bits.toInt.toNat := by
  unfold accept ofInt64?
  by_cases h : 1 ≤ bits.toInt.toNat ∧ bits.toInt.toNat ≤ 31
  · rw [dif_pos h]
    obtain ⟨n, hlo, hhi⟩ := w
    simp only [Except.ok.injEq, Width.mk.injEq]
    omega
  · rw [dif_neg h]
    simp only [reduceCtorEq, false_iff]
    omega

/-- The integers between the bounds of a width of `n` bits. -/
def Width.Holds (n : Nat) (signed : Bool) (i : Int) : Prop :=
  if signed then -2 ^ (n - 1) ≤ i ∧ i ≤ 2 ^ (n - 1) - 1 else 0 ≤ i ∧ i ≤ 2 ^ n - 1

theorem Interval.contains_ofWidth_iff {w : Width} {signed : Bool} {v : Int64} :
    (ofWidth w signed).contains v ↔ Width.Holds w.bits signed v.toInt := by
  rw [contains_iff, Int64.le_iff_toInt_le, Int64.le_iff_toInt_le]
  cases signed with
  | false =>
    obtain ⟨hlo, hhi⟩ := bounds_ofWidth_false w
    rw [hlo, hhi]
    simp [Width.Holds]
  | true =>
    obtain ⟨hlo, hhi⟩ := bounds_ofWidth_true w
    rw [hlo, hhi]
    simp [Width.Holds]

namespace InspectOptions

/-- The bits that the options ask about can be asked about. -/
def BitsFit (o : InspectOptions) : Prop := ∀ bits ∈ o.bits, 1 ≤ bits.toInt ∧ bits.toInt ≤ 31

/-- The integers that the options let pass: those between the bounds of the bits asked about. -/
def Admits (o : InspectOptions) (i : Int) : Prop :=
  ∀ bits ∈ o.bits, Width.Holds bits.toInt.toNat o.signed i

/-- Either the bits are refused or there is an interval, and it contains what the options let
pass. -/
theorem expected_cases (o : InspectOptions) :
    (¬ o.BitsFit ∧ ∃ refusal, o.expected = .error refusal) ∨
      o.BitsFit ∧ ∃ r, o.expected = .ok r ∧
        ∀ v, (∀ interval ∈ r, interval.contains v) ↔ o.Admits v.toInt := by
  unfold expected BitsFit Admits
  rcases hbits : o.bits with _ | bits
  · exact .inr ⟨by simp, none, rfl, by simp⟩
  · rcases haccept : Width.accept bits with refusal | w
    · refine .inl ⟨?_, refusal, by simp [haccept, Except.map]⟩
      intro hfit
      obtain ⟨hlo, hhi⟩ := hfit bits rfl
      have hok := Width.accept_eq_ok_iff (w := ⟨bits.toInt.toNat, by omega, by omega⟩).2
        ⟨⟨hlo, hhi⟩, rfl⟩
      rw [haccept] at hok
      cases hok
    · obtain ⟨hfit, hw⟩ := Width.accept_eq_ok_iff.1 haccept
      refine .inr ⟨by simpa using hfit, some (.ofWidth w o.signed),
        by simp [haccept, Except.map], ?_⟩
      intro v
      simp [Interval.contains_ofWidth_iff, hw]

/-! ## The ways that an inspection can go -/

/-- There is a table to report on: the file can be read, the bits can be asked about, and the octets
are a table. -/
structure Finds (o : InspectOptions) (disk : Disk) (octets : List UInt8) (r : Option Interval)
    (t : Table) : Prop where
  read : disk.read o.path = .ok octets
  expected : o.expected = .ok r
  table : Table.read octets = .ok t

variable {o : InspectOptions} {disk : Disk}

/-- There is one table to report on at most. -/
theorem Finds.unique {octets octets' : List UInt8} {r r' : Option Interval} {t t' : Table}
    (h : o.Finds disk octets r t) (h' : o.Finds disk octets' r' t') : r = r' ∧ t = t' := by
  obtain ⟨hread, hexpected, htable⟩ := h
  obtain ⟨hread', hexpected', htable'⟩ := h'
  rw [hread] at hread'
  cases hread'
  rw [hexpected] at hexpected'
  rw [htable] at htable'
  exact ⟨Except.ok.inj hexpected', Except.ok.inj htable'⟩

/-- **With a table to report on**, the report is shown, unless that fails, and the status is one iff
values fall outside. -/
theorem perform_of_finds {octets : List UInt8} {r : Option Interval} {t : Table}
    (h : o.Finds disk octets r t) (s : Surroundings) :
    let report := Inspection.ofTable octets.length t r
    (o.perform s disk).status = (if report.outside = 0 then 0 else 1) ∧
      (o.perform s disk).shown =
        (if s.whenShown.isSome then "" else o.render report ++ "\n") ∧
      (o.perform s disk).disk = disk := by
  intro report
  have hreport : Inspection.ofOctets octets r = .ok report := by
    rw [Inspection.ofOctets, h.table]
    rfl
  have hshown : (s.present (o.render report) .inspectionUnshown).1 =
      if s.whenShown.isSome then "" else o.render report ++ "\n" := by
    unfold Surroundings.present
    rcases s.whenShown with _ | fault
    · rfl
    · rfl
  unfold perform
  simp only [h.read, h.expected, hreport]
  by_cases hinside : report.outside = 0
  · rw [if_pos hinside, if_pos hinside]
    exact ⟨rfl, hshown, rfl⟩
  · rw [if_neg hinside, if_neg hinside]
    exact ⟨rfl, hshown, rfl⟩

/-- **Without a table to report on** the status is one and nothing is shown. -/
theorem perform_of_not_finds (h : ¬ ∃ octets r t, o.Finds disk octets r t) (s : Surroundings) :
    (o.perform s disk).status = 1 ∧ (o.perform s disk).shown = "" ∧
      (o.perform s disk).disk = disk := by
  unfold perform
  rcases hread : disk.read o.path with fault | octets
  · exact ⟨rfl, rfl, rfl⟩
  · rcases hexpected : o.expected with refusal | r
    · exact ⟨rfl, rfl, rfl⟩
    · rcases htable : Table.read octets with fault | t
      · simp only [Inspection.ofOctets, htable]
        exact ⟨rfl, rfl, rfl⟩
      · exact absurd ⟨octets, r, t, hread, hexpected, htable⟩ h

/-- Nothing falls outside iff every value is in the interval that was asked about, if there is
one. -/
theorem outside_ofTable_eq_zero_iff {size : Nat} {r : Option Interval} {t : Table} :
    (Inspection.ofTable size t r).outside = 0 ↔
      ∀ v ∈ t.values, ∀ interval ∈ r, interval.contains v := by
  rcases r with _ | interval
  · simp [Inspection.ofTable]
  · simp [Inspection.ofTable, Table.countOutside_eq_zero_iff]

/-- The status is zero iff there is a table to report on and none of its values falls outside. -/
theorem status_perform_eq_zero_iff_finds (s : Surroundings) :
    (o.perform s disk).status = 0 ↔
      ∃ octets r t, o.Finds disk octets r t ∧
        ∀ v ∈ t.values, ∀ interval ∈ r, interval.contains v := by
  by_cases h : ∃ octets r t, o.Finds disk octets r t
  · obtain ⟨octets, r, t, hfinds⟩ := h
    obtain ⟨hstatus, -, -⟩ := perform_of_finds hfinds s
    rw [hstatus]
    simp only [outside_ofTable_eq_zero_iff, ite_eq_left_iff, Nat.one_ne_zero, imp_false, not_not]
    constructor
    · intro hinside
      exact ⟨octets, r, t, hfinds, hinside⟩
    · rintro ⟨octets', r', t', hfinds', hinside⟩
      obtain ⟨rfl, rfl⟩ := hfinds.unique hfinds'
      exact hinside
  · obtain ⟨hstatus, -, -⟩ := perform_of_not_finds h s
    rw [hstatus]
    constructor
    · intro hone
      cases hone
    · rintro ⟨octets, r, t, hfinds, -⟩
      exact absurd ⟨octets, r, t, hfinds⟩ h

/-- A table to report on with all values inside is one whose values the options let pass. -/
theorem exists_finds_iff :
    (∃ octets r t, o.Finds disk octets r t ∧
        ∀ v ∈ t.values, ∀ interval ∈ r, interval.contains v) ↔
      ∃ octets, disk.read o.path = .ok octets ∧ o.BitsFit ∧
        ∃ t, Table.read octets = .ok t ∧ ∀ v ∈ t.values, o.Admits v.toInt := by
  rcases o.expected_cases with ⟨hnot, refusal, hrefused⟩ | ⟨hfit, r, hexpected, hadmits⟩
  · constructor
    · rintro ⟨octets, r, t, hfinds, -⟩
      rw [hfinds.expected] at hrefused
      cases hrefused
    · rintro ⟨octets, -, hfit, -⟩
      exact absurd hfit hnot
  · constructor
    · rintro ⟨octets, r', t, hfinds, hinside⟩
      have hsame := hfinds.expected
      rw [hexpected] at hsame
      cases hsame
      exact ⟨octets, hfinds.read, hfit, t, hfinds.table, fun v hv => (hadmits v).1 (hinside v hv)⟩
    · rintro ⟨octets, hread, -, t, htable, hvalues⟩
      exact ⟨octets, r, t, ⟨hread, hexpected, htable⟩, fun v hv => (hadmits v).2 (hvalues v hv)⟩

/-- **The verdict.** An inspection succeeds iff the file can be read, the bits can be asked about,
and the octets are UTF-8 whose maximal runs are numerals in the range of 64-bit integers that the
options let pass. -/
theorem status_perform_eq_zero_iff (s : Surroundings) :
    (o.perform s disk).status = 0 ↔
      ∃ octets, disk.read o.path = .ok octets ∧ o.BitsFit ∧ octets.toByteArray.IsValidUTF8 ∧
        ∀ run, Table.MaximalRun octets run →
          ∃ i, Decimal.Denotes run i ∧ -2 ^ 63 ≤ i ∧ i ≤ 2 ^ 63 - 1 ∧ o.Admits i := by
  rw [status_perform_eq_zero_iff_finds, exists_finds_iff]
  simp only [Table.exists_read_forall_values_iff]

/-- An inspection succeeds or fails with status one, and it leaves the disk alone. -/
theorem perform_status_disk (o : InspectOptions) (s : Surroundings) (disk : Disk) :
    ((o.perform s disk).status = 0 ∨ (o.perform s disk).status = 1) ∧
      (o.perform s disk).disk = disk := by
  by_cases h : ∃ octets r t, o.Finds disk octets r t
  · obtain ⟨octets, r, t, hfinds⟩ := h
    obtain ⟨hstatus, -, hdisk⟩ := perform_of_finds hfinds s
    refine ⟨?_, hdisk⟩
    rw [hstatus]
    split
    · exact .inl rfl
    · exact .inr rfl
  · obtain ⟨hstatus, -, hdisk⟩ := perform_of_not_finds h s
    exact ⟨.inr hstatus, hdisk⟩

end InspectOptions

/-- Performing a command that inspects a file is performing its options, but for the log. -/
theorem Invocation.perform_inspect_eq {i : Invocation} {verbosity : Nat} {o : InspectOptions}
    (h : i = .task verbosity (.inspect o)) (s : Surroundings) (disk : Disk) :
    (i.perform s disk).status = (o.perform s disk).status ∧
      (i.perform s disk).shown = (o.perform s disk).shown ∧
      (i.perform s disk).disk = (o.perform s disk).disk := by
  rw [h]
  exact ⟨rfl, rfl, rfl⟩

/-- **What a command line does that inspects a file**, in any surroundings and on any disk. File, bits,
sign and format are those that its words ask for. Its status is zero iff the file can be read, the
bits, if there are any, are between one and 31, and the octets are UTF-8 whose maximal runs are
numerals of 64-bit integers, each between the bounds of the bits; otherwise it is one. No other
command line that inspects the same file with the same bits and sign has another status, whichever
format it asks for, however much it wants to know, and whether or not anything can be shown. A table
is reported on in that format, whether or not its values are between the bounds, and the disk is left
alone. -/
theorem Invocation.perform_inspect {words : List String} {verbosity : Nat} {o : InspectOptions}
    (h : ofWords words = .task verbosity (.inspect o)) (s : Surroundings) (disk : Disk) :
    let outcome := (ofWords words).perform s disk
    -- what is asked for
    o.AskedBy words ∧
      -- the status
      (outcome.status = 0 ↔
        ∃ octets, disk.read o.path = .ok octets ∧
          (∀ bits ∈ o.bits, 1 ≤ bits.toInt ∧ bits.toInt ≤ 31) ∧
          octets.toByteArray.IsValidUTF8 ∧
          ∀ run, Table.MaximalRun octets run →
            ∃ i, Decimal.Denotes run i ∧ -2 ^ 63 ≤ i ∧ i ≤ 2 ^ 63 - 1 ∧
              ∀ bits ∈ o.bits,
                if o.signed then
                  -2 ^ (bits.toInt.toNat - 1) ≤ i ∧ i ≤ 2 ^ (bits.toInt.toNat - 1) - 1
                else 0 ≤ i ∧ i ≤ 2 ^ bits.toInt.toNat - 1) ∧
      (outcome.status = 0 ∨ outcome.status = 1) ∧
      (∀ words' verbosity' o' s', ofWords words' = .task verbosity' (.inspect o') →
        o'.path = o.path → o'.bits = o.bits → o'.signed = o.signed →
          ((ofWords words').perform s' disk).status = outcome.status) ∧
      -- the report
      (∀ octets t, disk.read o.path = .ok octets →
        (∀ bits ∈ o.bits, 1 ≤ bits.toInt ∧ bits.toInt ≤ 31) → Table.read octets = .ok t →
          ∃ expected, o.expected = .ok expected ∧
            outcome.shown =
              if s.whenShown.isSome then ""
              else
                (match o.format with
                  | .json => (Inspection.ofTable octets.length t expected).json.pretty
                  | .pretty => (Inspection.ofTable octets.length t expected).text) ++ "\n") ∧
      -- the disk
      outcome.disk = disk := by
  intro outcome
  obtain ⟨hstatus, hshown, hdisk⟩ : outcome.status = _ ∧ outcome.shown = _ ∧ outcome.disk = _ :=
    perform_inspect_eq h s disk
  obtain ⟨hzeroOne, hkept⟩ := o.perform_status_disk s disk
  rw [hstatus, hshown, hdisk]
  refine ⟨inspect_askedBy h, InspectOptions.status_perform_eq_zero_iff s, hzeroOne, ?_, ?_, hkept⟩
  · intro words' verbosity' o' s' h' hpath hbits hsigned
    obtain ⟨hstatus', -, -⟩ := perform_inspect_eq h' s' disk
    rw [hstatus']
    -- the verdict does not mention what the two may differ in
    have hsame : (o'.perform s' disk).status = 0 ↔ (o.perform s disk).status = 0 := by
      rw [InspectOptions.status_perform_eq_zero_iff, InspectOptions.status_perform_eq_zero_iff]
      unfold InspectOptions.BitsFit InspectOptions.Admits
      rw [hpath, hbits, hsigned]
    obtain ⟨hzeroOne', -⟩ := o'.perform_status_disk s' disk
    omega
  · intro octets t hread hfit htable
    rcases o.expected_cases with ⟨hnot, -⟩ | ⟨-, r, hexpected, -⟩
    · exact absurd hfit hnot
    · obtain ⟨-, hreport, -⟩ := InspectOptions.perform_of_finds ⟨hread, hexpected, htable⟩ s
      exact ⟨r, hexpected, hreport⟩

/-- Both bounds of three bits with a sign: with three bits the status is zero although nothing can
be shown, and the runs of the file are between the bounds. With two bits the status is one and there
is a report all the same. -/
theorem Invocation.perform_inspect_bounds :
    let words (bits : String) := ["inspect", "a", "--bits", bits, "--signed"]
    let octets := Utf8.ofString "-4 3\n"
    let disk : Disk := { entries := [(["a"], .file octets)] }
    let o (bits : Int64) : InspectOptions :=
      { path := "a", bits := some bits, signed := true, format := .pretty }
    let passed := (ofWords (words "3")).perform { whenShown := some .noSpace } disk
    let failed := (ofWords (words "2")).perform {} disk
    ofWords (words "3") = .task 0 (.inspect (o 3)) ∧ passed.status = 0 ∧ passed.disk = disk ∧
      (∀ run, Table.MaximalRun octets run → ∃ i, Decimal.Denotes run i ∧ -4 ≤ i ∧ i ≤ 3) ∧
      ofWords (words "2") = .task 0 (.inspect (o 2)) ∧ failed.status = 1 ∧ failed.disk = disk ∧
      failed.shown =
        (Inspection.ofTable 5 ⟨[[-4, 3]], true⟩ (some ⟨-2, 1⟩)).text ++ "\n" := by
  intro words octets disk o passed failed
  have hthree : ofWords (words "3") = .task 0 (.inspect (o 3)) := by rfl
  have htwo : ofWords (words "2") = .task 0 (.inspect (o 2)) := by rfl
  have hread : disk.read "a" = .ok octets := by rfl
  have htable : Table.read octets = .ok ⟨[[-4, 3]], true⟩ :=
    Table.read_eq_ok_iff_exists_text.2 ⟨_, rfl, rfl⟩
  have hpassed : passed.status = 0 :=
    (perform_inspect_eq hthree _ disk).1.trans
      (InspectOptions.perform_of_finds (r := some ⟨-4, 3⟩) ⟨hread, rfl, htable⟩ _).1
  have hfailed : failed.status = 1 :=
    (perform_inspect_eq htwo _ disk).1.trans
      (InspectOptions.perform_of_finds (r := some ⟨-2, 1⟩) ⟨hread, rfl, htable⟩ _).1
  obtain ⟨-, hverdict, -, -, -, hkept⟩ := perform_inspect hthree { whenShown := some .noSpace } disk
  obtain ⟨-, -, -, -, hreport, hkept'⟩ := perform_inspect htwo {} disk
  refine ⟨hthree, hpassed, hkept, ?_, htwo, hfailed, hkept', ?_⟩
  · obtain ⟨octets', hread', -, -, hruns⟩ := hverdict.1 hpassed
    obtain rfl : octets = octets' := Except.ok.inj (hread.symm.trans hread')
    intro run hrun
    obtain ⟨i, hi, -, -, hbounds⟩ := hruns run hrun
    exact ⟨i, hi, hbounds 3 rfl⟩
  · have hbits : ∀ bits ∈ (o 2).bits, 1 ≤ bits.toInt ∧ bits.toInt ≤ 31 := by
      rintro _ ⟨⟩
      decide
    obtain ⟨expected, hexpected, hshown⟩ := hreport octets _ hread hbits htable
    obtain rfl : some ⟨-2, 1⟩ = expected := Except.ok.inj hexpected
    exact hshown

end PartyInputs
