import Mathlib.Algebra.GroupWithZero.Nat
import PartyInputs.Proofs.Report.Inspecting
import PartyInputs.Proofs.Table.Grammar

/-!
# An inspection says one thing

An inspection counts rows and values, names the widths, the bounds and what is outside of an
interval, each in a pass of its own over the table. All of this is about one file, so it has to fit
together, whatever table the file holds and whatever interval was asked about, an inverted one
included.

* `Table.rows_eq_nil_iff_of_read`: **the only file without rows is the empty one**.
* `Inspection.Coheres`: what an inspection says fits together, and fits the table.
* `Inspection.exists_coheres`: **the inspection of every file that can be read coheres**.
-/

namespace PartyInputs

/-- The only file without rows is the empty one: octets behind the last line feed are a row too. -/
theorem Table.rows_eq_nil_iff_of_read {octets : List UInt8} {t : Table} (h : read octets = .ok t) :
    t.rows = [] ↔ octets = [] := by
  obtain ⟨-, hrows, -⟩ := read_eq_ok_iff.1 h
  have hlength : t.rows.length = octets.count terminator +
      if octets ≠ [] ∧ octets.getLast? ≠ some terminator then 1 else 0 := by
    rw [← hrows.length_eq, length_octetLines]
  rw [← List.length_eq_zero_iff, hlength]
  constructor
  · intro hzero
    by_contra hne
    have hnot : terminator ∉ octets := by
      rw [← List.count_eq_zero]
      omega
    have hlast : octets.getLast? ≠ some terminator := fun hl => hnot (List.mem_of_getLast? hl)
    rw [if_pos ⟨hne, hlast⟩] at hzero
    omega
  · rintro rfl
    rfl

namespace Inspection

/-- What an inspection says fits together, and fits the octets and the table that they hold. -/
structure Coheres (i : Inspection) (octets : List UInt8) (t : Table) : Prop where
  rows : i.rows = t.rows.length
  values : i.values = t.values.length
  /-- Only the empty file has no row. -/
  rows_eq_zero_iff : i.rows = 0 ↔ octets = []
  empty_iff : i.profile = .empty ↔ i.rows = 0
  uniform : ∀ width, i.profile = .uniform width → i.values = i.rows * width
  ragged : ∀ widths, i.profile = .ragged widths →
    widths.length = i.rows ∧ widths.sum = i.values ∧ ∃ m ∈ widths, ∃ n ∈ widths, m ≠ n
  /-- There is a least value iff there is a value at all, and it is one of them. -/
  least : (i.least.isSome ↔ 0 < i.values) ∧
    ∀ v ∈ i.least, v ∈ t.values ∧ ∀ w ∈ t.values, v ≤ w
  greatest : (i.greatest.isSome ↔ 0 < i.values) ∧
    ∀ v ∈ i.greatest, v ∈ t.values ∧ ∀ w ∈ t.values, w ≤ v
  outside_le : i.outside ≤ i.values
  /-- Nothing is outside if nothing was asked. -/
  outside_of_none : i.expected = none → i.outside = 0
  /-- What is outside is below or above, and the bounds tell whether there is such a value. -/
  outside_of_some : ∀ r ∈ i.expected,
    i.outside = t.values.countP (fun v => v < r.lo ∨ r.hi < v) ∧
      (i.outside = 0 ↔ i.values = 0 ∨
        ∃ least greatest, i.least = some least ∧ i.greatest = some greatest ∧
          r.lo ≤ least ∧ greatest ≤ r.hi)

variable {size : Nat} {t : Table} {expected : Option Interval}

/-- The bounds are there iff there is a value. -/
theorem isSome_bounds?_iff : t.bounds?.isSome ↔ 0 < (ofTable size t expected).values := by
  show _ ↔ 0 < t.valueCount
  rw [t.valueCount_eq_length_values, List.length_pos_iff, ne_eq, ← Table.bounds?_eq_none_iff,
    Option.isSome_iff_ne_none]

theorem outside_ofTable_some {r : Interval} :
    (ofTable size t (some r)).outside = t.values.countP (fun v => v < r.lo ∨ r.hi < v) := by
  show t.values.countP _ = _
  congr 1
  funext v
  rw [Bool.eq_iff_iff, Bool.not_eq_true', ← Bool.not_eq_true, Interval.contains_iff,
    decide_eq_true_iff, Decidable.not_and_iff_or_not, Int64.not_le, Int64.not_le]

/-- The bounds tell whether a value is outside. -/
theorem outside_ofTable_some_eq_zero_iff {r : Interval} :
    (ofTable size t (some r)).outside = 0 ↔
      (ofTable size t (some r)).values = 0 ∨
        ∃ least greatest, (ofTable size t (some r)).least = some least ∧
          (ofTable size t (some r)).greatest = some greatest ∧ r.lo ≤ least ∧ greatest ≤ r.hi := by
  show t.countOutside r = 0 ↔ t.valueCount = 0 ∨ ∃ least greatest,
    t.bounds?.map (·.1) = some least ∧ t.bounds?.map (·.2) = some greatest ∧ _
  rw [Table.countOutside_eq_zero_iff, Table.forall_contains_iff, t.valueCount_eq_length_values,
    List.length_eq_zero_iff]
  refine or_congr_right ?_
  rcases t.bounds? with _ | ⟨least, greatest⟩
  · simp
  · simp

/-- **The inspection of every file that can be read coheres.** -/
theorem exists_coheres {octets : List UInt8} {t : Table} (h : Table.read octets = .ok t)
    (expected : Option Interval) :
    ∃ i, ofOctets octets expected = .ok i ∧ i.size = octets.length ∧ i.expected = expected ∧
      i.Coheres octets t := by
  refine ⟨ofTable octets.length t expected, by rw [ofOctets, h]; rfl, rfl, rfl, ?_⟩
  have hcount : t.valueCount = t.values.length := t.valueCount_eq_length_values
  exact {
    rows := rfl
    values := hcount
    rows_eq_zero_iff := List.length_eq_zero_iff.trans (Table.rows_eq_nil_iff_of_read h)
    empty_iff := Table.profile_eq_empty_iff.trans List.length_eq_zero_iff.symm
    uniform := by
      intro width huniform
      obtain ⟨-, hall⟩ := Table.profile_eq_uniform_iff.1 huniform
      apply Table.valueCount_of_widths
      exact List.map_eq_replicate_iff.2 hall
    ragged := by
      intro widths hragged
      obtain ⟨rfl, hne⟩ := Table.profile_eq_ragged_iff.1 hragged
      exact ⟨List.length_map _, rfl, hne⟩
    least := by
      refine ⟨(Option.isSome_map ..).symm ▸ isSome_bounds?_iff, fun v hv => ?_⟩
      obtain ⟨⟨least, greatest⟩, hbounds, rfl⟩ := Option.map_eq_some_iff.1 hv
      exact (Table.bounds?_eq_some_iff.1 hbounds).1
    greatest := by
      refine ⟨(Option.isSome_map ..).symm ▸ isSome_bounds?_iff, fun v hv => ?_⟩
      obtain ⟨⟨least, greatest⟩, hbounds, rfl⟩ := Option.map_eq_some_iff.1 hv
      exact (Table.bounds?_eq_some_iff.1 hbounds).2
    outside_le := by
      rcases expected with _ | r
      · exact Nat.zero_le _
      · rw [outside_ofTable_some]
        exact List.countP_le_length.trans (Nat.le_of_eq hcount.symm)
    outside_of_none := by
      rintro rfl
      rfl
    outside_of_some := by
      rintro r rfl
      exact ⟨outside_ofTable_some, outside_ofTable_some_eq_zero_iff⟩ }

/-- Two rows of different widths with a blank one between them, asked about an inverted interval:
every value is outside of it. -/
theorem exists_coheres_inverted :
    let octets := Text.Utf8.ofString "5 -3\n\n9"
    let t : Table := ⟨[[5, -3], [], [9]], false⟩
    Table.read octets = .ok t ∧
      ∃ i, ofOctets octets (some ⟨4, 1⟩) = .ok i ∧ i.Coheres octets t ∧ i.values = 3 ∧
        i.outside = 3 := by
  intro octets t
  have hread : Table.read octets = .ok t := by decide +kernel
  obtain ⟨i, hi, -, hexpected, h⟩ := exists_coheres hread (some ⟨4, 1⟩)
  obtain ⟨houtside, -⟩ := h.outside_of_some _ hexpected
  have hcount : t.values.countP (fun v => v < 4 ∨ 1 < v) = 3 := by decide
  exact ⟨hread, i, hi, h, h.values, houtside.trans hcount⟩

end Inspection

end PartyInputs
