import PartyInputs.Proofs.Report.Inspecting
import PartyInputs.Proofs.Request.DrawOrder
import PartyInputs.Proofs.Values.Selecting

/-!
# Inspections certify what was generated

The inspection of a file knows nothing of the request that the file was made for: it reads octets.
For the files of a plan it says all the same what the request asked for.

* `Sizes.dimensions`: the rows and the columns that a party's file has.
* `Inspection.Certifies`: what there is to say about a file of these rows and columns.
* `Inspection.exists_certifies`: **a rectangle of values from an interval is certified**.
* `Plan.exists_inspections`: **so is every file of an accepted request**.
-/

namespace PartyInputs

open List (Forall₂)

/-! ## Rows and columns -/

/-- The rows and the columns of each party's file. The bias of a layer is one more row below its
matrix. -/
def Sizes.dimensions : Sizes Nat → List (Nat × Nat)
  | signTest length => [(length, 1)]
  | convolution rows cols kernel => [(rows, cols), (kernel, kernel)]
  | linearLayer n => [(1, n), (n + 1, n)]

/-- The sheet is a rectangle that holds something. -/
structure Sheet.IsRectangle (s : Sheet) (m n : Nat) : Prop where
  widths : s.widths = List.replicate m n
  rows_pos : 0 < m
  cols_pos : 0 < n

/-- Positive sizes make rectangles. -/
theorem Sizes.isRectangle_sheets {s : Sizes Nat} (h : s.All (0 < ·)) :
    Forall₂ (fun sheet (d : Nat × Nat) => sheet.IsRectangle d.1 d.2) s.sheets s.dimensions := by
  have hone : ∀ party {m n}, 0 < m → 0 < n → Sheet.IsRectangle ⟨party, [⟨m, n⟩]⟩ m n :=
    fun party m n hm hn => ⟨by simp [Sheet.widths, Grid.widths], hm, hn⟩
  cases s with
  | signTest length => exact .cons (hone 0 h Nat.one_pos) .nil
  | convolution rows cols kernel =>
    obtain ⟨hrows, hcols, hkernel⟩ := h
    exact .cons (hone 0 hrows hcols) (.cons (hone 1 hkernel hkernel) .nil)
  | linearLayer n =>
    have hlayer : Sheet.IsRectangle ⟨1, [⟨n, n⟩, ⟨1, n⟩]⟩ (n + 1) n := by
      refine ⟨?_, Nat.succ_pos n, h⟩
      simp [Sheet.widths, Grid.widths, List.replicate_succ']
    exact .cons (hone 0 Nat.one_pos h) (.cons hlayer .nil)

/-! ## Certified files -/

namespace Inspection

/-- What an inspection says of octets that hold `m` rows of `n` values from an interval, and that is
asked about this interval. -/
structure Certifies (i : Inspection) (octets : List UInt8) (r : Interval) (m n : Nat) : Prop where
  size : i.size = octets.length
  rows : i.rows = m
  profile : i.profile = .uniform n
  values : i.values = m * n
  least : ∃ v, i.least = some v ∧ r.contains v
  greatest : ∃ v, i.greatest = some v ∧ r.contains v
  terminated : i.terminated = true
  expected : i.expected = some r
  outside : i.outside = 0

/-- **A rectangle is certified**: rows of one width, and values from the interval. -/
theorem exists_certifies {rows : List (List Int64)} {r : Interval} {m n : Nat}
    (hwidths : rows.map List.length = List.replicate m n) (hm : 0 < m) (hn : 0 < n)
    (hvalues : ∀ v ∈ rows.flatten, r.contains v) :
    ∃ i, ofOctets (encodeRows rows) (some r) = .ok i ∧ i.Certifies (encodeRows rows) r m n := by
  let t : Table := ⟨rows, !rows.isEmpty⟩
  have hwidths : t.widths = List.replicate m n := hwidths
  have hlength : rows.length = m := Table.length_rows_of_widths hwidths
  have hne : rows ≠ [] := List.ne_nil_of_length_pos (by omega)
  have hcount : t.valueCount = m * n := Table.valueCount_of_widths hwidths
  have hsome : t.values ≠ [] := by
    apply List.ne_nil_of_length_pos
    rw [← t.valueCount_eq_length_values, hcount]
    exact Nat.mul_pos hm hn
  obtain ⟨least, greatest, hbounds, hleast, hgreatest⟩ := Table.exists_bounds? hsome
  refine ⟨ofTable (encodeRows rows).length t (some r), ?_, ?_⟩
  · rw [ofOctets, Table.read_encodeRows]
    rfl
  · exact {
      size := rfl
      rows := hlength
      profile := Table.profile_of_widths hwidths hm
      values := hcount
      least := ⟨least, by simp [ofTable, hbounds], hvalues least hleast⟩
      greatest := ⟨greatest, by simp [ofTable, hbounds], hvalues greatest hgreatest⟩
      terminated := by simpa [ofTable, t] using hne
      expected := rfl
      outside := Table.countOutside_eq_zero_iff.2 hvalues }

end Inspection

/-- Rectangles that a stream fills one after the other are certified. -/
theorem Sheet.certifies_allRowsFrom {sheets : List Sheet} {dimensions : List (Nat × Nat)}
    (h : Forall₂ (fun sheet (d : Nat × Nat) => sheet.IsRectangle d.1 d.2) sheets dimensions) :
    ∀ {stream : ValueStream}, stream.interval.Narrow →
      Forall₂
        (fun octets (d : Nat × Nat) =>
          ∃ i, Inspection.ofOctets octets (some stream.interval) = .ok i ∧
            i.Certifies octets stream.interval d.1 d.2)
        ((allRowsFrom sheets stream).map encodeRows) dimensions := by
  induction h with
  | nil =>
    intro stream _
    exact .nil
  | @cons sheet d sheets dimensions hsheet _ ih =>
    intro stream hnarrow
    refine .cons ?_ (@ih (stream.advance sheet.valueCount) hnarrow)
    apply Inspection.exists_certifies _ hsheet.rows_pos hsheet.cols_pos
    · intro v hv
      rw [flatten_rowsFrom] at hv
      exact ValueStream.contains_of_mem_take hnarrow hv
    · rw [rowsFrom, ValueStream.map_length_cut, hsheet.widths]

/-- **Every file of an accepted request is certified**: its inspection, asked about the interval of
the plan, finds the rows and the columns that the sizes of the request give, a value for each of
them, least and greatest value inside of the interval and none outside, and a line end at the
end. -/
theorem Plan.exists_inspections {r : Request} {p : Plan} (h : r.plan = .ok p) :
    ∃ files, p.contents = .ok files ∧
      Forall₂
        (fun octets (d : Nat × Nat) =>
          ∃ i, Inspection.ofOctets octets (some p.interval) = .ok i ∧
            i.Certifies octets p.interval d.1 d.2)
        files r.sizes.toNat.dimensions := by
  obtain ⟨-, hsizes, -, -, -⟩ := Request.plan_eq_ok_iff.1 h
  obtain ⟨hpos, -, hraw⟩ := Sizes.accept_eq_ok_iff.1 hsizes
  have hall : p.sizes.All (0 < ·) := by
    rw [← hraw]
    exact Sizes.all_toNat hpos
  have hnarrow : p.stream.interval.Narrow := Interval.narrow_ofWidth p.width p.signed
  rw [hraw]
  exact ⟨_, p.contents_eq, Sheet.certifies_allRowsFrom (Sizes.isRectangle_sheets hall) hnarrow⟩

/-- A layer of width two with signed values of two bits: party 1 has the matrix and below it the
bias. -/
theorem Plan.exists_inspections_linear :
    let r : Request := { sizes := .linearLayer 2, bits := 2, signed := some true }
    let p : Plan :=
      { sizes := .linearLayer 2, width := ⟨2, by decide, by decide⟩, signed := true, seed := 42,
        destination := {} }
    r.plan = .ok p ∧ ∃ first second i j, p.contents = .ok [first, second] ∧
      Inspection.ofOctets first (some ⟨-2, 1⟩) = .ok i ∧ i.Certifies first ⟨-2, 1⟩ 1 2 ∧
      Inspection.ofOctets second (some ⟨-2, 1⟩) = .ok j ∧ j.Certifies second ⟨-2, 1⟩ 3 2 := by
  intro r p
  have hplan : r.plan = .ok p := by decide
  have hinterval : p.interval = ⟨-2, 1⟩ := by decide
  have hdimensions : r.sizes.toNat.dimensions = [(1, 2), (3, 2)] := by decide
  obtain ⟨files, hfiles, hreports⟩ := Plan.exists_inspections hplan
  rw [hinterval, hdimensions] at hreports
  rcases hreports with _ | ⟨⟨i, hread, hi⟩, _ | ⟨⟨j, hread', hj⟩, ⟨⟩⟩⟩
  exact ⟨hplan, _, _, i, j, hfiles, hread, hi, hread', hj⟩

end PartyInputs
