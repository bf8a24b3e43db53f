import PartyInputs.Proofs.Request.Acceptance
import PartyInputs.Proofs.Table.RoundTrip
import PartyInputs.Proofs.Workload.Filling
import PartyInputs.Request.Contents

/-!
# The order of draws

One stream fills the files of all parties. Whatever the sizes are, what the files say, read from the
first value of party 0 to the last value of the last party, is the stream from its start: no
value is left out, repeated, moved or changed on the way through sheets, grids, rows, numerals and
back.

* `Sizes.valueCount`: how many values a workload takes.
* `Sheet.fillAll_eq`: **the contents of files** are the encoded rows of their sheets.
* `Plan.contents_eq`: the same for a plan.
* `Plan.exists_contents_read`: **the files of an accepted request, read back**.
-/

namespace PartyInputs

/-! ## How many values there are -/

/-- The number of values in the files of all parties. -/
def Sizes.valueCount : Sizes Nat → Nat
  | signTest length => length
  | convolution rows cols kernel => rows * cols + kernel * kernel
  | linearLayer n => n + n * n + n

theorem Sizes.sum_valueCount_sheets (s : Sizes Nat) :
    (s.sheets.map Sheet.valueCount).sum = s.valueCount := by
  cases s with
  | signTest length => simp [sheets, valueCount, Sheet.valueCount, Grid.valueCount]
  | convolution rows cols kernel => simp [sheets, valueCount, Sheet.valueCount, Grid.valueCount]
  | linearLayer n =>
    simp [sheets, valueCount, Sheet.valueCount, Grid.valueCount, Nat.add_assoc]

/-! ## What the files hold -/

/-- **The contents of files** are the encoded rows of their sheets. No sheet fails: a plain sink
takes everything. -/
theorem Sheet.fillAll_eq (sheets : List Sheet) : ∀ stream : ValueStream,
    Sheet.fillAll sheets stream = .ok ((Sheet.allRowsFrom sheets stream).map encodeRows) := by
  induction sheets with
  | nil => intro stream; rfl
  | cons sheet sheets ih =>
    intro stream
    rcases sheet.fill_cases {} stream with ⟨hm, -⟩ | ⟨sink, hfill, hg⟩
    · exact absurd Medium.takesAll_default hm
    · have hoctets : sink.octets = encodeRows (sheet.rowsFrom stream) := hg.octets
      unfold fillAll
      rw [hfill]
      show (fillAll sheets (stream.advance sheet.valueCount)).map (sink.octets :: ·) = _
      rw [ih, hoctets]
      rfl

/-- The rows of the parties' files, party 0 first. -/
def Plan.rows (p : Plan) : List (List (List Int64)) := Sheet.allRowsFrom p.sheets p.stream

theorem Plan.contents_eq (p : Plan) : p.contents = .ok (p.rows.map encodeRows) :=
  Sheet.fillAll_eq p.sheets p.stream

theorem Plan.length_rows (p : Plan) : p.rows.length = p.sheets.length :=
  Sheet.length_allRowsFrom p.sheets p.stream

/-- The values of all files are the stream from its start. -/
theorem Plan.flatten_rows (p : Plan) :
    (p.rows.map List.flatten).flatten = (p.stream.take p.sizes.valueCount).1 := by
  rw [Plan.rows, Sheet.flatten_allRowsFrom, Plan.sheets, Sizes.sum_valueCount_sheets]

/-- **The files of an accepted request, read back.** There is one for each sheet, each can be read,
and the values of one file after the other are those that the stream of the seed starts with, as
many as the sizes of the request ask for. -/
theorem Plan.exists_contents_read {r : Request} {p : Plan} (h : r.plan = .ok p) :
    ∃ (files : List (List UInt8)) (tables : List Table),
      p.contents = .ok files ∧ files.length = p.sheets.length ∧
      files.map Table.read = tables.map .ok ∧
      (tables.map Table.values).flatten =
        ((ValueStream.ofSeed r.seed.toUInt64 p.interval).take r.sizes.toNat.valueCount).1 := by
  obtain ⟨-, hsizes, -, -, hseed⟩ := Request.plan_eq_ok_iff.1 h
  obtain ⟨-, -, hraw⟩ := Sizes.accept_eq_ok_iff.1 hsizes
  refine ⟨p.rows.map encodeRows, p.rows.map fun rows => ⟨rows, !rows.isEmpty⟩, p.contents_eq,
    ?_, ?_, ?_⟩
  · rw [List.length_map, p.length_rows]
  · rw [List.map_map, List.map_map]
    apply List.map_congr_left
    intro rows _
    exact Table.read_encodeRows rows
  · have hvalues : Table.values ∘ (fun rows => ⟨rows, !rows.isEmpty⟩) = List.flatten := rfl
    rw [List.map_map, hvalues, p.flatten_rows, hraw, ← hseed]
    rfl

/-- A matrix of two by three and a kernel of side two: ten values from a negative seed. -/
theorem Plan.exists_contents_read_convolution :
    let r : Request := { sizes := .convolution 2 3 2, bits := 4, seed := -7 }
    let p : Plan :=
      { sizes := .convolution 2 3 2, width := ⟨4, by decide, by decide⟩, signed := false,
        seed := -7, destination := {} }
    r.plan = .ok p ∧ ∃ (files : List (List UInt8)) (tables : List Table),
      p.contents = .ok files ∧ files.length = 2 ∧ files.map Table.read = tables.map .ok ∧
      (tables.map Table.values).flatten =
        ((ValueStream.ofSeed (-7 : Int64).toUInt64 ⟨0, 15⟩).take 10).1 := by
  intro r p
  have hplan : r.plan = .ok p := by decide
  have hcount : r.sizes.toNat.valueCount = 10 := by decide
  have hinterval : p.interval = ⟨0, 15⟩ := by decide
  obtain ⟨files, tables, hfiles, hlength, hread, hvalues⟩ := Plan.exists_contents_read hplan
  rw [hcount, hinterval] at hvalues
  exact ⟨hplan, files, tables, hfiles, hlength, hread, hvalues⟩

end PartyInputs
