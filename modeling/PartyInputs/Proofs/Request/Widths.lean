import PartyInputs.Proofs.Request.DrawOrder
import PartyInputs.Proofs.Values.Rescaling

/-!
# Files of several widths

The same seed and the same sizes, asked for with other bits, with or without a sign, under other file
names: the files have other texts, of other lengths. Read back they are the same tables in another
scale. A value with fewer bits is the one with more bits at the same place divided by a power of two,
once both are taken without their signs.

* `Sheet.forall₂_allRowsFrom`: sheets that streams in step are cut to.
* `Plan.forall₂_rows`: **the rows of two plans**.
* `Plan.map_read_contents`: the contents of files, read back.
* `Plan.exists_contents_rescaled`: **the values of streams and of files in several widths**.
-/

namespace PartyInputs

open List (Forall₂)

/-! ## Sheets -/

/-- Sheets of streams that are in step are related value by value. -/
theorem Sheet.forall₂_allRowsFrom {related : Int64 → Int64 → Prop} (sheets : List Sheet) :
    ∀ {s t : ValueStream}, s.InStep related t →
      Forall₂ (Forall₂ (Forall₂ related)) (allRowsFrom sheets s) (allRowsFrom sheets t) := by
  induction sheets with
  | nil => intro s t _; exact .nil
  | cons sheet sheets ih =>
    intro s t h
    rw [allRowsFrom_cons, allRowsFrom_cons]
    exact .cons (h.forall₂_cut sheet.widths) (ih (h.advance sheet.valueCount))

namespace Plan

/-! ## Plans -/

/-- **The rows of two plans** with the same sizes and the same seed. -/
theorem forall₂_rows {p p' : Plan} (hsizes : p.sizes = p'.sizes) (hseed : p.seed = p'.seed) :
    Forall₂ (Forall₂ (Forall₂ (p.width.Rescales p'.width p.signed p'.signed))) p.rows p'.rows := by
  unfold rows sheets stream streamSeed interval
  rw [hsizes, hseed]
  apply Sheet.forall₂_allRowsFrom
  apply ValueStream.inStep_ofSeed

/-- The tables that the files hold. -/
def tables (p : Plan) : List Table := p.rows.map fun rows => ⟨rows, !rows.isEmpty⟩

theorem map_read_contents (p : Plan) :
    (p.rows.map encodeRows).map Table.read = p.tables.map .ok := by
  simp [tables, Table.read_encodeRows]

/-- **Values in several widths.** The value of a stream without a sign is the word of its keystream
at the same place, shifted down to the bits that are asked for. So it is the value with more bits
divided by a power of two, and a sign moves it down by half of the interval. And so it is with files:
those of two requests with the same sizes and the same seed that are both accepted hold tables of the
same form, whatever else is asked for, with values at the same place that are so related. -/
theorem exists_contents_rescaled :
    (∀ (seed : UInt64) (n : Nat) (w : Width),
      let value (w : Width) (signed : Bool) : Int :=
        ((ValueStream.ofSeed seed (.ofWidth w signed)).take n).2.draw.1.toInt
      value w false = (((Key.ofSeed seed).word n).toNat >>> (32 - w.bits) : Nat) ∧
      (∀ w' : Width, w.bits ≤ w'.bits →
        value w false = value w' false / 2 ^ (w'.bits - w.bits)) ∧
      value w true = value w false - 2 ^ (w.bits - 1)) ∧
    (∀ (r r' : Request) (p p' : Plan), r.plan = .ok p → r'.plan = .ok p' → r.sizes = r'.sizes →
      r.seed = r'.seed →
      ∃ (files files' : List (List UInt8)) (tables tables' : List Table),
        p.contents = .ok files ∧ p'.contents = .ok files' ∧
        files.map Table.read = tables.map .ok ∧ files'.map Table.read = tables'.map .ok ∧
        Forall₂ (fun t t' => Forall₂ (Forall₂ (p.width.Rescales p'.width p.signed p'.signed))
          t.rows t'.rows) tables tables') := by
  constructor
  · intro seed n w value
    have hvalue : ∀ w signed, value w signed =
        ((Interval.ofWidth w signed).select ((Key.ofSeed seed).word n)).toInt := by
      intro w signed
      exact congrArg Int64.toInt (ValueStream.draw_take_ofSeed seed _ n)
    have hupper : ∀ w, value w false = w.upper ((Key.ofSeed seed).word n) := by
      intro w
      rw [hvalue, Interval.toInt_select_ofWidth_false]
    refine ⟨hupper w, ?_, ?_⟩
    · intro w' hle
      rw [hupper, hupper, Width.upper_eq_div hle]
      norm_cast
    · rw [hvalue, hupper, Interval.toInt_select_ofWidth_true]
  · intro r r' p p' h h' hsizes hseed
    obtain ⟨-, haccept, -, -, hp⟩ := Request.plan_eq_ok_iff.1 h
    obtain ⟨-, haccept', -, -, hp'⟩ := Request.plan_eq_ok_iff.1 h'
    have hsame : p.sizes = p'.sizes := by
      rw [hsizes, haccept'] at haccept
      exact (Except.ok.inj haccept).symm
    refine ⟨_, _, p.tables, p'.tables, p.contents_eq, p'.contents_eq, p.map_read_contents,
      p'.map_read_contents, ?_⟩
    rw [tables, tables, List.forall₂_map_left_iff, List.forall₂_map_right_iff]
    exact forall₂_rows hsame (by rw [hp, hp', hseed])

/-- A kernel and a matrix in 4 bits, and in 9 bits with a sign into other files: each value of the
first is the value of the second at the same place, without its sign, divided by 32. -/
theorem exists_contents_rescaled_signed :
    let r : Request := { sizes := .convolution 2 3 2, bits := 4, seed := -7 }
    let r' : Request :=
      { sizes := .convolution 2 3 2, bits := 9, signed := some true, seed := -7,
        destination := { first := "./a", second := some "b/" } }
    let p : Plan :=
      { sizes := .convolution 2 3 2, width := ⟨4, by decide, by decide⟩, signed := false,
        seed := -7, destination := {} }
    let p' : Plan :=
      { sizes := .convolution 2 3 2, width := ⟨9, by decide, by decide⟩, signed := true,
        seed := -7, destination := { first := "a", second := some "b" } }
    (r.plan = .ok p ∧ r'.plan = .ok p') ∧
    ∃ (files files' : List (List UInt8)) (tables tables' : List Table),
      p.contents = .ok files ∧ p'.contents = .ok files' ∧
      files.map Table.read = tables.map .ok ∧ files'.map Table.read = tables'.map .ok ∧
      Forall₂ (fun t t' => Forall₂ (Forall₂ fun v v' => v.toInt = (v'.toInt + 256) / 32)
        t.rows t'.rows) tables tables' := by
  intro r r' p p'
  have hplan : r.plan = .ok p := by decide
  have hplan' : r'.plan = .ok p' := by decide
  obtain ⟨files, files', tables, tables', hfiles, hfiles', hread, hread', hrows⟩ :=
    exists_contents_rescaled.2 r r' p p' hplan hplan' rfl rfl
  refine ⟨⟨hplan, hplan'⟩, files, files', tables, tables', hfiles, hfiles', hread, hread', ?_⟩
  refine hrows.imp fun t t' ht => ht.imp fun row row' hrow => hrow.imp fun v v' hv => ?_
  exact hv.narrower (by decide)

end Plan

end PartyInputs
