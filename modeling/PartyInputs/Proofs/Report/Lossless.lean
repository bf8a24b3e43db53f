import Mathlib.Data.List.Basic
import PartyInputs.Proofs.Text.Objects
import PartyInputs.Report.Inspection
import PartyInputs.Report.Overview

/-!
# What reports keep

A report as JSON is for other programs, which have nothing but its text. Everything that an inspection
or an overview says is in it: two that differ in anything at all have different texts. Paths may hold
quotes, line ends and what looks like more of the report; profiles and sizes, which come in several
kinds, show in their form which kind it is; and what is missing does not look like anything that is
not.

* `Json.ofOption_injective`: what may be absent.
* `Inspection.profileJson_injective`, `Sizes.json_injective`: **values of several kinds**.
* `Inspection.json_injective`, `Overview.json_injective`: **reports keep everything**.
* `pretty_json_eq_iff`: **so do their texts**.
-/

namespace PartyInputs

open Function (Injective)
open Text (Json)

/-! ## Parts of reports -/

namespace Text.Json

theorem nat_injective : Injective nat := by
  intro m n h
  exact Int.ofNat.inj (Json.int.inj h)

/-- Absence is told from a value that is not `null`. -/
theorem ofOption_injective {α : Type} {f : α → Json} (hf : Injective f)
    (hnull : ∀ a, f a ≠ .null) : Injective (ofOption f) := by
  intro x y h
  cases x with
  | none =>
    cases y with
    | none => rfl
    | some b => exact absurd h.symm (hnull b)
  | some a =>
    cases y with
    | none => exact absurd h (hnull a)
    | some b => rw [hf h]

end Text.Json

theorem Width.bits_injective : Injective bits := by
  rintro ⟨m, _, _⟩ ⟨n, _, _⟩ rfl
  rfl

theorem Interval.json_injective : Injective json := by
  rintro ⟨lo, hi⟩ ⟨lo', hi'⟩ h
  simpa [json, Int64.toInt_inj] using h

/-- The name of the workload stands in front of its sizes. -/
theorem Sizes.json_injective : Injective json := by
  intro s t h
  cases s <;> cases t <;> simp_all [json, Json.nat_injective.eq_iff]

/-! ## Inspections -/

namespace Inspection

theorem int64Json_injective : Injective int64Json := by
  intro v w h
  exact Int64.toInt_inj.1 (Json.int.inj h)

/-- A word stands for no rows, and an object says with the name of its field whether it is about one
width or about all of them. -/
theorem profileJson_injective : Injective profileJson := by
  intro p q h
  have hwidths := Json.nat_injective.list_map
  cases p <;> cases q <;> simp_all [profileJson, Json.nat_injective.eq_iff, hwidths.eq_iff]

/-- **The report of an inspection** keeps everything that it says. -/
theorem json_injective : Injective json := by
  intro i j h
  have hbound := Json.ofOption_injective int64Json_injective fun _ => nofun
  have hinterval := Json.ofOption_injective Interval.json_injective fun _ => nofun
  cases i
  cases j
  simpa [json, Json.nat_injective.eq_iff, profileJson_injective.eq_iff, hbound.eq_iff,
    hinterval.eq_iff] using h

end Inspection

/-! ## Overviews -/

/-- **The report of a file** keeps its path, whatever that holds. -/
theorem PartyFile.json_injective : Injective json := by
  intro f g h
  have hsize := Json.ofOption_injective Json.nat_injective fun _ => nofun
  cases f
  cases g
  simpa [json, Json.nat_injective.eq_iff, hsize.eq_iff] using h

namespace Overview

theorem pairJson_injective : Injective pairJson := by
  rintro ⟨m, n⟩ ⟨m', n'⟩ h
  simpa [pairJson, Json.nat_injective.eq_iff] using h

/-- **The report of an overview** keeps everything that it says. -/
theorem json_injective : Injective json := by
  intro o p h
  have hconvolved := Json.ofOption_injective pairJson_injective fun _ => nofun
  have hfiles := PartyFile.json_injective.list_map
  cases o
  cases p
  simpa [json, Json.nat_injective.eq_iff, Sizes.json_injective.eq_iff, Int64.toInt_inj,
    Width.bits_injective.eq_iff, Interval.json_injective.eq_iff, hconvolved.eq_iff,
    hfiles.eq_iff] using h

end Overview

/-! ## Texts of reports -/

/-- **Reports lose nothing.** Two inspections have the same text iff they say the same in every
detail, and so have two overviews. -/
theorem pretty_json_eq_iff :
    (∀ i j : Inspection, i.json.pretty = j.json.pretty ↔ i = j) ∧
    (∀ o p : Overview, o.json.pretty = p.json.pretty ↔ o = p) := by
  constructor
  · intro i j
    exact (Json.pretty_injective.comp Inspection.json_injective).eq_iff
  · intro o p
    exact (Json.pretty_injective.comp Overview.json_injective).eq_iff

end PartyInputs
