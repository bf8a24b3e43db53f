import Mathlib.Data.List.Nodup
import PartyInputs.Proofs.Fallible
import PartyInputs.Proofs.Request.Names

/-!
# Accepted requests

A request is accepted when each of its checks passes, and the plan says what they gave. So a fact of
a plan is a fact of one check.

* `Sizes.accept_eq_ok_iff`: **sizes are accepted as they are**: positive, and with a kernel that
  fits the matrix.
* `Destination.of_accept`: accepted names are plain and differ.
* `Request.plan_eq_ok_iff`: **a plan** check by check.
* `Plan.all_pos`: the sizes of a plan are positive.
* `Plan.length_paths`: every sheet has a path of its own.
-/

namespace PartyInputs

/-! ## Sizes -/

namespace Sizes

/-- The sizes with each of them changed in the same way. -/
def map {α β : Type} (f : α → β) : Sizes α → Sizes β
  | signTest length => signTest (f length)
  | convolution rows cols kernel => convolution (f rows) (f cols) (f kernel)
  | linearLayer n => linearLayer (f n)

/-- Each of the sizes has the property. -/
def All {α : Type} (P : α → Prop) : Sizes α → Prop
  | signTest length => P length
  | convolution rows cols kernel => P rows ∧ P cols ∧ P kernel
  | linearLayer n => P n

/-- The kernel, if there is one, is not larger than the matrix that it slides over. -/
def KernelFits : Sizes Nat → Prop
  | convolution rows cols kernel => kernel ≤ rows ∧ kernel ≤ cols
  | _ => True

/-- The sizes as natural numbers. -/
def toNat (s : Sizes Int64) : Sizes Nat := s.map fun v => v.toInt.toNat

/-- Positive sizes are positive as natural numbers. -/
theorem all_toNat {s : Sizes Int64} (h : s.All (0 < ·.toInt)) : s.toNat.All (0 < ·) := by
  cases s with
  | signTest length => exact Int.pos_iff_toNat_pos.1 h
  | convolution rows cols kernel =>
    obtain ⟨hrows, hcols, hkernel⟩ := h
    exact ⟨Int.pos_iff_toNat_pos.1 hrows, Int.pos_iff_toNat_pos.1 hcols,
      Int.pos_iff_toNat_pos.1 hkernel⟩
  | linearLayer n => exact Int.pos_iff_toNat_pos.1 h

/-- One size is accepted iff it is positive, and then as it is. -/
theorem acceptOne_eq_ok_iff {name : String} {v : Int64} {n : Nat} :
    acceptOne name v = .ok n ↔ 0 < v.toInt ∧ v.toInt.toNat = n := by
  have hneg : v ≤ 0 ↔ ¬ 0 < v.toInt := by
    rw [Int64.le_iff_toInt_le, Int64.toInt_zero, Int.not_lt]
  have haddr : ¬ addressLimit < v.toInt.toNat := by
    have h := (Text.Decimal.fitsInt64_toInt v).2
    have hmax : Int64.maxValue.toInt.toNat ≤ addressLimit := by decide
    omega
  unfold acceptOne
  by_cases h : v ≤ 0
  · rw [if_pos h]
    constructor
    · intro hv; cases hv
    · rintro ⟨hv, -⟩; exact absurd hv (hneg.1 h)
  · rw [if_neg h, if_neg haddr, Except.ok.injEq]
    have hpos : 0 < v.toInt := Decidable.not_not.1 (mt hneg.2 h)
    constructor
    · intro hv; exact ⟨hpos, hv⟩
    · rintro ⟨-, hv⟩; exact hv

/-- **Sizes are accepted as they are** iff each is positive and the kernel fits. -/
theorem accept_eq_ok_iff {raw : Sizes Int64} {s : Sizes Nat} :
    raw.accept = .ok s ↔ raw.All (0 < ·.toInt) ∧ raw.toNat.KernelFits ∧ raw.toNat = s := by
  cases raw with
  | signTest length =>
    simp only [accept, bind_eq_ok_iff, acceptOne_eq_ok_iff, All, KernelFits, toNat, map]
    constructor
    · rintro ⟨n, ⟨hpos, rfl⟩, h⟩; cases h; exact ⟨hpos, trivial, rfl⟩
    · rintro ⟨hpos, -, rfl⟩; exact ⟨_, ⟨hpos, rfl⟩, rfl⟩
  | convolution rows cols kernel =>
    simp only [accept, bind_eq_ok_iff, acceptOne_eq_ok_iff, All, KernelFits, toNat, map]
    constructor
    · rintro ⟨m, ⟨hrows, rfl⟩, n, ⟨hcols, rfl⟩, k, ⟨hkernel, rfl⟩, h⟩
      split at h
      · cases h
      · rename_i hfits
        rw [not_or, Nat.not_lt, Nat.not_lt] at hfits
        cases h
        exact ⟨⟨hrows, hcols, hkernel⟩, hfits, rfl⟩
    · rintro ⟨⟨hrows, hcols, hkernel⟩, hfits, rfl⟩
      refine ⟨_, ⟨hrows, rfl⟩, _, ⟨hcols, rfl⟩, _, ⟨hkernel, rfl⟩, ?_⟩
      rw [if_neg (not_or.2 ⟨Nat.not_lt.2 hfits.1, Nat.not_lt.2 hfits.2⟩)]
      rfl
  | linearLayer n =>
    simp only [accept, bind_eq_ok_iff, acceptOne_eq_ok_iff, All, KernelFits, toNat, map]
    constructor
    · rintro ⟨n, ⟨hpos, rfl⟩, h⟩; cases h; exact ⟨hpos, trivial, rfl⟩
    · rintro ⟨hpos, -, rfl⟩; exact ⟨_, ⟨hpos, rfl⟩, rfl⟩

end Sizes

/-! ## Destinations -/

namespace Destination

/-- The file names of the parties, party 0 first. -/
def names (d : Destination) : List String := d.first :: d.second.toList

theorem paths_eq (d : Destination) : d.paths = d.names.map (pathOf d.directory) := rfl

/-- **What a destination is accepted as**: the same directory, a name for each party, each of them
plain and no two the same. -/
theorem of_accept {raw d : Destination} {w : Workload} (h : raw.accept w = .ok d) :
    d.directory = raw.directory ∧ d.names.length = w.partyCount ∧
      (∀ name ∈ d.names, FileName.IsPlain name) ∧ d.names.Nodup := by
  unfold accept at h
  obtain ⟨first, hfirst, h⟩ := bind_eq_ok_iff.1 h
  have hplain := FileName.isPlain_of_accept hfirst
  split at h
  · rename_i hcount
    cases h
    have hone : w.partyCount = 1 := by cases w <;> revert hcount <;> decide
    refine ⟨rfl, hone.symm, ?_, List.nodup_singleton _⟩
    intro name hname
    rw [List.mem_singleton.1 hname]
    exact hplain
  · rename_i hcount
    have htwo : w.partyCount = 2 := by cases w <;> revert hcount <;> decide
    split at h
    · cases h
    · obtain ⟨second, hsecond, h⟩ := bind_eq_ok_iff.1 h
      have hplain' := FileName.isPlain_of_accept hsecond
      split at h
      · cases h
      · rename_i hne
        cases h
        refine ⟨rfl, htwo.symm, ?_, ?_⟩
        · intro name hname
          rcases List.mem_cons.1 hname with rfl | hname
          · exact hplain
          · rw [List.mem_singleton.1 hname]
            exact hplain'
        · refine List.nodup_cons.2 ⟨?_, List.nodup_singleton _⟩
          intro hmem
          exact hne (List.mem_singleton.1 hmem).symm

end Destination

/-! ## Plans -/

/-- **A plan** is what the checks give, one after the other. -/
theorem Request.plan_eq_ok_iff {r : Request} {p : Plan} :
    r.plan = .ok p ↔ Width.accept r.bits = .ok p.width ∧ r.sizes.accept = .ok p.sizes ∧
      r.destination.accept p.sizes.workload = .ok p.destination ∧
      p.signed = r.signed.getD p.sizes.workload.signedByDefault ∧ p.seed = r.seed := by
  simp only [plan, bind_eq_ok_iff]
  constructor
  · rintro ⟨width, hwidth, sizes, hsizes, destination, hdestination, h⟩
    cases h
    exact ⟨hwidth, hsizes, hdestination, rfl, rfl⟩
  · rintro ⟨hwidth, hsizes, hdestination, hsigned, hseed⟩
    refine ⟨_, hwidth, _, hsizes, _, hdestination, ?_⟩
    rw [← hsigned, ← hseed]
    rfl

/-- The sizes of a plan are positive. -/
theorem Plan.all_pos {r : Request} {p : Plan} (h : r.plan = .ok p) : p.sizes.All (0 < ·) := by
  obtain ⟨-, hsizes, -, -, -⟩ := Request.plan_eq_ok_iff.1 h
  obtain ⟨hpos, -, hraw⟩ := Sizes.accept_eq_ok_iff.1 hsizes
  rw [← hraw]
  exact Sizes.all_toNat hpos

theorem Sizes.length_sheets (s : Sizes Nat) : s.sheets.length = s.workload.partyCount := by
  cases s <;> rfl

/-- Every sheet has a path of its own. -/
theorem Plan.length_paths {r : Request} {p : Plan} (h : r.plan = .ok p) :
    p.paths.length = p.sheets.length := by
  obtain ⟨-, -, hdestination, -, -⟩ := Request.plan_eq_ok_iff.1 h
  obtain ⟨-, hlength, -, -⟩ := Destination.of_accept hdestination
  rw [Plan.paths, Destination.paths_eq, List.length_map, hlength, Plan.sheets, Sizes.length_sheets]

end PartyInputs
