import PartyInputs.Proofs.Request.Conditions

/-!
# What a plan promises

What follows a plan takes its sizes, its sheets and its paths as they are: a kernel is subtracted
from the matrix that it slides over, sheets and paths are put side by side, and no two files may be
the same one. None of this is checked again, so planning has to promise it.

* `Sizes.map_ofNat_of_accept`: accepted sizes are the ones that were given.
* `Sizes.exists_convolved?`: **a kernel that fits takes a place in each direction**.
* `FileName.accept_plain`, `Destination.accept_of_names`: what was accepted is accepted as it is.
* `Plan.request`: the request that a plan makes again.
* `Plan.wellFormed`: **what a plan promises**.
-/

namespace PartyInputs

/-! ## Sizes -/

namespace Sizes

variable {raw : Sizes Int64} {s : Sizes Nat}

/-- What is made of accepted sizes is made of the ones that were given, as long as the two agree on
positive sizes. -/
theorem map_of_accept {β : Type} {f : Nat → β} {g : Int64 → β} (h : raw.accept = .ok s)
    (heq : ∀ v : Int64, 0 < v.toInt → f v.toInt.toNat = g v) : s.map f = raw.map g := by
  obtain ⟨hpos, -, rfl⟩ := accept_eq_ok_iff.1 h
  cases raw with
  | signTest length => exact congrArg signTest (heq length hpos)
  | convolution rows cols kernel =>
    obtain ⟨hrows, hcols, hkernel⟩ := hpos
    simp only [toNat, map, heq rows hrows, heq cols hcols, heq kernel hkernel]
  | linearLayer n => exact congrArg linearLayer (heq n hpos)

/-- Accepted sizes are the ones that were given, as numbers. -/
theorem map_natCast_of_accept (h : raw.accept = .ok s) :
    s.map (fun n : Nat => (n : Int)) = raw.map Int64.toInt :=
  map_of_accept h fun _ hpos => Int.toNat_of_nonneg (Int.le_of_lt hpos)

/-- **Accepted sizes are the ones that were given**, as 64-bit integers. -/
theorem map_ofNat_of_accept (h : raw.accept = .ok s) : s.map Int64.ofNat = raw := by
  have hid : raw.map id = raw := by cases raw <;> rfl
  rw [← hid]
  apply map_of_accept h
  intro v hpos
  rw [← Int64.ofInt_eq_ofNat, Int.toNat_of_nonneg (Int.le_of_lt hpos), Int64.ofInt_toInt, id_eq]

/-- **A kernel that fits takes a place in each direction**, and as many places as rows and columns
are left when it stands in the first one. -/
theorem exists_convolved? {rows cols kernel : Nat}
    (h : (convolution rows cols kernel).KernelFits) :
    ∃ m n, (convolution rows cols kernel).convolved? = some (m, n) ∧
      m + kernel = rows + 1 ∧ n + kernel = cols + 1 ∧ 1 ≤ m ∧ 1 ≤ n := by
  obtain ⟨hrows, hcols⟩ := h
  refine ⟨rows - kernel + 1, cols - kernel + 1, rfl, ?_, ?_, ?_, ?_⟩ <;> omega

/-- Sheets are in the order of their parties. -/
theorem map_party_sheets (s : Sizes Nat) :
    s.sheets.map (·.party) = List.range s.workload.partyCount := by
  cases s <;> rfl

end Sizes

/-! ## Names -/

/-- A plain name is accepted as it is. -/
theorem FileName.accept_plain {name : String} (h : IsPlain name) (party : Nat) :
    accept party name = .ok name := by
  have hspells : Spells name name := ⟨h, [], [], by simp, by simp, by simp⟩
  exact accept_eq_ok_iff.2 ⟨h.ne_empty, plain?_eq_some_iff_spells.2 hspells⟩

namespace Destination

/-- A destination with a plain name for each party, no two of them the same, is accepted as it
is. -/
theorem accept_of_names {d : Destination} {w : Workload} (hlength : d.names.length = w.partyCount)
    (hplain : ∀ name ∈ d.names, FileName.IsPlain name) (hnodup : d.names.Nodup) :
    d.accept w = .ok d := by
  obtain ⟨directory, first, second⟩ := d
  have hfirst := FileName.accept_plain (hplain first (by simp [names])) 0
  rcases second with _ | second
  · have hone : w.partyCount = 1 := by simpa [names] using hlength.symm
    simp only [accept, hfirst, hone]
    rfl
  · have htwo : w.partyCount = 2 := by simpa [names] using hlength.symm
    have hsecond := FileName.accept_plain (hplain second (by simp [names])) 1
    have hne : second ≠ first := by
      rintro rfl
      simp [names] at hnodup
    simp only [accept, hfirst, htwo]
    show (FileName.accept 1 second >>= _) = _
    rw [hsecond]
    exact if_neg hne

variable {raw d : Destination} {w : Workload}

/-- **What was accepted is accepted as it is.** -/
theorem accept_of_accept (h : raw.accept w = .ok d) : d.accept w = .ok d := by
  obtain ⟨-, hlength, hplain, hnodup⟩ := of_accept h
  exact accept_of_names hlength hplain hnodup

/-- The paths of accepted names lead different ways. -/
theorem nodup_names_paths (h : raw.accept w = .ok d) :
    (d.paths.map fun path => (Route.ofPath path).names).Nodup := by
  obtain ⟨-, -, hplain, hnodup⟩ := of_accept h
  rw [paths_eq, List.map_map]
  refine hnodup.map_on ?_
  intro name hname other hother heq
  simpa [Route.names_pathOf _ (hplain name hname), Route.names_pathOf _ (hplain other hother)]
    using heq

end Destination

/-! ## Plans -/

/-- The width of some bits is accepted for these bits. -/
theorem Width.accept_ofNat (w : Width) : Width.accept (Int64.ofNat w.bits) = .ok w := by
  have hbits : (Int64.ofNat w.bits).toInt.toNat = w.bits := by
    have hw := w.le_31
    rw [Int64.toInt_ofNat_of_lt (by omega), Int.toNat_natCast]
  have hbounds : 1 ≤ (Int64.ofNat w.bits).toInt.toNat ∧ (Int64.ofNat w.bits).toInt.toNat ≤ 31 := by
    rw [hbits]
    exact ⟨w.one_le, w.le_31⟩
  rw [accept, ofInt64?, dif_pos hbounds]
  simp only [hbits]

/-- The request that a plan makes again, with all choices made. -/
def Plan.request (p : Plan) : Request where
  sizes := p.sizes.map Int64.ofNat
  bits := Int64.ofNat p.width.bits
  signed := some p.signed
  seed := p.seed
  destination := p.destination

/-- **A plan is made again** by its own request. -/
theorem Plan.plan_request {r : Request} {p : Plan} (h : r.plan = .ok p) :
    p.request.plan = .ok p := by
  obtain ⟨-, hsizes, hdestination, -, -⟩ := Request.plan_eq_ok_iff.1 h
  refine Request.plan_eq_ok_iff.2 ⟨p.width.accept_ofNat, ?_, ?_, rfl, rfl⟩
  · show (p.sizes.map Int64.ofNat).accept = .ok p.sizes
    rw [Sizes.map_ofNat_of_accept hsizes, hsizes]
  · exact Destination.accept_of_accept hdestination

/-- **What a plan promises.** Its sizes are the positive ones that were asked for, and a kernel fits
and takes at least one place in each direction; there is a path and a sheet for each party, none of
them without the other, and the sheets are in the order of the parties; the paths lead different
ways, each from the directory that was asked for to a plain name in it; and the request that the
plan makes is planned in the same way again. -/
theorem Plan.wellFormed {r : Request} {p : Plan} (h : r.plan = .ok p) :
    -- sizes
    p.sizes.map (fun n : Nat => (n : Int)) = r.sizes.map Int64.toInt ∧
      p.sizes.All (0 < ·) ∧
      (∀ rows cols kernel, p.sizes = .convolution rows cols kernel →
        kernel ≤ rows ∧ kernel ≤ cols ∧ ∃ m n, p.sizes.convolved? = some (m, n) ∧
          m + kernel = rows + 1 ∧ n + kernel = cols + 1 ∧ 1 ≤ m ∧ 1 ≤ n) ∧
      -- sheets beside paths
      p.paths.length = p.workload.partyCount ∧
      p.sheets.length = p.workload.partyCount ∧
      (p.sheets.zip p.paths).map Prod.fst = p.sheets ∧
      (p.sheets.zip p.paths).map Prod.snd = p.paths ∧
      p.sheets.map (·.party) = List.range p.workload.partyCount ∧
      -- paths
      p.paths.Nodup ∧
      (p.paths.map fun path => (Route.ofPath path).names).Nodup ∧
      p.destination.directory = r.destination.directory ∧
      (∃ names : List String, p.paths = names.map (Destination.pathOf p.destination.directory) ∧
        ∀ name ∈ names, FileName.IsPlain name) ∧
      -- the same plan again
      p.request.plan = .ok p := by
  obtain ⟨-, hsizes, hdestination, -, -⟩ := Request.plan_eq_ok_iff.1 h
  obtain ⟨-, hfits, hraw⟩ := Sizes.accept_eq_ok_iff.1 hsizes
  obtain ⟨hdirectory, -, hplain, -⟩ := Destination.of_accept hdestination
  have hsheets : p.sheets.length = p.workload.partyCount := p.sizes.length_sheets
  have hpaths : p.paths.length = p.sheets.length := Plan.length_paths h
  have hnodup := Destination.nodup_names_paths hdestination
  refine ⟨Sizes.map_natCast_of_accept hsizes, Plan.all_pos h, ?_, hpaths.trans hsheets, hsheets,
    List.map_fst_zip (by omega), List.map_snd_zip (by omega), p.sizes.map_party_sheets,
    hnodup.of_map _, hnodup, hdirectory, ⟨p.destination.names, p.destination.paths_eq, hplain⟩,
    Plan.plan_request h⟩
  intro rows cols kernel hconvolution
  rw [hraw, hconvolution] at hfits
  rw [hconvolution]
  exact ⟨hfits.1, hfits.2, Sizes.exists_convolved? hfits⟩

/-- A kernel that is as wide as its matrix, and two names that are not spelled plainly. -/
theorem Plan.wellFormed_narrow :
    let r : Request :=
      { sizes := .convolution 5 2 2
        destination := { directory := "x/", first := "./a", second := some "b/." } }
    let p : Plan :=
      { sizes := .convolution 5 2 2, width := ⟨16, by decide, by decide⟩, signed := false,
        seed := 42, destination := { directory := "x/", first := "a", second := some "b" } }
    r.plan = .ok p ∧ p.sizes.convolved? = some (4, 1) ∧ p.paths = ["x/a", "x/b"] ∧
      p.sheets.map (·.party) = [0, 1] ∧ p.paths.Nodup ∧ p.request.plan = .ok p := by
  intro r p
  have hplan : r.plan = .ok p := by decide
  obtain ⟨-, -, hkernel, -, -, -, -, hparties, hnodup, -, -, -, hagain⟩ :=
    Plan.wellFormed hplan
  obtain ⟨-, -, m, n, hconvolved, hm, hn, -, -⟩ := hkernel 5 2 2 rfl
  have hfour : m = 4 := by omega
  have hone : n = 1 := by omega
  rw [hfour, hone] at hconvolved
  exact ⟨hplan, hconvolved, by decide, hparties, hnodup, hagain⟩

end PartyInputs
