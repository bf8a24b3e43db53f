import PartyInputs.Proofs.Request.Conditions
import PartyInputs.Proofs.Run.Stopping

/-!
# Runs that are refused

A run starts with planning, which looks at nothing but the request. So it depends on the request
alone whether a run is refused and why, and a run that is refused has done nothing.

* `Request.result_run_eq_refused_iff`: a run is refused iff planning is.
* `Request.run_refuses`: **which runs are refused, why, and what they leave behind**.
-/

namespace PartyInputs

/-! ## Planning and running -/

/-- Carrying out a plan can stop, but then it stops at a step. -/
theorem Plan.result_produce_ne_refused (p : Plan) (disk : Disk) (x : Refusal) :
    (p.produce disk).result ≠ .error (.refused x) := by
  intro h
  rcases Plan.produce_eq_error_iff.1 h with ⟨fault, led, -, hfailure⟩ | ⟨ready, -, hfill⟩
  · cases hfailure
  · obtain ⟨done, sheet, path, rest, locs, reached, -, -, hstop⟩ :=
      Sheet.fillFiles_eq_error p.jobs hfill
    cases hstop

/-- A run is refused iff planning is, and with the same refusal. -/
theorem Request.result_run_eq_refused_iff {r : Request} {disk : Disk} {x : Refusal} :
    (r.run disk).result = .error (.refused x) ↔ r.plan = .error x := by
  unfold run
  rcases r.plan with y | p
  · simp
  · simp only [reduceCtorEq, iff_false]
    intro h
    rcases hproduce : (p.produce disk).result with failure | receipt
    · rw [hproduce] at h
      cases h
      exact p.result_produce_ne_refused disk x hproduce
    · rw [hproduce] at h
      cases h

/-- A run that is refused has touched and noted nothing. -/
theorem Request.run_of_plan_eq_error {r : Request} {x : Refusal} (h : r.plan = .error x)
    (disk : Disk) : (r.run disk).disk = disk ∧ (r.run disk).log = [] := by
  unfold run
  rw [h]
  exact ⟨rfl, rfl⟩

/-- A sign test takes no notice of a second file name. -/
theorem Request.plan_signTest_second (r : Request) (length : Int64) (second : Option String) :
    ({ r with sizes := .signTest length
              destination := { r.destination with second } } : Request).plan =
      ({ r with sizes := .signTest length } : Request).plan := by
  unfold plan
  rcases Width.accept r.bits with x | width
  · rfl
  · show (Sizes.accept (.signTest length) >>= _) = (Sizes.accept (.signTest length) >>= _)
    rcases hsizes : Sizes.accept (.signTest length) with x | sizes
    · rfl
    · have hworkload : sizes.workload = .signTest := Sizes.workload_of_accept hsizes
      have haccept : Destination.accept { r.destination with second } sizes.workload =
          r.destination.accept sizes.workload := by
        rw [hworkload]
        rfl
      show (Destination.accept { r.destination with second } sizes.workload >>= _) =
        (r.destination.accept sizes.workload >>= _)
      rw [haccept]

/-! ## Which runs are refused -/

/-- **Which runs are refused, why, and what they leave behind**: a run is refused iff the request
breaks a condition, and with the refusal of the first one that it breaks; the disk is as it was
then and nothing is noted. No size is refused for being too large for an address, and a sign test
runs in the same manner whatever is given for the second file name. -/
theorem Request.run_refuses (r : Request) (disk : Disk) :
    (∀ x, (r.run disk).result = .error (.refused x) ↔ FirstBroken r.conditions x) ∧
      ((∃ x, (r.run disk).result = .error (.refused x)) ↔ ∃ c ∈ r.conditions, ¬ c.Met) ∧
      (∀ x, (r.run disk).result = .error (.refused x) →
        (r.run disk).disk = disk ∧ (r.run disk).log = []) ∧
      (∀ name value, (r.run disk).result ≠ .error (.refused (.notAddressable name value))) ∧
      ∀ length second,
        ({ r with sizes := .signTest length
                  destination := { r.destination with second } } : Request).run disk =
          ({ r with sizes := .signTest length } : Request).run disk := by
  have hrefused : ∀ x, (r.run disk).result = .error (.refused x) ↔ FirstBroken r.conditions x :=
    fun x => result_run_eq_refused_iff.trans (r.decides_plan x)
  refine ⟨hrefused, ?_, ?_, ?_, ?_⟩
  · rw [← exists_firstBroken_iff]
    exact exists_congr hrefused
  · intro x hx
    exact run_of_plan_eq_error (result_run_eq_refused_iff.1 hx) disk
  · intro name value hx
    exact r.not_firstBroken_notAddressable name value ((hrefused _).1 hx)
  · intro length second
    unfold run
    rw [plan_signTest_second]

/-- A request with a matrix without columns, a kernel that is too large for it, an empty first file
name and no second one: the columns come first. -/
theorem Request.run_refuses_columns :
    let r : Request :=
      { sizes := .convolution 2 0 3, destination := { first := "", second := none } }
    (r.run {}).result = .error (.refused (.notPositive "A_COLS" 0)) ∧
      (r.run {}).disk = {} ∧ (r.run {}).log = [] := by
  intro r
  obtain ⟨hrefused, -, huntouched, -, -⟩ := Request.run_refuses r {}
  have hfirst : FirstBroken r.conditions (.notPositive "A_COLS" 0) :=
    .later (Condition.met_demand (by decide)) (.later (Condition.met_demand (by decide))
      (.here ⟨by decide, rfl⟩))
  exact ⟨(hrefused _).2 hfirst, huntouched _ ((hrefused _).2 hfirst)⟩

end PartyInputs
