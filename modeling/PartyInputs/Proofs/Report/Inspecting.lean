import PartyInputs.Report.Inspection

/-!
# What an inspection says of a table

An inspection keeps a few facts of a table. Here they are facts of its rows and values.

* `Table.uniformWidth?_eq_some_iff`, `Table.profile_eq_uniform_iff`: **when a table is uniform**.
* `Table.profile_eq_empty_iff`, `Table.profile_eq_ragged_iff`: and when it is something else.
* `Table.profile_of_widths`, `Table.valueCount_of_widths`: rows that are all of one width.
* `Table.bounds?_eq_some_iff`: **the bounds of a table are two of its values**, and all others are
  between them.
* `Table.countOutside_eq_zero_iff`: **nothing falls outside** iff every value is inside, which the
  bounds tell (`Table.forall_contains_iff`).
-/

namespace PartyInputs.Table

/-! ## Widths -/

/-- A table has a width iff it has rows and all of them have that width. -/
theorem uniformWidth?_eq_some_iff {t : Table} {width : Nat} :
    t.uniformWidth? = some width ↔ t.rows ≠ [] ∧ ∀ row ∈ t.rows, row.length = width := by
  unfold uniformWidth?
  rcases t.rows with _ | ⟨row, rows⟩
  · simp
  · simp only [List.all_eq_true, decide_eq_true_eq, Option.ite_none_right_eq_some,
      Option.some.injEq, List.forall_mem_cons, ne_eq, reduceCtorEq, not_false_eq_true, true_and]
    constructor
    · rintro ⟨hrows, rfl⟩
      exact ⟨rfl, hrows⟩
    · rintro ⟨rfl, hrows⟩
      exact ⟨hrows, rfl⟩

/-- A table without rows has no width, so its profile does not say that it is uniform. -/
theorem profile_eq_uniform_iff {t : Table} {width : Nat} :
    t.profile = .uniform width ↔ t.rows ≠ [] ∧ ∀ row ∈ t.rows, row.length = width := by
  rw [← uniformWidth?_eq_some_iff]
  unfold profile
  rcases hrows : t.rows with _ | ⟨row, rows⟩
  · simp [uniformWidth?, hrows]
  · rcases t.uniformWidth? with _ | w
    · simp
    · simp

theorem profile_eq_empty_iff {t : Table} : t.profile = .empty ↔ t.rows = [] := by
  unfold profile
  rcases hrows : t.rows with _ | ⟨row, rows⟩
  · simp
  · rcases t.uniformWidth? with _ | w
    · simp
    · simp

/-- A table that is neither empty nor uniform has two rows that differ in width. -/
theorem exists_ne_of_uniformWidth? {t : Table} (hrows : t.rows ≠ []) (h : t.uniformWidth? = none) :
    ∃ m ∈ t.widths, ∃ n ∈ t.widths, m ≠ n := by
  obtain ⟨row, hrow⟩ := List.exists_mem_of_ne_nil t.rows hrows
  have hnot : ¬ ∀ other ∈ t.rows, other.length = row.length := by
    intro hall
    rw [uniformWidth?_eq_some_iff.2 ⟨hrows, hall⟩] at h
    cases h
  simp only [Classical.not_forall] at hnot
  obtain ⟨other, hother, hne⟩ := hnot
  exact ⟨_, List.mem_map_of_mem hother, _, List.mem_map_of_mem hrow, hne⟩

/-- A table is ragged iff two of its rows differ in width, and then all widths are listed. -/
theorem profile_eq_ragged_iff {t : Table} {widths : List Nat} :
    t.profile = .ragged widths ↔ widths = t.widths ∧ ∃ m ∈ t.widths, ∃ n ∈ t.widths, m ≠ n := by
  constructor
  · intro h
    have hrows : t.rows ≠ [] := by
      intro hnil
      rw [profile_eq_empty_iff.2 hnil] at h
      cases h
    unfold profile at h
    rw [if_neg (by simpa using hrows)] at h
    rcases hwidth : t.uniformWidth? with _ | w
    · rw [hwidth] at h
      cases h
      exact ⟨rfl, exists_ne_of_uniformWidth? hrows hwidth⟩
    · rw [hwidth] at h
      cases h
  · rintro ⟨rfl, m, hm, n, hn, hne⟩
    obtain ⟨row, hrow, rfl⟩ := List.mem_map.1 hm
    obtain ⟨other, hother, rfl⟩ := List.mem_map.1 hn
    have hnone : t.uniformWidth? = none := by
      rw [Option.eq_none_iff_forall_ne_some]
      intro w hw
      obtain ⟨-, hall⟩ := uniformWidth?_eq_some_iff.1 hw
      exact hne ((hall row hrow).trans (hall other hother).symm)
    unfold profile
    rw [if_neg (by simpa using List.ne_nil_of_mem hrow), hnone]

/-! ## Rectangles -/

section

variable {t : Table} {m n : Nat} (h : t.widths = List.replicate m n)

include h

theorem length_rows_of_widths : t.rows.length = m := by
  rw [← List.length_map, ← widths, h, List.length_replicate]

/-- A rectangle with a row is uniform. -/
theorem profile_of_widths (hm : 0 < m) : t.profile = .uniform n := by
  have hlength := length_rows_of_widths h
  refine profile_eq_uniform_iff.2 ⟨List.ne_nil_of_length_pos (by omega), ?_⟩
  intro row hrow
  have hmem : row.length ∈ t.widths := List.mem_map_of_mem hrow
  rw [h] at hmem
  exact List.eq_of_mem_replicate hmem

theorem valueCount_of_widths : t.valueCount = m * n := by
  show t.widths.sum = m * n
  rw [h, List.sum_replicate_nat]

end

/-! ## Values -/

instance : Std.MaxEqOr Int64 where
  max_eq_or a b := by
    rw [show max a b = if a ≤ b then b else a from rfl]
    split
    · exact .inr rfl
    · exact .inl rfl

instance : Std.LawfulOrderSup Int64 where
  max_le_iff a b c := by
    rw [show max a b = if a ≤ b then b else a from rfl]
    split
    · rename_i h
      exact ⟨fun hb => ⟨Int64.le_trans h hb, hb⟩, And.right⟩
    · rename_i h
      have hlt : b ≤ a := Int64.le_of_lt (Int64.not_le.1 h)
      exact ⟨fun ha => ⟨ha, Int64.le_trans hlt ha⟩, And.left⟩

theorem bounds?_eq_none_iff {t : Table} : t.bounds? = none ↔ t.values = [] := by
  unfold bounds?
  rcases t.values with _ | ⟨v, vs⟩
  · simp
  · simp

/-- **The bounds of a table** are values of it, and no value is beyond them. -/
theorem bounds?_eq_some_iff {t : Table} {least greatest : Int64} :
    t.bounds? = some (least, greatest) ↔
      (least ∈ t.values ∧ ∀ v ∈ t.values, least ≤ v) ∧
        greatest ∈ t.values ∧ ∀ v ∈ t.values, v ≤ greatest := by
  rw [← List.min?_eq_some_iff, ← List.max?_eq_some_iff]
  unfold bounds?
  rcases t.values with _ | ⟨v, vs⟩
  · simp
  · rw [List.min?_cons', List.max?_cons']
    simp

/-- The bounds of a table are values of it. -/
theorem exists_bounds? {t : Table} (h : t.values ≠ []) :
    ∃ least greatest, t.bounds? = some (least, greatest) ∧ least ∈ t.values ∧
      greatest ∈ t.values := by
  obtain ⟨⟨least, greatest⟩, hbounds⟩ := Option.ne_none_iff_exists'.1 (mt bounds?_eq_none_iff.1 h)
  obtain ⟨⟨hleast, -⟩, hgreatest, -⟩ := bounds?_eq_some_iff.1 hbounds
  exact ⟨least, greatest, hbounds, hleast, hgreatest⟩

/-- Every value is inside iff the bounds are, if there are any. -/
theorem forall_contains_iff {t : Table} {r : Interval} :
    (∀ v ∈ t.values, r.contains v) ↔
      t.values = [] ∨
        ∃ least greatest, t.bounds? = some (least, greatest) ∧ r.lo ≤ least ∧ greatest ≤ r.hi := by
  constructor
  · intro hinside
    by_cases h : t.values = []
    · exact .inl h
    · obtain ⟨least, greatest, hbounds, hleast, hgreatest⟩ := exists_bounds? h
      exact .inr ⟨least, greatest, hbounds, (Interval.contains_iff.1 (hinside least hleast)).1,
        (Interval.contains_iff.1 (hinside greatest hgreatest)).2⟩
  · rintro (h | ⟨least, greatest, hbounds, hlo, hhi⟩) v hv
    · rw [h] at hv
      cases hv
    · obtain ⟨⟨-, hleast⟩, -, hgreatest⟩ := bounds?_eq_some_iff.1 hbounds
      exact Interval.contains_iff.2
        ⟨Int64.le_trans hlo (hleast v hv), Int64.le_trans (hgreatest v hv) hhi⟩

/-- Nothing falls outside iff every value is inside. -/
theorem countOutside_eq_zero_iff {t : Table} {r : Interval} :
    t.countOutside r = 0 ↔ ∀ v ∈ t.values, r.contains v := by
  simp [countOutside, List.countP_eq_zero]

end PartyInputs.Table
