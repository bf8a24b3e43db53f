import PartyInputs.Text.Decimal

/-!
# Digits in groups of three

Sizes are shown to people with a comma between groups of three digits, counted from the right.
-/

namespace PartyInputs.Text.Grouped

/-- Puts a comma behind each digit that has a positive multiple of three digits to its right. -/
def separate : List Char → List Char
  | [] => []
  | d :: ds =>
    if ds ≠ [] ∧ ds.length % 3 = 0 then d :: ',' :: separate ds else d :: separate ds

/-- The numeral of `n` with its digits in groups of three. -/
def ofNat (n : Nat) : String := String.ofList (separate (Decimal.digits n))

/-- Grouping adds commas and changes nothing else. -/
theorem filter_separate (ds : List Char) (h : ∀ d ∈ ds, d ≠ ',') :
    (separate ds).filter (· ≠ ',') = ds := by
  induction ds with
  | nil => rfl
  | cons d ds ih =>
    have hd : d ≠ ',' := h d (by simp)
    have hds := ih fun e he => h e (by simp [he])
    unfold separate
    split <;> simp_all

end PartyInputs.Text.Grouped
