import Mathlib.Data.List.Basic
import PartyInputs.Proofs.Text.Canonical
import PartyInputs.Text.Grouped

/-!
# Groups of three digits

Whether a comma follows a digit is decided by how many digits are still to come, while the digits
are gone through from the front. So what stands behind the first group are whole groups, however
many digits there are, and the first group has the one, two or three digits that are left over.

* `Grouped.Further`, `Grouped.IsGrouped`: **the grammar of grouped digits**.
* `Grouped.isGrouped_separate`: separated digits are grouped, and how wide the first group is.
* `Grouped.count_comma_separate`: how many commas there are.
* `Grouped.ofNat_groups`: **what the grouped numeral of a number is**.
-/

namespace PartyInputs.Text.Grouped

/-! ## Grouped digits -/

/-- Groups of a comma and three digits, one behind the other. -/
inductive Further : List Char → Prop where
  | nil : Further []
  | cons {a b c : Char} {groups : List Char} : a.isDigit → b.isDigit → c.isDigit →
      Further groups → Further (',' :: a :: b :: c :: groups)

/-- A group of `width` digits with groups of a comma and three digits behind it. -/
def IsGrouped (width : Nat) (text : List Char) : Prop :=
  ∃ first groups, text = first ++ groups ∧ first.length = width ∧ (∀ c ∈ first, c.isDigit) ∧
    Further groups

/-- A digit in front of grouped digits widens their first group. -/
theorem IsGrouped.cons {width : Nat} {text : List Char} (h : IsGrouped width text) {d : Char}
    (hd : d.isDigit) : IsGrouped (width + 1) (d :: text) := by
  obtain ⟨first, groups, rfl, rfl, hfirst, hgroups⟩ := h
  exact ⟨d :: first, groups, rfl, rfl, List.forall_mem_cons.2 ⟨hd, hfirst⟩, hgroups⟩

/-- With a comma between them the digit is a first group by itself, if the one so far is full. -/
theorem IsGrouped.cons_comma {text : List Char} (h : IsGrouped 3 text) {d : Char}
    (hd : d.isDigit) : IsGrouped 1 (d :: ',' :: text) := by
  obtain ⟨first, groups, rfl, hlength, hfirst, hgroups⟩ := h
  obtain ⟨a, b, c, rfl⟩ := List.length_eq_three.1 hlength
  simp only [List.forall_mem_cons] at hfirst
  obtain ⟨ha, hb, hc, -⟩ := hfirst
  exact ⟨[d], ',' :: a :: b :: c :: groups, rfl, rfl, by simpa using hd, .cons ha hb hc hgroups⟩

/-! ## Separated digits -/

theorem separate_cons_of_comma {ds : List Char} (d : Char) (hne : ds ≠ [])
    (h : ds.length % 3 = 0) : separate (d :: ds) = d :: ',' :: separate ds :=
  if_pos ⟨hne, h⟩

theorem separate_cons_of_no_comma {ds : List Char} (d : Char) (h : ds = [] ∨ ds.length % 3 ≠ 0) :
    separate (d :: ds) = d :: separate ds :=
  if_neg fun hcomma => h.elim hcomma.1 fun hmod => hmod hcomma.2

variable {ds : List Char}

/-- **Separated digits are grouped**, and the first group has what whole groups leave over. -/
theorem isGrouped_separate (hne : ds ≠ []) (hds : ∀ d ∈ ds, d.isDigit) :
    IsGrouped ((ds.length - 1) % 3 + 1) (separate ds) := by
  induction ds with
  | nil => exact absurd rfl hne
  | cons d ds ih =>
    obtain ⟨hd, hds⟩ := List.forall_mem_cons.1 hds
    by_cases hnil : ds = []
    · subst hnil
      exact ⟨[d], [], rfl, rfl, by simpa using hd, .nil⟩
    · have hrest := ih hnil hds
      have hpos := List.length_pos_iff.2 hnil
      rw [List.length_cons, Nat.add_sub_cancel]
      by_cases hmod : ds.length % 3 = 0
      · -- whole groups are to come, so the next one is full and the digit stands alone
        rw [separate_cons_of_comma d hnil hmod, hmod]
        rw [show (ds.length - 1) % 3 + 1 = 3 by omega] at hrest
        exact hrest.cons_comma hd
      · rw [separate_cons_of_no_comma d (.inr hmod),
          show ds.length % 3 + 1 = (ds.length - 1) % 3 + 1 + 1 by omega]
        exact hrest.cons hd

/-- A comma is added for each three digits behind the first one. -/
theorem count_comma_separate (hds : ∀ d ∈ ds, d ≠ ',') :
    (separate ds).count ',' = (ds.length - 1) / 3 := by
  induction ds with
  | nil => rfl
  | cons d ds ih =>
    obtain ⟨hd, hds⟩ := List.forall_mem_cons.1 hds
    have hcount := ih hds
    rw [List.length_cons, Nat.add_sub_cancel]
    by_cases hnil : ds = []
    · subst hnil
      simp [separate, hd]
    · have hpos := List.length_pos_iff.2 hnil
      by_cases hmod : ds.length % 3 = 0
      · rw [separate_cons_of_comma d hnil hmod, List.count_cons_of_ne hd, List.count_cons_self,
          hcount]
        omega
      · rw [separate_cons_of_no_comma d (.inr hmod), List.count_cons_of_ne hd, hcount]
        omega

/-! ## Grouped numerals -/

theorem ne_comma_of_mem_digits {n : Nat} {d : Char} (h : d ∈ Decimal.digits n) : d ≠ ',' := by
  rintro rfl
  exact absurd (Decimal.isDigit_of_mem_digits h) (by decide)

theorem filter_ofNat (n : Nat) : (ofNat n).toList.filter (· ≠ ',') = Decimal.digits n := by
  rw [ofNat, String.toList_ofList]
  exact filter_separate _ fun _ => ne_comma_of_mem_digits

theorem ofNat_injective {m n : Nat} (h : ofNat m = ofNat n) : m = n := by
  have hdigits : Decimal.digits m = Decimal.digits n := by
    rw [← filter_ofNat, ← filter_ofNat, h]
  have hread := Decimal.nat?_digits m
  rw [hdigits, Decimal.nat?_digits] at hread
  exact (Option.some.inj hread).symm

/-- **The grouped numeral of a number** is a group of one to three digits with groups of a comma and
three digits behind it. Without the commas it is the numeral that is written for the number, with no
leading zero. There is a comma for each three digits behind the first one, and no two numbers have
the same grouped numeral. -/
theorem ofNat_groups (n : Nat) :
    (∃ width, 1 ≤ width ∧ width ≤ 3 ∧ IsGrouped width (ofNat n).toList) ∧
      (ofNat n).toList.filter (· ≠ ',') = Decimal.digits n ∧
      Decimal.Canonical (Utf8.encode ((ofNat n).toList.filter (· ≠ ','))) n ∧
      (ofNat n).toList.count ',' = ((Decimal.digits n).length - 1) / 3 ∧
      ∀ m, ofNat m = ofNat n ↔ m = n := by
  refine ⟨⟨((Decimal.digits n).length - 1) % 3 + 1, by omega, by omega, ?_⟩, filter_ofNat n, ?_,
    ?_, fun m => ⟨ofNat_injective, fun h => h ▸ rfl⟩⟩
  · rw [ofNat, String.toList_ofList]
    exact isGrouped_separate (Decimal.digits_ne_nil n) fun _ => Decimal.isDigit_of_mem_digits
  · rw [filter_ofNat]
    exact Decimal.canonical_iff.2 rfl
  · rw [ofNat, String.toList_ofList]
    exact count_comma_separate fun _ => ne_comma_of_mem_digits

/-- Seven digits: one in front and two groups behind it. -/
example : ofNat 1234567 = "1,234,567" := by decide

end PartyInputs.Text.Grouped
