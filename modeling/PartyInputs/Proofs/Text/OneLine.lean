import Mathlib.Tactic.SplitIfs
import PartyInputs.Proofs.Text.Escaping

/-!
# Text that stays on one line

A message is shown on a line of its own and a log keeps one event a line, so a character that breaks
the line, or that a terminal acts upon, must not get into it from outside. What is shown of a text in
quotes are the characters that are seen as themselves and, for all others, a few of ASCII.

* `OnOneLine`: no character of a text breaks the line or controls anything.
* `Quoted.not_isControl_of_shown`: what is not hidden does neither.
* `Quoted.onOneLine_quote`: **quoted text stays on one line**.
-/

namespace PartyInputs.Text

/-- The control characters. -/
def IsControl (c : Char) : Prop := c.toNat < 0x20 ∨ 0x7f ≤ c.toNat ∧ c.toNat < 0xa0

/-- The separators of lines and of paragraphs, which are no control characters. -/
def IsSeparator (c : Char) : Prop := 0x2028 ≤ c.toNat ∧ c.toNat ≤ 0x2029

instance (c : Char) : Decidable (IsControl c) := inferInstanceAs (Decidable (_ ∨ _))

instance (c : Char) : Decidable (IsSeparator c) := inferInstanceAs (Decidable (_ ∧ _))

/-- No character breaks the line, and none is a control character of another kind. -/
def OnOneLine (text : List Char) : Prop := ∀ c ∈ text, ¬ IsControl c ∧ ¬ IsSeparator c

instance (text : List Char) : Decidable (OnOneLine text) := List.decidableBAll _ text

theorem onOneLine_append {s t : List Char} (hs : OnOneLine s) (ht : OnOneLine t) :
    OnOneLine (s ++ t) :=
  List.forall_mem_append.2 ⟨hs, ht⟩

theorem onOneLine_flatMap {α : Type} {write : α → List Char} {list : List α}
    (h : ∀ a ∈ list, OnOneLine (write a)) : OnOneLine (list.flatMap write) := by
  intro c hc
  obtain ⟨a, ha, hc⟩ := List.mem_flatMap.1 hc
  exact h a ha c hc

theorem Decimal.onOneLine_numeral (i : Int) : OnOneLine (numeral i) := by
  intro c hc
  have hnumeric := isNumeric_of_mem_numeral hc
  simp only [isNumeric, Bool.or_eq_true, decide_eq_true_eq] at hnumeric
  rcases hnumeric with rfl | hdigit
  · decide
  · obtain ⟨hlo, hhi⟩ := Char.isDigit_iff_toNat.1 hdigit
    simp only [Char.reduceToNat] at hlo hhi
    unfold IsControl IsSeparator
    omega

namespace Quoted

/-! ## Quoted text -/

/-- What lies in one of the ranges is unprinted. -/
theorem isUnprinted_of_mem {c : Char} {range : Nat × Nat} (hmem : range ∈ Unicode.unprinted)
    (hlo : range.1 ≤ c.toNat) (hhi : c.toNat ≤ range.2) : Unicode.isUnprinted c := by
  apply List.any_eq_true.2
  exact ⟨range, hmem, by simp [hlo, hhi]⟩

theorem mem_unprinted :
    ∀ range ∈ [(0x0000, 0x0020), (0x007f, 0x00a0), (0x2028, 0x202f)], range ∈ Unicode.unprinted := by
  decide +kernel

/-- Control characters and separators are unprinted. -/
theorem isUnprinted_of_isControl {c : Char} (h : IsControl c ∨ IsSeparator c) :
    Unicode.isUnprinted c := by
  rcases h with (h | ⟨hlo, hhi⟩) | ⟨hlo, hhi⟩
  · exact isUnprinted_of_mem (mem_unprinted (0x0000, 0x0020) (by simp)) (Nat.zero_le _)
      (Nat.le_of_lt h)
  · exact isUnprinted_of_mem (mem_unprinted (0x007f, 0x00a0) (by simp)) hlo (Nat.le_of_lt hhi)
  · exact isUnprinted_of_mem (mem_unprinted (0x2028, 0x202f) (by simp)) hlo
      (Nat.le_trans hhi (by decide))

/-- **What is not hidden** is no control character and no separator. -/
theorem not_isControl_of_shown {c : Char} (h : isHidden c = false) :
    ¬ IsControl c ∧ ¬ IsSeparator c := by
  by_cases hspace : c = ' '
  · subst hspace
    decide
  · rw [← not_or]
    intro hcontrol
    simp [isHidden, hspace, isUnprinted_of_isControl hcontrol] at h

theorem onOneLine_codePoint (c : Char) : OnOneLine (codePoint c) := by
  intro d hd
  obtain ⟨n, hn, rfl⟩ := Hexadecimal.exists_of_mem_toDigits hd
  have hdigits : ∀ n < 16, ¬ IsControl n.digitChar ∧ ¬ IsSeparator n.digitChar := by decide
  exact hdigits n hn

/-- Whatever is written for a character stays on the line. -/
theorem onOneLine_escape (c : Char) : OnOneLine (escape c) := by
  unfold escape
  split_ifs with _ _ _ _ _ _ hhidden
  any_goals decide
  · apply onOneLine_append _ (by decide)
    exact onOneLine_append (by decide) (onOneLine_codePoint c)
  · simpa [OnOneLine] using not_isControl_of_shown (Bool.eq_false_iff.2 hhidden)

/-- **Quoted text stays on one line**, whatever the text is. -/
theorem onOneLine_quote (text : String) : OnOneLine (quote text).toList := by
  rw [toList_quote]
  apply onOneLine_append _ (by decide)
  apply onOneLine_append (s := ['"']) (by decide)
  exact onOneLine_flatMap fun c _ => onOneLine_escape c

end Quoted

end PartyInputs.Text
