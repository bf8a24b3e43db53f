import Mathlib.Logic.Function.Basic
import PartyInputs.Text.Decimal

/-!
# Where a written value ends

A text that several values were written into can be taken apart again if it can be told of each of
them where it ends. A numeral ends in front of the first character that no numeral has; a text in
quotes ends at the first quote that is not escaped. So a value is told from what follows it: two
texts that are the same start with the same value, and what follows is the same too.

* `DelimitedAt`, `Delimited`: **values that are told from what follows them**.
* `Delimited.of_run`: a run of characters of one class ends with the class.
* `delimitedAt_flatMap_mark`: pieces that are told apart, up to a mark that none of them starts with.
* `Decimal.delimited_numeral`: numerals.
-/

namespace PartyInputs.Text

variable {α : Type}

/-- The value `a` is told from what follows it: a text that starts with `a`, and with something of
the kind that is meant behind it, starts so with no other value. -/
def DelimitedAt (follows : List Char → Prop) (write : α → List Char) (a : α) : Prop :=
  ∀ ⦃b : α⦄ ⦃x y : List Char⦄, follows x → follows y → write a ++ x = write b ++ y → a = b ∧ x = y

/-- Written values are told from what follows them. -/
def Delimited (follows : List Char → Prop) (write : α → List Char) : Prop :=
  ∀ a, DelimitedAt follows write a

/-- Anything may follow. -/
def Anything (_ : List Char) : Prop := True

/-- What follows does not start with a character of the class. -/
def StartsOutside (p : Char → Bool) (text : List Char) : Prop := ∀ c ∈ text.head?, p c = false

namespace Delimited

variable {follows : List Char → Prop} {write : α → List Char}

/-- Values that are told from nothing at all are told from each other. -/
theorem injective (h : Delimited follows write) (hnil : follows []) : Function.Injective write := by
  intro a b heq
  have htext : write a ++ [] = write b ++ [] := congrArg (· ++ []) heq
  exact (h a hnil hnil htext).1

/-- What is written for a part that makes up the whole value. -/
theorem comp (h : Delimited follows write) {β : Type} {part : β → α}
    (hinj : Function.Injective part) : Delimited follows fun b => write (part b) := by
  intro b b' x y hx hy heq
  obtain ⟨hpart, hrest⟩ := h _ hx hy heq
  exact ⟨hinj hpart, hrest⟩

/-- **A run of characters of one class** ends in front of the first character outside of it. -/
theorem of_run {p : Char → Bool} (hrun : ∀ a, ∀ c ∈ write a, p c) (hinj : Function.Injective write) :
    Delimited (StartsOutside p) write := by
  have htake : ∀ {a x}, StartsOutside p x → (write a ++ x).takeWhile p = write a := by
    intro a x hx
    rw [List.takeWhile_append_of_pos (hrun a)]
    rcases x with _ | ⟨c, x⟩
    · simp
    · rw [List.takeWhile_cons_of_neg (by simpa using hx c rfl), List.append_nil]
  intro a b x y hx hy heq
  have hrun' : write a = write b := by rw [← htake hx, heq, htake hy]
  rw [hrun'] at heq
  exact ⟨hinj hrun', List.append_cancel_left heq⟩

end Delimited

section Lists

variable {follows : List Char → Prop} {write : α → List Char} {mark : Char}

/-- **Pieces one behind the other**, up to a mark. No piece starts with the mark, so it is known
where the last of them ends. -/
theorem delimitedAt_flatMap_mark {as : List α} (h : ∀ a ∈ as, DelimitedAt follows write a)
    (hmark : ∀ a, ∃ c rest, write a = c :: rest ∧ c ≠ mark)
    (hpiece : ∀ a x, follows (write a ++ x)) (hend : ∀ x, follows (mark :: x)) :
    DelimitedAt Anything (fun list : List α => list.flatMap write ++ [mark]) as := by
  have hne : ∀ a x y, write a ++ x ≠ mark :: y := by
    intro a x y heq
    obtain ⟨c, rest, hwrite, hc⟩ := hmark a
    rw [hwrite] at heq
    exact hc (List.cons.inj heq).1
  -- behind a piece there is the next one or the mark
  have hfollows : ∀ (list : List α) x, follows (list.flatMap write ++ mark :: x) := by
    intro list x
    cases list with
    | nil => exact hend x
    | cons a list =>
      rw [List.flatMap_cons, List.append_assoc]
      exact hpiece a _
  intro bs x y _ _ heq
  simp only [List.append_assoc, List.singleton_append] at heq
  induction as generalizing bs with
  | nil =>
    cases bs with
    | nil => exact ⟨rfl, (List.cons.inj heq).2⟩
    | cons b bs =>
      rw [List.flatMap_cons, List.append_assoc] at heq
      exact absurd heq.symm (hne _ _ _)
  | cons a as ih =>
    rw [List.flatMap_cons, List.append_assoc] at heq
    cases bs with
    | nil => exact absurd heq (hne _ _ _)
    | cons b bs =>
      rw [List.flatMap_cons, List.append_assoc] at heq
      obtain ⟨rfl, hrest⟩ := h a List.mem_cons_self (hfollows as x) (hfollows bs y) heq
      obtain ⟨rfl, hlast⟩ := ih (fun a ha => h a (List.mem_cons_of_mem _ ha)) hrest
      exact ⟨rfl, hlast⟩

end Lists

/-! ## Numerals -/

namespace Decimal

/-- The characters of numerals. -/
def isNumeric (c : Char) : Bool := c = '-' || c.isDigit

theorem isNumeric_of_mem_numeral {i : Int} {c : Char} (h : c ∈ numeral i) : isNumeric c := by
  have hdigits : ∀ {n}, c ∈ digits n → isNumeric c := by
    intro n hc
    simp [isNumeric, isDigit_of_mem_digits hc]
  cases i with
  | ofNat n => exact hdigits h
  | negSucc n =>
    rcases List.mem_cons.1 h with rfl | hc
    · rfl
    · exact hdigits hc

theorem numeral_injective : Function.Injective numeral := by
  intro i j h
  apply Option.some.inj
  rw [← int?_numeral i, h, int?_numeral]

/-- **A numeral ends** in front of the first character that no numeral has. -/
theorem delimited_numeral : Delimited (StartsOutside isNumeric) numeral :=
  .of_run (fun _ _ => isNumeric_of_mem_numeral) numeral_injective

end Decimal

end PartyInputs.Text
