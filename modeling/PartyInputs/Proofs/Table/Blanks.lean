import PartyInputs.Proofs.Text.Octets
import PartyInputs.Table.Encoding
import PartyInputs.Table.Reading

/-!
# The octets that cut a file

Lines end at line feeds, and tokens at blanks, of which a line feed is one. Both are classes of
ASCII characters, so a file can be cut before it is decoded.

* `Table.isBlankOctet`: the blanks as octets.
* `Table.asciiClass_isBlank`, `Table.asciiClass_lineFeed`: they are the blanks and the line feed
  of the text.
-/

namespace PartyInputs.Table

open Text

/-- Blanks as octets: space, tab, line feed, form feed and carriage return. -/
def isBlankOctet (o : UInt8) : Bool := o ∈ [0x20, 0x09, 0x0a, 0x0c, 0x0d]

theorem isBlankOctet_terminator : isBlankOctet terminator = true := by decide

theorem asciiClass_isBlank : Utf8.AsciiClass isBlank isBlankOctet where
  agree := by decide
  char := by
    intro c hc
    refine Bool.eq_false_iff.2 fun h => ?_
    simp only [isBlank, Bool.or_eq_true, decide_eq_true_eq] at h
    rcases h with (((rfl | rfl) | rfl) | rfl) | rfl <;> revert hc <;> decide
  octet := by
    intro o ho
    refine Bool.eq_false_iff.2 fun h => ?_
    simp only [isBlankOctet, decide_eq_true_eq, List.mem_cons,
      List.not_mem_nil, or_false] at h
    rcases h with rfl | rfl | rfl | rfl | rfl <;> revert ho <;> decide

theorem asciiClass_lineFeed : Utf8.AsciiClass (· == '\n') (· == terminator) where
  agree := by decide
  char := by
    intro c hc
    rw [beq_eq_false_iff_ne]
    rintro rfl
    revert hc
    decide
  octet := by
    intro o ho
    rw [beq_eq_false_iff_ne]
    rintro rfl
    revert ho
    decide

end PartyInputs.Table
