import Mathlib.Tactic.SplitIfs
import PartyInputs.Proofs.Text.Delimited
import PartyInputs.Text.Json
import PartyInputs.Text.Quoted

/-!
# Text in quotes

Text is put in quotes in two ways, one for messages and one for reports. In both of them a character
stands for itself or is escaped, by a letter behind a backslash or by a code behind `\u`. Which of
these it is shows in the first two characters, and an escaped quote does not start with a quote. So
whatever the text looks like, its characters and its end can be told.

* `Hexadecimal.toDigits_injective`: numbers in hexadecimal digits.
* `Escapes`: **what the two ways have in common**, and `Escapes.Writes`: a character written in one.
* `Escapes.delimited`: characters are told apart, and `Escapes.delimited_enclosed`: so are texts.
* `Quoted.delimited_quote`, `Json.delimited_renderString`: **the two ways**.
-/

namespace PartyInputs.Text

/-! ## Hexadecimal digits -/

namespace Hexadecimal

theorem digitChar_inj : ∀ m < 16, ∀ n < 16, m.digitChar = n.digitChar → m = n := by
  decide

theorem exists_of_mem_toDigits {n : Nat} {c : Char} (h : c ∈ Nat.toDigits 16 n) :
    ∃ d < 16, c = d.digitChar := by
  induction n using Nat.strongRecOn with
  | _ n ih =>
    rw [Nat.toDigits_eq_if (by decide)] at h
    split at h
    · rename_i hlt
      exact ⟨n, hlt, List.mem_singleton.1 h⟩
    · rcases List.mem_append.1 h with h | h
      · exact ih (n / 16) (by omega) h
      · exact ⟨n % 16, Nat.mod_lt n (by decide), List.mem_singleton.1 h⟩

/-- A number is known by its hexadecimal digits. -/
theorem toDigits_injective : Function.Injective (Nat.toDigits 16) := by
  intro m
  induction m using Nat.strongRecOn with
  | _ m ih =>
    intro n h
    rw [Nat.toDigits_eq_if (by decide), Nat.toDigits_eq_if (n := n) (by decide)] at h
    have hne : ∀ k, Nat.toDigits 16 k ≠ [] := fun _ => Nat.toDigits_ne_nil
    split at h
    · rename_i hm
      split at h
      · rename_i hn
        exact digitChar_inj m hm n hn (List.singleton_inj.1 h)
      · -- one digit against two or more
        simp [List.singleton_eq_append_iff, hne] at h
    · rename_i hm
      split at h
      · simp [List.append_eq_singleton_iff, hne] at h
      · obtain ⟨hfront, hlast⟩ := List.append_inj' h rfl
        have hquotient := ih (m / 16) (by omega) hfront
        have hremainder := digitChar_inj (m % 16) (Nat.mod_lt m (by decide)) (n % 16)
          (Nat.mod_lt n (by decide)) (List.singleton_inj.1 hlast)
        omega

end Hexadecimal

/-! ## Escapes -/

/-- A way of escaping characters: some have a letter that stands behind a backslash, and some are
written by a code that stands behind `\u`. -/
structure Escapes where
  /-- The characters that have a letter, with their letters. -/
  letters : List (Char × Char)
  /-- The characters that a code is for. -/
  Coded : Char → Prop
  /-- The code of a character. -/
  code : Char → List Char
  letters_inj : ∀ p ∈ letters, ∀ q ∈ letters, p.2 = q.2 → p.1 = q.1
  letters_ne : ∀ p ∈ letters, p.2 ≠ 'u'
  code_inj : ∀ {c d x y}, Coded c → Coded d → code c ++ x = code d ++ y → c = d ∧ x = y

namespace Escapes

variable {e : Escapes} {escape : Char → List Char}

/-- What a character is written as. -/
inductive Writes (e : Escapes) (c : Char) : List Char → Prop where
  | letter {l : Char} : (c, l) ∈ e.letters → e.Writes c ['\\', l]
  | code : e.Coded c → e.Writes c ('\\' :: 'u' :: e.code c)
  | itself : c ≠ '\\' → c ≠ '"' → e.Writes c [c]

/-- No character is written with a quote in front. -/
theorem Writes.head_ne {c : Char} {text : List Char} (h : e.Writes c text) :
    ∃ d rest, text = d :: rest ∧ d ≠ '"' := by
  cases h with
  | letter => exact ⟨_, _, rfl, by decide⟩
  | code => exact ⟨_, _, rfl, by decide⟩
  | itself _ hne => exact ⟨_, _, rfl, hne⟩

/-- **Characters are told apart**, whatever follows them. -/
theorem delimited (h : ∀ c, e.Writes c (escape c)) : Delimited Anything escape := by
  intro c d x y _ _ heq
  have hc := h c
  have hd := h d
  generalize escape c = s at hc heq
  generalize escape d = t at hd heq
  cases hc with
  | letter hl =>
    cases hd with
    | letter hl' =>
      simp only [List.cons_append, List.nil_append, List.cons.injEq, true_and] at heq
      exact ⟨e.letters_inj _ hl _ hl' heq.1, heq.2⟩
    | code => exact absurd (List.cons.inj (List.cons.inj heq).2).1 (e.letters_ne _ hl)
    | itself hne => exact absurd (List.cons.inj heq).1.symm hne
  | code hcoded =>
    cases hd with
    | letter hl => exact absurd (List.cons.inj (List.cons.inj heq).2).1.symm (e.letters_ne _ hl)
    | code hcoded' =>
      simp only [List.cons_append, List.cons.injEq, true_and] at heq
      exact e.code_inj hcoded hcoded' heq
    | itself hne => exact absurd (List.cons.inj heq).1.symm hne
  | itself hne =>
    cases hd with
    | letter => exact absurd (List.cons.inj heq).1 hne
    | code => exact absurd (List.cons.inj heq).1 hne
    | itself => exact List.cons.inj heq

/-- **Texts in quotes are told apart**, whatever follows them. -/
theorem delimited_enclosed (h : ∀ c, e.Writes c (escape c)) :
    Delimited Anything fun text : String => '"' :: text.toList.flatMap escape ++ ['"'] := by
  have hinner : Delimited Anything fun cs : List Char => cs.flatMap escape ++ ['"'] := by
    intro cs
    apply delimitedAt_flatMap_mark (fun c _ => delimited h c) fun c => (h c).head_ne
    · exact fun _ _ => trivial
    · exact fun _ => trivial
  intro s t x y hx hy heq
  exact hinner.comp (fun _ _ => String.toList_injective) s hx hy (List.cons.inj heq).2

end Escapes

/-! ## In messages -/

namespace Quoted

/-- The code of a character in braces. -/
def bracedCode (c : Char) : List Char := '\x7b' :: codePoint c ++ ['\x7d']

/-- The digits of a code end at the brace. -/
theorem delimited_codePoint : Delimited (StartsOutside (· ≠ '\x7d')) codePoint := by
  apply Delimited.of_run
  · intro c d hd
    obtain ⟨n, hn, rfl⟩ := Hexadecimal.exists_of_mem_toDigits hd
    have hbrace : ∀ n < 16, n.digitChar ≠ '\x7d' := by decide
    exact decide_eq_true (hbrace n hn)
  · intro c d h
    exact Char.toNat_inj.1 (Hexadecimal.toDigits_injective h)

theorem bracedCode_inj {c d : Char} {x y : List Char} (h : bracedCode c ++ x = bracedCode d ++ y) :
    c = d ∧ x = y := by
  simp only [bracedCode, List.cons_append, List.append_assoc, List.nil_append] at h
  have hbrace : ∀ z, StartsOutside (· ≠ '\x7d') ('\x7d' :: z) := by simp [StartsOutside]
  obtain ⟨rfl, hrest⟩ := delimited_codePoint c (hbrace x) (hbrace y) (List.cons.inj h).2
  exact ⟨rfl, (List.cons.inj hrest).2⟩

/-- How characters are escaped in messages. -/
def escapes : Escapes where
  letters := [('\x00', '0'), ('\t', 't'), ('\r', 'r'), ('\n', 'n'), ('\\', '\\'), ('"', '"')]
  Coded _ := True
  code := bracedCode
  letters_inj := by decide
  letters_ne := by decide
  code_inj _ _ := bracedCode_inj

theorem writes_escape (c : Char) : escapes.Writes c (escape c) := by
  unfold escape
  split_ifs
  any_goals exact .letter (by simp [escapes, *])
  · exact .code trivial
  · exact .itself ‹_› ‹_›

/-- **Quoted text is told from what follows it.** -/
theorem delimited_quote : Delimited Anything fun text => (quote text).toList := by
  simp only [toList_quote]
  exact Escapes.delimited_enclosed writes_escape

end Quoted

/-! ## In reports -/

namespace Json

/-- The code of a control character: four digits. -/
def fourDigits (c : Char) : List Char :=
  ['0', '0', Nat.digitChar (c.toNat / 16), Nat.digitChar (c.toNat % 16)]

theorem fourDigits_inj {c d : Char} {x y : List Char} (hc : c.toNat < 0x20) (hd : d.toNat < 0x20)
    (h : fourDigits c ++ x = fourDigits d ++ y) : c = d ∧ x = y := by
  simp only [fourDigits, List.cons_append, List.nil_append, List.cons.injEq, true_and] at h
  obtain ⟨hhigh, hlow, hrest⟩ := h
  have hquotient := Hexadecimal.digitChar_inj _ (by omega) _ (by omega) hhigh
  have hremainder := Hexadecimal.digitChar_inj _ (by omega) _ (by omega) hlow
  exact ⟨Char.toNat_inj.1 (by omega), hrest⟩

/-- How characters are escaped in reports. -/
def escapes : Escapes where
  letters := [('"', '"'), ('\\', '\\'), ('\x08', 'b'), ('\t', 't'), ('\n', 'n'), ('\x0c', 'f'),
    ('\r', 'r')]
  Coded c := c.toNat < 0x20
  code := fourDigits
  letters_inj := by decide
  letters_ne := by decide
  code_inj := fourDigits_inj

theorem writes_escape (c : Char) : escapes.Writes c (escape c) := by
  unfold escape
  split_ifs with hquote hbackslash _ _ _ _ _ hcoded
  any_goals exact .letter (by simp [escapes, *])
  · exact .code hcoded
  · exact .itself hbackslash hquote

/-- **A string of a report is told from what follows it.** -/
theorem delimited_renderString : Delimited Anything renderString :=
  Escapes.delimited_enclosed writes_escape

end Json

end PartyInputs.Text
