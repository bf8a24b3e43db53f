import Mathlib.Data.List.Infix
import PartyInputs.Command.Invocation
import PartyInputs.Proofs.Text.Numeral

/-!
# What the words of a command line say

The options and operands of a command line, said of its words and without a reader: an option has a
word of its own, a value is given in the word behind it or behind an equals sign, and behind `--`
there are no options.

* `Command.optionWord`, `Command.assignment`: the words of an option, which tell which option it is
  (`assignment_inj`) and whether they give a value (`optionWord_ne_assignment`).
* `Command.Assigns`: **the words give a value to an option**.
* `Command.Silent`: words that say nothing about an option.
* `Command.Chooses`: **what follows from the values that are given**, which is one thing
  (`Chooses.unique`).
* `Command.command?`, `Command.arguments`, `Command.operandWords`: the command, the words behind it,
  and those of them that are operands.
-/

namespace PartyInputs.Command

open Text

/-! ## Words of options -/

/-- The word of an option. -/
def optionWord (name : String) : String := "--" ++ name

/-- The word that gives a value to an option. -/
def assignment (name value : String) : String := "--" ++ name ++ "=" ++ value

@[simp] theorem toList_optionWord (name : String) :
    (optionWord name).toList = '-' :: '-' :: name.toList := by
  simp [optionWord]

@[simp] theorem toList_assignment (name value : String) :
    (assignment name value).toList = '-' :: '-' :: (name.toList ++ '=' :: value.toList) := by
  simp [assignment]

theorem optionWord_inj {a b : String} : optionWord a = optionWord b ↔ a = b := by
  rw [← String.toList_inj, ← String.toList_inj]
  simp

/-- A name is cut off in front of an equals sign, which it does not have itself. -/
theorem span_name {name : List Char} (h : '=' ∉ name) (rest : List Char) :
    (name ++ rest).takeWhile (· ≠ '=') = name ++ rest.takeWhile (· ≠ '=') ∧
      (name ++ rest).dropWhile (· ≠ '=') = rest.dropWhile (· ≠ '=') := by
  have hall : ∀ c ∈ name, decide (c ≠ '=') = true := by
    intro c hc
    rw [decide_eq_true_iff]
    exact ne_of_mem_of_not_mem hc h
  exact ⟨List.takeWhile_append_of_pos hall, List.dropWhile_append_of_pos hall⟩

theorem append_equals_inj {xs xs' ys ys' : List Char} (hxs : '=' ∉ xs) (hxs' : '=' ∉ xs') :
    xs ++ '=' :: ys = xs' ++ '=' :: ys' ↔ xs = xs' ∧ ys = ys' := by
  constructor
  · intro h
    have hfront := congrArg (List.takeWhile (· ≠ '=')) h
    rw [(span_name hxs _).1, (span_name hxs' _).1] at hfront
    obtain rfl : xs = xs' := by simpa using hfront
    simpa using h
  · rintro ⟨rfl, rfl⟩
    rfl

theorem assignment_inj {a b v w : String} (ha : '=' ∉ a.toList) (hb : '=' ∉ b.toList) :
    assignment a v = assignment b w ↔ a = b ∧ v = w := by
  rw [← String.toList_inj, toList_assignment, toList_assignment, List.cons_inj_right,
    List.cons_inj_right, append_equals_inj ha hb, String.toList_inj, String.toList_inj]

theorem optionWord_ne_assignment {a b v : String} (ha : '=' ∉ a.toList) :
    optionWord a ≠ assignment b v := by
  intro h
  apply ha
  have htail := congrArg (fun word => word.toList.drop 2) h
  simp only [toList_optionWord, toList_assignment, List.drop_succ_cons, List.drop_zero] at htail
  rw [htail]
  simp

theorem optionWord_ne_dashes {name : String} (h : name ≠ "") : optionWord name ≠ "--" := by
  intro heq
  apply h
  rw [← String.toList_inj] at heq ⊢
  simpa using heq

theorem assignment_ne_dashes {name value : String} : assignment name value ≠ "--" := by
  intro heq
  have hword := congrArg String.toList heq
  simp at hword

/-! ## Values -/

/-- The words in front of `--`. -/
def optionWords (words : List String) : List String := words.takeWhile (· ≠ "--")

@[simp] theorem optionWords_nil : optionWords [] = [] := rfl

@[simp] theorem optionWords_dashes (words : List String) : optionWords ("--" :: words) = [] := rfl

theorem optionWords_cons {word : String} (h : word ≠ "--") (words : List String) :
    optionWords (word :: words) = word :: optionWords words := by
  simp [optionWords, h]

/-- The words give a value to an option: it stands behind the word of the option, or in one word with
the name of it. -/
def Assigns (words : List String) (name value : String) : Prop :=
  [optionWord name, value] <:+: optionWords words ∨ assignment name value ∈ optionWords words

theorem not_assigns_nil {name value : String} : ¬ Assigns [] name value := by
  simp [Assigns]

theorem not_assigns_dashes {words : List String} {name value : String} :
    ¬ Assigns ("--" :: words) name value := by
  simp [Assigns]

/-- The first word gives the value itself, or it is the word of the option and the value comes
next. -/
theorem assigns_cons_iff {word : String} (h : word ≠ "--") {words : List String}
    {name value : String} :
    Assigns (word :: words) name value ↔
      word = assignment name value ∨
        (word = optionWord name ∧ (optionWords words).head? = some value) ∨
        Assigns words name value := by
  unfold Assigns
  rw [optionWords_cons h, List.infix_cons_iff, List.cons_prefix_cons, List.mem_cons,
    eq_comm (a := assignment name value), eq_comm (a := optionWord name)]
  have hhead : [value] <+: optionWords words ↔ (optionWords words).head? = some value := by
    rcases optionWords words with _ | ⟨next, rest⟩
    · simp
    · simp [List.cons_prefix_cons, eq_comm]
  rw [hhead]
  tauto

/-- The word does not say anything about an option. -/
structure Silent (word name : String) : Prop where
  ne_dashes : word ≠ "--"
  ne_optionWord : word ≠ optionWord name
  ne_assignment : ∀ value, word ≠ assignment name value

theorem assigns_cons_of_silent {word name : String} (h : Silent word name) {words : List String}
    {value : String} : Assigns (word :: words) name value ↔ Assigns words name value := by
  rw [assigns_cons_iff h.ne_dashes]
  simp [h.ne_optionWord, h.ne_assignment]

theorem ne_dashes_of_forall {word : String} (h : ∀ body, word.toList ≠ '-' :: '-' :: body) :
    word ≠ "--" := by
  rintro rfl
  exact h [] rfl

theorem silent_of_forall {word name : String} (h : ∀ body, word.toList ≠ '-' :: '-' :: body) :
    Silent word name where
  ne_dashes := ne_dashes_of_forall h
  ne_optionWord := by rintro rfl; exact h _ (toList_optionWord name)
  ne_assignment := by rintro value rfl; exact h _ (toList_assignment name value)

theorem silent_optionWord {name other : String} (hname : name ≠ "") (hequals : '=' ∉ name.toList)
    (hne : name ≠ other) : Silent (optionWord name) other where
  ne_dashes := optionWord_ne_dashes hname
  ne_optionWord := mt optionWord_inj.1 hne
  ne_assignment _ := optionWord_ne_assignment hequals

theorem silent_assignment {name other value : String} (hequals : '=' ∉ name.toList)
    (hother : '=' ∉ other.toList) (hne : name ≠ other) : Silent (assignment name value) other where
  ne_dashes := assignment_ne_dashes
  ne_optionWord := (optionWord_ne_assignment hother).symm
  ne_assignment _ h := hne ((assignment_inj hequals hother).1 h).1

/-- What follows from the values that are given: what any of them says, and something else if there
is none. -/
structure Chooses {α : Type} (Given : String → Prop) (Says : String → α → Prop)
    (otherwise found : α) : Prop where
  given : ∀ value, Given value → Says value found
  missing : (∀ value, ¬ Given value) → found = otherwise

namespace Chooses

variable {α β : Type} {Given : String → Prop} {Says : String → α → Prop} {otherwise found : α}

/-- **One thing follows**, if values say one thing. -/
theorem unique {found' : α} (hsaid : ∀ value a b, Says value a → Says value b → a = b)
    (h : Chooses Given Says otherwise found) (h' : Chooses Given Says otherwise found') :
    found = found' := by
  by_cases hvalue : ∃ value, Given value
  · obtain ⟨value, hvalue⟩ := hvalue
    exact hsaid value _ _ (h.given value hvalue) (h'.given value hvalue)
  · rw [not_exists] at hvalue
    rw [h.missing hvalue, h'.missing hvalue]

theorem congr {Given' : String → Prop} (hgiven : ∀ value, Given value ↔ Given' value)
    (h : Chooses Given Says otherwise found) : Chooses Given' Says otherwise found where
  given value hvalue := h.given value ((hgiven value).2 hvalue)
  missing hno := h.missing fun value hvalue => hno value ((hgiven value).1 hvalue)

theorem map {Says' : String → β → Prop} (f : α → β)
    (hsaid : ∀ value a, Says value a → Says' value (f a))
    (h : Chooses Given Says otherwise found) : Chooses Given Says' (f otherwise) (f found) where
  given value hvalue := hsaid value found (h.given value hvalue)
  missing hno := congrArg f (h.missing hno)

end Chooses

/-- The value is a numeral of the integer. -/
def SaysInteger (value : String) (i : Int64) : Prop := Decimal.Denotes (Utf8.ofString value) i.toInt

theorem SaysInteger.unique {value : String} {i j : Int64} (h : SaysInteger value i)
    (h' : SaysInteger value j) : i = j :=
  Int64.toInt_inj.1 (Decimal.Denotes.unique h h')

theorem int64?_eq_some_iff_saysInteger {value : String} {i : Int64} :
    Decimal.int64? value.toList = some i ↔ SaysInteger value i :=
  Decimal.int64?_eq_some_iff

/-! ## The command and its operands -/

/-- The word starts with a dash and goes on. -/
def IsDashed (word : String) : Prop := word.toList.head? = some '-' ∧ word ≠ "-"

instance (word : String) : Decidable (IsDashed word) := inferInstanceAs (Decidable (_ ∧ _))

theorem isDashed_iff {word : String} :
    IsDashed word ↔ ∃ c letters, word.toList = '-' :: c :: letters := by
  rw [IsDashed, List.head?_eq_some_iff, ← String.toList_inj.ne]
  constructor
  · rintro ⟨⟨_ | ⟨c, letters⟩, hword⟩, hne⟩
    · exact absurd hword hne
    · exact ⟨c, letters, hword⟩
  · rintro ⟨c, letters, hword⟩
    rw [hword]
    exact ⟨⟨_, rfl⟩, by simp⟩

@[simp] theorem isDashed_optionWord (name : String) : IsDashed (optionWord name) :=
  isDashed_iff.2 ⟨_, _, toList_optionWord name⟩

@[simp] theorem isDashed_assignment (name value : String) : IsDashed (assignment name value) :=
  isDashed_iff.2 ⟨_, _, toList_assignment name value⟩

theorem silent_of_not_isDashed {word name : String} (h : ¬ IsDashed word) : Silent word name :=
  silent_of_forall fun _ hword => h (isDashed_iff.2 ⟨_, _, hword⟩)

/-- The command of a line: the first word that does not start with a dash. -/
def command? (words : List String) : Option String := words.find? (¬ IsDashed ·)

/-- The words behind the command. -/
def arguments (words : List String) : List String := (words.dropWhile (IsDashed ·)).tail

/-- The words that are operands: those behind `--`, and in front of it those that neither start with
a dash nor are the values of options. The options of the names `taking` have values. -/
def operandWords (taking : List String) (isValue : Bool) : List String → List String
  | [] => []
  | word :: words =>
    if word = "--" then words
    else if isValue then operandWords taking false words
    else if IsDashed word then operandWords taking (word ∈ taking.map optionWord) words
    else word :: operandWords taking false words

variable {taking : List String} {word : String}

@[simp] theorem operandWords_nil (isValue : Bool) : operandWords taking isValue [] = [] := rfl

@[simp] theorem operandWords_dashes (isValue : Bool) (words : List String) :
    operandWords taking isValue ("--" :: words) = words := rfl

theorem operandWords_value (h : word ≠ "--") (words : List String) :
    operandWords taking true (word :: words) = operandWords taking false words := by
  simp [operandWords, h]

theorem operandWords_of_isDashed (h : IsDashed word) (hne : word ≠ "--") (words : List String) :
    operandWords taking false (word :: words) =
      operandWords taking (word ∈ taking.map optionWord) words := by
  simp [operandWords, h, hne]

theorem operandWords_of_not_isDashed (h : ¬ IsDashed word) (words : List String) :
    operandWords taking false (word :: words) = word :: operandWords taking false words := by
  have hne : word ≠ "--" := by
    rintro rfl
    exact h (by decide)
  simp [operandWords, h, hne]

/-- Without operands there is nothing behind `--`. -/
theorem mem_optionWords_iff {isValue : Bool} {words : List String}
    (h : operandWords taking isValue words = []) (hne : word ≠ "--") :
    word ∈ optionWords words ↔ word ∈ words := by
  induction words generalizing isValue with
  | nil => rfl
  | cons first words ih =>
    by_cases hfirst : first = "--"
    · rw [hfirst, operandWords_dashes] at h
      simp [hfirst, h, hne]
    · have hrest : ∃ isValue, operandWords taking isValue words = [] := by
        rcases isValue with _ | _
        · by_cases hdashed : IsDashed first
          · rw [operandWords_of_isDashed hdashed hfirst] at h
            exact ⟨_, h⟩
          · rw [operandWords_of_not_isDashed hdashed] at h
            cases h
        · rw [operandWords_value hfirst] at h
          exact ⟨_, h⟩
      obtain ⟨_, hrest⟩ := hrest
      rw [optionWords_cons hfirst, List.mem_cons, List.mem_cons, ih hrest]

end PartyInputs.Command
