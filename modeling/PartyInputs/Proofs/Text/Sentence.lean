import PartyInputs.Proofs.Text.OneLine

/-!
# Sentences

A message is fixed words with numbers and quoted text between them. Its form is what is left when
these are taken out. Within one form the fields can be read off the text, since a number does not go
on into the words behind it and quoted text shows its end. Between forms it is enough to look at the
words in front of the first field, if none of them starts another: fields that imitate words come too
late.

* `Piece`, `Sentence.form`: **a sentence and its form**.
* `Piece.eq_of_form_eq`, `Sentence.eq_of_form_eq`: pieces and sentences of one form.
* `Sentence.Told`: forms that are told by the words that they start with.
* `Sentence.Told.eq_of_text_eq`: **sentences of such forms** are the same if they read the same, and
  `Sentence.Told.onOneLine_text`: **they stay on one line**.
* `Wording`: values put into words by such sentences.
-/

namespace PartyInputs.Text

/-- What a message is put together from. -/
inductive Piece where
  | words (text : String)
  | number (value : Int)
  | quoted (text : String)
  deriving DecidableEq

namespace Piece

/-- The characters of a piece. -/
def text : Piece → List Char
  | words text => text.toList
  | number value => Decimal.numeral value
  | quoted text => (Quoted.quote text).toList

/-- The piece with nothing filled in. -/
def form : Piece → Piece
  | words text => words text
  | number _ => number 0
  | quoted _ => quoted ""

/-- Whether what follows a piece shows where the piece ends. Only a number can go on. -/
def EndsBefore (p : Piece) (rest : List Char) : Prop :=
  match p with
  | number _ => StartsOutside Decimal.isNumeric rest
  | _ => True

/-- **Pieces of one form** are told from what follows them, and so from each other. -/
theorem eq_of_form_eq {p q : Piece} {x y : List Char} (hform : p.form = q.form)
    (hx : p.EndsBefore x) (hy : q.EndsBefore y) (h : p.text ++ x = q.text ++ y) :
    p = q ∧ x = y := by
  cases p with
  | words u =>
    cases q with
    | words v =>
      cases hform
      exact ⟨rfl, List.append_cancel_left h⟩
    | _ => cases hform
  | number i =>
    cases q with
    | number j =>
      obtain ⟨rfl, hrest⟩ := Decimal.delimited_numeral i hx hy h
      exact ⟨rfl, hrest⟩
    | _ => cases hform
  | quoted u =>
    cases q with
    | quoted v =>
      obtain ⟨rfl, hrest⟩ := Quoted.delimited_quote u trivial trivial h
      exact ⟨rfl, hrest⟩
    | _ => cases hform

end Piece

/-- Pieces one behind the other. -/
abbrev Sentence := List Piece

namespace Sentence

/-- The characters of a sentence. -/
def text (s : Sentence) : List Char := s.flatMap Piece.text

/-- The sentence with nothing filled in. -/
def form (s : Sentence) : Sentence := s.map Piece.form

theorem text_cons (p : Piece) (s : Sentence) : text (p :: s) = p.text ++ text s := rfl

/-! ## One form -/

/-- The sentence is over, or it goes on with words that no number goes on with. -/
def startsWithWords : Sentence → Bool
  | [] => true
  | .words text :: _ => text.toList.head?.any fun c => !Decimal.isNumeric c
  | _ :: _ => false

/-- Behind each number the sentence is over, or words show that the number is. -/
def isParted : Sentence → Bool
  | [] => true
  | .number _ :: rest => startsWithWords rest && isParted rest
  | _ :: rest => isParted rest

theorem startsWithWords_form (s : Sentence) : startsWithWords (form s) = startsWithWords s := by
  rcases s with _ | ⟨p, rest⟩
  · rfl
  · cases p <;> rfl

/-- What is filled in makes no difference to this. -/
theorem isParted_form (s : Sentence) : isParted (form s) = isParted s := by
  induction s with
  | nil => rfl
  | cons p rest ih =>
    cases p with
    | number value =>
      show (startsWithWords (form rest) && isParted (form rest)) = _
      rw [startsWithWords_form, ih]
      rfl
    | _ => exact ih

theorem startsOutside_text {s : Sentence} (h : startsWithWords s) :
    StartsOutside Decimal.isNumeric (text s) := by
  rcases s with _ | ⟨p, rest⟩
  · simp [StartsOutside, text]
  · cases p with
    | words u =>
      rcases hu : u.toList with _ | ⟨c, cs⟩
      · simp [startsWithWords, hu] at h
      · simpa [startsWithWords, StartsOutside, text_cons, Piece.text, hu] using h
    | _ => cases h

theorem isParted_cons {p : Piece} {s : Sentence} (h : isParted (p :: s)) :
    p.EndsBefore (text s) ∧ isParted s := by
  cases p with
  | number value =>
    obtain ⟨hwords, hrest⟩ := Bool.and_eq_true_iff.1 h
    exact ⟨startsOutside_text hwords, hrest⟩
  | _ => exact ⟨trivial, h⟩

/-- **Sentences of one form** are the same if they read the same. -/
theorem eq_of_form_eq {s t : Sentence} (hform : form s = form t) (hs : isParted s)
    (ht : isParted t) (h : text s = text t) : s = t := by
  induction s generalizing t with
  | nil => exact (List.map_eq_nil_iff.1 hform.symm).symm
  | cons p s ih =>
    rcases t with _ | ⟨q, t⟩
    · cases hform
    · obtain ⟨hpiece, hrest⟩ := List.cons.inj hform
      obtain ⟨hp, hs'⟩ := isParted_cons hs
      obtain ⟨hq, ht'⟩ := isParted_cons ht
      obtain ⟨rfl, hcut⟩ := Piece.eq_of_form_eq hpiece hp hq h
      rw [ih hrest hs' ht' hcut]

/-! ## Several forms -/

/-- The words in front of the first field, and its quote if it has one. -/
def opening : Sentence → List Char
  | .words text :: rest => text.toList ++ opening rest
  | .quoted _ :: _ => ['"']
  | _ => []

theorem opening_isPrefix (s : Sentence) : opening s <+: text s := by
  induction s with
  | nil => exact List.prefix_rfl
  | cons p rest ih =>
    cases p with
    | words u => exact (List.prefix_append_right_inj _).2 ih
    | number value => exact List.nil_prefix
    | quoted u =>
      rw [text_cons, Piece.text, Quoted.toList_quote]
      exact (List.prefix_cons_inj _).2 List.nil_prefix

theorem opening_form (s : Sentence) : opening (form s) = opening s := by
  induction s with
  | nil => rfl
  | cons p rest ih =>
    cases p with
    | words u => exact congrArg (u.toList ++ ·) ih
    | _ => rfl

/-- The characters that are the same in all sentences of a form. -/
def fixed : Sentence → List Char
  | [] => []
  | .words text :: rest => text.toList ++ fixed rest
  | _ :: rest => fixed rest

theorem fixed_form (s : Sentence) : fixed (form s) = fixed s := by
  induction s with
  | nil => rfl
  | cons p rest ih =>
    cases p with
    | words u => exact congrArg (u.toList ++ ·) ih
    | _ => exact ih

/-- A sentence stays on one line if its words do. -/
theorem onOneLine_text {s : Sentence} (h : OnOneLine (fixed s)) : OnOneLine (text s) := by
  induction s with
  | nil => exact h
  | cons p rest ih =>
    cases p with
    | words u =>
      obtain ⟨hu, hrest⟩ := List.forall_mem_append.1 h
      exact onOneLine_append hu (ih hrest)
    | number i => exact onOneLine_append (Decimal.onOneLine_numeral i) (ih h)
    | quoted u => exact onOneLine_append (Quoted.onOneLine_quote u) (ih h)

/-- Forms that are told by the words that they start with: those of none of them start with those of
another. Their numbers are parted from what stands behind them, and their words stay on one line. -/
structure Told (forms : List Sentence) : Prop where
  apart : ∀ f ∈ forms, ∀ g ∈ forms, opening f <+: opening g → f = g
  parted : ∀ f ∈ forms, isParted f
  onOneLine : ∀ f ∈ forms, OnOneLine (fixed f)

namespace Told

variable {forms : List Sentence} {s t : Sentence}

/-- **Sentences of forms that are told** are the same if they read the same. -/
theorem eq_of_text_eq (hforms : Told forms) (hs : form s ∈ forms) (ht : form t ∈ forms)
    (h : text s = text t) : s = t := by
  have hopening : opening (form s) <+: text t := by
    rw [opening_form, ← h]
    exact opening_isPrefix s
  have hopening' : opening (form t) <+: text t := by
    rw [opening_form]
    exact opening_isPrefix t
  have hform : form s = form t := by
    rcases List.prefix_or_prefix_of_prefix hopening hopening' with hprefix | hprefix
    · exact hforms.apart _ hs _ ht hprefix
    · exact (hforms.apart _ ht _ hs hprefix).symm
  have hparted := hforms.parted _ hs
  have hparted' := hforms.parted _ ht
  rw [isParted_form] at hparted hparted'
  exact eq_of_form_eq hform hparted hparted' h

/-- **They stay on one line.** -/
theorem onOneLine_text (hforms : Told forms) (hs : form s ∈ forms) : OnOneLine (text s) := by
  apply Sentence.onOneLine_text
  rw [← fixed_form]
  exact hforms.onOneLine _ hs

end Told

end Sentence

/-! ## Messages -/

/-- How values are put into words: by sentences of forms that are told, different ones for different
values. Some of the values may never be given, and then nothing is said of their sentences. -/
structure Wording (α : Type) where
  message : α → String
  sentence : α → Sentence
  Given : α → Prop
  forms : List Sentence
  toList_message : ∀ a, (message a).toList = Sentence.text (sentence a)
  sentence_injective : Function.Injective sentence
  form_mem : ∀ a, Given a → Sentence.form (sentence a) ∈ forms
  told : Sentence.Told forms

namespace Wording

variable {α : Type} (w : Wording α) {a b : α}

/-- **Values that are given** have messages of their own. -/
theorem message_inj (ha : w.Given a) (hb : w.Given b) : w.message a = w.message b ↔ a = b := by
  constructor
  · intro h
    apply w.sentence_injective
    apply w.told.eq_of_text_eq (w.form_mem a ha) (w.form_mem b hb)
    rw [← w.toList_message, ← w.toList_message, h]
  · exact congrArg w.message

/-- **Their messages** stay on one line. -/
theorem onOneLine_message (ha : w.Given a) : OnOneLine (w.message a).toList := by
  rw [w.toList_message]
  exact w.told.onOneLine_text (w.form_mem a ha)

end Wording

end PartyInputs.Text
